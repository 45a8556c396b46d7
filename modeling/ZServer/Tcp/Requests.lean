/-
  ZServer.Tcp.Requests

  `src/tcp.c`: the calls a service makes, each of which posts a request to the
  event loop, the handlers of these requests, and the steps of the whole: a call
  of a service, the event loop taking the next request, and a file event.
-/

import ZServer.Tcp.Socket

namespace ZServer.Tcp

open Lib

-- ============================================================================
-- Calls of a service
-- ============================================================================

/-- `emPush` fails when the queue is full.  The call returns `id` or -1. -/
def tcpPostRequest (w : World) (id : Int) (req : TcpRequest) (full : Bool) :
    Option (World × Int) :=
  if full then (tcpRecoverId w id).map fun w => (w, -1)
  else some ({ w with em := w.em ++ [req] }, id)

/-- `snprintf(req->addr, 32, "%s", addr)` -/
def snprintfAddr (addr : String) : String := String.ofList (addr.toList.take 31)

def tcpSocketListen (w : World) (fromId protoType : Int) (addr : String) (port : Int)
    (full : Bool) : Option (World × Int) := do
  let (w, id) ← tcpGetReserveId w
  tcpPostRequest w id (.listen fromId id protoType (snprintfAddr addr) port) full

def tcpSocketStart (w : World) (fromId id : Int) (full : Bool) : Option (World × Int) :=
  tcpPostRequest w id (.start fromId id) full

def tcpSocketConnect (w : World) (fromId protoType : Int) (addr : String) (port : Int)
    (full : Bool) : Option (World × Int) := do
  let (w, id) ← tcpGetReserveId w
  tcpPostRequest w id (.connect fromId id protoType (snprintfAddr addr) port) full

def tcpSocketAsyncConnect (w : World) (fromId protoType : Int) (addr : String) (port : Int)
    (full : Bool) : Option (World × Int) := do
  let (w, id) ← tcpGetReserveId w
  tcpPostRequest w id (.asyncConnect fromId id protoType (snprintfAddr addr) port) full

def tcpSocketClose (w : World) (fromId id : Int) (full : Bool) : Option (World × Int) :=
  tcpPostRequest w id (.close fromId id) full

def tcpSocketSend (w : World) (fromId : Int) (ids : List Int) (data : Option (List UInt8))
    (full : Bool) : Option (World × Int) :=
  tcpPostRequest w (-1) (.send fromId ids data) full

def tcpStop (w : World) (full : Bool) : Option (World × Int) := tcpPostRequest w (-1) .stop full

-- ============================================================================
-- Handlers of requests
-- ============================================================================

def handleTcpSocketListen (w : World) (fromId id protoType : Int) (addr : String) (port : Int)
    (k : Kernel) : Option World :=
  if k.fd = -1 then
    some (tcpError w fromId id
      ("listen on (" ++ addr ++ ":" ++ toString port ++ ") fail, " ++ k.neterr))
  else do
    let w ← w.openFd k.fd
    match tcpGetSocket w id with
    | none =>
        return tcpError w fromId id
          ("listen on (" ++ addr ++ ":" ++ toString port ++ ") fail, id not found")
    | some i =>
        return w.modify i fun s =>
          { s with
            state := .kSocketConnecting, type := .kAcceptType, fd := k.fd, protoType := protoType }

/-- `socketAccept` or `socketStart`, by the type of the slot; another type gives
    `ret = -1`. -/
def startByType (w : World) (i : Nat) (registered : Bool) : Option (World × Bool) :=
  match (w.sockets i).type with
  | .kAcceptType => socketAccept w i registered
  | .kSocketType | .kConnectType =>
      (socketStart w i registered).map fun r =>
        if r.2 then
          (r.1.record (.started (w.sockets i).id (w.sockets i).fd (w.sockets i).fromId), true)
        else r
  | _ => some (w, false)

def handleTcpSocketStart (w : World) (fromId id : Int) (k : Kernel) : Option World :=
  match tcpGetSocket w id with
  | none =>
      some (tcpError w fromId id ("start sockfd (" ++ toString id ++ ") fail, id not found"))
  | some i =>
      if (w.sockets i).state ≠ .kSocketConnecting then
        some (tcpError w fromId id
          ("start sockfd (" ++ toString id ++ ") fail, state is(" ++
            toString (w.sockets i).state.code ++ ")"))
      else do
        let w := w.modify i fun s => { s with fromId := fromId }
        let (w, started) ← startByType w i k.registered
        if started then return w
        else
          let w ← socketStop w i
          return tcpError w fromId id ("start sockfd (" ++ toString id ++ ") fail")

def handleTcpSocketConnect (w : World) (fromId id protoType : Int) (addr : String) (port : Int)
    (k : Kernel) : Option World :=
  match tcpGetSocket w id with
  | none =>
      some (tcpError w fromId id ("connect sockfd (" ++ toString id ++ ") fail, id not found"))
  | some i =>
      if k.fd = -1 then
        some (tcpError w fromId id
          ("connect (" ++ addr ++ ":" ++ toString port ++ ") fail, " ++ k.neterr))
      else do
        let w ← w.openFd k.fd
        return w.modify i fun s =>
          { s with
            type := .kConnectType, protoType := protoType, state := .kSocketConnecting, fd := k.fd }

def handleTcpSocketAsyncConnect (w : World) (fromId id protoType : Int) (addr : String)
    (port : Int) (k : Kernel) : Option World :=
  match tcpGetSocket w id with
  | none =>
      some (tcpError w fromId id ("asyncconnect sockfd (" ++ toString id ++ ") fail, id not found"))
  | some i => do
      let w := w.modify i fun s => { s with fromId := fromId }
      let w ← (if k.fd = -1 then some w else w.openFd k.fd)
      if k.fd = -1 ∨ k.errno ≠ EINPROGRESS then
        let w ← tcpRecoverId w id
        return tcpError w fromId (w.sockets i).id
          ("connect fail, addr(" ++ addr ++ ":" ++ toString port ++ ") " ++ k.neterr)
      else
        -- the event is created on the descriptor the slot has had so far
        let (w, created) := socketConnect w i k.registered
        if created then
          return w.modify i fun s =>
            { s with
              state := .kSocketConnecting, fd := k.fd, type := .kConnectType,
              protoType := protoType }
        else
          let w ← tcpRecoverId w id
          return tcpError w fromId (w.sockets i).id
            ("connect fail, addr(" ++ addr ++ ":" ++ toString port ++ ") create event fail")

def handleTcpSocketClose (w : World) (fromId id : Int) : Option World :=
  match tcpGetSocket w id with
  | none =>
      some (tcpError w fromId id ("close sockfd (" ++ toString id ++ ") fail, id not found"))
  | some i => socketForceClose w i

/-- The loop of `handleTcpSocketSend`, one answer for every id. -/
def sendToAll (w : World) (fromId : Int) (data : List UInt8) :
    List Int → List WriteAnswer → Option World
  | [], _ => some w
  | _ :: _, [] => none
  | id :: ids, a :: answers =>
      match tcpGetSocket w id with
      | none =>
          sendToAll
            (tcpError w fromId id ("send sockfd (" ++ toString id ++ ") fail, id not found"))
            fromId data ids answers
      | some i => do
          let (w, _) ← socketWrite w i data a
          sendToAll w fromId data ids answers

def handleTcpSocketSend (w : World) (fromId : Int) (ids : List Int) (data : Option (List UInt8))
    (answers : List WriteAnswer) : Option World :=
  match data with
  | none => some w
  | some data => (sendToAll w fromId data ids answers).map fun w => w.record (.freed data)

/-- `handleEvent`; `kTcpStop` makes the event loop return after this round. -/
def handleEvent (w : World) (k : Kernel) : TcpRequest → Option World
  | .listen fromId id protoType addr port => handleTcpSocketListen w fromId id protoType addr port k
  | .start fromId id => handleTcpSocketStart w fromId id k
  | .connect fromId id protoType addr port => handleTcpSocketConnect w fromId id protoType addr port k
  | .asyncConnect fromId id protoType addr port =>
      handleTcpSocketAsyncConnect w fromId id protoType addr port k
  | .close fromId id => handleTcpSocketClose w fromId id
  | .send fromId ids data => handleTcpSocketSend w fromId ids data k.writes
  | .stop => some w

-- ============================================================================
-- Steps
-- ============================================================================

/-- A call of a service, or something the event loop does. -/
inductive TcpOp where
  | listen (fromId protoType : Int) (addr : String) (port : Int) (full : Bool)
  | start (fromId id : Int) (full : Bool)
  | connect (fromId protoType : Int) (addr : String) (port : Int) (full : Bool)
  | asyncConnect (fromId protoType : Int) (addr : String) (port : Int) (full : Bool)
  | close (fromId id : Int) (full : Bool)
  | send (fromId : Int) (ids : List Int) (data : Option (List UInt8)) (full : Bool)
  | stop (full : Bool)
  /-- `popMsgqueue` takes the next request -/
  | handle (k : Kernel)
  /-- one half of the loop of `aeProcessEvents`, for a descriptor that fired -/
  | event (fd : Int) (mask : AeMask) (k : Kernel)
  deriving DecidableEq, Repr

/-- The callback runs if its bit is still set. -/
def aeProcessEvent (w : World) (fd : Int) (mask : AeMask) (k : Kernel) : Option World :=
  let fe := w.events fd
  let run : FileProc → Option World
    | .onAccept => onAccept w fe.clientData k
    | .onConnecting => onConnecting w fe.clientData fd k
    | .onRead => onRead w fe.clientData k.read
    | .onWrite => onWrite w fe.clientData k.sends
  match mask with
  | .readable => if fe.readable then run fe.rfileProc else none
  | .writable => if fe.writable then run fe.wfileProc else none

def tcpStep (w : World) : TcpOp → Option World
  | .listen fromId protoType addr port full =>
      (tcpSocketListen w fromId protoType addr port full).map Prod.fst
  | .start fromId id full => (tcpSocketStart w fromId id full).map Prod.fst
  | .connect fromId protoType addr port full =>
      (tcpSocketConnect w fromId protoType addr port full).map Prod.fst
  | .asyncConnect fromId protoType addr port full =>
      (tcpSocketAsyncConnect w fromId protoType addr port full).map Prod.fst
  | .close fromId id full => (tcpSocketClose w fromId id full).map Prod.fst
  | .send fromId ids data full => (tcpSocketSend w fromId ids data full).map Prod.fst
  | .stop full => (tcpStop w full).map Prod.fst
  | .handle k =>
      match w.em with
      | [] => none
      | req :: rest => handleEvent { w with em := rest } k req
  | .event fd mask k => aeProcessEvent w fd mask k

end ZServer.Tcp
