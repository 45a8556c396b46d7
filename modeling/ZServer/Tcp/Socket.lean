/-
  ZServer.Tcp.Socket

  The functions of `src/socket.c` on the world.  A `struct socket *` is the
  index of its slot.  What the kernel answers is an argument.
-/

import ZServer.Net.Proto
import ZServer.Tcp.World

namespace ZServer.Tcp

open Lib

-- ============================================================================
-- Answers of the kernel
-- ============================================================================

def EAGAIN : Nat := 11

def EWOULDBLOCK : Nat := EAGAIN

def EPIPE : Nat := 32

def ECONNRESET : Nat := 104

def EINPROGRESS : Nat := 115

/-- What `readv` did. -/
inductive ReadResult where
  /-- these bytes were read; none at the end of the stream -/
  | ok (chunk : List UInt8)
  | error (errno : Nat)
  deriving DecidableEq, Repr

/-- What `write` or `send` did; they take at most as many bytes as they were given. -/
inductive WriteResult where
  | ok (n : Nat)
  | error (errno : Nat)
  deriving DecidableEq, Repr

/-- The answers one `socketWrite` may need: of `write`, and of `epoll_ctl`. -/
structure WriteAnswer where
  result : WriteResult
  registered : Bool := true
  deriving DecidableEq, Repr

/-- The answers a handler may need. -/
structure Kernel where
  /-- the descriptor opened, or -1 -/
  fd : Int := -1
  errno : Nat := 0
  /-- the error text of `anet.c` -/
  neterr : String := ""
  /-- `strlen(cip)` -/
  ipLen : Nat := 0
  /-- `getsockopt` succeeds and finds no pending error -/
  connected : Bool := false
  /-- of `epoll_ctl` -/
  registered : Bool := true
  read : ReadResult := .error 0
  sends : List WriteResult := []
  writes : List WriteAnswer := []
  deriving DecidableEq, Repr

-- ============================================================================
-- Ends of a connection
-- ============================================================================

def handleClose (w : World) (i : Nat) : Option World := do
  let w := aeDeleteFileEvent w (w.sockets i).fd .readable
  let w := aeDeleteFileEvent w (w.sockets i).fd .writable
  let w := w.closeFd (w.sockets i).id (w.sockets i).fd
  let w := w.modify i fun s => { s with state := .kSocketDisconnected }
  let w ← tcpRecoverId w (w.sockets i).id
  return zSendx w (w.sockets i).fromId 0 .close .null (w.sockets i).id

/-- The text of `strerror(errno)` is left out. -/
def handleError (w : World) (i : Nat) (errno : Nat) : Option World := do
  let w ← handleClose w i
  return tcpError w (w.sockets i).fromId (w.sockets i).id
    ("error(" ++ toString errno ++ ") error str: ")

def socketForceClose (w : World) (i : Nat) : Option World :=
  if (w.sockets i).state = .kSocketConnected ∨ (w.sockets i).state = .kSocketConnecting then
    handleClose w i
  else tcpRecoverId w (w.sockets i).id

def socketStop (w : World) (i : Nat) : Option World :=
  let w := if 0 < (w.sockets i).fd then w.closeFd (w.sockets i).id (w.sockets i).fd else w
  let w := w.modify i fun s => { s with state := .kSocketDisconnected }
  tcpRecoverId w (w.sockets i).id

-- ============================================================================
-- Incoming data
-- ============================================================================

/-- `protoMessageCallback` -/
def protoMessageCallback (w : World) (i : Nat) (body : List UInt8) : World :=
  zSendx w (w.sockets i).fromId 0 .data (.bytes body) (w.sockets i).id

/-- `headMessageCallback` on the socket: the loop delivers the frames, then
    closes the socket if it has met an illegal length. -/
def headMessageCallbackOn (w : World) (i : Nat) : Option World :=
  let r := headMessageCallback (bufferBytes (w.sockets i).readBuffer)
  let w := r.frames.foldl (fun w body => protoMessageCallback w i body) w
  let w := w.modify i fun s => { s with readBuffer := some r.rest }
  if r.illegal then socketForceClose w i else some w

/-- `httpMessageCallback`: everything readable is one message; `bufferReset`. -/
def httpMessageCallback (w : World) (i : Nat) : World :=
  let w := protoMessageCallback w i (bufferBytes (w.sockets i).readBuffer)
  w.modify i fun s => { s with readBuffer := some [] }

def HEAD_PROTO_TYPE : Int := 1

def HTTP_PROTO_TYPE : Int := 2

/-- The callbacks are `NULL`, head and http; the assertion keeps to the last two. -/
def onMessageCallback (w : World) (i : Nat) : Option World :=
  if (w.sockets i).protoType = HEAD_PROTO_TYPE then headMessageCallbackOn w i
  else if (w.sockets i).protoType = HTTP_PROTO_TYPE then some (httpMessageCallback w i)
  else none

/-- `socketRead` when `readv` returns bytes: they are appended to the read
    buffer, which is created on first use. -/
def socketRead (w : World) (i : Nat) (chunk : List UInt8) : World :=
  w.modify i fun s => { s with readBuffer := some (bufferBytes s.readBuffer ++ chunk) }

def onRead (w : World) (i : Nat) (read : ReadResult) : Option World :=
  match read with
  | .ok [] => handleClose (socketRead w i []) i
  | .ok chunk => onMessageCallback (socketRead w i chunk) i
  | .error errno => handleError (socketRead w i []) i errno

-- ============================================================================
-- Outgoing data
-- ============================================================================

/-- The loop of `onWrite`; `true` when everything has been sent.  The kernel
    answers every `send`. -/
def drain (w : World) (i : Nat) : List WriteResult → Option (World × Bool)
  | [] => none
  | .ok n :: sends =>
      let s := w.sockets i
      if n = 0 then some (w, false)
      else
        let rest := (bufferBytes s.sendBuffer).drop n
        let w := w.record (.wrote s.fd ((bufferBytes s.sendBuffer).take n))
        let w := w.modify i fun s => { s with sendBuffer := some rest }
        if rest = [] then some (w, true) else drain w i sends
  | .error errno :: _ =>
      if errno = EAGAIN then some (w, false)
      else (handleError w i errno).map fun w => (w, false)

def onWrite (w : World) (i : Nat) (sends : List WriteResult) : Option World :=
  match (w.sockets i).sendBuffer with
  | none => none
  | some _ =>
      (drain w i sends).map fun r =>
        if r.2 then
          let w := r.1.modify i fun s => { s with sendBuffer := some [] }
          aeDeleteFileEvent w (w.sockets i).fd .writable
        else r.1

def hasSendBuffer (s : Socket) : Bool := !(bufferBytes s.sendBuffer).isEmpty

/-- What `socketWrite` gets from `write`: the bytes left over and whether the
    connection is broken. -/
def writeRemaining (data : List UInt8) : WriteResult → List UInt8 × Option Nat
  | .ok n => (data.drop n, none)
  | .error errno =>
      (data, if errno ≠ EWOULDBLOCK ∧ (errno = EPIPE ∨ errno = ECONNRESET) then some errno else none)

/-- The bytes the kernel took. -/
def writtenBytes (data : List UInt8) : WriteResult → List UInt8
  | .ok n => data.take n
  | .error _ => []

/-- The last part of `socketWrite`: what is left over waits for `onWrite`. -/
def appendRemaining (w : World) (i : Nat) (remaining : List UInt8) (registered : Bool) : World :=
  if remaining = [] then w
  else
    let w := w.modify i fun s => { s with sendBuffer := some (bufferBytes s.sendBuffer ++ remaining) }
    (aeCreateFileEvent w (w.sockets i).fd .writable .onWrite i registered).1

/-- The world after the call, and what it returns. -/
def socketWrite (w : World) (i : Nat) (data : List UInt8) (a : WriteAnswer) : Option (World × Int) :=
  if (w.sockets i).state ≠ .kSocketConnected then some (w, -1)
  else if hasSendBuffer (w.sockets i) then some (appendRemaining w i data a.registered, 0)
  else
    let w := w.record (.wrote (w.sockets i).fd (writtenBytes data a.result))
    match writeRemaining data a.result with
    | (_, some errno) => (handleError w i errno).map fun w => (w, -1)
    | (remaining, none) => some (appendRemaining w i remaining a.registered, 0)

-- ============================================================================
-- Starting, listening, connecting
-- ============================================================================

def socketStart (w : World) (i : Nat) (registered : Bool) : Option (World × Bool) :=
  if (w.sockets i).fd = INVALID_FD then none
  else
    let w := w.modify i fun s => { s with state := .kSocketConnected }
    some (aeCreateFileEvent w (w.sockets i).fd .readable .onRead i registered)

def socketAccept (w : World) (i : Nat) (registered : Bool) : Option (World × Bool) :=
  if (w.sockets i).fd ≤ 0 then none
  else some (aeCreateFileEvent w (w.sockets i).fd .readable .onAccept i registered)

def socketConnect (w : World) (i : Nat) (registered : Bool) : World × Bool :=
  aeCreateFileEvent w (w.sockets i).fd .writable .onConnecting i registered

def onAccept (w : World) (i : Nat) (k : Kernel) : Option World :=
  if k.fd = -1 then
    some (tcpError w (w.sockets i).fromId (w.sockets i).id ("accept fail, " ++ k.neterr))
  else do
    let w ← w.openFd k.fd
    -- without a free slot `tcpGetReserveId` does not return
    let (w, id) ← tcpGetReserveId w
    let j ← tcpGetSocket w id
    let w := w.modify j fun s =>
      { s with
        fromId := 0, fd := k.fd, protoType := (w.sockets i).protoType,
        type := .kSocketType, state := .kSocketConnecting,
        readBuffer := s.readBuffer.map fun _ => [], sendBuffer := s.sendBuffer.map fun _ => [] }
    return zSendx w (w.sockets i).fromId (w.sockets i).id .accept (.blank k.ipLen) id

def onConnecting (w : World) (i : Nat) (fd : Int) (k : Kernel) : Option World :=
  let w := aeDeleteFileEvent w fd .writable
  if k.connected then
    let w := w.modify i fun s => { s with state := .kSocketConnecting }
    some (zSendx w (w.sockets i).fromId 0 .connect .null (w.sockets i).id)
  else
    socketStop (tcpError w (w.sockets i).fromId (w.sockets i).id "socket connect fail") i

end ZServer.Tcp
