/-
  ZServer.Tcp.Handover

  Slots change hands between threads: workers reserve them (`tcpGetReserveId`)
  while the event loop ends connections and frees them.  Both take one access to
  the table at a time.

  What ends no connection is one step of the event loop (`handleTcpSocketListen`,
  `handleTcpSocketConnect`, `onAccept`, `startByType`), and so is posting a
  request, which does not fail; reads and writes that end no connection change no
  slot's type, state, id or owner and are left out.  A read or write event belongs
  to a connected slot, the event of a pending connect to one that is in use.
-/

import ZServer.Lib.Threads
import ZServer.Tcp.Moves

namespace ZServer.Tcp

open Lib

-- ============================================================================
-- Workers
-- ============================================================================

inductive ReserveKind where
  | listen
  | connect
  | asyncConnect
  deriving DecidableEq, Repr

/-- A call of `tcpSocketListen`, `tcpSocketConnect` or `tcpSocketAsyncConnect`. -/
structure Reservation where
  kind : ReserveKind
  fromId : Int
  protoType : Int
  addr : String
  port : Int
  deriving DecidableEq, Repr

def Reservation.request (r : Reservation) (id : Int) : TcpRequest :=
  match r.kind with
  | .listen => .listen r.fromId id r.protoType (snprintfAddr r.addr) r.port
  | .connect => .connect r.fromId id r.protoType (snprintfAddr r.addr) r.port
  | .asyncConnect => .asyncConnect r.fromId id r.protoType (snprintfAddr r.addr) r.port

/-- Where a worker is in `tcpGetReserveId` and the call around it; `rounds` are
    left. -/
inductive WorkerPc where
  | idle
  | reserve (r : Reservation) (rounds : Nat)
  /-- `__sync_and_and_fetch`, after a negative id has been drawn -/
  | mask (r : Reservation) (rounds : Nat)
  /-- `s->type == kSocketNoneType` -/
  | test (r : Reservation) (rounds : Nat) (id : Int)
  | cas (r : Reservation) (rounds : Nat) (id : Int)
  /-- `s->id = id` in slot `j` -/
  | storeId (r : Reservation) (j : Nat) (id : Int)
  /-- `s->fd = -1` -/
  | storeFd (r : Reservation) (j : Nat) (id : Int)
  | post (req : TcpRequest)
  deriving DecidableEq, Repr

-- ============================================================================
-- The event loop
-- ============================================================================

/-- A notice that the end of a connection brings, and what it is made of. -/
inductive Tell where
  /-- `handleClose`: `socket->from`, `socket->id` -/
  | close
  /-- `handleError`, `onConnecting`: the same -/
  | error (err : String)
  /-- `handleTcpSocketAsyncConnect`: `req->from`, `socket->id` -/
  | connectFail (fromId : Int) (err : String)
  /-- `handleTcpSocketStart`: `req->from`, `id` -/
  | startFail (fromId id : Int) (err : String)
  deriving DecidableEq, Repr

/-- The notices of `handleError`. -/
def errorTells (errno : Nat) : List Tell :=
  [.close, .error ("error(" ++ toString errno ++ ") error str: ")]

def Tell.notice (s : Socket) : Tell → Notice
  | .close => ⟨s.fromId, 0, .close, .null, s.id⟩
  | .error err => ⟨s.fromId, 0, .error, .text err, s.id⟩
  | .connectFail fromId err => ⟨fromId, 0, .error, .text err, s.id⟩
  | .startFail fromId id err => ⟨fromId, 0, .error, .text err, id⟩

/-- The end of a connection that the event loop has begun. -/
structure Ending where
  /-- the index of its socket -/
  slot : Nat
  /-- history: the id of the connection -/
  id : Int
  /-- history: the context that owns it -/
  fromId : Int
  tells : List Tell
  /-- the sender and the ids that are left in `handleTcpSocketSend` -/
  rest : Option (Int × List Int)
  deriving DecidableEq, Repr

inductive LoopPc where
  | idle
  /-- the loop of `handleTcpSocketSend` -/
  | sending (fromId : Int) (ids : List Int)
  -- `handleClose`
  | deleteReadable (e : Ending)
  | deleteWritable (e : Ending)
  | closeFd (e : Ending)
  -- `socketStop`
  | stopFd (e : Ending)
  | disconnect (e : Ending)
  /-- `socket->id`, the argument of `tcpRecoverId` -/
  | readId (e : Ending)
  -- `tcpRecoverId`
  | recover (e : Ending) (id : Int)
  | release (e : Ending) (id : Int)
  | notify (e : Ending) (tells : List Tell)
  deriving DecidableEq, Repr

-- ============================================================================
-- Shared memory
-- ============================================================================

/-- A notice, with the id and the owner of the connection it is about. -/
structure Told where
  notice : Notice
  id : Int
  fromId : Int
  deriving DecidableEq, Repr

structure Table where
  world : World
  /-- history: the id of the connection that was last put in a slot -/
  conn : Nat → Int
  /-- history: the id that a worker which has taken a slot has yet to store -/
  taken : Nat → Option Int
  /-- history: the ids a slot is handed out to -/
  holders : Nat → List Int
  /-- history: the notices about ended connections -/
  told : List Told

abbrev Table.slot (s : Table) (i : Nat) : Socket := s.world.sockets i

/-- A connection is put in slot `j`. -/
def Table.connect (s : Table) (j : Nat) (id : Int) (w : World) : Table :=
  { s with world := w, conn := Function.update s.conn j id }

/-- `tcpRecoverId` has freed the slot of `id`. -/
def Table.freed (s : Table) (id : Int) (w : World) : Table :=
  let j := getIndex s.world id
  { s with world := w, holders := Function.update s.holders j ((s.holders j).erase id) }

/-- The beginning of `handleClose` for the connection in slot `i`. -/
def Table.ending (s : Table) (i : Nat) (tells : List Tell) : Ending :=
  { slot := i, id := s.conn i, fromId := (s.slot i).fromId, tells := tells, rest := none }

/-- A notice about the connection that `e` ends. -/
def Table.tell (s : Table) (e : Ending) (t : Tell) : Table :=
  { s with
    world := s.world.record (.notice (t.notice (s.slot e.slot)))
    told := s.told ++ [⟨t.notice (s.slot e.slot), e.id, e.fromId⟩] }

def Table.tcpError (s : Table) (dest id : Int) (err : String) : Table :=
  { s with world := Tcp.tcpError s.world dest id err }

/-- `socketForceClose` -/
def Table.forceClose (s : Table) (i : Nat) : LoopPc :=
  if (s.slot i).state = .kSocketConnected ∨ (s.slot i).state = .kSocketConnecting then
    .deleteReadable (s.ending i [.close])
  else .readId (s.ending i [])

-- ============================================================================
-- Steps
-- ============================================================================

inductive Choice where
  | go
  /-- a worker calls -/
  | reserve (r : Reservation)
  | post (req : TcpRequest)
  /-- `onRead` of slot `i`: the end of the stream, or an error -/
  | onRead (i : Nat) (error : Option Nat)
  /-- `headMessageCallback` of slot `i` meets an illegal length -/
  | headMessageCallback (i : Nat)
  | onWrite (i : Nat) (errno : Nat)
  | onConnecting (i : Nat) (k : Kernel)
  | onAccept (i : Nat) (k : Kernel)
  | handle (k : Kernel)
  /-- `socketWrite` to the next id; its error if the connection is broken -/
  | socketWrite (broken : Option Nat)
  deriving DecidableEq, Repr

/-- One access of a worker. -/
def workerStep (s : Table) (pc : WorkerPc) (choice : Choice) : Option (Table × WorkerPc) :=
  match pc, choice with
  | .idle, .reserve r => some (s, .reserve r s.world.setsize)
  | .idle, .post req => if req.claim = none then some (s, .post req) else none
  | .reserve _ 0, .go => none
  | .reserve r (rounds + 1), .go =>
      let id := intOf s.world.allocId
      let w := { s.world with
        allocId := (s.world.allocId + 1) % 2 ^ 32, drawn := s.world.drawn + 1 }
      some ({ s with world := w }, if id < 0 then .mask r rounds else .test r rounds id)
  | .mask r rounds, .go =>
      let masked := s.world.allocId % 2 ^ 31
      some ({ s with world := { s.world with allocId := masked } }, .test r rounds masked)
  | .test r rounds id, .go =>
      if (s.slot (getIndex s.world id)).type = .kSocketNoneType then some (s, .cas r rounds id)
      else some (s, .reserve r rounds)
  | .cas r rounds id, .go =>
      let j := getIndex s.world id
      if (s.slot j).type = .kSocketNoneType then
        some ({ s with
          world := s.world.modify j fun s => { s with type := .kReserveType }
          taken := Function.update s.taken j (some id)
          holders := Function.update s.holders j (id :: s.holders j) }, .storeId r j id)
      else some (s, .reserve r (rounds + 1))
  | .storeId r j id, .go =>
      some ({ s with
        world := s.world.modify j fun s => { s with id := id }
        taken := Function.update s.taken j none }, .storeFd r j id)
  | .storeFd r j id, .go =>
      some ({ s with world := s.world.modify j fun s => { s with fd := -1 } },
        .post (r.request id))
  | .post req, .go => some ({ s with world := { s.world with em := s.world.em ++ [req] } }, .idle)
  | _, _ => none

/-- The handler of a request that reserved `id` is through; with a descriptor the
    slot has the connection `id`. -/
def Table.placed (s : Table) (id : Int) (k : Kernel) (w : World) : Table :=
  match tcpGetSocket s.world id with
  | none => { s with world := w }
  | some j => if k.fd = -1 then { s with world := w } else s.connect j id w

/-- `onAccept` is through; with a descriptor a slot has been reserved for it. -/
def Table.accepted (s : Table) (k : Kernel) (w : World) : Table :=
  match tcpGetReserveId s.world with
  | none => { s with world := w }
  | some (_, id) =>
      if k.fd = -1 then { s with world := w }
      else
        let j := getIndex s.world id
        { s.connect j id w with holders := Function.update s.holders j (id :: s.holders j) }

/-- `handleTcpSocketStart` up to `socketStop` -/
def Table.start (s : Table) (fromId id : Int) (k : Kernel) : Option (Table × LoopPc) :=
  match tcpGetSocket s.world id with
  | none =>
      some (s.tcpError fromId id ("start sockfd (" ++ toString id ++ ") fail, id not found"), .idle)
  | some i =>
      if (s.slot i).state ≠ .kSocketConnecting then
        some (s.tcpError fromId id
          ("start sockfd (" ++ toString id ++ ") fail, state is(" ++
            toString (s.slot i).state.code ++ ")"), .idle)
      else
        (startByType (s.world.modify i fun s => { s with fromId := fromId }) i k.registered).map
          fun r =>
            let s := { s with world := r.1 }
            if r.2 then (s, .idle)
            else
              (s, .stopFd (s.ending i
                [.startFail fromId id ("start sockfd (" ++ toString id ++ ") fail")]))

/-- `handleTcpSocketAsyncConnect` up to `tcpRecoverId` -/
def Table.asyncConnect (s : Table) (fromId id protoType : Int) (addr : String) (port : Int)
    (k : Kernel) : Option (Table × LoopPc) :=
  match tcpGetSocket s.world id with
  | none =>
      some (s.tcpError fromId id
        ("asyncconnect sockfd (" ++ toString id ++ ") fail, id not found"), .idle)
  | some i => do
      let w := s.world.modify i fun s => { s with fromId := fromId }
      let w ← (if k.fd = -1 then some w else w.openFd k.fd)
      let fail (w : World) (err : String) : Table × LoopPc :=
        ({ s with world := w }, .recover
          { slot := i, id := id, fromId := fromId, tells := [.connectFail fromId
              ("connect fail, addr(" ++ addr ++ ":" ++ toString port ++ ") " ++ err)],
            rest := none } id)
      if k.fd = -1 ∨ k.errno ≠ EINPROGRESS then return fail w k.neterr
      else
        let (w, created) := socketConnect w i k.registered
        if created then
          return (s.connect i id (w.modify i fun s =>
            { s with
              state := .kSocketConnecting, fd := k.fd, type := .kConnectType,
              protoType := protoType }), .idle)
        else return fail w "create event fail"

/-- `handleEvent`, up to where a handler begins to end a connection -/
def Table.handle (s : Table) (k : Kernel) : TcpRequest → Option (Table × LoopPc)
  | .listen fromId id protoType addr port =>
      (handleTcpSocketListen s.world fromId id protoType addr port k).map fun w =>
        (s.placed id k w, .idle)
  | .start fromId id => s.start fromId id k
  | .connect fromId id protoType addr port =>
      (handleTcpSocketConnect s.world fromId id protoType addr port k).map fun w =>
        (s.placed id k w, .idle)
  | .asyncConnect fromId id protoType addr port => s.asyncConnect fromId id protoType addr port k
  | .close fromId id =>
      match tcpGetSocket s.world id with
      | none =>
          some (s.tcpError fromId id ("close sockfd (" ++ toString id ++ ") fail, id not found"),
            .idle)
      | some i => some (s, s.forceClose i)
  | .send _ _ none => some (s, .idle)
  | .send fromId ids (some _) => some (s, .sending fromId ids)
  | .stop => some (s, .idle)

/-- A callback of the event loop, up to where it begins to end a connection. -/
def Table.callback (s : Table) : Choice → Option (Table × LoopPc)
  | .onRead i none =>
      if (s.slot i).state = .kSocketConnected then
        some (s, .deleteReadable (s.ending i [.close]))
      else none
  | .onRead i (some errno) | .onWrite i errno =>
      if (s.slot i).state = .kSocketConnected then
        some (s, .deleteReadable (s.ending i (errorTells errno)))
      else none
  | .headMessageCallback i =>
      if (s.slot i).state = .kSocketConnected then some (s, s.forceClose i) else none
  | .onConnecting i k =>
      if (s.slot i).state = .kSocketDisconnected then none
      else
        let w := aeDeleteFileEvent s.world (s.slot i).fd .writable
        if k.connected then
          let w := w.modify i fun s => { s with state := .kSocketConnecting }
          some ({ s with
            world := zSendx w (w.sockets i).fromId 0 .connect .null (w.sockets i).id }, .idle)
        else
          let e := s.ending i []
          some (({ s with world := w }).tell e (.error "socket connect fail"), .stopFd e)
  | .onAccept i k => (onAccept s.world i k).map fun w => (s.accepted k w, .idle)
  | .handle k =>
      match s.world.em with
      | [] => none
      | req :: rest => ({ s with world := { s.world with em := rest } } : Table).handle k req
  | _ => none

/-- One access of the event loop. -/
def loopStep (s : Table) (pc : LoopPc) (choice : Choice) : Option (Table × LoopPc) :=
  match pc, choice with
  | .idle, choice => s.callback choice
  | .sending _ [], .go => some (s, .idle)
  | .sending fromId (id :: ids), .socketWrite broken =>
      match tcpGetSocket s.world id with
      | none =>
          some (s.tcpError fromId id ("send sockfd (" ++ toString id ++ ") fail, id not found"),
            .sending fromId ids)
      | some i =>
          match broken with
          | none => some (s, .sending fromId ids)
          | some errno =>
              if (s.slot i).state = .kSocketConnected then
                some (s, .deleteReadable
                  { s.ending i (errorTells errno) with rest := some (fromId, ids) })
              else some (s, .sending fromId ids)
  | .deleteReadable e, .go =>
      let w := aeDeleteFileEvent s.world (s.slot e.slot).fd .readable
      some ({ s with world := w }, .deleteWritable e)
  | .deleteWritable e, .go =>
      let w := aeDeleteFileEvent s.world (s.slot e.slot).fd .writable
      some ({ s with world := w }, .closeFd e)
  | .closeFd e, .go =>
      let w := s.world.closeFd (s.slot e.slot).id (s.slot e.slot).fd
      some ({ s with world := w }, .disconnect e)
  | .stopFd e, .go =>
      let w := if 0 < (s.slot e.slot).fd then
          s.world.closeFd (s.slot e.slot).id (s.slot e.slot).fd else s.world
      some ({ s with world := w }, .disconnect e)
  | .disconnect e, .go =>
      let w := s.world.modify e.slot fun s => { s with state := .kSocketDisconnected }
      some ({ s with world := w }, .readId e)
  | .readId e, .go => some (s, .recover e (s.slot e.slot).id)
  | .recover e id, .go =>
      if id < 0 then some (s, .notify e e.tells)
      else if (s.slot (getIndex s.world id)).state = .kSocketDisconnected then
        some (s, .release e id)
      else none
  | .release e id, .go =>
      let w := s.world.modify (getIndex s.world id) fun s => { s with type := .kSocketNoneType }
      some (s.freed id w, .notify e e.tells)
  | .notify e [], .go =>
      some (s, match e.rest with
        | none => .idle
        | some (fromId, ids) => .sending fromId ids)
  | .notify e (t :: ts), .go => some (s.tell e t, .notify e ts)
  | _, _ => none

/-- A thread is a worker or the event loop. -/
inductive Pc where
  | worker (pc : WorkerPc)
  | loop (pc : LoopPc)
  deriving DecidableEq, Repr

def tableStep (s : Table) (pc : Pc) (choice : Choice) : Option (Table × Pc) :=
  match pc with
  | .worker pc => (workerStep s pc choice).map fun r => (r.1, .worker r.2)
  | .loop pc => (loopStep s pc choice).map fun r => (r.1, .loop r.2)

/-- `main` runs the event loop. -/
def tableInit {ι : Type*} [DecidableEq ι] (main : ι) (setsize : Nat) (aeSetsize : Int) :
    Config ι Table Pc where
  shared := {
    world := tcpInit setsize aeSetsize, conn := fun _ => 0, taken := fun _ => none,
    holders := fun _ => [], told := [] }
  pcs t := if t = main then .loop .idle else .worker .idle

-- ============================================================================
-- The event loop alone
-- ============================================================================

/-- The event loop takes `n` steps without a worker in between. -/
def loopAlone : Nat → Table → LoopPc → Option (Table × LoopPc)
  | 0, s, pc => some (s, pc)
  | n + 1, s, pc => (loopStep s pc .go).bind fun r => loopAlone n r.1 r.2

theorem loopAlone_add (n m : Nat) (s : Table) (pc : LoopPc) :
    loopAlone (n + m) s pc = (loopAlone n s pc).bind fun r => loopAlone m r.1 r.2 := by
  induction n generalizing s pc with
  | zero =>
      rw [Nat.zero_add]
      rfl
  | succ n ih =>
      rw [Nat.succ_add]
      simp only [loopAlone]
      rw [Option.bind_assoc]
      congr
      funext r
      exact ih r.1 r.2

/-- The last steps of `handleClose` and `socketStop` are the state and `tcpRecoverId`. -/
theorem loopAlone_disconnect (s : Table) (e : Ending) (hid : 0 ≤ (s.world.sockets e.slot).id) :
    loopAlone 4 s (.disconnect e) =
      (tcpRecoverId (s.world.modify e.slot fun s => { s with state := .kSocketDisconnected })
        (s.world.sockets e.slot).id).map fun w =>
          (s.freed (s.world.sockets e.slot).id w, .notify e e.tells) := by
  let v := s.world.modify e.slot fun s => { s with state := .kSocketDisconnected }
  let s₁ := { s with world := v }
  have hneg : ¬ (s.world.sockets e.slot).id < 0 := not_lt.mpr hid
  have hdisconnect : loopStep s (.disconnect e) .go = some (s₁, .readId e) := rfl
  have hread : loopStep s₁ (.readId e) .go =
      some (s₁, .recover e (s.world.sockets e.slot).id) := by
    have hid : (v.sockets e.slot).id = (s.world.sockets e.slot).id := by
      rw [World.modify_self]
    rw [← hid]
    rfl
  have hrecover : loopStep s₁ (.recover e (s.world.sockets e.slot).id) .go =
      if (v.sockets (getIndex v (s.world.sockets e.slot).id)).state = .kSocketDisconnected then
        some (s₁, .release e (s.world.sockets e.slot).id)
      else none := if_neg hneg
  simp only [loopAlone, hdisconnect, hread, hrecover, Option.bind_some]
  unfold tcpRecoverId
  rw [if_neg hneg]
  by_cases hs : (v.sockets (getIndex v (s.world.sockets e.slot).id)).state = .kSocketDisconnected
  · rw [if_pos hs, if_pos hs]
    rfl
  · rw [if_neg hs, if_neg hs]
    rfl

/-- Alone, the steps of `handleClose` are that function. -/
theorem loopAlone_handleClose (s : Table) (i : Nat) (hid : 0 ≤ (s.world.sockets i).id) :
    (loopAlone 8 s (.deleteReadable (s.ending i [.close]))).map (fun r => r.1.world) =
      handleClose s.world i := by
  let v := (s.world.unregister (s.world.sockets i).fd).closeFd (s.world.sockets i).id
    (s.world.sockets i).fd
  have hsockets : v.sockets = s.world.sockets := by simp [v]
  have hthree : loopAlone 3 s (.deleteReadable (s.ending i [.close])) =
      some ({ s with world := v }, .disconnect (s.ending i [.close])) := by
    simp [loopAlone, loopStep, Table.ending, Table.slot, v, World.unregister]
  have hfour : loopAlone 4 { s with world := v } (.disconnect (s.ending i [.close])) =
      (tcpRecoverId (v.modify i fun s => { s with state := .kSocketDisconnected })
        (v.sockets i).id).map fun w =>
          (({ s with world := v } : Table).freed (v.sockets i).id w,
            .notify (s.ending i [.close]) [.close]) :=
    loopAlone_disconnect { s with world := v } (s.ending i [.close]) (by rw [hsockets]; exact hid)
  have hclose : handleClose s.world i =
      (tcpRecoverId (v.modify i fun s => { s with state := .kSocketDisconnected })
        (v.sockets i).id).bind fun w =>
          some (zSendx w (w.sockets i).fromId 0 .close .null (w.sockets i).id) := by
    unfold handleClose
    simp only [aeDeleteFileEvent_sockets, World.modify_self]
    rfl
  rw [show 8 = 3 + (4 + 1) from rfl, loopAlone_add, hthree, Option.bind_some, loopAlone_add, hfour,
    hclose]
  cases tcpRecoverId (v.modify i fun s => { s with state := .kSocketDisconnected })
    (v.sockets i).id <;> rfl

/-- So are those of `socketStop`. -/
theorem loopAlone_socketStop (s : Table) (i : Nat) (tells : List Tell)
    (hid : 0 ≤ (s.world.sockets i).id) :
    (loopAlone 5 s (.stopFd (s.ending i tells))).map (fun r => r.1.world) =
      socketStop s.world i := by
  let v := if 0 < (s.world.sockets i).fd then
    s.world.closeFd (s.world.sockets i).id (s.world.sockets i).fd else s.world
  have hsockets : v.sockets = s.world.sockets := by
    show (if _ then _ else _ : World).sockets = _
    split
    · exact s.world.closeFd_sockets _ _
    · rfl
  have hfour : loopAlone 4 { s with world := v } (.disconnect (s.ending i tells)) =
      (tcpRecoverId (v.modify i fun s => { s with state := .kSocketDisconnected })
        (v.sockets i).id).map fun w =>
          (({ s with world := v } : Table).freed (v.sockets i).id w,
            .notify (s.ending i tells) tells) :=
    loopAlone_disconnect { s with world := v } (s.ending i tells) (by rw [hsockets]; exact hid)
  have hstop : socketStop s.world i =
      tcpRecoverId (v.modify i fun s => { s with state := .kSocketDisconnected })
        (v.sockets i).id := by
    unfold socketStop
    simp only [World.modify_self]
    rfl
  rw [hstop]
  show (loopAlone 4 { s with world := v } (.disconnect (s.ending i tells))).map _ = _
  rw [hfour]
  cases tcpRecoverId (v.modify i fun s => { s with state := .kSocketDisconnected })
    (v.sockets i).id <;> rfl

end ZServer.Tcp
