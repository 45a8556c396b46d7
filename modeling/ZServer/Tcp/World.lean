/-
  ZServer.Tcp.World

  The state of the network side: the socket table (`struct tcp` of `src/tcp.c`,
  `struct socket` of `src/socket.h`), the file events of the event loop
  (`src/ae.c`, `src/ae_epoll.c`), the queue of requests, and what the kernel
  keeps: which descriptors are open and which of them epoll watches.

  Buffers are taken as the queues of their readable bytes
  (`ZServer.Buffer.ByteQueue`).  A failed assertion is `none`.  `log` records
  what the outside sees: messages to services, bytes accepted by the kernel,
  descriptors opened and closed.
-/

import Mathlib.Logic.Function.Basic
import ZServer.Lib.Word

namespace ZServer.Tcp

open Lib

-- ============================================================================
-- Sockets
-- ============================================================================

/-- `enum socketTypeE` -/
inductive SocketType where
  | kSocketNoneType
  | kReserveType
  | kAcceptType
  | kSocketType
  | kConnectType
  deriving DecidableEq, Repr

/-- `enum socketStateE` -/
inductive SocketState where
  | kSocketDisconnected
  | kSocketConnecting
  | kSocketConnected
  | kSocketDisConnecting
  deriving DecidableEq, Repr

def SocketState.code : SocketState → Nat
  | .kSocketDisconnected => 0
  | .kSocketConnecting => 1
  | .kSocketConnected => 2
  | .kSocketDisConnecting => 3

structure Socket where
  /-- `from` -/
  fromId : Int
  protoType : Int
  id : Int
  fd : Int
  type : SocketType
  state : SocketState
  readBuffer : Option (List UInt8)
  sendBuffer : Option (List UInt8)
  deriving DecidableEq, Repr

def INVALID_FD : Int := -1

def socketInit : Socket :=
  { fromId := 0, protoType := 0, id := 0, fd := 0, type := .kSocketNoneType,
    state := .kSocketDisconnected, readBuffer := none, sendBuffer := none }

/-- The bytes in a buffer that may not have been created. -/
def bufferBytes (buf : Option (List UInt8)) : List UInt8 := buf.getD []

-- ============================================================================
-- Requests and messages
-- ============================================================================

/-- `struct tcpRequest` -/
inductive TcpRequest where
  | listen (fromId id protoType : Int) (addr : String) (port : Int)
  | start (fromId id : Int)
  | connect (fromId id protoType : Int) (addr : String) (port : Int)
  | asyncConnect (fromId id protoType : Int) (addr : String) (port : Int)
  | close (fromId id : Int)
  | send (fromId : Int) (ids : List Int) (data : Option (List UInt8))
  | stop
  deriving DecidableEq, Repr

/-- `MSG_TYPE_SOCK_DATA` and its siblings -/
inductive SockMsg where
  | data
  | close
  | accept
  | connect
  | error
  deriving DecidableEq, Repr

/-- What a message points at. -/
inductive Payload where
  | null
  | bytes (data : List UInt8)
  | text (str : String)
  /-- a fresh block of this length that nobody has filled -/
  | blank (len : Nat)
  deriving DecidableEq, Repr

/-- The arguments of `zSendx`. -/
structure Notice where
  /-- `to` -/
  dest : Int
  session : Int
  kind : SockMsg
  data : Payload
  id : Int
  deriving DecidableEq, Repr

inductive Effect where
  | notice (n : Notice)
  /-- the kernel took these bytes -/
  | wrote (fd : Int) (data : List UInt8)
  | opened (fd : Int)
  /-- `close(fd)`, called for the slot that has the id, whether the descriptor was open or
      not, and which of its events were still registered -/
  | closed (id fd : Int) (readable writable : Bool)
  /-- `socketStart` succeeded on behalf of the service `fromId` -/
  | started (id fd fromId : Int)
  /-- `zfree` of the payload of a send -/
  | freed (data : List UInt8)
  deriving DecidableEq, Repr

-- ============================================================================
-- The event loop
-- ============================================================================

/-- `AE_READABLE`, `AE_WRITABLE` -/
inductive AeMask where
  | readable
  | writable
  deriving DecidableEq, Repr

/-- The callbacks that `src/socket.c` registers. -/
inductive FileProc where
  | onAccept
  | onConnecting
  | onRead
  | onWrite
  deriving DecidableEq, Repr

/-- `aeFileEvent`; without its bit a callback means nothing.  `clientData` is the
    index of the socket. -/
structure AeFileEvent where
  readable : Bool
  writable : Bool
  rfileProc : FileProc
  wfileProc : FileProc
  clientData : Nat
  deriving DecidableEq, Repr

/-- `mask == AE_NONE` -/
def AeFileEvent.isNone (fe : AeFileEvent) : Bool := !fe.readable && !fe.writable

def AeFileEvent.add (fe : AeFileEvent) (mask : AeMask) (proc : FileProc) (clientData : Nat) :
    AeFileEvent :=
  match mask with
  | .readable => { fe with readable := true, rfileProc := proc, clientData := clientData }
  | .writable => { fe with writable := true, wfileProc := proc, clientData := clientData }

def AeFileEvent.remove (fe : AeFileEvent) : AeMask → AeFileEvent
  | .readable => { fe with readable := false }
  | .writable => { fe with writable := false }

structure World where
  /-- `T->setsize`, a power of two -/
  setsize : Nat
  /-- the bits of `T->allocId` -/
  allocId : Nat
  /-- history: how many ids have been drawn from `allocId` -/
  drawn : Nat
  /-- `T->sockets` -/
  sockets : Nat → Socket
  /-- `T->em` -/
  em : List TcpRequest
  /-- `eventLoop->setsize` -/
  aeSetsize : Int
  /-- `eventLoop->events` -/
  events : Int → AeFileEvent
  /-- the descriptors opened for sockets and not closed yet -/
  isOpen : Int → Bool
  /-- the descriptors in the epoll set -/
  epoll : Int → Bool
  log : List Effect

def World.modify (w : World) (i : Nat) (f : Socket → Socket) : World :=
  { w with sockets := Function.update w.sockets i (f (w.sockets i)) }

def World.record (w : World) (e : Effect) : World := { w with log := w.log ++ [e] }

/-- `zSendx(NULL, 0, to, session, kind, data, id)` -/
def zSendx (w : World) (dest session : Int) (kind : SockMsg) (data : Payload) (id : Int) : World :=
  w.record (.notice ⟨dest, session, kind, data, id⟩)

def World.opened (w : World) (fd : Int) : World :=
  { w with
    isOpen := Function.update w.isOpen fd true
    epoll := Function.update w.epoll fd false
    log := w.log ++ [.opened fd] }

/-- The kernel returns a new descriptor: one that is not open. -/
def World.openFd (w : World) (fd : Int) : Option World :=
  if 0 ≤ fd ∧ w.isOpen fd = false then some (w.opened fd) else none

/-- `close(fd)` for the slot that has the id.  When the descriptor is open, epoll forgets
    it; `ae` does not.  When it is not, the call fails, and the log shows it all the same. -/
def World.closeFd (w : World) (id fd : Int) : World :=
  { w with
    isOpen := Function.update w.isOpen fd false
    epoll := if w.isOpen fd then Function.update w.epoll fd false else w.epoll
    log := w.log ++ [.closed id fd (w.events fd).readable (w.events fd).writable] }

/-- `epoll_ctl` in `aeApiAddEvent`: `EPOLL_CTL_ADD` when nothing is registered for
    the descriptor, else `EPOLL_CTL_MOD`; it fails for a descriptor that is not
    open (`EBADF`, also for -1), and may fail otherwise (`ok`). -/
def aeApiAddEvent (w : World) (fd : Int) (ok : Bool) : Bool :=
  ok && w.isOpen fd && (w.epoll fd == !(w.events fd).isNone)

def World.registered (w : World) (fd : Int) (mask : AeMask) (proc : FileProc) (clientData : Nat) :
    World :=
  { w with
    epoll := Function.update w.epoll fd true
    events := Function.update w.events fd ((w.events fd).add mask proc clientData) }

/-- The world after the call, and whether it returned `AE_OK`. -/
def aeCreateFileEvent (w : World) (fd : Int) (mask : AeMask) (proc : FileProc)
    (clientData : Nat) (ok : Bool) : World × Bool :=
  if w.aeSetsize ≤ fd then (w, false)
  else if aeApiAddEvent w fd ok then (w.registered fd mask proc clientData, true)
  else (w, false)

def aeDeleteFileEvent (w : World) (fd : Int) (mask : AeMask) : World :=
  if w.aeSetsize ≤ fd then w
  else if (w.events fd).isNone then w
  else
    let fe := (w.events fd).remove mask
    { w with
      events := Function.update w.events fd fe
      epoll := if fe.isNone then Function.update w.epoll fd false else w.epoll }

-- ============================================================================
-- The socket table
-- ============================================================================

def tcpError (w : World) (dest id : Int) (err : String) : World :=
  zSendx w dest 0 .error (.text err) id

/-- `id & (T->setsize - 1)` -/
def getIndex (w : World) (id : Int) : Nat := (id % w.setsize).toNat

def tcpGetSocket (w : World) (id : Int) : Option Nat :=
  if (w.sockets (getIndex w id)).id = id then some (getIndex w id) else none

def tcpRecoverId (w : World) (id : Int) : Option World :=
  if id < 0 then some w
  else if (w.sockets (getIndex w id)).state = .kSocketDisconnected then
    some (w.modify (getIndex w id) fun s => { s with type := .kSocketNoneType })
  else none

/-- One round of the loop of `tcpGetReserveId`: the id drawn, and the counter
    after it. -/
def nextId (allocId : Nat) : Int × Nat :=
  let next := (allocId + 1) % 2 ^ 32
  if intOf allocId < 0 then
    let masked : Nat := next % 2 ^ 31
    (masked, masked)
  else (intOf allocId, next)

def drawId (w : World) : World × Int :=
  ({ w with allocId := (nextId w.allocId).2, drawn := w.drawn + 1 }, (nextId w.allocId).1)

def Socket.reserved (id : Int) (s : Socket) : Socket :=
  { s with type := .kReserveType, id := id, fd := -1 }

/-- The rounds that are left; nobody comes in between the test and the CAS. -/
def reserveFrom (w : World) : Nat → Option (World × Int)
  | 0 => none
  | rounds + 1 =>
      let (w, id) := drawId w
      if (w.sockets (getIndex w id)).type = .kSocketNoneType then
        some (w.modify (getIndex w id) (Socket.reserved id), id)
      else reserveFrom w rounds

/-- `none`: `assert(0)`, there is no free slot. -/
def tcpGetReserveId (w : World) : Option (World × Int) := reserveFrom w w.setsize

/-- `tcpInit`, on an event loop of `aeSetsize` descriptors. -/
def tcpInit (setsize : Nat) (aeSetsize : Int) : World where
  setsize := setsize
  allocId := 1
  drawn := 0
  sockets := fun _ => socketInit
  em := []
  aeSetsize := aeSetsize
  events := fun _ => ⟨false, false, .onRead, .onWrite, 0⟩
  isOpen := fun _ => false
  epoll := fun _ => false
  log := []

-- ============================================================================
-- What the primitives leave alone
-- ============================================================================

variable (w : World)

@[simp] theorem World.modify_self (i : Nat) (f : Socket → Socket) :
    (w.modify i f).sockets i = f (w.sockets i) :=
  Function.update_self ..

@[simp] theorem World.modify_of_ne {i j : Nat} (h : j ≠ i) (f : Socket → Socket) :
    (w.modify i f).sockets j = w.sockets j :=
  Function.update_of_ne h ..

@[simp] theorem World.modify_modify (i : Nat) (f g : Socket → Socket) :
    (w.modify i f).modify i g = w.modify i (g ∘ f) := by
  simp [World.modify]

@[simp] theorem getIndex_modify (i : Nat) (f : Socket → Socket) (id : Int) :
    getIndex (w.modify i f) id = getIndex w id := rfl

@[simp] theorem World.closeFd_sockets (id fd : Int) : (w.closeFd id fd).sockets = w.sockets := rfl

@[simp] theorem World.closeFd_events (id fd : Int) : (w.closeFd id fd).events = w.events := rfl

@[simp] theorem World.closeFd_setsize (id fd : Int) : (w.closeFd id fd).setsize = w.setsize := rfl

@[simp] theorem World.closeFd_aeSetsize (id fd : Int) :
    (w.closeFd id fd).aeSetsize = w.aeSetsize := rfl

@[simp] theorem getIndex_closeFd (id fd id' : Int) :
    getIndex (w.closeFd id fd) id' = getIndex w id' := rfl

theorem World.closeFd_isOpen (id fd : Int) :
    (w.closeFd id fd).isOpen = Function.update w.isOpen fd false := rfl

theorem World.closeFd_log (id fd : Int) :
    (w.closeFd id fd).log =
      w.log ++ [.closed id fd (w.events fd).readable (w.events fd).writable] := rfl

@[simp] theorem aeDeleteFileEvent_sockets (fd : Int) (mask : AeMask) :
    (aeDeleteFileEvent w fd mask).sockets = w.sockets := by
  unfold aeDeleteFileEvent
  split
  · rfl
  · split <;> rfl

@[simp] theorem aeDeleteFileEvent_setsize (fd : Int) (mask : AeMask) :
    (aeDeleteFileEvent w fd mask).setsize = w.setsize := by
  unfold aeDeleteFileEvent
  split
  · rfl
  · split <;> rfl

@[simp] theorem aeDeleteFileEvent_aeSetsize (fd : Int) (mask : AeMask) :
    (aeDeleteFileEvent w fd mask).aeSetsize = w.aeSetsize := by
  unfold aeDeleteFileEvent
  split
  · rfl
  · split <;> rfl

@[simp] theorem aeDeleteFileEvent_isOpen (fd : Int) (mask : AeMask) :
    (aeDeleteFileEvent w fd mask).isOpen = w.isOpen := by
  unfold aeDeleteFileEvent
  split
  · rfl
  · split <;> rfl

@[simp] theorem aeDeleteFileEvent_log (fd : Int) (mask : AeMask) :
    (aeDeleteFileEvent w fd mask).log = w.log := by
  unfold aeDeleteFileEvent
  split
  · rfl
  · split <;> rfl

@[simp] theorem getIndex_aeDeleteFileEvent (fd : Int) (mask : AeMask) (id : Int) :
    getIndex (aeDeleteFileEvent w fd mask) id = getIndex w id := by
  unfold getIndex
  rw [aeDeleteFileEvent_setsize]

theorem AeFileEvent.remove_of_isNone {fe : AeFileEvent} (h : fe.isNone = true) (mask : AeMask) :
    fe.remove mask = fe := by
  obtain ⟨readable, writable, rfileProc, wfileProc, clientData⟩ := fe
  obtain ⟨hr, hw⟩ := Bool.and_eq_true_iff.mp h
  cases mask with
  | readable => simpa [AeFileEvent.remove] using hr
  | writable => simpa [AeFileEvent.remove] using hw

theorem aeDeleteFileEvent_events (fd : Int) (mask : AeMask)
    (hrange : w.aeSetsize ≤ fd → (w.events fd).isNone = true) :
    (aeDeleteFileEvent w fd mask).events =
      Function.update w.events fd ((w.events fd).remove mask) := by
  unfold aeDeleteFileEvent
  split
  · rename_i hout
    rw [AeFileEvent.remove_of_isNone (hrange hout), Function.update_eq_self]
  · split
    · rename_i h
      rw [AeFileEvent.remove_of_isNone h, Function.update_eq_self]
    · rfl

end ZServer.Tcp
