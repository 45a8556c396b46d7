/-
  ZServer.Tcp.Link

  A connection apart from its slot, its id and its descriptor: the bytes that
  wait on either side.  `Link.step` says what it does when it is read, written to
  or writable; a slot that runs a connection does the same (`Running.step`,
  `traceOf_eq`).
-/

import ZServer.Lib.Transition
import ZServer.Tcp.Attached

namespace ZServer.Tcp

open Lib

-- ============================================================================
-- The connection on its own
-- ============================================================================

structure Link where
  protoType : Int
  isOpen : Bool
  readBuffer : List UInt8
  sendBuffer : List UInt8
  /-- the writable event is registered -/
  writable : Bool
  deriving DecidableEq, Repr

def Link.start (protoType : Int) : Link := ⟨protoType, true, [], [], false⟩

/-- A read event, a call of `socketWrite` or a write event, with the answers of
    the kernel. -/
inductive LinkOp where
  | read (result : ReadResult)
  | write (data : List UInt8) (a : WriteAnswer)
  | writable (sends : List WriteResult)
  deriving DecidableEq, Repr

/-- What others see of a connection: a frame delivered, bytes given to the kernel,
    its end. -/
inductive LinkOut where
  | frame (body : List UInt8)
  | sent (data : List UInt8)
  | closed
  deriving DecidableEq, Repr

def Link.shut (l : Link) : Link := { l with isOpen := false, writable := false }

def Link.receive (l : Link) (chunk : List UInt8) : Option (Link × List LinkOut) :=
  if l.protoType = HEAD_PROTO_TYPE then
    let r := headMessageCallback (l.readBuffer ++ chunk)
    let l := { l with readBuffer := r.rest }
    if r.illegal then some (l.shut, r.frames.map .frame ++ [.closed])
    else some (l, r.frames.map .frame)
  else if l.protoType = HTTP_PROTO_TYPE then
    some ({ l with readBuffer := [] }, [.frame (l.readBuffer ++ chunk)])
  else none

def Link.append (l : Link) (remaining : List UInt8) (registered : Bool) : Link :=
  if remaining = [] then l
  else { l with
    sendBuffer := l.sendBuffer ++ remaining
    writable := l.writable || registered }

def Link.send (l : Link) (data : List UInt8) (a : WriteAnswer) : Link × List LinkOut :=
  if l.isOpen = false then (l, [])
  else if l.sendBuffer ≠ [] then (l.append data a.registered, [])
  else
    match writeRemaining data a.result with
    | (_, some _) => (l.shut, [.sent (writtenBytes data a.result), .closed])
    | (remaining, none) =>
        (l.append remaining a.registered, [.sent (writtenBytes data a.result)])

def Link.drain (l : Link) : List WriteResult → Option (Link × List LinkOut)
  | [] => none
  | .ok n :: sends =>
      if n = 0 then some (l, [])
      else
        let out := LinkOut.sent (l.sendBuffer.take n)
        let l := { l with sendBuffer := l.sendBuffer.drop n }
        if l.sendBuffer = [] then some ({ l with writable := false }, [out])
        else (l.drain sends).map fun r => (r.1, out :: r.2)
  | .error errno :: _ => if errno = EAGAIN then some (l, []) else some (l.shut, [.closed])

/-- `none`: the event is not registered, or an assertion fails. -/
def Link.step (l : Link) : LinkOp → Option (Link × List LinkOut)
  | .read result =>
      if l.isOpen then
        match result with
        | .ok [] | .error _ => some (l.shut, [.closed])
        | .ok chunk => l.receive chunk
      else none
  | .write data a => some (l.send data a)
  | .writable sends => if l.isOpen && l.writable then l.drain sends else none

def Link.run (l : Link) : List LinkOp → Option (Link × List LinkOut)
  | [] => some (l, [])
  | op :: ops => (l.step op).bind fun r => (r.1.run ops).map fun r' => (r'.1, r.2 ++ r'.2)

-- ============================================================================
-- The slot that runs it
-- ============================================================================

/-- The events of the descriptor of slot `i`, and what `handleTcpSocketSend` does
    with it. -/
def linkStep (i : Nat) (w : World) : LinkOp → Option World
  | .read result => aeProcessEvent w (w.sockets i).fd .readable { read := result }
  | .write data a => (socketWrite w i data a).map Prod.fst
  | .writable sends => aeProcessEvent w (w.sockets i).fd .writable { sends := sends }

/-- What an entry of the log says about the connection in a slot that looks like `s`. -/
def observed (s : Socket) : Effect → Option LinkOut
  | .notice n =>
      if n.dest = s.fromId ∧ n.id = s.id then
        match n.kind, n.data with
        | .data, .bytes body => some (.frame body)
        | .close, _ => some .closed
        | _, _ => none
      else none
  | .wrote fd data => if fd = s.fd then some (.sent data) else none
  | _ => none

/-- What is seen of the connection in slot `i` from `w` on. -/
def traceOf (i : Nat) (w : World) (ops : List LinkOp) : Option (List LinkOut) :=
  (runFrom (linkStep i) w ops).map fun w' =>
    (w'.log.drop w.log.length).filterMap (observed (w.sockets i))

/-- The slot runs the connection `l`; `s` has its id, its owner and its descriptor. -/
structure Running (w : World) (i : Nat) (s : Socket) (l : Link) : Prop where
  attached : Attached w i s.fd
  id : (w.sockets i).id = s.id
  fromId : (w.sockets i).fromId = s.fromId
  natural : 0 ≤ s.id
  index : getIndex w s.id = i
  protoType : (w.sockets i).protoType = l.protoType
  isOpen : l.isOpen = true
  readBuffer : bufferBytes (w.sockets i).readBuffer = l.readBuffer
  sendBuffer : bufferBytes (w.sockets i).sendBuffer = l.sendBuffer
  writable : (w.events s.fd).writable = l.writable
  created : l.writable = true → (w.sockets i).sendBuffer ≠ none

/-- The connection has ended: nothing is registered. -/
structure Over (w : World) (i : Nat) (s : Socket) (l : Link) : Prop where
  isOpen : l.isOpen = false
  state : (w.sockets i).state ≠ .kSocketConnected
  fd_eq : (w.sockets i).fd = s.fd
  events : (w.events s.fd).isNone = true

def Represents (w : World) (i : Nat) (s : Socket) (l : Link) : Prop :=
  Running w i s l ∨ Over w i s l

/-- The slot did what the connection does. -/
inductive Agrees (i : Nat) (s : Socket) (log : List Effect) :
    Option World → Option (Link × List LinkOut) → Prop where
  | neither : Agrees i s log none none
  | both {w : World} {l : Link} (new : List Effect) (h : Represents w i s l)
      (hlog : w.log = log ++ new) : Agrees i s log (some w) (some (l, new.filterMap (observed s)))

section

variable {w w' : World} {i : Nat} {s : Socket} {l : Link}

theorem Agrees.of_eq {log new : List Effect} {outs : List LinkOut} (h : Represents w i s l)
    (hlog : w.log = log ++ new) (houts : new.filterMap (observed s) = outs) :
    Agrees i s log (some w) (some (l, outs)) :=
  houts ▸ .both new h hlog

/-- Nothing is written to the log. -/
theorem Agrees.silent (h : Represents w i s l) : Agrees i s w.log (some w) (some (l, [])) :=
  .of_eq h (List.append_nil _).symm rfl

/-- What comes before is seen first. -/
theorem Agrees.after {log new : List Effect} {r : Option World} {p : Option (Link × List LinkOut)}
    (h : Agrees i s (log ++ new) r p) :
    Agrees i s log r (p.map fun q => (q.1, new.filterMap (observed s) ++ q.2)) := by
  cases h with
  | neither => exact .neither
  | both new' h hlog =>
      refine .of_eq h (hlog.trans (List.append_assoc ..)) ?_
      exact List.filterMap_append

-- ============================================================================
-- The end of a connection
-- ============================================================================

theorem Running.closeSlot (h : Running w i s l) :
    handleClose w i = some (w.closeSlot i) ∧ Over (w.closeSlot i) i s l.shut ∧
      (w.closeSlot i).log = w.log ++ closing s.id s.fd s.fromId := by
  have hrange : w.aeSetsize ≤ s.fd → (w.events s.fd).isNone = true :=
    fun hout => absurd h.attached.range (not_lt.mpr hout)
  have hfd : (w.sockets i).fd = s.fd := h.attached.fd_eq
  refine ⟨handleClose_eq ?_ ?_, ⟨rfl, ?_, ?_, ?_⟩, ?_⟩
  · rw [h.id]
    exact h.natural
  · rw [h.id]
    exact h.index
  · rw [closeSlot_self]
    rintro ⟨⟩
  · rw [closeSlot_self]
    exact hfd
  · show (((w.unregister (w.sockets i).fd).closeFd (w.sockets i).id (w.sockets i).fd).events
      s.fd).isNone = true
    rw [World.closeFd_events, hfd]
    exact unregister_isNone hrange
  · rw [closeSlot_log (hfd.symm ▸ hrange), h.id, hfd, h.fromId]

theorem observed_closing : (closing s.id s.fd s.fromId).filterMap (observed s) = [.closed] := by
  simp [closing, observed, List.filterMap_cons]

theorem Running.close (h : Running w i s l) :
    Agrees i s w.log (handleClose w i) (some (l.shut, [.closed])) := by
  obtain ⟨heq, hover, hlog⟩ := h.closeSlot
  rw [heq]
  exact .of_eq (Or.inr hover) hlog observed_closing

theorem Running.error (h : Running w i s l) (errno : Nat) :
    Agrees i s w.log (handleError w i errno) (some (l.shut, [.closed])) := by
  obtain ⟨heq, hover, hlog⟩ := h.closeSlot
  have herror : handleError w i errno = some (tcpError (w.closeSlot i)
      ((w.closeSlot i).sockets i).fromId ((w.closeSlot i).sockets i).id
      ("error(" ++ toString errno ++ ") error str: ")) := by
    unfold handleError
    rw [heq]
    rfl
  rw [herror]
  have hover' : Represents (tcpError (w.closeSlot i) ((w.closeSlot i).sockets i).fromId
      ((w.closeSlot i).sockets i).id ("error(" ++ toString errno ++ ") error str: ")) i s l.shut :=
    Or.inr ⟨rfl, hover.state, hover.fd_eq, hover.events⟩
  have hnotice : Agrees i s (w.closeSlot i).log _ (some (l.shut, [])) :=
    .of_eq hover' rfl (by simp [observed])
  rw [hlog] at hnotice
  have hafter := hnotice.after
  rw [Option.map_some, observed_closing] at hafter
  exact hafter

-- ============================================================================
-- Incoming data
-- ============================================================================

/-- The notice of a frame. -/
def dataNotice (s : Socket) (body : List UInt8) : Effect :=
  .notice ⟨s.fromId, 0, .data, .bytes body, s.id⟩

theorem observed_dataNotice (frames : List (List UInt8)) :
    (frames.map (dataNotice s)).filterMap (observed s) = frames.map .frame := by
  induction frames with
  | nil => rfl
  | cons body frames ih =>
      rw [List.map_cons, List.filterMap_cons_some (b := .frame body), ih, List.map_cons]
      simp [observed, dataNotice]

theorem protoMessageCallback_eq (w : World) (i : Nat) (body : List UInt8) :
    protoMessageCallback w i body =
      { w with log := w.log ++ [dataNotice (w.sockets i) body] } := rfl

/-- The frames are delivered in order. -/
theorem deliver_eq (w : World) (i : Nat) (frames : List (List UInt8)) :
    frames.foldl (fun w body => protoMessageCallback w i body) w =
      { w with log := w.log ++ frames.map (dataNotice (w.sockets i)) } := by
  induction frames generalizing w with
  | nil => rw [List.map_nil, List.append_nil, List.foldl_nil]
  | cons body frames ih =>
      rw [List.foldl_cons, ih, List.map_cons]
      show { w with log := w.log ++ [_] ++ frames.map (dataNotice (w.sockets i)) } = _
      rw [List.append_assoc]
      rfl

/-- The frames are delivered, the rest is kept, and then the socket is closed if it
    begins with an illegal length. -/
theorem headMessageCallbackOn_eq (w : World) (i : Nat) :
    headMessageCallbackOn w i =
      let r := headMessageCallback (bufferBytes (w.sockets i).readBuffer)
      let v := ({ w with log := w.log ++ r.frames.map (dataNotice (w.sockets i)) } : World).modify i
        fun s => { s with readBuffer := some r.rest }
      if r.illegal then socketForceClose v i else some v := by
  simp only [headMessageCallbackOn, deliver_eq]

/-- The read buffer changes. -/
theorem Running.readBuffer_modify (h : Running w i s l) (buf : Socket → List UInt8) :
    Running (w.modify i fun s => { s with readBuffer := some (buf s) }) i s
      { l with readBuffer := buf (w.sockets i) } := by
  have hself := w.modify_self i fun s => { s with readBuffer := some (buf s) }
  refine ⟨h.attached.modify _ (fun _ => rfl) fun _ => rfl, ?_, ?_, h.natural, h.index, ?_, h.isOpen,
    ?_, ?_, h.writable, ?_⟩
  · rw [hself]
    exact h.id
  · rw [hself]
    exact h.fromId
  · rw [hself]
    exact h.protoType
  · rw [hself]
    rfl
  · rw [hself]
    exact h.sendBuffer
  · rw [hself]
    exact h.created

theorem Running.with_log (h : Running w i s l) (log : List Effect) :
    Running { w with log := log } i s l :=
  ⟨h.attached.with_log log, h.id, h.fromId, h.natural, h.index, h.protoType, h.isOpen, h.readBuffer,
    h.sendBuffer, h.writable, h.created⟩

theorem Running.notice (h : Running w i s l) : dataNotice (w.sockets i) = dataNotice s := by
  funext body
  unfold dataNotice
  rw [h.id, h.fromId]

theorem Running.headMessageCallbackOn (h : Running w i s l) :
    Agrees i s w.log (headMessageCallbackOn w i)
      (let r := headMessageCallback l.readBuffer
        let l := { l with readBuffer := r.rest }
        if r.illegal then some (l.shut, r.frames.map .frame ++ [.closed])
        else some (l, r.frames.map .frame)) := by
  have hread := (h.with_log (w.log ++ (headMessageCallback l.readBuffer).frames.map
    (dataNotice s))).readBuffer_modify fun _ => (headMessageCallback l.readBuffer).rest
  simp only [headMessageCallbackOn_eq, h.readBuffer, h.notice]
  split
  · have hclose := hread.close
    rw [socketForceClose, if_pos (Or.inl hread.attached.state), ← observed_dataNotice]
    exact hclose.after
  · exact .of_eq (Or.inl hread) rfl (observed_dataNotice _)

theorem Running.receive (h : Running w i s l) (chunk : List UInt8) :
    Agrees i s w.log (onMessageCallback (socketRead w i chunk) i) (l.receive chunk) := by
  have hread := h.readBuffer_modify fun s => bufferBytes s.readBuffer ++ chunk
  rw [h.readBuffer] at hread
  have hproto := hread.protoType
  unfold onMessageCallback Link.receive socketRead
  rw [hproto]
  split
  · exact hread.headMessageCallbackOn
  · split
    · unfold httpMessageCallback
      rw [hread.readBuffer]
      simp only [protoMessageCallback_eq, hread.notice]
      have hdone := (hread.with_log (w.log ++ [dataNotice s (l.readBuffer ++ chunk)])).readBuffer_modify
        fun _ => []
      have hlog : w.log ++ [dataNotice s (l.readBuffer ++ chunk)] = _ := rfl
      exact .of_eq (Or.inl hdone) hlog (observed_dataNotice [l.readBuffer ++ chunk])
    · exact .neither

theorem Running.onRead (h : Running w i s l) (result : ReadResult) :
    Agrees i s w.log (onRead w i result) (l.step (.read result)) := by
  have hread := h.readBuffer_modify fun s => bufferBytes s.readBuffer ++ []
  have hsame : { l with readBuffer := bufferBytes (w.sockets i).readBuffer ++ [] } = l := by
    rw [List.append_nil, h.readBuffer]
  rw [hsame] at hread
  simp only [Tcp.onRead, Link.step, h.isOpen, if_true]
  split
  · exact hread.close
  · rename_i chunk hchunk
    cases chunk with
    | nil => exact absurd rfl hchunk
    | cons b chunk => exact h.receive (b :: chunk)
  · exact hread.error _

-- ============================================================================
-- Outgoing data
-- ============================================================================

/-- The send buffer changes. -/
theorem Running.sendBuffer_modify (h : Running w i s l) (buf : Socket → List UInt8) :
    Running (w.modify i fun s => { s with sendBuffer := some (buf s) }) i s
      { l with sendBuffer := buf (w.sockets i) } := by
  have hself := w.modify_self i fun s => { s with sendBuffer := some (buf s) }
  refine ⟨h.attached.modify _ (fun _ => rfl) fun _ => rfl, ?_, ?_, h.natural, h.index, ?_, h.isOpen,
    ?_, ?_, h.writable, ?_⟩
  · rw [hself]
    exact h.id
  · rw [hself]
    exact h.fromId
  · rw [hself]
    exact h.protoType
  · rw [hself]
    exact h.readBuffer
  · rw [hself]
    rfl
  · rw [hself]
    rintro _ ⟨⟩

theorem Running.unregister (h : Running w i s l) :
    Running (aeDeleteFileEvent w s.fd .writable) i s { l with writable := false } := by
  obtain ⟨hattached, hnone⟩ := h.attached.unregister
  refine ⟨hattached, ?_, ?_, h.natural, ?_, ?_, h.isOpen, ?_, ?_, hnone, by rintro ⟨⟩⟩
  · rw [aeDeleteFileEvent_sockets]
    exact h.id
  · rw [aeDeleteFileEvent_sockets]
    exact h.fromId
  · rw [getIndex_aeDeleteFileEvent]
    exact h.index
  · rw [aeDeleteFileEvent_sockets]
    exact h.protoType
  · rw [aeDeleteFileEvent_sockets]
    exact h.readBuffer
  · rw [aeDeleteFileEvent_sockets]
    exact h.sendBuffer

theorem observed_wrote (data : List UInt8) :
    [Effect.wrote s.fd data].filterMap (observed s) = [.sent data] := by
  simp [observed]

/-- What `onWrite` does after its loop. -/
def finishDrain (i : Nat) (r : World × Bool) : World :=
  if r.2 then
    let w := r.1.modify i fun s => { s with sendBuffer := some [] }
    aeDeleteFileEvent w (w.sockets i).fd .writable
  else r.1

theorem Running.finish (h : Running w i s l) :
    Agrees i s w.log (some (finishDrain i (w, true)))
      (some ({ l with sendBuffer := [], writable := false }, [])) := by
  have hemptied := h.sendBuffer_modify fun _ => []
  have hfd := hemptied.attached.fd_eq
  refine @Agrees.of_eq _ _ _ _ _ [] _ (Or.inl ?_) ?_ rfl
  · simp only [finishDrain, if_true, hfd]
    exact hemptied.unregister
  · simp only [finishDrain, if_true, hfd, aeDeleteFileEvent_log, List.append_nil]
    rfl

/-- The loop sends what waits, piece by piece. -/
theorem Running.drain (h : Running w i s l) (sends : List WriteResult) :
    Agrees i s w.log ((drain w i sends).map (finishDrain i)) (l.drain sends) := by
  induction sends generalizing w l with
  | nil => exact .neither
  | cons result sends ih =>
      cases result with
      | ok n =>
          simp only [Tcp.drain, Link.drain, h.attached.fd_eq, h.sendBuffer]
          split
          · exact .silent (Or.inl h)
          · have hsent := (h.with_log (w.log ++ [.wrote s.fd (l.sendBuffer.take n)])).sendBuffer_modify
              fun _ => l.sendBuffer.drop n
            split
            · rename_i hrest
              have hfinish := hsent.finish
              rw [hrest] at hfinish ⊢
              have hwrote : Agrees i s (w.log ++ [.wrote s.fd (l.sendBuffer.take n)]) _ _ := hfinish
              have hafter := hwrote.after
              rw [observed_wrote] at hafter
              exact hafter
            · have hwrote : Agrees i s (w.log ++ [.wrote s.fd (l.sendBuffer.take n)]) _ _ := ih hsent
              have hafter := hwrote.after
              rw [observed_wrote] at hafter
              exact hafter
      | error errno =>
          simp only [Tcp.drain, Link.drain]
          split
          · exact .silent (Or.inl h)
          · rw [Option.map_map]
            have herror := h.error errno
            generalize handleError w i errno = r at herror ⊢
            rw [show (finishDrain i ∘ fun w => (w, false)) = fun w => w from rfl, Option.map_id']
            exact herror

theorem Running.onWrite (h : Running w i s l) (hwritable : l.writable = true)
    (sends : List WriteResult) :
    Agrees i s w.log (onWrite w i sends) (l.step (.writable sends)) := by
  simp only [Tcp.onWrite, Link.step, h.isOpen, hwritable, Bool.and_self, if_true]
  split
  · rename_i hnone
    exact absurd hnone (h.created hwritable)
  · exact h.drain sends

theorem Running.appendRemaining (h : Running w i s l) (remaining : List UInt8)
    (registered : Bool) :
    Running (appendRemaining w i remaining registered) i s (l.append remaining registered) ∧
      (appendRemaining w i remaining registered).log = w.log := by
  unfold Tcp.appendRemaining Link.append
  split
  · exact ⟨h, rfl⟩
  · have happended := h.sendBuffer_modify fun s => bufferBytes s.sendBuffer ++ remaining
    rw [h.sendBuffer] at happended
    have hcreated : ((w.modify i fun s => { s with
        sendBuffer := some (bufferBytes s.sendBuffer ++ remaining) }).sockets i).sendBuffer ≠
        none := by
      rw [World.modify_self]
      rintro ⟨⟩
    simp only [happended.attached.fd_eq, happended.attached.register]
    cases registered with
    | false =>
        simp only [Bool.false_eq_true, if_false, Bool.or_false]
        exact ⟨happended, rfl⟩
    | true =>
        obtain ⟨hattached, hbit⟩ := happended.attached.registered
        simp only [if_true, Bool.or_true]
        exact ⟨⟨hattached, happended.id, happended.fromId, happended.natural, happended.index,
          happended.protoType, happended.isOpen, happended.readBuffer, happended.sendBuffer, hbit,
          fun _ => hcreated⟩, rfl⟩

theorem Running.socketWrite (h : Running w i s l) (data : List UInt8) (a : WriteAnswer) :
    Agrees i s w.log ((socketWrite w i data a).map Prod.fst) (l.step (.write data a)) := by
  have hhas : hasSendBuffer (w.sockets i) = !l.sendBuffer.isEmpty := by
    unfold hasSendBuffer
    rw [h.sendBuffer]
  simp only [Tcp.socketWrite, Link.step, Link.send, hhas, h.isOpen, h.attached.fd_eq]
  rw [if_neg (not_not.mpr h.attached.state), if_neg Bool.true_eq_false_eq_False]
  cases hbuf : l.sendBuffer with
  | cons b pending =>
      obtain ⟨hrun, hlog⟩ := h.appendRemaining data a.registered
      exact .of_eq (Or.inl hrun) (hlog.trans (List.append_nil _).symm) rfl
  | nil =>
      have hwrote : Running (w.record (.wrote s.fd (writtenBytes data a.result))) i s l :=
        h.with_log _
      have hafter : ∀ {r : Option World} {q : Link × List LinkOut},
          Agrees i s (w.log ++ [.wrote s.fd (writtenBytes data a.result)]) r (some q) →
          Agrees i s w.log r (some (q.1, .sent (writtenBytes data a.result) :: q.2)) := by
        intro r q hq
        have hq' := hq.after
        rw [Option.map_some, observed_wrote] at hq'
        exact hq'
      simp only [List.isEmpty_nil, Bool.not_true, Bool.false_eq_true, if_false, ne_eq,
        not_true_eq_false]
      rcases writeRemaining data a.result with ⟨remaining, _ | errno⟩
      · obtain ⟨hrun, hlog⟩ := hwrote.appendRemaining remaining a.registered
        exact hafter (.of_eq (Or.inl hrun) (hlog.trans (List.append_nil _).symm) rfl)
      · have herror := hwrote.error errno
        simp only [Option.map_map]
        generalize handleError _ i errno = r at herror ⊢
        rw [show (Prod.fst ∘ fun w : World => (w, (-1 : Int))) = fun w => w from rfl,
          Option.map_id']
        exact hafter herror

-- ============================================================================
-- Steps and runs
-- ============================================================================

theorem Running.step (h : Running w i s l) (op : LinkOp) :
    Agrees i s w.log (linkStep i w op) (l.step op) := by
  cases op with
  | read result =>
      have hrun : linkStep i w (.read result) = Tcp.onRead w i result := by
        simp only [linkStep, aeProcessEvent, h.attached.fd_eq, h.attached.readable, h.attached.reads,
          h.attached.client, if_true]
      rw [hrun]
      exact h.onRead result
  | write data a => exact h.socketWrite data a
  | writable sends =>
      cases hwritable : l.writable with
      | true =>
          have hbit := h.writable.trans hwritable
          have hrun : linkStep i w (.writable sends) = Tcp.onWrite w i sends := by
            simp only [linkStep, aeProcessEvent, h.attached.fd_eq, hbit, h.attached.writes hbit,
              h.attached.client, if_true]
          rw [hrun]
          exact h.onWrite hwritable sends
      | false =>
          simp only [linkStep, aeProcessEvent, h.attached.fd_eq, h.writable, Link.step, hwritable,
            Bool.and_false, Bool.false_eq_true, if_false]
          exact .neither

/-- A connection that has ended takes no more data. -/
theorem Over.step (h : Over w i s l) (op : LinkOp) :
    Agrees i s w.log (linkStep i w op) (l.step op) := by
  obtain ⟨hr, hw⟩ := Bool.and_eq_true_iff.mp h.events
  rw [Bool.not_eq_true'] at hr hw
  cases op with
  | read result =>
      simp only [linkStep, aeProcessEvent, h.fd_eq, hr, Link.step, h.isOpen, Bool.false_eq_true,
        if_false]
      exact .neither
  | write data a =>
      simp only [linkStep, socketWrite, Link.step, Link.send, h.isOpen, if_true]
      rw [if_pos h.state]
      exact .silent (Or.inr h)
  | writable sends =>
      simp only [linkStep, aeProcessEvent, h.fd_eq, hw, Link.step, h.isOpen, Bool.false_and,
        Bool.false_eq_true, if_false]
      exact .neither

theorem Represents.step (h : Represents w i s l) (op : LinkOp) :
    Agrees i s w.log (linkStep i w op) (l.step op) :=
  h.elim (·.step op) (·.step op)

theorem Represents.run (h : Represents w i s l) (ops : List LinkOp) :
    Agrees i s w.log (runFrom (linkStep i) w ops) (l.run ops) := by
  induction ops generalizing w l with
  | nil => exact .silent h
  | cons op ops ih =>
      have hstep := h.step op
      rw [runFrom_cons, Link.run]
      generalize linkStep i w op = r at hstep ⊢
      generalize l.step op = p at hstep ⊢
      cases hstep with
      | neither => exact .neither
      | both new hnext hlog =>
          have hrest := ih hnext
          rw [hlog] at hrest
          exact hrest.after

/-- What is seen of a connection depends on the connection only. -/
theorem Running.traceOf_eq (h : Running w i (w.sockets i) l) (ops : List LinkOp) :
    traceOf i w ops = (l.run ops).map Prod.snd := by
  have hrun := Represents.run (Or.inl h) ops
  unfold traceOf
  generalize runFrom (linkStep i) w ops = r at hrun ⊢
  generalize l.run ops = p at hrun ⊢
  cases hrun with
  | neither => rfl
  | both new hnext hlog =>
      rw [Option.map_some, Option.map_some, hlog, List.drop_left]

end

end ZServer.Tcp
