/-
  ZServer.Tcp.Outgoing

  The bytes a connection sends.  `socketWrite` hands them to the kernel or leaves
  them in the send buffer, `onWrite` drains the buffer; what the kernel has taken
  and what waits are together what was queued.
-/

import ZServer.Lib.Transition
import ZServer.Tcp.Attached

namespace ZServer.Tcp

open Lib

-- ============================================================================
-- A connection that sends
-- ============================================================================

/-- The bytes the kernel took for the descriptor. -/
def written (fd : Int) (log : List Effect) : List UInt8 :=
  log.flatMap fun e =>
    match e with
    | .wrote fd' data => if fd' = fd then data else []
    | _ => []

/-- A call of `socketWrite`, or the descriptor being writable; and what the kernel
    answers. -/
inductive OutOp where
  | write (data : List UInt8) (result : WriteResult)
  | writable (sends : List WriteResult)
  deriving DecidableEq, Repr

structure Outgoing where
  world : World
  /-- history: the data of the calls that have succeeded -/
  queued : List UInt8

/-- A step of the connection in slot `i`; events are registered without failure. -/
def outStep (i : Nat) (o : Outgoing) : OutOp → Option Outgoing
  | .write data result =>
      (socketWrite o.world i data { result := result }).map fun r =>
        ⟨r.1, if r.2 = 0 then o.queued ++ data else o.queued⟩
  | .writable sends =>
      if (o.world.events (o.world.sockets i).fd).writable then
        (onWrite o.world i sends).map fun w => ⟨w, o.queued⟩
      else none

/-- As long as the connection lasts nothing is lost, and the writable event is
    registered exactly while something waits.  `start` is the length of the log at
    its start. -/
def Outgoing.Intact (i start : Nat) (o : Outgoing) : Prop :=
  (o.world.sockets i).state = .kSocketConnected →
    written (o.world.sockets i).fd (o.world.log.drop start) ++
        bufferBytes (o.world.sockets i).sendBuffer = o.queued ∧
      (bufferBytes (o.world.sockets i).sendBuffer ≠ [] ↔
        (o.world.events (o.world.sockets i).fd).writable = true)

@[simp] theorem written_append (fd : Int) (log log' : List Effect) :
    written fd (log ++ log') = written fd log ++ written fd log' :=
  List.flatMap_append

@[simp] theorem written_wrote (fd : Int) (data : List UInt8) :
    written fd [.wrote fd data] = data := by
  unfold written
  rw [List.flatMap_singleton]
  exact if_pos rfl

-- ============================================================================
-- The invariant
-- ============================================================================

/-- A running connection: `pending` waits and `sent` has gone. -/
structure Sending (w : World) (i start : Nat) (fd : Int) (sent pending : List UInt8) : Prop where
  attached : Attached w i fd
  started : start ≤ w.log.length
  sent_eq : written fd (w.log.drop start) = sent
  pending_eq : bufferBytes (w.sockets i).sendBuffer = pending

/-- The connection has ended and nothing is registered for writing. -/
structure Ended (w : World) (i : Nat) (fd : Int) : Prop where
  state : (w.sockets i).state ≠ .kSocketConnected
  fd_eq : (w.sockets i).fd = fd
  writable : (w.events fd).writable = false

section

variable {w w' : World} {i start : Nat} {fd : Int} {sent pending : List UInt8}

/-- The kernel takes bytes. -/
theorem Sending.wrote (h : Sending w i start fd sent pending) (data : List UInt8) :
    Sending (w.record (.wrote fd data)) i start fd (sent ++ data) pending := by
  refine ⟨h.attached.with_log _, ?_, ?_, h.pending_eq⟩
  · show start ≤ (w.log ++ [_]).length
    rw [List.length_append]
    exact h.started.trans (Nat.le_add_right _ _)
  · show written fd ((w.log ++ [_]).drop start) = _
    rw [List.drop_append_of_le_length h.started, written_append, h.sent_eq, written_wrote]

/-- The send buffer changes. -/
theorem Sending.buffer (h : Sending w i start fd sent pending) (buf : Socket → List UInt8) :
    Sending (w.modify i fun s => { s with sendBuffer := some (buf s) }) i start fd sent
      (buf (w.sockets i)) := by
  refine ⟨h.attached.modify _ (fun _ => rfl) fun _ => rfl, h.started, h.sent_eq, ?_⟩
  rw [World.modify_self]
  rfl

theorem Sending.registered (h : Sending w i start fd sent pending) :
    Sending (w.registered fd .writable .onWrite i) i start fd sent pending ∧
      ((w.registered fd .writable .onWrite i).events fd).writable = true :=
  ⟨⟨h.attached.registered.1, h.started, h.sent_eq, h.pending_eq⟩, h.attached.registered.2⟩

theorem Sending.unregister (h : Sending w i start fd sent pending) :
    Sending (aeDeleteFileEvent w fd .writable) i start fd sent pending ∧
      ((aeDeleteFileEvent w fd .writable).events fd).writable = false := by
  obtain ⟨hattached, hnone⟩ := h.attached.unregister
  refine ⟨⟨hattached, ?_, ?_, ?_⟩, hnone⟩
  · rw [aeDeleteFileEvent_log]
    exact h.started
  · rw [aeDeleteFileEvent_log]
    exact h.sent_eq
  · rw [aeDeleteFileEvent_sockets]
    exact h.pending_eq

/-- What recovering an id leaves. -/
theorem tcpRecoverId_frame {id : Int} (h : tcpRecoverId w id = some w') :
    (w'.sockets i).state = (w.sockets i).state ∧ (w'.sockets i).fd = (w.sockets i).fd ∧
      w'.events = w.events := by
  unfold tcpRecoverId at h
  split at h
  · cases h
    exact ⟨rfl, rfl, rfl⟩
  · split at h
    · cases h
      by_cases hi : i = getIndex w id
      · subst hi
        rw [World.modify_self]
        exact ⟨rfl, rfl, rfl⟩
      · rw [World.modify_of_ne w hi]
        exact ⟨rfl, rfl, rfl⟩
    · cases h

/-- However the connection ends, nothing stays registered. -/
theorem Sending.handleClose (h : Sending w i start fd sent pending)
    (hclose : handleClose w i = some w') : Ended w' i fd := by
  let v := aeDeleteFileEvent (aeDeleteFileEvent w (w.sockets i).fd .readable) (w.sockets i).fd
    .writable
  let u := (v.closeFd (w.sockets i).id (w.sockets i).fd).modify i fun s =>
    { s with state := .kSocketDisconnected }
  have hu : (u.sockets i).state = .kSocketDisconnected ∧ (u.sockets i).fd = fd := by
    rw [show u.sockets i = { (v.closeFd (w.sockets i).id (w.sockets i).fd).sockets i with
      state := .kSocketDisconnected } from World.modify_self ..]
    refine ⟨rfl, ?_⟩
    show ((v.closeFd (w.sockets i).id (w.sockets i).fd).sockets i).fd = fd
    rw [World.closeFd_sockets, aeDeleteFileEvent_sockets, aeDeleteFileEvent_sockets]
    exact h.attached.fd_eq
  have hevents : (u.events fd).writable = false := by
    have hrange : ∀ (x : World), x.aeSetsize = w.aeSetsize → x.aeSetsize ≤ fd →
        (x.events fd).isNone = true :=
      fun x hx hout => absurd h.attached.range (not_lt.mpr (hx ▸ hout))
    show ((v.closeFd (w.sockets i).id (w.sockets i).fd).events fd).writable = false
    rw [World.closeFd_events]
    show ((aeDeleteFileEvent _ (w.sockets i).fd .writable).events fd).writable = false
    rw [h.attached.fd_eq, aeDeleteFileEvent_events _ fd .writable
      (hrange _ (aeDeleteFileEvent_aeSetsize w fd .readable)), Function.update_self]
    rfl
  have hclose' : (tcpRecoverId u (u.sockets i).id).bind (fun w =>
      some (zSendx w (w.sockets i).fromId 0 .close .null (w.sockets i).id)) = some w' := by
    rw [← hclose]
    unfold Tcp.handleClose
    simp only [aeDeleteFileEvent_sockets]
    rfl
  obtain ⟨w₁, hrecover, heq⟩ := Option.bind_eq_some_iff.mp hclose'
  cases heq
  obtain ⟨hstate, hfd, hev⟩ := tcpRecoverId_frame (i := i) hrecover
  refine ⟨?_, hfd.trans hu.2, ?_⟩
  · show (w₁.sockets i).state ≠ _
    rw [hstate, hu.1]
    decide
  · show (w₁.events fd).writable = false
    rw [hev]
    exact hevents

theorem Sending.handleError {errno : Nat} (h : Sending w i start fd sent pending)
    (herror : handleError w i errno = some w') : Ended w' i fd := by
  obtain ⟨w₁, hclose, heq⟩ := Option.bind_eq_some_iff.mp herror
  cases heq
  have hended := h.handleClose hclose
  exact ⟨hended.state, hended.fd_eq, hended.writable⟩

-- ============================================================================
-- The loop of `onWrite`
-- ============================================================================

/-- The loop moves bytes from what waits to what has gone, in order; it is through
    when nothing waits. -/
theorem Sending.drain {sends : List WriteResult} {complete : Bool}
    (h : Sending w i start fd sent pending) (hpending : pending ≠ [])
    (hdrain : drain w i sends = some (w', complete)) :
    Ended w' i fd ∧ complete = false ∨
      ∃ sent' pending', Sending w' i start fd sent' pending' ∧
        sent' ++ pending' = sent ++ pending ∧ (complete = true ↔ pending' = []) ∧
        w'.events = w.events := by
  induction sends generalizing w sent pending with
  | nil => cases hdrain
  | cons result sends ih =>
      cases result with
      | ok n =>
          simp only [Tcp.drain] at hdrain
          split at hdrain
          · cases hdrain
            exact Or.inr ⟨sent, pending, h, rfl, by simp [hpending], rfl⟩
          · have hstep := (h.wrote (pending.take n)).buffer fun _ => pending.drop n
            rw [h.attached.fd_eq, h.pending_eq] at hdrain
            have hmoved : sent ++ pending.take n ++ pending.drop n = sent ++ pending := by
              rw [List.append_assoc, List.take_append_drop]
            split at hdrain
            · rename_i hrest
              cases hdrain
              exact Or.inr ⟨_, _, hstep, hmoved, by simp [hrest], rfl⟩
            · rename_i hrest
              rcases ih hstep hrest hdrain with hended | ⟨sent', pending', hs, heq, hc, hev⟩
              · exact Or.inl hended
              · exact Or.inr ⟨sent', pending', hs, heq.trans hmoved, hc, hev⟩
      | error errno =>
          simp only [Tcp.drain] at hdrain
          split at hdrain
          · cases hdrain
            exact Or.inr ⟨sent, pending, h, rfl, by simp [hpending], rfl⟩
          · obtain ⟨w₁, herror, heq⟩ := Option.map_eq_some_iff.mp hdrain
            cases heq
            exact Or.inl ⟨h.handleError herror, rfl⟩

/-- What the invariant says of a running connection. -/
def Balanced (w : World) (i start : Nat) (fd : Int) (queued : List UInt8) : Prop :=
  ∃ sent pending, Sending w i start fd sent pending ∧ sent ++ pending = queued ∧
    (pending ≠ [] ↔ (w.events fd).writable = true)

theorem Sending.onWrite {sends : List WriteResult} (h : Sending w i start fd sent pending)
    (hbalance : pending ≠ [] ↔ (w.events fd).writable = true)
    (hwritable : (w.events fd).writable = true) (hwrite : onWrite w i sends = some w') :
    Ended w' i fd ∨ Balanced w' i start fd (sent ++ pending) := by
  unfold Tcp.onWrite at hwrite
  split at hwrite
  · cases hwrite
  · obtain ⟨⟨w₁, complete⟩, hdrain, heq⟩ := Option.map_eq_some_iff.mp hwrite
    rcases h.drain (hbalance.mpr hwritable) hdrain with ⟨hended, hcomplete⟩ |
      ⟨sent', pending', hs, hmoved, hcomplete, hev⟩
    · rw [hcomplete] at heq
      cases heq
      exact Or.inl hended
    · cases complete with
      | false =>
          cases heq
          refine Or.inr ⟨sent', pending', hs, hmoved, iff_of_true (fun hnil => ?_) ?_⟩
          · cases hcomplete.mpr hnil
          · show (w₁.events fd).writable = true
            rw [hev]
            exact hwritable
      | true =>
          cases heq
          have hnil := hcomplete.mp rfl
          rw [hnil, List.append_nil] at hmoved
          have hemptied := hs.buffer fun _ => []
          obtain ⟨hdone, hnone⟩ := hemptied.unregister
          have hfd : ((w₁.modify i fun s => { s with sendBuffer := some [] }).sockets i).fd = fd := by
            rw [World.modify_self]
            exact hs.attached.fd_eq
          refine Or.inr ⟨sent', [], ?_, by rw [List.append_nil, hmoved], ?_⟩
          · simp only [if_true, hfd]
            exact hdone
          · simp only [if_true, hfd, hnone]
            decide

-- ============================================================================
-- `socketWrite`
-- ============================================================================

theorem Sending.appendRemaining (h : Sending w i start fd sent pending) (remaining : List UInt8)
    (hbalance : pending ≠ [] ↔ (w.events fd).writable = true) :
    Balanced (appendRemaining w i remaining true) i start fd (sent ++ (pending ++ remaining)) := by
  unfold Tcp.appendRemaining
  split
  · rename_i hnil
    exact ⟨sent, pending, h, by rw [hnil, List.append_nil], hbalance⟩
  · rename_i hne
    have happended := h.buffer fun s => bufferBytes s.sendBuffer ++ remaining
    rw [h.pending_eq] at happended
    have hfd := happended.attached.fd_eq
    obtain ⟨hdone, hwritable⟩ := happended.registered
    refine ⟨sent, pending ++ remaining, ?_, rfl, iff_of_true (by simp [hne]) ?_⟩
    · simp only [hfd, happended.attached.register, if_true]
      exact hdone
    · simp only [hfd, happended.attached.register, if_true]
      exact hwritable

theorem writtenBytes_append (data : List UInt8) (result : WriteResult) :
    writtenBytes data result ++ (writeRemaining data result).1 = data := by
  cases result with
  | ok n => exact List.take_append_drop n data
  | error errno => rfl

theorem Sending.socketWrite {data : List UInt8} {result : WriteResult} {ret : Int}
    (h : Sending w i start fd sent pending)
    (hbalance : pending ≠ [] ↔ (w.events fd).writable = true)
    (hwrite : socketWrite w i data { result := result } = some (w', ret)) :
    Ended w' i fd ∨ ret = 0 ∧ Balanced w' i start fd (sent ++ pending ++ data) := by
  unfold Tcp.socketWrite at hwrite
  rw [if_neg (not_not.mpr h.attached.state)] at hwrite
  have hhas : hasSendBuffer (w.sockets i) = !pending.isEmpty := by
    unfold hasSendBuffer
    rw [h.pending_eq]
  rw [hhas] at hwrite
  cases pending with
  | cons b pending =>
      cases hwrite
      rw [List.append_assoc]
      exact Or.inr ⟨rfl, h.appendRemaining data hbalance⟩
  | nil =>
      have hwrote := h.wrote (writtenBytes data result)
      simp only [List.isEmpty_nil, Bool.not_true, Bool.false_eq_true, if_false, h.attached.fd_eq] at hwrite
      split at hwrite
      · obtain ⟨w₁, herror, heq⟩ := Option.map_eq_some_iff.mp hwrite
        cases heq
        exact Or.inl (hwrote.handleError herror)
      · rename_i remaining hremaining
        cases hwrite
        have hbalanced := hwrote.appendRemaining remaining hbalance
        have hall := writtenBytes_append data result
        rw [hremaining] at hall
        rw [List.nil_append, List.append_assoc, hall] at hbalanced
        rw [List.append_nil]
        exact Or.inr ⟨rfl, hbalanced⟩

-- ============================================================================
-- Runs
-- ============================================================================

/-- The connection runs in balance, or has ended. -/
def Outgoing.Sound (i start : Nat) (fd : Int) (o : Outgoing) : Prop :=
  Ended o.world i fd ∨ Balanced o.world i start fd o.queued

theorem Outgoing.Sound.intact {o : Outgoing} (h : o.Sound i start fd) : o.Intact i start := by
  intro hs
  rcases h with hended | ⟨sent, pending, h, hqueued, hbalance⟩
  · exact absurd hs hended.state
  · rw [h.attached.fd_eq, h.sent_eq, h.pending_eq]
    exact ⟨hqueued, hbalance⟩

theorem Outgoing.Sound.step {o o' : Outgoing} {op : OutOp} (h : o.Sound i start fd)
    (hstep : outStep i o op = some o') : o'.Sound i start fd := by
  cases op with
  | write data result =>
      obtain ⟨⟨w', ret⟩, hwrite, heq⟩ := Option.map_eq_some_iff.mp hstep
      cases heq
      rcases h with hended | ⟨sent, pending, h, hqueued, hbalance⟩
      · -- a socket that is not connected takes nothing
        unfold socketWrite at hwrite
        rw [if_pos hended.state] at hwrite
        cases hwrite
        exact Or.inl hended
      · rcases h.socketWrite hbalance hwrite with hended | ⟨hret, hbalanced⟩
        · exact Or.inl hended
        · refine Or.inr ?_
          rw [hqueued] at hbalanced
          simp only [hret, if_true]
          exact hbalanced
  | writable sends =>
      simp only [outStep] at hstep
      split at hstep
      · rename_i hwritable
        obtain ⟨w', hwrite, heq⟩ := Option.map_eq_some_iff.mp hstep
        cases heq
        rcases h with hended | ⟨sent, pending, h, hqueued, hbalance⟩
        · rw [hended.fd_eq, hended.writable] at hwritable
          cases hwritable
        · rw [h.attached.fd_eq] at hwritable
          rcases h.onWrite hbalance hwritable hwrite with hended | hbalanced
          · exact Or.inl hended
          · rw [hqueued] at hbalanced
            exact Or.inr hbalanced
      · cases hstep

/-- A connection is started, with nothing to send and nothing registered for writing. -/
theorem started_sound {registered : Bool} (hstart : startByType w i registered = some (w', true))
    (htype : (w.sockets i).type ≠ .kAcceptType)
    (hempty : bufferBytes (w.sockets i).sendBuffer = [])
    (hwritable : (w.events (w.sockets i).fd).writable = false) :
    Outgoing.Sound i w'.log.length (w.sockets i).fd ⟨w', []⟩ := by
  obtain ⟨hattached, hnone, hself, -⟩ := startByType_attached hstart htype hwritable
  refine Or.inr ⟨[], [], ⟨hattached, le_refl _, ?_, ?_⟩, rfl, ?_⟩
  · show written _ (List.drop w'.log.length w'.log) = []
    rw [List.drop_length]
    rfl
  · show bufferBytes (w'.sockets i).sendBuffer = []
    rw [hself]
    exact hempty
  · exact iff_of_false (fun h => h rfl) (Bool.eq_false_iff.mp hnone)

end

/-- A connection that starts with an empty send buffer loses no bytes, and waits
    to be writable exactly while it has bytes to send. -/
theorem outgoing_intact {w w' : World} {i : Nat} {registered : Bool}
    (hstart : startByType w i registered = some (w', true))
    (htype : (w.sockets i).type ≠ .kAcceptType)
    (hempty : bufferBytes (w.sockets i).sendBuffer = [])
    (hwritable : (w.events (w.sockets i).fd).writable = false) (ops : List OutOp) :
    Always (outStep i) (Outgoing.Intact i w'.log.length) ⟨w', []⟩ ops :=
  always_of_invariant (fun _ h => h.intact) (fun _ _ _ h hs => h.step hs)
    (started_sound hstart htype hempty hwritable)

/-- Descriptor 7, waiting in slot 1 to be started. -/
def waiting : World :=
  ((tcpInit 4 64).opened 7).modify 1 fun s =>
    { s with id := 1, fd := 7, type := .kConnectType, state := .kSocketConnecting }

/-- Three bytes go out one by one. -/
theorem three_bytes_intact : ∃ w', startByType waiting 1 true = some (w', true) ∧
    Always (outStep 1) (Outgoing.Intact 1 w'.log.length) ⟨w', []⟩
      [.write [1, 2, 3] (.ok 1), .writable [.ok 1, .error EAGAIN], .writable [.ok 1]] := by
  have hstart : startByType waiting 1 true = some (_, true) := rfl
  exact ⟨_, hstart, outgoing_intact hstart (by decide) rfl rfl _⟩

end ZServer.Tcp
