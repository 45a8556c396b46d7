/-
  ZServer.Event.MsgQueue

  The event queue of `src/event_msgqueue.c` (built with LOCKFREE): a lock-free
  ring and a socket pair.  `emPush`, run by any thread, pushes a message and
  sends one wake-up byte when it then reads a count of 1; `popMsgqueue`, run by
  the event-loop thread when `popFd` is readable, receives up to 64 bytes and
  pops until the ring answers NULL.

  `emStep` is one atomic step of one thread.  The steps inside the ring are
  those of `ringStep`, and `Em.ring` is the view under which they are.
-/

import ZServer.Ring.Safety

namespace ZServer

open Lib

/-- `struct em`: the ring and the bytes under way from `pushFd` to `popFd`. -/
structure Em (α : Type) where
  queue : Ring α
  pending : Nat

/-- Where a thread stands in `emPush` or `popMsgqueue`. -/
inductive EmPc (α : Type) where
  /-- a producer outside `emPush` -/
  | outside
  /-- in `arrayLockFreeQueuePush`; at `pushRet true` the next access is the
      read of the count -/
  | push (pc : RingPc α)
  /-- `send(msgq->pushFd, buf, 1, 0)` -/
  | send
  /-- the event loop outside `popMsgqueue` -/
  | waiting
  /-- in `arrayLockFreeQueuePop` -/
  | pop (pc : RingPc α)
  /-- in `msgq->callback(qdata, msgq->cbarg)` -/
  | callback (qdata : α)
  deriving DecidableEq, Repr

variable {α : Type}

/-- One atomic step; `msg` is what a producer outside `emPush` pushes next. -/
def emStep (msgq : Em α) (pc : EmPc α) (msg : α) : Option (Em α × EmPc α) :=
  match pc with
  | .outside => some (msgq, .push (.pushReadWrite msg))
  | .push (.pushRet true) =>
      -- `arrayLockFreeQueueSize(msgq->queue) == 1`
      if ringCount msgq.queue = 1 then some (msgq, .send) else some (msgq, .outside)
  | .push (.pushRet false) => some (msgq, .outside)
  | .push pc =>
      (ringStep msgq.queue pc (.push msg)).map fun r => ({ msgq with queue := r.1 }, .push r.2)
  | .send => some ({ msgq with pending := msgq.pending + 1 }, .outside)
  | .waiting =>
      -- `popFd` is readable, `recv(fd, buf, sizeof(buf), 0)`
      if 1 ≤ msgq.pending then
        some ({ msgq with pending := msgq.pending - min 64 msgq.pending }, .pop .popReadRead)
      else none
  | .pop (.popRet none) => some (msgq, .waiting)
  | .pop (.popRet (some qdata)) => some (msgq, .callback qdata)
  | .pop pc => (ringStep msgq.queue pc .pop).map fun r => ({ msgq with queue := r.1 }, .pop r.2)
  | .callback _ => some (msgq, .pop .popReadRead)

/-- Thread `loop` runs the event loop, all others are producers. -/
def emInit {ι : Type} [DecidableEq ι] [Inhabited α] (loop : ι) (size : Nat) :
    Config ι (Em α) (EmPc α) :=
  ⟨⟨ringOfSize size, 0⟩, fun i => if i = loop then .waiting else .outside⟩

/-! ## The ring inside -/

/-- The program point as the ring sees it. -/
def EmPc.toRing : EmPc α → RingPc α
  | .push pc => pc
  | .pop pc => pc
  | _ => .idle

/-- Before it returns, a push inside `emPush` only works on the ring. -/
theorem em_step_push {msgq msgq' : Em α} {pc : RingPc α} {p' : EmPc α} {msg : α}
    (hret : ∀ ret, pc ≠ .pushRet ret) (hs : emStep msgq (.push pc) msg = some (msgq', p')) :
    ∃ pc', p' = .push pc' ∧ msgq'.pending = msgq.pending ∧
      ringStep msgq.queue pc (.push msg) = some (msgq'.queue, pc') := by
  have hmap : (ringStep msgq.queue pc (.push msg)).map
      (fun r => (({ msgq with queue := r.1 } : Em α), EmPc.push r.2)) = some (msgq', p') := by
    rw [← hs]
    cases pc with
    | pushRet ret => exact absurd rfl (hret ret)
    | _ => rfl
  obtain ⟨r, hr, hpair⟩ := Option.map_eq_some_iff.mp hmap
  cases hpair
  exact ⟨r.2, rfl, rfl, hr⟩

/-- Before it returns, a pop inside `popMsgqueue` only works on the ring. -/
theorem em_step_pop {msgq msgq' : Em α} {pc : RingPc α} {p' : EmPc α} {msg : α}
    (hret : ∀ ret, pc ≠ .popRet ret) (hs : emStep msgq (.pop pc) msg = some (msgq', p')) :
    ∃ pc', p' = .pop pc' ∧ msgq'.pending = msgq.pending ∧
      ringStep msgq.queue pc .pop = some (msgq'.queue, pc') := by
  have hmap : (ringStep msgq.queue pc .pop).map
      (fun r => (({ msgq with queue := r.1 } : Em α), EmPc.pop r.2)) = some (msgq', p') := by
    rw [← hs]
    cases pc with
    | popRet ret => exact absurd rfl (hret ret)
    | _ => rfl
  obtain ⟨r, hr, hpair⟩ := Option.map_eq_some_iff.mp hmap
  cases hpair
  exact ⟨r.2, rfl, rfl, hr⟩

/-- Every step is a step of the ring, or the ring does not notice it. -/
theorem em_step_ring {msgq msgq' : Em α} {p p' : EmPc α} {msg : α}
    (hs : emStep msgq p msg = some (msgq', p')) :
    (msgq'.queue = msgq.queue ∧ p'.toRing = p.toRing) ∨
      ∃ call, ringStep msgq.queue p.toRing call = some (msgq'.queue, p'.toRing) := by
  cases p with
  | outside =>
      cases hs
      exact Or.inr ⟨.push msg, rfl⟩
  | push pc =>
      by_cases hret : ∃ ret, pc = .pushRet ret
      · obtain ⟨ret, rfl⟩ := hret
        refine Or.inr ⟨.push msg, ?_⟩
        cases ret with
        | false => cases hs; rfl
        | true =>
            simp only [emStep] at hs
            split at hs <;> (cases hs; rfl)
      · obtain ⟨pc', rfl, -, hr⟩ := em_step_push (fun ret h => hret ⟨ret, h⟩) hs
        exact Or.inr ⟨.push msg, hr⟩
  | send => cases hs; exact Or.inl ⟨rfl, rfl⟩
  | waiting =>
      simp only [emStep] at hs
      split at hs
      · cases hs; exact Or.inr ⟨.pop, rfl⟩
      · cases hs
  | pop pc =>
      by_cases hret : ∃ ret, pc = .popRet ret
      · obtain ⟨ret, rfl⟩ := hret
        refine Or.inr ⟨.pop, ?_⟩
        cases ret with
        | none => cases hs; rfl
        | some qdata => cases hs; rfl
      · obtain ⟨pc', rfl, -, hr⟩ := em_step_pop (fun ret h => hret ⟨ret, h⟩) hs
        exact Or.inr ⟨.pop, hr⟩
  | callback qdata => cases hs; exact Or.inr ⟨.pop, rfl⟩

/-- The configuration as the ring sees it. -/
def emRing {ι : Type} (c : Config ι (Em α) (EmPc α)) : Config ι (Ring α) (RingPc α) :=
  ⟨c.shared.queue, EmPc.toRing ∘ c.pcs⟩

/-- The event queue drives its ring as any threads could. -/
theorem em_ring_reachable {ι : Type} [DecidableEq ι] [Inhabited α] {loop : ι} {size : Nat}
    {c : Config ι (Em α) (EmPc α)} (h : Reachable (fire emStep) (emInit loop size) c) :
    Reachable (fire ringStep) (ringInit size) (emRing c) := by
  have hsim := h.simulate ringStep Em.queue EmPc.toRing
    fun _ _ _ _ _ hs => em_step_ring hs
  have hinit : (EmPc.toRing ∘ (emInit loop size : Config ι (Em α) (EmPc α)).pcs) =
      fun _ => .idle := by
    funext i
    show (if i = loop then EmPc.waiting else EmPc.outside).toRing = .idle
    split <;> rfl
  rw [hinit] at hsim
  exact hsim

end ZServer
