/-
  ZServer.Ring.Answers

  When "full" and "empty" are honest answers.

  A push compares a `writeIndex` it read earlier with the `readIndex` it reads
  now, modulo the size.  The answer "full" is honest when `readIndex` has not
  overtaken that stale `writeIndex`; a pop's "empty" is honest when fewer than
  `size` items were published past the `readIndex` it started from.  Past those
  points the comparison says nothing, and the ring gives false answers.
-/

import ZServer.Ring.Invariant

namespace ZServer

open Lib

variable {α : Type} {ι : Type} [DecidableEq ι]

/-! ## Honest answers -/

/-- No slot is left for a push. -/
def Ring.Full (queue : Ring α) : Prop := queue.writeIndex - queue.readIndex = queue.size - 1

/-- No published item is left for a pop. -/
def Ring.Empty (queue : Ring α) : Prop := queue.readIndex = queue.maximumReadIndex

instance (queue : Ring α) : Decidable queue.Full := inferInstanceAs (Decidable (_ = _))

instance (queue : Ring α) : Decidable queue.Empty := inferInstanceAs (Decidable (_ = _))

/-- A thread about to return false from a push has seen the ring full during
    the call, one about to return empty-handed from a pop has seen it empty. -/
def HonestAnswers (w : Watched ι (Ring α) (RingPc α)) : Prop :=
  ∀ i, (w.config.pcs i = .pushRet false → ∃ queue ∈ w.during i, queue.Full) ∧
    (w.config.pcs i = .popRet none → ∃ queue ∈ w.during i, queue.Empty)

instance [Fintype ι] [DecidableEq α] (w : Watched ι (Ring α) (RingPc α)) :
    Decidable (HonestAnswers w) :=
  inferInstanceAs (Decidable (∀ _, _))

/-- The condition on a step: a test that answers "full" finds `readIndex` not
    past the write index read before, and one that answers "empty" finds
    `maximumReadIndex` less than a lap past the read index read before. -/
def FreshTest (w : Watched ι (Ring α) (RingPc α)) (a : ι × RingCall α) : Prop :=
  match w.config.pcs a.1 with
  | .pushReadRead _ currentWriteIndex =>
      countToIndex w.config.shared (currentWriteIndex + 1) =
          countToIndex w.config.shared w.config.shared.readIndex →
        w.config.shared.readIndex ≤ currentWriteIndex
  | .popReadMax currentReadIndex =>
      countToIndex w.config.shared currentReadIndex =
          countToIndex w.config.shared w.config.shared.maximumReadIndex →
        w.config.shared.maximumReadIndex < currentReadIndex + w.config.shared.size
  | _ => True

instance (w : Watched ι (Ring α) (RingPc α)) (a : ι × RingCall α) : Decidable (FreshTest w a) := by
  unfold FreshTest
  split <;> infer_instance

/-! ## The two tests -/

/-- A fresh "full" is true of the moment at which `writeIndex` was read. -/
theorem Ring.Ok.full_of_test {k : Nat} {queue seen : Ring α} (h : queue.Ok k) (hseen : seen.Ok k)
    (hmono : seen.readIndex ≤ queue.readIndex)
    (htest : countToIndex queue (seen.writeIndex + 1) = countToIndex queue queue.readIndex)
    (hfresh : queue.readIndex ≤ seen.writeIndex) : seen.Full := by
  have hlt := hseen.write_lt
  have hsize : seen.size = queue.size := hseen.size_eq.trans h.size_eq.symm
  rw [countToIndex_eq_mod h.size_eq, countToIndex_eq_mod h.size_eq] at htest
  rcases Nat.lt_or_ge (seen.writeIndex + 1) (queue.readIndex + queue.size) with hin | hlap
  · -- within one lap of `readIndex` the two counts would be equal
    have heq : seen.writeIndex + 1 = queue.readIndex :=
      eq_of_mod_eq_of_window (by omega) hin (Nat.le_refl _) (by omega) htest
    omega
  · show seen.writeIndex - seen.readIndex = seen.size - 1
    omega

/-- A fresh "empty" is true of the moment at which it is given. -/
theorem Ring.Ok.empty_of_test {k : Nat} {queue : Ring α} (h : queue.Ok k) {cr : Nat}
    (hcr : cr ≤ queue.readIndex)
    (htest : countToIndex queue cr = countToIndex queue queue.maximumReadIndex)
    (hfresh : queue.maximumReadIndex < cr + queue.size) : queue.Empty := by
  have hrd := h.read_le
  rw [countToIndex_eq_mod h.size_eq, countToIndex_eq_mod h.size_eq] at htest
  have heq : cr = queue.maximumReadIndex :=
    eq_of_mod_eq_of_window (Nat.le_refl _) (by omega) (by omega) hfresh htest
  show queue.readIndex = queue.maximumReadIndex
  omega

/-! ## Where the program points come from -/

theorem ringStep_to_pushReadRead {queue queue' : Ring α} {p : RingPc α} {call : RingCall α}
    {item : α} {cw : Nat} (hs : ringStep queue p call = some (queue', .pushReadRead item cw)) :
    queue' = queue ∧ cw = queue.writeIndex := by
  cases p with
  | idle => cases call <;> cases hs
  | pushReadWrite x => cases hs; exact ⟨rfl, rfl⟩
  | pushReadRead _ _ | pushReserve _ _ | pushPublish _ _ | popReadMax _ | popClaim _ _ =>
      simp only [ringStep] at hs
      split at hs <;> cases hs
  | _ => cases hs

theorem ringStep_to_pushRet_false {queue queue' : Ring α} {p : RingPc α} {call : RingCall α}
    (hs : ringStep queue p call = some (queue', .pushRet false)) :
    ∃ item cw, p = .pushReadRead item cw ∧ queue' = queue ∧
      countToIndex queue (cw + 1) = countToIndex queue queue.readIndex := by
  cases p with
  | idle => cases call <;> cases hs
  | pushReadRead item cw =>
      simp only [ringStep] at hs
      split at hs
      · rename_i htest
        cases hs
        exact ⟨item, cw, rfl, rfl, htest⟩
      · cases hs
  | pushReserve _ _ | pushPublish _ _ | popReadMax _ | popClaim _ _ =>
      simp only [ringStep] at hs
      split at hs <;> cases hs
  | _ => cases hs

theorem ringStep_to_popRet_none {queue queue' : Ring α} {p : RingPc α} {call : RingCall α}
    (hs : ringStep queue p call = some (queue', .popRet none)) :
    ∃ cr, p = .popReadMax cr ∧ queue' = queue ∧
      countToIndex queue cr = countToIndex queue queue.maximumReadIndex := by
  cases p with
  | idle => cases call <;> cases hs
  | popReadMax cr =>
      simp only [ringStep] at hs
      split at hs
      · rename_i htest
        cases hs
        exact ⟨cr, rfl, rfl, htest⟩
      · cases hs
  | pushReadRead _ _ | pushReserve _ _ | pushPublish _ _ | popClaim _ _ =>
      simp only [ringStep] at hs
      split at hs <;> cases hs
  | _ => cases hs

/-! ## The invariant with the history of each call -/

/-- A push that holds a write index has seen it during its call, when
    `readIndex` was no larger than now. -/
def SeenWrite (k : Nat) (w : Watched ι (Ring α) (RingPc α)) : Prop :=
  ∀ i item cw, w.config.pcs i = .pushReadRead item cw →
    ∃ seen ∈ w.during i, seen.Ok k ∧ seen.writeIndex = cw ∧
      seen.readIndex ≤ w.config.shared.readIndex

/-- The invariant of the watched ring. -/
structure WatchedOk (k : Nat) (w : Watched ι (Ring α) (RingPc α)) : Prop where
  sat : RingSat k w.config
  seen : SeenWrite k w
  honest : HonestAnswers w

theorem WatchedOk.step {k : Nat} {w w' : Watched ι (Ring α) (RingPc α)} {a : ι × RingCall α}
    (h : WatchedOk k w) (hs : watch ringStep RingPc.isIdle w a = some w') (hfresh : FreshTest w a) :
    WatchedOk k w' := by
  obtain ⟨c', hf, rfl⟩ := watch_eq_some.mp hs
  have hsat' := RingSat.step h.sat hf
  obtain ⟨queue', p', hstep, rfl⟩ := fire_eq_some.mp hf
  have hmoves := ring_step_moves h.sat.shared (h.sat.loc a.1) hstep
  -- what a thread has seen it still has seen, unless it starts a new call
  have hkeep : ∀ i, ¬ (i = a.1 ∧ (w.config.pcs i).isIdle = true) → ∀ queue ∈ w.during i,
      queue ∈ (if i = a.1 ∧ (w.config.pcs i).isIdle = true then [queue']
        else queue' :: w.during i) := by
    intro i hi queue hq
    rw [if_neg hi]
    exact List.mem_cons_of_mem _ hq
  have hnow : ∀ i, queue' ∈ (if i = a.1 ∧ (w.config.pcs i).isIdle = true then [queue']
        else queue' :: w.during i) := by
    intro i
    split <;> exact List.mem_cons_self
  refine ⟨hsat', fun i item cw hpc => ?_, fun i => ⟨fun hpc => ?_, fun hpc => ?_⟩⟩
  · by_cases hi : i = a.1
    · subst hi
      simp only [Function.update_self] at hpc
      subst hpc
      obtain ⟨rfl, rfl⟩ := ringStep_to_pushReadRead hstep
      exact ⟨_, hnow a.1, h.sat.shared, rfl, Nat.le_refl _⟩
    · simp only [Function.update_of_ne hi] at hpc
      obtain ⟨seen, hmem, hok, hcw, hle⟩ := h.seen i item cw hpc
      exact ⟨seen, hkeep i (fun hia => hi hia.1) seen hmem, hok, hcw,
        Nat.le_trans hle hmoves.read_le⟩
  · by_cases hi : i = a.1
    · subst hi
      simp only [Function.update_self] at hpc
      subst hpc
      obtain ⟨item, cw, hp, rfl, htest⟩ := ringStep_to_pushRet_false hstep
      obtain ⟨seen, hmem, hok, rfl, hle⟩ := h.seen a.1 item cw hp
      have hrd : w.config.shared.readIndex ≤ seen.writeIndex := by
        simp only [FreshTest, hp] at hfresh
        exact hfresh htest
      refine ⟨seen, hkeep a.1 (fun hidle => ?_) seen hmem,
        h.sat.shared.full_of_test hok hle htest hrd⟩
      rw [hp] at hidle
      cases hidle.2
    · simp only [Function.update_of_ne hi] at hpc
      obtain ⟨queue, hmem, hfull⟩ := (h.honest i).1 hpc
      exact ⟨queue, hkeep i (fun hia => hi hia.1) queue hmem, hfull⟩
  · by_cases hi : i = a.1
    · subst hi
      simp only [Function.update_self] at hpc
      subst hpc
      obtain ⟨cr, hp, rfl, htest⟩ := ringStep_to_popRet_none hstep
      have hcr : cr ≤ w.config.shared.readIndex := by
        have hL := h.sat.loc a.1
        rw [hp] at hL
        exact hL
      have hmax : w.config.shared.maximumReadIndex < cr + w.config.shared.size := by
        simp only [FreshTest, hp] at hfresh
        exact hfresh htest
      exact ⟨_, hnow a.1, h.sat.shared.empty_of_test hcr htest hmax⟩
    · simp only [Function.update_of_ne hi] at hpc
      obtain ⟨queue, hmem, hempty⟩ := (h.honest i).2 hpc
      exact ⟨queue, hkeep i (fun hia => hi hia.1) queue hmem, hempty⟩

/-! ## Runs -/

variable [Inhabited α]

/-- All threads idle at an empty ring, nothing seen. -/
def watchedInit (size : Nat) : Watched ι (Ring α) (RingPc α) := ⟨ringInit size, fun _ => []⟩

omit [DecidableEq ι] in
theorem watchedInit_ok (k : Nat) : WatchedOk k (watchedInit (2 ^ k) : Watched ι (Ring α) (RingPc α)) :=
  ⟨ringInit_sat k, fun _ _ _ h => (by cases h), fun _ => ⟨fun h => (by cases h), fun h => (by cases h)⟩⟩

/-- In every run whose tests are all fresh, every "full" and every "empty" is
    true of some instant of its call. -/
theorem honest_of_freshTests (k : Nat) {as : List (ι × RingCall α)}
    (hfresh : AllSteps (watch ringStep RingPc.isIdle) FreshTest (watchedInit (2 ^ k)) as) :
    Always (watch ringStep RingPc.isIdle) HonestAnswers (watchedInit (2 ^ k)) as :=
  always_of_allSteps (J := WatchedOk k) (fun _ h => h.honest)
    (fun _ _ _ h hs hok => h.step hs hok) (watchedInit_ok k) hfresh

/-- In a ring of two slots a second push is answered "full", and honestly so. -/
theorem honest_second_push :
    let run : List (Fin 2 × RingCall Nat) :=
      List.replicate 8 (0, .push 7) ++ List.replicate 3 (1, .push 7)
    Always (watch ringStep RingPc.isIdle) HonestAnswers (watchedInit 2) run :=
  honest_of_freshTests 1 (by decide)

/-- False answers.  A push reads `writeIndex`, another thread pushes and pops
    one item, and the empty ring of four slots is answered to be full.  A pop
    reads `readIndex`, one item is popped and the ring filled up to a lap past
    that index, and the full ring is answered to be empty. -/
theorem dishonest_stale_tests :
    let pushRun : List (Fin 2 × RingCall Nat) :=
      List.replicate 2 (0, .push 7) ++ List.replicate 8 (1, .push 7) ++
        List.replicate 5 (1, .pop) ++ [(0, .push 7)]
    let popRun : List (Fin 2 × RingCall Nat) :=
      List.replicate 24 (0, .push 7) ++ List.replicate 2 (1, .pop) ++
        List.replicate 7 (0, .pop) ++ List.replicate 8 (0, .push 7) ++ [(1, .pop)]
    ¬ Always (watch ringStep RingPc.isIdle) HonestAnswers (watchedInit 4) pushRun ∧
      ¬ Always (watch ringStep RingPc.isIdle) HonestAnswers (watchedInit 4) popRun := by
  decide +kernel

end ZServer
