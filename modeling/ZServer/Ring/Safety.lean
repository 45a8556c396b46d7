/-
  ZServer.Ring.Safety

  What the ring promises in every reachable configuration: the indices are in
  order, no unclaimed item is overwritten, items are claimed in the order of
  their reservations, each is handed out at most once, and none is lost on the
  way from a push that returned true to a pop.  `ring_count_of_reachable` says
  how far `count` may be from the number of unclaimed items.
-/

import Mathlib.Tactic.Ring
import ZServer.Ring.Invariant

namespace ZServer

open Lib

variable {α : Type}

/-! ## Nothing reserved or claimed is dropped -/

/-- What a step does to the reservations and claims of the moving thread. -/
structure Ring.Serves (p p' : RingPc α) (queue queue' : Ring α) : Prop where
  handed : ∀ w ∈ queue.handed.map Prod.fst, w ∈ queue'.handed.map Prod.fst
  taking : ∀ w, p.taking = some w → w ∈ queue'.handed.map Prod.fst
  claim : ∀ w, w < queue'.readIndex → w < queue.readIndex ∨ p'.taking = some w
  owned : ∀ w, p.owned = some w → p'.owned = some w ∨ w < queue'.maximumReadIndex
  reserve : ∀ w, w < queue'.writeIndex → w < queue.writeIndex ∨ p'.owned = some w

/-- A step that changes neither the memory nor what the thread owns. -/
theorem Ring.Serves.refl {p p' : RingPc α} (queue : Ring α) (ht : p.taking = none)
    (ho : p.owned = p'.owned) : Ring.Serves p p' queue queue where
  handed := fun _ h => h
  taking := fun w h => by rw [ht] at h; cases h
  claim := fun _ h => Or.inl h
  owned := fun w h => Or.inl (by rw [← ho]; exact h)
  reserve := fun _ h => Or.inl h

theorem ring_step_serves {queue queue' : Ring α} {p p' : RingPc α} {call : RingCall α}
    (hs : ringStep queue p call = some (queue', p')) : Ring.Serves p p' queue queue' := by
  cases p with
  | idle => cases call <;> (cases hs; exact .refl queue rfl rfl)
  | pushReserve item cw =>
      simp only [ringStep] at hs
      split at hs
      · rename_i hcur
        cases hs
        refine ⟨fun _ h => h, fun _ h => (by cases h), fun _ h => Or.inl h,
          fun _ h => (by cases h), fun w hw => ?_⟩
        have hw' : w < cw + 1 := hw
        by_cases heq : w = cw
        · exact Or.inr (by rw [heq]; rfl)
        · exact Or.inl (by omega)
      · cases hs; exact .refl queue rfl rfl
  | pushStore item cw =>
      cases hs
      exact ⟨fun _ h => h, fun _ h => (by cases h), fun _ h => Or.inl h, fun _ h => Or.inl h,
        fun _ h => Or.inl h⟩
  | pushPublish item cw =>
      simp only [ringStep] at hs
      split at hs
      · cases hs
        refine ⟨fun _ h => h, fun _ h => (by cases h), fun _ h => Or.inl h, fun w hw => ?_,
          fun _ h => Or.inl h⟩
        cases hw
        exact Or.inr (Nat.lt_succ_self cw)
      · cases hs; exact .refl queue rfl rfl
  | pushCount cw =>
      cases hs
      exact ⟨fun _ h => h, fun _ h => (by cases h), fun _ h => Or.inl h, fun _ h => (by cases h),
        fun _ h => Or.inl h⟩
  | popClaim cr item =>
      simp only [ringStep] at hs
      split at hs
      · rename_i hcur
        cases hs
        refine ⟨fun _ h => h, fun _ h => (by cases h), fun w hw => ?_, fun _ h => (by cases h),
          fun _ h => Or.inl h⟩
        have hw' : w < cr + 1 := hw
        by_cases heq : w = cr
        · exact Or.inr (by rw [heq]; rfl)
        · exact Or.inl (by omega)
      · cases hs; exact .refl queue rfl rfl
  | popCount cr item =>
      cases hs
      refine ⟨fun w hw => ?_, fun w hw => ?_, fun _ h => Or.inl h, fun _ h => (by cases h),
        fun _ h => Or.inl h⟩
      · rw [List.map_append]
        exact List.mem_append_left _ hw
      · cases hw
        rw [List.map_append]
        exact List.mem_append_right _ (List.mem_singleton_self _)
  | pushReadRead item cw =>
      simp only [ringStep] at hs
      split at hs <;> (cases hs; exact .refl queue rfl rfl)
  | popReadMax cr =>
      simp only [ringStep] at hs
      split at hs <;> (cases hs; exact .refl queue rfl rfl)
  | pushReadWrite _ | pushRet _ | popReadRead | popLoad _ | popRet _ =>
      cases hs; exact .refl queue rfl rfl

/-- Every claim has been handed out or is being, every reservation is published
    or has a producer at work on it. -/
structure RingServed {ι : Type} (c : Config ι (Ring α) (RingPc α)) : Prop where
  claimed : ∀ w, w < c.shared.readIndex →
    w ∈ c.shared.handed.map Prod.fst ∨ ∃ i, (c.pcs i).taking = some w
  reserved : ∀ w, c.shared.maximumReadIndex ≤ w → w < c.shared.writeIndex →
    ∃ i, (c.pcs i).owned = some w

variable {ι : Type} [DecidableEq ι]

theorem RingServed.step {k : Nat} {c c' : Config ι (Ring α) (RingPc α)} {a : ι × RingCall α}
    (hsat : RingSat k c) (h : RingServed c) (hf : fire ringStep c a = some c') :
    RingServed c' := by
  obtain ⟨queue', p', hs, rfl⟩ := fire_eq_some.mp hf
  have hserves := ring_step_serves hs
  have hmoves := ring_step_moves hsat.shared (hsat.loc a.1) hs
  refine ⟨fun w (hw : w < queue'.readIndex) => ?_, fun w (hw : queue'.maximumReadIndex ≤ w)
    (hw' : w < queue'.writeIndex) => ?_⟩
  · rcases hserves.claim w hw with hold | hnew
    · rcases h.claimed w hold with hhanded | ⟨i, hi⟩
      · exact Or.inl (hserves.handed w hhanded)
      · by_cases hia : i = a.1
        · subst hia
          exact Or.inl (hserves.taking w hi)
        · exact Or.inr ⟨i, by simpa [hia] using hi⟩
    · exact Or.inr ⟨a.1, by simpa using hnew⟩
  · rcases hserves.reserve w hw' with hold | hnew
    · obtain ⟨i, hi⟩ := h.reserved w (Nat.le_trans hmoves.max_le hw) hold
      by_cases hia : i = a.1
      · subst hia
        rcases hserves.owned w hi with hown | hpub
        · exact ⟨a.1, by simpa using hown⟩
        · omega
      · exact ⟨i, by simpa [hia] using hi⟩
    · exact ⟨a.1, by simpa using hnew⟩

theorem ring_served_of_reachable [Inhabited α] {k : Nat} {c : Config ι (Ring α) (RingPc α)}
    (h : Reachable (fire ringStep) (ringInit (2 ^ k)) c) : RingServed c := by
  have hboth : RingSat k c ∧ RingServed c := by
    refine h.invariant (J := fun c => RingSat k c ∧ RingServed c) ⟨ringInit_sat k, ?_⟩
      fun c a c' hc hf => ⟨RingSat.step hc.1 hf, RingServed.step hc.1 hc.2 hf⟩
    exact ⟨fun w hw => absurd hw (Nat.not_lt_zero w), fun w _ hw => absurd hw (Nat.not_lt_zero w)⟩
  exact hboth.2

/-! ## The count -/

/-- What the count has still to learn of a thread's push or pop. -/
def RingPc.uncounted : RingPc α → ℤ
  | .pushCount _ => 1
  | .popCount _ _ => -1
  | _ => 0

/-- Published items less claimed ones, as `count` will show them. -/
theorem ring_step_count {queue queue' : Ring α} {p p' : RingPc α} {call : RingCall α}
    (hs : ringStep queue p call = some (queue', p')) :
    queue'.count - (queue'.maximumReadIndex - queue'.readIndex : ℤ) + p'.uncounted =
      queue.count - (queue.maximumReadIndex - queue.readIndex : ℤ) + p.uncounted := by
  cases p with
  | idle => cases call <;> (cases hs; rfl)
  | pushPublish item cw =>
      simp only [ringStep] at hs
      split at hs
      · rename_i hcur
        cases hs
        simp only [RingPc.uncounted, hcur]
        push_cast
        ring
      · cases hs; rfl
  | pushCount cw =>
      cases hs
      simp only [RingPc.uncounted]
      ring
  | popClaim cr item =>
      simp only [ringStep] at hs
      split at hs
      · rename_i hcur
        cases hs
        simp only [RingPc.uncounted, hcur]
        push_cast
        ring
      · cases hs; rfl
  | popCount cr item =>
      cases hs
      simp only [RingPc.uncounted]
      ring
  | pushReadRead _ _ | pushReserve _ _ | popReadMax _ =>
      simp only [ringStep] at hs
      split at hs <;> (cases hs; rfl)
  | pushReadWrite _ | pushStore _ _ | pushRet _ | popReadRead | popLoad _ | popRet _ =>
      cases hs; rfl

/-- The count is the number of unclaimed items, but for the pushes and pops
    that have not reached their atomic addition. -/
theorem ring_count_of_reachable {ι : Type} [DecidableEq ι] [Fintype ι] [Inhabited α] {size : Nat}
    {c : Config ι (Ring α) (RingPc α)} (h : Reachable (fire ringStep) (ringInit size) c) :
    c.shared.count + ∑ i, (c.pcs i).uncounted =
      c.shared.maximumReadIndex - c.shared.readIndex := by
  have hacc : c.shared.count - (c.shared.maximumReadIndex - c.shared.readIndex : ℤ) +
      ∑ i, (c.pcs i).uncounted = 0 := by
    refine h.invariant (J := fun c : Config ι (Ring α) (RingPc α) =>
      c.shared.count - (c.shared.maximumReadIndex - c.shared.readIndex : ℤ) +
        ∑ i, (c.pcs i).uncounted = 0) ?_ fun c a c' hc hf => ?_
    · simp [ringInit, ringOfSize, RingPc.uncounted]
    · rw [← hc]
      exact fire_sum (F := fun queue : Ring α =>
        queue.count - (queue.maximumReadIndex - queue.readIndex : ℤ))
        (fun _ _ _ _ hs => ring_step_count hs) hf
  omega

/-! ## Safety -/

/-- The safety properties of the ring, in one configuration. -/
structure RingSafe (c : Config ι (Ring α) (RingPc α)) : Prop where
  ordered : c.shared.readIndex ≤ c.shared.maximumReadIndex ∧
    c.shared.maximumReadIndex ≤ c.shared.writeIndex ∧
    c.shared.writeIndex - c.shared.readIndex ≤ c.shared.size - 1
  /-- the slot a producer is about to fill holds no other unclaimed item -/
  no_overwrite : ∀ i item cw, c.pcs i = .pushStore item cw →
    ∀ w, c.shared.readIndex ≤ w → w < c.shared.writeIndex →
      countToIndex c.shared w = countToIndex c.shared cw → w = cw
  /-- an item whose push returned true has been claimed or is in its slot -/
  not_lost : ∀ w ∈ c.shared.accepted, ∃ x, c.shared.reserved[w]? = some x ∧
    ((w < c.shared.readIndex ∧ c.shared.claimed[w]? = some x) ∨
      (c.shared.readIndex ≤ w ∧ w < c.shared.maximumReadIndex ∧
        c.shared.items (countToIndex c.shared w) = x))
  /-- a claimed item has been returned, or its pop is about to return it -/
  claimed_handed : ∀ w, w < c.shared.readIndex → (∃ x, (w, x) ∈ c.shared.handed) ∨
    ∃ i x, c.pcs i = .popCount w x
  /-- no two pops return the same push's item -/
  handed_once : (c.shared.handed.map Prod.fst).Nodup
  handed_item : ∀ w x, (w, x) ∈ c.shared.handed → c.shared.claimed[w]? = some x
  /-- pops claim the items in the order of the reservations -/
  fifo : c.shared.claimed = c.shared.reserved.take c.shared.readIndex

theorem RingPc.taking_eq_some {p : RingPc α} {w : Nat} (h : p.taking = some w) :
    ∃ x, p = .popCount w x := by
  cases p with
  | popCount cr x => cases h; exact ⟨x, rfl⟩
  | _ => cases h

/-- For every power-of-two size and every interleaving the ring is safe. -/
theorem ring_safe [Inhabited α] {k : Nat} {c : Config ι (Ring α) (RingPc α)}
    (h : Reachable (fire ringStep) (ringInit (2 ^ k)) c) : RingSafe c := by
  have hsat := ring_sat_of_reachable h
  have hserved := ring_served_of_reachable h
  have hJ := hsat.shared
  have hrd := hJ.read_le
  have hmax := hJ.max_le
  have hwr := hJ.write_lt
  have hclaimed : ∀ w x, w < c.shared.readIndex → c.shared.reserved[w]? = some x →
      c.shared.claimed[w]? = some x := by
    intro w x hw hres
    rw [hJ.claimed_eq, List.getElem?_take_of_lt hw]
    exact hres
  refine ⟨⟨hrd, hmax, by omega⟩, ?_, ?_, ?_, hJ.handed_nodup, ?_, hJ.claimed_eq⟩
  · intro i item cw hpc w hw hw' heq
    have hL := hsat.loc i
    rw [hpc] at hL
    obtain ⟨hge, hlt, -⟩ := hL
    exact hJ.slot_inj hw (by omega) (by omega) (by omega) heq
  · intro w hacc
    have hw := hJ.accepted_lt w hacc
    have hlen : w < c.shared.reserved.length := by
      rw [hJ.reserved_length]
      omega
    refine ⟨c.shared.reserved[w], List.getElem?_eq_getElem hlen, ?_⟩
    rcases Nat.lt_or_ge w c.shared.readIndex with hlt | hge
    · exact Or.inl ⟨hlt, hclaimed w _ hlt (List.getElem?_eq_getElem hlen)⟩
    · have hkept := hJ.kept w hge hw
      rw [List.getElem?_eq_getElem hlen] at hkept
      exact Or.inr ⟨hge, hw, (Option.some.inj hkept).symm⟩
  · intro w hw
    rcases hserved.claimed w hw with hhanded | ⟨i, hi⟩
    · obtain ⟨⟨w', x⟩, hmem, rfl⟩ := List.mem_map.mp hhanded
      exact Or.inl ⟨x, hmem⟩
    · obtain ⟨x, hx⟩ := RingPc.taking_eq_some hi
      exact Or.inr ⟨i, x, hx⟩
  · intro w x hmem
    obtain ⟨hlt, hres⟩ := hJ.handed_item w x hmem
    exact hclaimed w x hlt hres

/-- A push by one thread and a pop by another in a ring of four slots. -/
theorem ring_safe_push_pop :
    let run : List (Fin 2 × RingCall Nat) :=
      (0, .push 7) :: List.replicate 6 (0, .pop) ++ List.replicate 6 (1, .pop)
    ∃ c, runFrom (fire ringStep) (ringInit (2 ^ 2)) run = some c ∧
      c.shared.handed = [(0, 7)] ∧ RingSafe c := by
  intro run
  have hrun : ∃ c, runFrom (fire ringStep) (ringInit (2 ^ 2)) run = some c ∧
      c.shared.handed = [(0, 7)] := ⟨_, rfl, rfl⟩
  obtain ⟨c, hc, hhanded⟩ := hrun
  exact ⟨c, hc, hhanded, ring_safe ⟨run, hc⟩⟩

end ZServer
