/-
  ZServer.Ring.Invariant

  The inductive invariant of the ring under any interleaving.

    * `Ring.Ok` — what holds of the shared memory and its history.
    * `RingPc.Ok` — what a thread knows at its program point.  A stale index
      only counts while the shared index still has the value that was read, so
      the assertions say what follows in that case.
    * `RingPc.Apart` — no two threads own the same reservation or claim.

  `ring_step_own` is the step of the thread that moves, `ring_step_moves` says
  what others see of it, and `RingPc.Ok.stable` that nothing they know is lost.
-/

import ZServer.Lib.Threads
import ZServer.Ring.Basic

namespace ZServer

open Lib

variable {α : Type}

/-! ## The invariant -/

/-- The reservation a producer has made and not yet published. -/
def RingPc.owned : RingPc α → Option Nat
  | .pushStore _ currentWriteIndex => some currentWriteIndex
  | .pushPublish _ currentWriteIndex => some currentWriteIndex
  | _ => none

/-- The item a consumer has claimed and not yet returned. -/
def RingPc.taking : RingPc α → Option Nat
  | .popCount currentReadIndex _ => some currentReadIndex
  | _ => none

/-- The shared memory and its history. -/
structure Ring.Ok (k : Nat) (queue : Ring α) : Prop where
  size_eq : queue.size = 2 ^ k
  read_le : queue.readIndex ≤ queue.maximumReadIndex
  max_le : queue.maximumReadIndex ≤ queue.writeIndex
  write_lt : queue.writeIndex < queue.readIndex + queue.size
  reserved_length : queue.reserved.length = queue.writeIndex
  claimed_eq : queue.claimed = queue.reserved.take queue.readIndex
  /-- a published item that nobody has claimed is in its slot -/
  kept : ∀ w, queue.readIndex ≤ w → w < queue.maximumReadIndex →
    queue.reserved[w]? = some (queue.items (countToIndex queue w))
  accepted_lt : ∀ w ∈ queue.accepted, w < queue.maximumReadIndex
  handed_nodup : (queue.handed.map Prod.fst).Nodup
  handed_item : ∀ w x, (w, x) ∈ queue.handed → w < queue.readIndex ∧ queue.reserved[w]? = some x

/-- What a thread knows at its program point. -/
def RingPc.Ok (queue : Ring α) : RingPc α → Prop
  | .pushReadRead _ currentWriteIndex => currentWriteIndex ≤ queue.writeIndex
  | .pushReserve _ currentWriteIndex => currentWriteIndex ≤ queue.writeIndex ∧
      (queue.writeIndex = currentWriteIndex →
        currentWriteIndex + 1 < queue.readIndex + queue.size)
  | .pushStore item currentWriteIndex => queue.maximumReadIndex ≤ currentWriteIndex ∧
      currentWriteIndex < queue.writeIndex ∧ queue.reserved[currentWriteIndex]? = some item
  | .pushPublish item currentWriteIndex => queue.maximumReadIndex ≤ currentWriteIndex ∧
      currentWriteIndex < queue.writeIndex ∧ queue.reserved[currentWriteIndex]? = some item ∧
      queue.items (countToIndex queue currentWriteIndex) = item
  | .pushCount currentWriteIndex => currentWriteIndex < queue.maximumReadIndex
  | .popReadMax currentReadIndex => currentReadIndex ≤ queue.readIndex
  | .popLoad currentReadIndex => currentReadIndex ≤ queue.readIndex ∧
      (queue.readIndex = currentReadIndex → currentReadIndex < queue.maximumReadIndex)
  | .popClaim currentReadIndex item => currentReadIndex ≤ queue.readIndex ∧
      (queue.readIndex = currentReadIndex → currentReadIndex < queue.maximumReadIndex ∧
        queue.reserved[currentReadIndex]? = some item)
  | .popCount currentReadIndex item => currentReadIndex < queue.readIndex ∧
      queue.reserved[currentReadIndex]? = some item ∧
      currentReadIndex ∉ queue.handed.map Prod.fst
  | _ => True

/-- Two threads own different reservations and different claims. -/
def RingPc.Apart (p q : RingPc α) : Prop :=
  (∀ w, p.owned = some w → q.owned ≠ some w) ∧ (∀ w, p.taking = some w → q.taking ≠ some w)

theorem RingPc.Apart.symm {p q : RingPc α} (h : p.Apart q) : q.Apart p :=
  ⟨fun w hq hp => h.1 w hp hq, fun w hq hp => h.2 w hp hq⟩

/-! ## Slots -/

/-- Between `readIndex` and `readIndex + size` no two counts share a slot. -/
theorem Ring.Ok.slot_inj {k : Nat} {queue : Ring α} (h : queue.Ok k) {a b : Nat}
    (ha : queue.readIndex ≤ a) (ha' : a < queue.readIndex + queue.size)
    (hb : queue.readIndex ≤ b) (hb' : b < queue.readIndex + queue.size)
    (heq : countToIndex queue a = countToIndex queue b) : a = b := by
  rw [countToIndex_eq_mod h.size_eq, countToIndex_eq_mod h.size_eq] at heq
  exact eq_of_mod_eq_of_window ha ha' hb hb' heq

/-! ## The step of the moving thread -/

/-- The test for a full queue, passed with a write index that is still current,
    leaves room for one more reservation. -/
theorem Ring.Ok.room_of_test {k : Nat} {queue : Ring α} (h : queue.Ok k)
    (htest : countToIndex queue (queue.writeIndex + 1) ≠ countToIndex queue queue.readIndex) :
    queue.writeIndex + 1 < queue.readIndex + queue.size := by
  have hlt := h.write_lt
  rcases Nat.lt_or_ge (queue.writeIndex + 1) (queue.readIndex + queue.size) with hroom | hfull
  · exact hroom
  · -- one reservation further is exactly one lap ahead of `readIndex`
    have hlap : queue.writeIndex + 1 = queue.readIndex + queue.size := by omega
    rw [countToIndex_eq_mod h.size_eq, countToIndex_eq_mod h.size_eq, hlap,
      Nat.add_mod_right] at htest
    exact absurd rfl htest

/-- The test for an empty queue, passed with a read index that is still current,
    leaves a published item. -/
theorem Ring.Ok.item_of_test {k : Nat} {queue : Ring α} (h : queue.Ok k)
    (htest : countToIndex queue queue.readIndex ≠ countToIndex queue queue.maximumReadIndex) :
    queue.readIndex < queue.maximumReadIndex := by
  rcases Nat.lt_or_ge queue.readIndex queue.maximumReadIndex with hlt | hge
  · exact hlt
  · have heq : queue.readIndex = queue.maximumReadIndex := Nat.le_antisymm h.read_le hge
    exact absurd (by rw [heq]) htest

theorem ring_step_own {k : Nat} {queue queue' : Ring α} {p p' : RingPc α} {call : RingCall α}
    (hJ : queue.Ok k) (hL : p.Ok queue) (hs : ringStep queue p call = some (queue', p')) :
    queue'.Ok k ∧ p'.Ok queue' := by
  cases p with
  | idle =>
      cases call with
      | push item => cases hs; exact ⟨hJ, trivial⟩
      | pop => cases hs; exact ⟨hJ, trivial⟩
  | pushReadWrite item =>
      cases hs
      exact ⟨hJ, Nat.le_refl _⟩
  | pushReadRead item cw =>
      simp only [ringStep] at hs
      split at hs
      · cases hs; exact ⟨hJ, trivial⟩
      · rename_i htest
        cases hs
        refine ⟨hJ, hL, fun hcur => ?_⟩
        rw [← hcur] at htest ⊢
        exact hJ.room_of_test htest
  | pushReserve item cw =>
      simp only [ringStep] at hs
      split at hs
      · rename_i hcur
        cases hs
        have hroom := hL.2 hcur
        have hlen : queue.reserved.length = cw := hJ.reserved_length.trans hcur
        have hmax := hJ.max_le
        have hrd := hJ.read_le
        have hold : ∀ w x, queue.reserved[w]? = some x →
            (queue.reserved ++ [item])[w]? = some x := fun w x hw => by
          rw [List.getElem?_append_left (List.getElem?_eq_some_iff.mp hw).1]
          exact hw
        refine ⟨⟨hJ.size_eq, hJ.read_le, ?_, hroom, ?_, ?_, ?_, hJ.accepted_lt,
          hJ.handed_nodup, ?_⟩, ?_, ?_, ?_⟩
        · show queue.maximumReadIndex ≤ cw + 1
          omega
        · show (queue.reserved ++ [item]).length = cw + 1
          rw [List.length_append, hlen]
          rfl
        · show queue.claimed = (queue.reserved ++ [item]).take queue.readIndex
          rw [List.take_append_of_le_length (by omega)]
          exact hJ.claimed_eq
        · intro w hw hw'
          exact hold w _ (hJ.kept w hw hw')
        · intro w x hwx
          exact ⟨(hJ.handed_item w x hwx).1, hold w x (hJ.handed_item w x hwx).2⟩
        · show queue.maximumReadIndex ≤ cw
          omega
        · show cw < cw + 1
          omega
        · show (queue.reserved ++ [item])[cw]? = some item
          rw [← hlen]
          exact List.getElem?_concat_length
      · cases hs; exact ⟨hJ, trivial⟩
  | pushStore item cw =>
      cases hs
      obtain ⟨hge, hlt, hres⟩ := hL
      have hwr := hJ.write_lt
      have hrd := hJ.read_le
      refine ⟨⟨hJ.size_eq, hJ.read_le, hJ.max_le, hwr, hJ.reserved_length, hJ.claimed_eq, ?_,
        hJ.accepted_lt, hJ.handed_nodup, hJ.handed_item⟩, hge, hlt, hres, ?_⟩
      · intro w (hw : queue.readIndex ≤ w) (hw' : w < queue.maximumReadIndex)
        have hne : countToIndex queue w ≠ countToIndex queue cw := by
          intro heq
          have hw_eq : w = cw :=
            hJ.slot_inj hw (by omega) (by omega) (by omega) heq
          omega
        show queue.reserved[w]? =
          some (Function.update queue.items (countToIndex queue cw) item (countToIndex queue w))
        rw [Function.update_of_ne hne]
        exact hJ.kept w hw hw'
      · show Function.update queue.items (countToIndex queue cw) item (countToIndex queue cw) = item
        exact Function.update_self ..
  | pushPublish item cw =>
      simp only [ringStep] at hs
      split at hs
      · rename_i hcur
        cases hs
        obtain ⟨hge, hlt, hres, hslot⟩ := hL
        refine ⟨⟨hJ.size_eq, ?_, hlt, hJ.write_lt, hJ.reserved_length, hJ.claimed_eq, ?_, ?_,
          hJ.handed_nodup, hJ.handed_item⟩, ?_⟩
        · show queue.readIndex ≤ cw + 1
          have hrd := hJ.read_le
          omega
        · intro w hw hw'
          by_cases hwcw : w = cw
          · -- the item that becomes readable is the one this thread stored
            subst hwcw
            rw [← hslot] at hres
            exact hres
          · have hw'' : w < cw + 1 := hw'
            exact hJ.kept w hw (by omega)
        · intro w hw
          have hacc := hJ.accepted_lt w hw
          show w < cw + 1
          omega
        · show cw < cw + 1
          omega
      · cases hs
        exact ⟨hJ, hL⟩
  | pushCount cw =>
      cases hs
      refine ⟨⟨hJ.size_eq, hJ.read_le, hJ.max_le, hJ.write_lt, hJ.reserved_length, hJ.claimed_eq,
        hJ.kept, ?_, hJ.handed_nodup, hJ.handed_item⟩, trivial⟩
      intro w hw
      rcases List.mem_append.mp hw with hold | hnew
      · exact hJ.accepted_lt w hold
      · rw [List.mem_singleton.mp hnew]
        exact hL
  | pushRet ret => cases hs; exact ⟨hJ, trivial⟩
  | popReadRead =>
      cases hs
      exact ⟨hJ, Nat.le_refl _⟩
  | popReadMax cr =>
      simp only [ringStep] at hs
      split at hs
      · cases hs; exact ⟨hJ, trivial⟩
      · rename_i htest
        cases hs
        refine ⟨hJ, hL, fun hcur => ?_⟩
        rw [← hcur] at htest ⊢
        exact hJ.item_of_test htest
  | popLoad cr =>
      cases hs
      refine ⟨hJ, hL.1, fun hcur => ⟨hL.2 hcur, ?_⟩⟩
      exact hJ.kept cr (Nat.le_of_eq hcur) (hL.2 hcur)
  | popClaim cr item =>
      simp only [ringStep] at hs
      split at hs
      · rename_i hcur
        cases hs
        obtain ⟨hmax, hres⟩ := hL.2 hcur
        have hwr := hJ.write_lt
        refine ⟨⟨hJ.size_eq, hmax, hJ.max_le, ?_, hJ.reserved_length, ?_, ?_, hJ.accepted_lt,
          hJ.handed_nodup, ?_⟩, ?_, hres, ?_⟩
        · show queue.writeIndex < cr + 1 + queue.size
          omega
        · show queue.claimed ++ [item] = queue.reserved.take (cr + 1)
          rw [hJ.claimed_eq, hcur, List.take_add_one, hres]
          rfl
        · intro w hw hw'
          have hw'' : cr + 1 ≤ w := hw
          exact hJ.kept w (by omega) hw'
        · intro w x hwx
          have hold := hJ.handed_item w x hwx
          refine ⟨?_, hold.2⟩
          show w < cr + 1
          omega
        · show cr < cr + 1
          omega
        · -- only claims below `readIndex` have been handed out so far
          intro hmem
          obtain ⟨⟨w, x⟩, hwx, hw⟩ := List.mem_map.mp hmem
          have hlt := (hJ.handed_item w x hwx).1
          simp only at hw
          omega
      · cases hs; exact ⟨hJ, trivial⟩
  | popCount cr item =>
      cases hs
      obtain ⟨hlt, hres, hnew⟩ := hL
      refine ⟨⟨hJ.size_eq, hJ.read_le, hJ.max_le, hJ.write_lt, hJ.reserved_length, hJ.claimed_eq,
        hJ.kept, hJ.accepted_lt, ?_, ?_⟩, trivial⟩
      · show ((queue.handed ++ [(cr, item)]).map Prod.fst).Nodup
        rw [List.map_append, List.nodup_append]
        refine ⟨hJ.handed_nodup, List.nodup_singleton _, fun a ha b hb hab => hnew ?_⟩
        have hbcr : b = cr := List.mem_singleton.mp hb
        rw [← hbcr, ← hab]
        exact ha
      · intro w x hwx
        rcases List.mem_append.mp hwx with hold | hone
        · exact hJ.handed_item w x hold
        · cases List.mem_singleton.mp hone
          exact ⟨hlt, hres⟩
  | popRet ret => cases hs; exact ⟨hJ, trivial⟩

/-! ## What the other threads see of a step -/

/-- The effect of a step by a thread at `p` on the shared memory, as far as it
    matters to the others. -/
structure Ring.Moves (p : RingPc α) (queue queue' : Ring α) : Prop where
  size_eq : queue'.size = queue.size
  read_le : queue.readIndex ≤ queue'.readIndex
  max_le : queue.maximumReadIndex ≤ queue'.maximumReadIndex
  write_le : queue.writeIndex ≤ queue'.writeIndex
  reserved : ∀ (w : Nat) (x : α), queue.reserved[w]? = some x → queue'.reserved[w]? = some x
  /-- only its owner publishes a reservation -/
  publish : ∀ w, queue.maximumReadIndex ≤ w → p.owned ≠ some w → queue'.maximumReadIndex ≤ w
  /-- only its owner writes to the slot of a reservation -/
  store : ∀ w, queue.readIndex ≤ w → w < queue.writeIndex → p.owned ≠ some w →
    queue'.items (countToIndex queue' w) = queue.items (countToIndex queue w)
  /-- only its owner hands out a claim -/
  hand : ∀ w, w ∈ queue'.handed.map Prod.fst → w ∈ queue.handed.map Prod.fst ∨ p.taking = some w

theorem Ring.Moves.refl (p : RingPc α) (queue : Ring α) : Ring.Moves p queue queue :=
  ⟨rfl, Nat.le_refl _, Nat.le_refl _, Nat.le_refl _, fun _ _ h => h, fun _ h _ => h,
    fun _ _ _ _ => rfl, fun _ h => Or.inl h⟩

theorem ring_step_moves {k : Nat} {queue queue' : Ring α} {p p' : RingPc α} {call : RingCall α}
    (hJ : queue.Ok k) (hL : p.Ok queue) (hs : ringStep queue p call = some (queue', p')) :
    Ring.Moves p queue queue' := by
  have hrefl := Ring.Moves.refl p queue
  cases p with
  | idle => cases call <;> (cases hs; exact hrefl)
  | pushReadWrite item => cases hs; exact hrefl
  | pushReadRead item cw =>
      simp only [ringStep] at hs
      split at hs <;> (cases hs; exact hrefl)
  | pushReserve item cw =>
      simp only [ringStep] at hs
      split at hs
      · rename_i hcur
        cases hs
        refine { hrefl with write_le := ?_, reserved := ?_, store := ?_ }
        · show queue.writeIndex ≤ cw + 1
          omega
        · intro w x hw
          show (queue.reserved ++ [item])[w]? = some x
          rw [List.getElem?_append_left (List.getElem?_eq_some_iff.mp hw).1]
          exact hw
        · exact fun w _ _ _ => rfl
      · cases hs; exact hrefl
  | pushStore item cw =>
      cases hs
      obtain ⟨hge, hlt, -⟩ := hL
      refine { hrefl with store := fun w hw hw' hown => ?_ }
      have hwr := hJ.write_lt
      have hrd := hJ.read_le
      have hne : countToIndex queue w ≠ countToIndex queue cw := by
        intro heq
        have hcw : w = cw := hJ.slot_inj hw (by omega) (by omega) (by omega) heq
        exact hown (by rw [hcw]; rfl)
      exact Function.update_of_ne hne _ _
  | pushPublish item cw =>
      simp only [ringStep] at hs
      split at hs
      · rename_i hcur
        cases hs
        refine { hrefl with max_le := ?_, publish := ?_, store := ?_ }
        · show queue.maximumReadIndex ≤ cw + 1
          omega
        · intro w hw hown
          have hne : w ≠ cw := fun heq => hown (by rw [heq]; rfl)
          show cw + 1 ≤ w
          omega
        · exact fun w _ _ _ => rfl
      · cases hs; exact hrefl
  | pushCount cw =>
      cases hs
      exact { hrefl with store := fun _ _ _ _ => rfl }
  | pushRet ret => cases hs; exact hrefl
  | popReadRead => cases hs; exact hrefl
  | popReadMax cr =>
      simp only [ringStep] at hs
      split at hs <;> (cases hs; exact hrefl)
  | popLoad cr => cases hs; exact hrefl
  | popClaim cr item =>
      simp only [ringStep] at hs
      split at hs
      · rename_i hcur
        cases hs
        refine { hrefl with read_le := ?_, store := fun _ _ _ _ => rfl }
        show queue.readIndex ≤ cr + 1
        omega
      · cases hs; exact hrefl
  | popCount cr item =>
      cases hs
      refine { hrefl with store := fun _ _ _ _ => rfl, hand := fun w hw => ?_ }
      rw [List.map_append] at hw
      rcases List.mem_append.mp hw with hold | hnew
      · exact Or.inl hold
      · exact Or.inr (by rw [List.mem_singleton.mp hnew]; rfl)
  | popRet ret => cases hs; exact hrefl

/-- What a thread knows survives the steps of the threads apart from it. -/
theorem RingPc.Ok.stable {k : Nat} {queue queue' : Ring α} {p q : RingPc α}
    (hJ : queue.Ok k) (hm : Ring.Moves p queue queue') (hpq : p.Apart q) (hq : q.Ok queue) :
    q.Ok queue' := by
  have hrd := hm.read_le
  have hmax := hm.max_le
  have hwr := hm.write_le
  have hsz := hm.size_eq
  cases q with
  | pushReadRead item cw => exact Nat.le_trans hq hwr
  | pushReserve item cw =>
      obtain ⟨hle, hroom⟩ := hq
      refine ⟨Nat.le_trans hle hwr, fun hcur => ?_⟩
      -- a write index that is still current has been so all along
      have hroom' := hroom (by omega)
      omega
  | pushStore item cw =>
      obtain ⟨hge, hlt, hres⟩ := hq
      have hown : p.owned ≠ some cw := fun h => hpq.1 cw h rfl
      exact ⟨hm.publish cw hge hown, Nat.lt_of_lt_of_le hlt hwr, hm.reserved cw item hres⟩
  | pushPublish item cw =>
      obtain ⟨hge, hlt, hres, hslot⟩ := hq
      have hown : p.owned ≠ some cw := fun h => hpq.1 cw h rfl
      have hread := hJ.read_le
      exact ⟨hm.publish cw hge hown, Nat.lt_of_lt_of_le hlt hwr, hm.reserved cw item hres,
        (hm.store cw (by omega) hlt hown).trans hslot⟩
  | pushCount cw => exact Nat.lt_of_lt_of_le hq hmax
  | popReadMax cr => exact Nat.le_trans hq hrd
  | popLoad cr =>
      obtain ⟨hle, hcur⟩ := hq
      refine ⟨Nat.le_trans hle hrd, fun h => ?_⟩
      have := hcur (by omega)
      omega
  | popClaim cr item =>
      obtain ⟨hle, hcur⟩ := hq
      refine ⟨Nat.le_trans hle hrd, fun h => ?_⟩
      obtain ⟨hlt, hres⟩ := hcur (by omega)
      exact ⟨Nat.lt_of_lt_of_le hlt hmax, hm.reserved cr item hres⟩
  | popCount cr item =>
      obtain ⟨hlt, hres, hnew⟩ := hq
      refine ⟨Nat.lt_of_lt_of_le hlt hrd, hm.reserved cr item hres, fun hmem => ?_⟩
      rcases hm.hand cr hmem with hold | htake
      · exact hnew hold
      · exact hpq.2 cr htake rfl
  | _ => trivial

/-- A step keeps the moving thread apart from the others. -/
theorem RingPc.Apart.step {queue queue' : Ring α} {p p' q : RingPc α}
    {call : RingCall α} (hq : q.Ok queue) (hpq : p.Apart q)
    (hs : ringStep queue p call = some (queue', p')) : p'.Apart q := by
  have hnone : ∀ p' : RingPc α, p'.owned = none → p'.taking = none → p'.Apart q :=
    fun p' ho ht => ⟨fun w h => (by rw [ho] at h; cases h), fun w h => (by rw [ht] at h; cases h)⟩
  cases p with
  | idle => cases call <;> (cases hs; exact hnone _ rfl rfl)
  | pushReadWrite item => cases hs; exact hnone _ rfl rfl
  | pushReadRead item cw =>
      simp only [ringStep] at hs
      split at hs <;> (cases hs; exact hnone _ rfl rfl)
  | pushReserve item cw =>
      simp only [ringStep] at hs
      split at hs
      · rename_i hcur
        cases hs
        -- the new reservation is `writeIndex`, above all that others own
        refine ⟨fun w hw hqw => ?_, fun w hw => by cases hw⟩
        cases hw
        cases q with
        | pushStore x w => cases hqw; have := hq.2.1; omega
        | pushPublish x w => cases hqw; have := hq.2.1; omega
        | _ => cases hqw
      · cases hs; exact hnone _ rfl rfl
  | pushStore item cw => cases hs; exact hpq
  | pushPublish item cw =>
      simp only [ringStep] at hs
      split at hs
      · cases hs; exact hnone _ rfl rfl
      · cases hs; exact hpq
  | pushCount cw => cases hs; exact hnone _ rfl rfl
  | pushRet ret => cases hs; exact hnone _ rfl rfl
  | popReadRead => cases hs; exact hnone _ rfl rfl
  | popReadMax cr =>
      simp only [ringStep] at hs
      split at hs <;> (cases hs; exact hnone _ rfl rfl)
  | popLoad cr => cases hs; exact hnone _ rfl rfl
  | popClaim cr item =>
      simp only [ringStep] at hs
      split at hs
      · rename_i hcur
        cases hs
        -- the new claim is `readIndex`, above all that others have claimed
        refine ⟨fun w hw => (by cases hw), fun w hw hqw => ?_⟩
        cases hw
        cases q with
        | popCount w x => cases hqw; have := hq.1; omega
        | _ => cases hqw
      · cases hs; exact hnone _ rfl rfl
  | popCount cr item => cases hs; exact hnone _ rfl rfl
  | popRet ret => cases hs; exact hnone _ rfl rfl

/-! ## Every reachable configuration -/

section Reachable

variable {ι : Type} [DecidableEq ι] [Inhabited α]

/-- All threads idle at an empty ring. -/
def ringInit (size : Nat) : Config ι (Ring α) (RingPc α) := ⟨ringOfSize size, fun _ => .idle⟩

/-- The invariant of the whole system. -/
def RingSat (k : Nat) (c : Config ι (Ring α) (RingPc α)) : Prop :=
  c.Sat (Ring.Ok k) (fun queue p => p.Ok queue) RingPc.Apart

theorem ringOfSize_ok (k : Nat) : (ringOfSize (2 ^ k) : Ring α).Ok k where
  size_eq := rfl
  read_le := Nat.le_refl 0
  max_le := Nat.le_refl 0
  write_lt := by
    have hpos : 0 < 2 ^ k := Nat.two_pow_pos k
    show 0 < 0 + 2 ^ k
    omega
  reserved_length := rfl
  claimed_eq := rfl
  kept := fun w _ h => absurd h (Nat.not_lt_zero w)
  accepted_lt := fun w h => by cases h
  handed_nodup := List.nodup_nil
  handed_item := fun w x h => by cases h

omit [DecidableEq ι] in
theorem ringInit_sat (k : Nat) : RingSat k (ringInit (2 ^ k) : Config ι (Ring α) (RingPc α)) :=
  ⟨ringOfSize_ok k, fun _ => trivial,
    fun _ _ _ => ⟨fun _ h => (by cases h), fun _ h => (by cases h)⟩⟩

omit [Inhabited α] in
theorem RingSat.step {k : Nat} {c c' : Config ι (Ring α) (RingPc α)} {a : ι × RingCall α}
    (h : RingSat k c) (hf : fire ringStep c a = some c') : RingSat k c' :=
  Config.Sat.fire (fun _ _ hpq => hpq.symm)
    (fun _ _ _ _ _ hJ hL hs => ring_step_own hJ hL hs)
    (fun _ _ _ _ _ _ hJ hL hq hpq hs =>
      ⟨hq.stable hJ (ring_step_moves hJ hL hs) hpq, hpq.step hq hs⟩) h hf

theorem ring_sat_of_reachable {k : Nat} {c : Config ι (Ring α) (RingPc α)}
    (h : Reachable (fire ringStep) (ringInit (2 ^ k)) c) : RingSat k c :=
  h.invariant (ringInit_sat k) fun _ _ _ hc hf => RingSat.step hc hf

end Reachable

end ZServer
