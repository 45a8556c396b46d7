/-
  ZServer.Tcp.SlotSearch

  Which slots `tcpGetReserveId` looks at, for every value of `allocId`.

  The ids are drawn in a row up to `2 ^ 31 - 1`.  The round in which the counter is
  negative draws the id that the next round draws again: 1, if the counter has just
  overflowed, so that 0 is left out.  When all slots that are looked at are taken, the
  process ends at `assert(0)`.
-/

import ZServer.Lib.Circular
import ZServer.Tcp.Accounting

namespace ZServer.Tcp

open Lib

-- ============================================================================
-- The ids that are drawn
-- ============================================================================

/-- The ids of `rounds` rounds. -/
def draws : Nat → Nat → List Int
  | _, 0 => []
  | allocId, rounds + 1 => (nextId allocId).1 :: draws (nextId allocId).2 rounds

section Draws

variable {a n : Nat} {id : Int}

theorem nextId_low (ha : a < 2 ^ 31) : nextId a = ((a : Int), a + 1) := by
  have hint : intOf a = (a : Int) := if_pos ha
  unfold nextId
  rw [hint, if_neg (not_lt.mpr (Int.natCast_nonneg a)), Nat.mod_eq_of_lt (by omega)]

theorem nextId_negative (ha : 2 ^ 31 ≤ a) (ha' : a < 2 ^ 32) :
    nextId a = ((((a + 1) % 2 ^ 31 : Nat) : Int), (a + 1) % 2 ^ 31) := by
  have hint : intOf a < 0 := by
    unfold intOf
    rw [if_neg (Nat.not_lt.mpr ha)]
    omega
  unfold nextId
  rw [if_pos hint, Nat.mod_mod_of_dvd _ (by decide : 2 ^ 31 ∣ 2 ^ 32)]

theorem nextId_first (ha : a < 2 ^ 32) :
    (nextId a).1 = ((if a < 2 ^ 31 then a else (a + 1) % 2 ^ 31 : Nat) : Int) := by
  by_cases hlow : a < 2 ^ 31
  · rw [nextId_low hlow, if_pos hlow]
  · rw [nextId_negative (Nat.le_of_not_lt hlow) ha, if_neg hlow]

theorem draws_append {m : Nat} (h : a + m ≤ 2 ^ 31) :
    draws a (m + n) = draws a m ++ draws (a + m) n := by
  induction m generalizing a with
  | zero =>
      rw [Nat.zero_add]
      rfl
  | succ m ih =>
      rw [Nat.succ_add, draws, draws, nextId_low (by omega), ih (by omega), Nat.add_assoc a 1 m,
        Nat.add_comm 1 m]
      rfl

/-- Up to the overflow. -/
theorem mem_draws_low (h : a + n ≤ 2 ^ 31) :
    id ∈ draws a n ↔ ∃ k : Nat, id = k ∧ a ≤ k ∧ k < a + n := by
  induction n generalizing a with
  | zero =>
      constructor
      · rintro ⟨⟩
      · rintro ⟨k, -, hle, hlt⟩
        omega
  | succ n ih =>
      rw [draws, nextId_low (by omega), List.mem_cons, ih (by omega)]
      constructor
      · rintro (rfl | ⟨k, rfl, hle, hlt⟩)
        · exact ⟨a, rfl, Nat.le_refl a, by omega⟩
        · exact ⟨k, rfl, by omega, by omega⟩
      · rintro ⟨k, rfl, hle, hlt⟩
        by_cases heq : k = a
        · exact Or.inl (congrArg _ heq)
        · exact Or.inr ⟨k, rfl, by omega, by omega⟩

/-- Past the overflow, the ids from 1 on are drawn, 1 twice. -/
theorem mem_draws_over (ha : a < 2 ^ 31) (h : 2 ^ 31 < a + n) (hn : n ≤ 2 ^ 31) :
    id ∈ draws a n ↔ ∃ k : Nat, id = k ∧
      (a ≤ k ∧ k < 2 ^ 31 ∨ k = 1 ∨ 1 ≤ k ∧ k + 2 ^ 31 < a + n) := by
  obtain ⟨r, rfl⟩ : ∃ r, n = (2 ^ 31 - a) + (r + 1) := ⟨a + n - 2 ^ 31 - 1, by omega⟩
  have hover : draws (2 ^ 31) (r + 1) = 1 :: draws 1 r := by
    rw [draws, nextId_negative (Nat.le_refl _) (by decide)]
    rfl
  rw [draws_append (by omega), Nat.add_sub_cancel' (Nat.le_of_lt ha), hover, List.mem_append,
    List.mem_cons, mem_draws_low (by omega), mem_draws_low (by omega)]
  constructor
  · rintro (⟨k, rfl, hle, hlt⟩ | rfl | ⟨k, rfl, hle, hlt⟩)
    · exact ⟨k, rfl, Or.inl ⟨hle, by omega⟩⟩
    · exact ⟨1, rfl, Or.inr (Or.inl rfl)⟩
    · exact ⟨k, rfl, Or.inr (Or.inr ⟨hle, by omega⟩)⟩
  · rintro ⟨k, rfl, ⟨hle, hlt⟩ | rfl | ⟨hle, hlt⟩⟩
    · exact Or.inl ⟨k, rfl, hle, by omega⟩
    · exact Or.inr (Or.inl rfl)
    · exact Or.inr (Or.inr ⟨k, rfl, hle, by omega⟩)

/-- The first id that is drawn. -/
def firstId (allocId : Nat) : Nat := if allocId < 2 ^ 31 then allocId else (allocId + 1) % 2 ^ 31

/-- Where the ids in a row end, if there were no overflow. -/
def idsEnd (rounds allocId : Nat) : Nat :=
  if allocId < 2 ^ 31 then allocId + rounds else (allocId + 1) % 2 ^ 31 + (rounds - 1)

/-- The id is drawn in one of the rounds. -/
def Tries (rounds allocId id : Nat) : Prop :=
  id = firstId allocId ∨
    firstId allocId ≤ id ∧ id < 2 ^ 31 ∧ id < idsEnd rounds allocId ∨
    2 ^ 31 < idsEnd rounds allocId ∧ (id = 1 ∨ 1 ≤ id ∧ id + 2 ^ 31 < idsEnd rounds allocId)

instance (rounds allocId id : Nat) : Decidable (Tries rounds allocId id) := by
  unfold Tries
  infer_instance

theorem mem_draws_of_low (ha : a < 2 ^ 31) (hn : n ≤ 2 ^ 31) :
    id ∈ draws a n ↔ ∃ k : Nat, id = k ∧ (a ≤ k ∧ k < 2 ^ 31 ∧ k < a + n ∨
      2 ^ 31 < a + n ∧ (k = 1 ∨ 1 ≤ k ∧ k + 2 ^ 31 < a + n)) := by
  by_cases hover : 2 ^ 31 < a + n
  · rw [mem_draws_over ha hover hn]
    refine exists_congr fun k => and_congr_right fun _ => ?_
    constructor
    · rintro (⟨hle, hlt⟩ | hrest)
      · exact Or.inl ⟨hle, hlt, by omega⟩
      · exact Or.inr ⟨hover, hrest⟩
    · rintro (⟨hle, hlt, -⟩ | ⟨-, hrest⟩)
      · exact Or.inl ⟨hle, hlt⟩
      · exact Or.inr hrest
  · rw [mem_draws_low (Nat.le_of_not_lt hover)]
    refine exists_congr fun k => and_congr_right fun _ => ?_
    constructor
    · rintro ⟨hle, hlt⟩
      exact Or.inl ⟨hle, by omega, hlt⟩
    · rintro (⟨hle, -, hlt⟩ | ⟨hlt, -⟩)
      · exact ⟨hle, hlt⟩
      · exact absurd hlt hover

theorem mem_draws (ha : a < 2 ^ 32) (hpos : 0 < n) (hn : n ≤ 2 ^ 31) :
    id ∈ draws a n ↔ ∃ k : Nat, id = k ∧ Tries n a k := by
  unfold Tries firstId idsEnd
  by_cases hlow : a < 2 ^ 31
  · rw [mem_draws_of_low hlow hn]
    refine exists_congr fun k => and_congr_right fun _ => ?_
    rw [if_pos hlow, if_pos hlow]
    constructor
    · exact Or.inr
    · rintro (rfl | hrest)
      · exact Or.inl ⟨Nat.le_refl _, hlow, by omega⟩
      · exact hrest
  · obtain ⟨r, rfl⟩ := Nat.exists_eq_succ_of_ne_zero (Nat.ne_of_gt hpos)
    have hfirst : (a + 1) % 2 ^ 31 < 2 ^ 31 := Nat.mod_lt _ (by decide)
    rw [draws, nextId_negative (Nat.le_of_not_lt hlow) ha, List.mem_cons,
      mem_draws_of_low hfirst (Nat.le_of_lt hn), if_neg hlow, if_neg hlow, Nat.succ_sub_one]
    constructor
    · rintro (rfl | ⟨k, rfl, hk⟩)
      · exact ⟨_, rfl, Or.inl rfl⟩
      · exact ⟨k, rfl, Or.inr hk⟩
    · rintro ⟨k, rfl, heq | hk⟩
      · exact Or.inl (congrArg _ heq)
      · exact Or.inr ⟨k, rfl, hk⟩

/-- The id 0 is only drawn first. -/
theorem tries_zero (h : Tries n a 0) : firstId a = 0 := by
  rcases h with hzero | ⟨hle, -⟩ | ⟨-, hone | ⟨hpos, -⟩⟩
  · exact hzero.symm
  · exact Nat.le_zero.mp hle
  · cases hone
  · exact absurd hpos (by decide)

end Draws

-- ============================================================================
-- The search
-- ============================================================================

section Search

variable {w w' : World} {id : Int} {rounds : Nat}

def World.Free (w : World) (i : Nat) : Prop := (w.sockets i).type = .kSocketNoneType

instance (w : World) : DecidablePred w.Free := fun i => by
  unfold World.Free
  infer_instance

theorem reserveFrom_none :
    reserveFrom w rounds = none ↔ ∀ id ∈ draws w.allocId rounds, ¬w.Free (getIndex w id) := by
  induction rounds generalizing w with
  | zero =>
      refine ⟨fun _ id hid => ?_, fun _ => rfl⟩
      cases hid
  | succ rounds ih =>
      rw [draws, List.forall_mem_cons]
      by_cases hfree : w.Free (getIndex w (drawId w).2)
      · rw [reserveFrom_free hfree]
        constructor
        · rintro ⟨⟩
        · rintro ⟨htaken, -⟩
          exact absurd hfree htaken
      · rw [reserveFrom_taken hfree, ih]
        exact ⟨fun hall => ⟨hfree, hall⟩, And.right⟩

theorem reserveFrom_drawn (h : reserveFrom w rounds = some (w', id)) :
    id ∈ draws w.allocId rounds := by
  induction rounds generalizing w with
  | zero => cases h
  | succ rounds ih =>
      rw [draws]
      by_cases hfree : w.Free (getIndex w (drawId w).2)
      · rw [reserveFrom_free hfree] at h
        cases h
        exact List.mem_cons_self
      · rw [reserveFrom_taken hfree] at h
        exact List.mem_cons_of_mem _ (ih h)

/-- What `tcpGetReserveId` is to do: a free slot gets an id, and if there is none, the
    answer is -1. -/
structure World.Serves (w : World) : Prop where
  found : (∃ i < w.setsize, w.Free i) → ∃ w' id, tcpGetReserveId w = some (w', id) ∧ 0 < id ∧
    w.Free (getIndex w id) ∧ (w'.sockets (getIndex w id)).id = id ∧ ¬w'.Free (getIndex w id) ∧
    ∀ i, i ≠ getIndex w id → w'.sockets i = w.sockets i
  full : (¬∃ i < w.setsize, w.Free i) → ∃ w', tcpGetReserveId w = some (w', -1) ∧
    w'.sockets = w.sockets

/-- The slot of an id that is drawn is free; and if 0 is drawn, its slot is not. -/
def World.Findable (w : World) : Prop :=
  (∃ id, Tries w.setsize w.allocId id ∧ w.Free (getIndex w id)) ∧
    (firstId w.allocId = 0 → ¬w.Free 0)

theorem getIndex_zero (w : World) : getIndex w 0 = 0 := by
  unfold getIndex
  rw [Int.zero_emod]
  rfl

/-- The search does what it is to do just in case it comes to a free slot. -/
theorem tcpGetReserveId_serves_iff {k : Nat} (hk : k ≤ 30) (hsize : w.setsize = 2 ^ k)
    (halloc : w.allocId < 2 ^ 32) : w.Serves ↔ w.Findable := by
  have hpos : 0 < w.setsize := by
    rw [hsize]
    exact Nat.two_pow_pos k
  have hle : w.setsize ≤ 2 ^ 31 := by
    rw [hsize]
    exact Nat.pow_le_pow_right (by decide) (Nat.le_succ_of_le hk)
  have hdraws : ∀ {id : Int}, id ∈ draws w.allocId w.setsize ↔
      ∃ n : Nat, id = n ∧ Tries w.setsize w.allocId n := mem_draws halloc hpos hle
  constructor
  · intro h
    by_cases hany : ∃ i < w.setsize, w.Free i
    · obtain ⟨w', id, hget, hid, hfree, -⟩ := h.found hany
      obtain ⟨n, rfl, htries⟩ := hdraws.mp (reserveFrom_drawn hget)
      refine ⟨⟨n, htries, hfree⟩, fun hzero hfree₀ => ?_⟩
      -- 0 would be the answer
      have hdrawn : (drawId w).2 = 0 := (nextId_first halloc).trans (congrArg _ hzero)
      have hindex : getIndex w (drawId w).2 = 0 := by rw [hdrawn, getIndex_zero]
      obtain ⟨r, hr⟩ := Nat.exists_eq_succ_of_ne_zero (Nat.ne_of_gt hpos)
      have hfirst : reserveFrom w (r + 1) = _ := reserveFrom_free (by
        show w.Free (getIndex w (drawId w).2)
        rw [hindex]
        exact hfree₀)
      unfold tcpGetReserveId at hget
      rw [hr, hfirst] at hget
      have hid' := (Prod.mk.inj (Option.some.inj hget)).2
      omega
    · -- the process ends
      obtain ⟨w', hget, -⟩ := h.full hany
      obtain ⟨a, d, hr⟩ := tcpGetReserveId_reserved hget
      exact absurd hr.nonneg (by decide)
  · rintro ⟨⟨n, htries, hfree⟩, hzero⟩
    refine ⟨fun _ => ?_, fun hnone => absurd ⟨_, getIndex_lt hpos n, hfree⟩ hnone⟩
    cases hget : tcpGetReserveId w with
    | none => exact absurd hfree (reserveFrom_none.mp hget n (hdraws.mpr ⟨n, rfl, htries⟩))
    | some r =>
        obtain ⟨w', id⟩ := r
        obtain ⟨a, d, hr⟩ := tcpGetReserveId_reserved hget
        obtain ⟨m, rfl, hm⟩ := hdraws.mp (reserveFrom_drawn hget)
        have hne : m ≠ 0 := by
          rintro rfl
          have hslot := hr.was_free
          have hindex : getIndex w ((0 : Nat) : Int) = 0 := getIndex_zero w
          rw [hindex] at hslot
          exact hzero (tries_zero hm) hslot
        refine ⟨w', m, rfl, Int.natCast_pos.mpr (Nat.pos_of_ne_zero hne), hr.was_free, ?_, ?_, ?_⟩
        all_goals rw [hr.eq]
        · rw [World.modify_self]
          rfl
        · unfold World.Free
          rw [World.modify_self]
          rintro ⟨⟩
        · exact fun i hi => World.modify_of_ne _ hi _

theorem tcpGetReserveId_serves_init : (tcpInit 4 0).Serves :=
  (tcpGetReserveId_serves_iff (by decide : 2 ≤ 30) rfl (by decide)).mpr
    ⟨⟨1, by decide, rfl⟩, by decide⟩

/-- With `allocId` about to overflow, the search looks at slot 1 twice and not at the
    free slot 0; and in a full table it ends the process as well. -/
theorem tcpGetReserveId_stops : ∃ w w₁ : World,
    (w.setsize = 2 ∧ w.allocId = 2 ^ 31 - 1 ∧ w.Free 0 ∧ tcpGetReserveId w = none ∧ ¬w.Serves) ∧
    (w₁.setsize = 2 ∧ w₁.allocId = 3 ∧ tcpGetReserveId w₁ = none ∧ ¬w₁.Serves) := by
  refine ⟨{ tcpInit 2 0 with
      allocId := 2 ^ 31 - 1
      sockets := fun i => if i = 0 then socketInit else Socket.reserved 1 socketInit },
    { tcpInit 2 0 with allocId := 3, sockets := fun i => Socket.reserved (i + 1) socketInit },
    ⟨rfl, rfl, rfl, rfl, fun h => ?_⟩, rfl, rfl, rfl, fun h => ?_⟩
  · obtain ⟨w', id, hget, -⟩ := h.found ⟨0, by decide, rfl⟩
    cases hget
  · obtain ⟨w', hget, -⟩ := h.full (by rintro ⟨i, -, ⟨⟩⟩)
    cases hget

end Search

end ZServer.Tcp
