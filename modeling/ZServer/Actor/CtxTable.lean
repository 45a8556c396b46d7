/-
  ZServer.Actor.CtxTable

  The table of contexts over a whole run of `ctxMgrAddContext` and
  `ctxMgrRemoveContext`: who is in which slot, how many there are, and when there is
  room for one more.
-/

import Mathlib.Data.List.Pairwise
import ZServer.Actor.CtxMgr
import ZServer.Lib.Circular
import ZServer.Lib.Transition

namespace ZServer

open Lib

-- ============================================================================
-- The numbers that are tried
-- ============================================================================

section Search

variable {idOf : Ptr → Nat} {mgr mgr' : CtxMgr} {ctx : Ptr} {id id₀ : Nat} {found : Bool}

/-- Before the wrap, `allocId` is handed out and counted up. -/
theorem CtxMgr.alloc_of_pos (hpos : 1 ≤ mgr.allocId) (hlt : mgr.allocId + 1 < 2 ^ 32) :
    mgr.alloc = ({ mgr with allocId := mgr.allocId + 1 }, mgr.allocId) := by
  unfold CtxMgr.alloc
  rw [if_neg (Nat.ne_of_gt hpos), u32_of_lt hlt]

/-- The context that is placed has a number. -/
theorem ctxMgrPlace_pos {fuel : Nat} (hplace : ctxMgrPlace ctx fuel mgr id₀ = (mgr', id, true)) :
    1 ≤ id := by
  rcases ctxMgrPlace_cases hplace with ⟨⟨⟩, -⟩ | ⟨-, hpos, -⟩
  exact hpos

/-- A search that fails has found all slots of the numbers from `allocId` on taken. -/
theorem ctxMgrPlace_failed {fuel : Nat} (hpos : 1 ≤ mgr.allocId)
    (hlt : mgr.allocId + fuel < 2 ^ 32)
    (hplace : ctxMgrPlace ctx fuel mgr id₀ = (mgr', id, false)) :
    ∀ k, mgr.allocId ≤ k → k < mgr.allocId + fuel → mgr.slot k ≠ none := by
  induction fuel generalizing mgr id₀ with
  | zero =>
      intro k hle hk
      omega
  | succ fuel ih =>
      intro k hle hk
      rw [ctxMgrPlace, CtxMgr.alloc_of_pos hpos (by omega)] at hplace
      simp only at hplace
      split at hplace
      · cases hplace
      · rename_i htaken
        by_cases heq : k = mgr.allocId
        · rw [heq]
          exact htaken
        · have hnext : mgr.allocId + 1 ≤ k → k < mgr.allocId + 1 + fuel → mgr.slot k ≠ none :=
            ih (Nat.le_add_left _ _) (show mgr.allocId + 1 + fuel < 2 ^ 32 by omega) hplace k
          exact hnext (by omega) (by omega)

end Search

-- ============================================================================
-- How many slots are taken
-- ============================================================================

section Taken

variable {idOf : Ptr → Nat} {mgr : CtxMgr}

def CtxMgr.taken (mgr : CtxMgr) : Nat := mgr.contexts.countP Option.isSome

theorem CtxMgr.taken_eq (mgr : CtxMgr) : mgr.taken = mgr.ptrs.length := by
  unfold CtxMgr.taken CtxMgr.ptrs
  rw [List.length_filterMap_eq_countP]
  rfl

/-- No context is in two slots. -/
theorem CtxMgr.Ok.nodup (h : mgr.Ok idOf) : mgr.ptrs.Nodup := by
  unfold CtxMgr.ptrs List.Nodup
  rw [List.pairwise_filterMap, List.pairwise_iff_getElem]
  intro i j hi hj hij p hp q hq heq
  have hp' : mgr.contexts[i]? = some (some p) := by
    rw [List.getElem?_eq_getElem hi]
    exact congrArg some hp
  have hq' : mgr.contexts[j]? = some (some q) := by
    rw [List.getElem?_eq_getElem hj]
    exact congrArg some hq
  have hi' := h.slotted i p hp'
  have hj' := h.slotted j q hq'
  rw [heq, hj'] at hi'
  omega

theorem CtxMgr.Ok.counted_iff (h : mgr.Ok idOf) : mgr.Counted ↔ mgr.contextNum = mgr.taken := by
  unfold CtxMgr.Counted
  rw [CtxMgr.taken_eq, List.toFinset_card_of_nodup h.nodup]

theorem CtxMgr.Ok.taken_le (h : mgr.Ok idOf) : mgr.taken ≤ mgr.setsize := by
  rw [← h.size_eq]
  exact List.countP_le_length

/-- If every number finds its slot taken, all slots are. -/
theorem CtxMgr.Ok.taken_all (h : mgr.Ok idOf) {lo : Nat}
    (hall : ∀ k, lo ≤ k → k < lo + mgr.setsize → mgr.slot k ≠ none) : mgr.taken = mgr.setsize := by
  unfold CtxMgr.taken
  rw [← h.size_eq, List.countP_eq_length]
  intro slot hslot
  obtain ⟨j, hj, rfl⟩ := List.mem_iff_getElem.mp hslot
  obtain ⟨k, hlo, hk, rfl⟩ := exists_mod_eq lo (h.size_eq ▸ hj)
  have hne := hall k hlo hk
  unfold CtxMgr.slot at hne
  rw [List.getElem?_eq_getElem hj] at hne
  exact Option.isSome_iff_ne_none.mpr hne

end Taken

-- ============================================================================
-- Runs
-- ============================================================================

/-- The table, and `ctx->id` of all contexts. -/
structure CtxTable where
  mgr : CtxMgr
  idOf : Ptr → Nat

inductive CtxOp where
  | add (ctx : Ptr)
  | remove (id : Nat)
  deriving DecidableEq, Repr

/-- `ctxMgrCreateContext` adds a context that it has just made. -/
def CtxTable.step (t : CtxTable) (op : CtxOp) : Option CtxTable :=
  match op with
  | .add ctx =>
      if ctx ∈ t.mgr.ptrs then none
      else
        (ctxMgrAddContext t.idOf t.mgr ctx).map fun (mgr, id, _) =>
          ⟨mgr, Function.update t.idOf ctx id⟩
  | .remove id => some { t with mgr := ctxMgrRemoveContext t.mgr id }

/-- What is claimed of the table at any time. -/
structure CtxTable.Valid (t : CtxTable) : Prop where
  size : t.mgr.contexts.length = t.mgr.setsize
  slots : ∀ i p, t.mgr.contexts[i]? = some (some p) →
    1 ≤ t.idOf p ∧ t.idOf p % t.mgr.setsize = i
  distinct : ∀ p q, p ∈ t.mgr.ptrs → q ∈ t.mgr.ptrs → t.idOf p = t.idOf q → p = q
  counted : t.mgr.contextNum = t.mgr.taken
  /-- the doubled table -/
  doubled : ∀ mgr', ctxMgrGrow t.idOf t.mgr = some mgr' → ∀ p, p ∈ mgr'.ptrs ↔ p ∈ t.mgr.ptrs
  stores : ∀ ctx mgr', ctx ∉ t.mgr.ptrs → ctxMgrGrow t.idOf t.mgr = some mgr' →
    (t.mgr.ptrs = [] ∨ 1 ≤ t.mgr.allocId ∧ t.mgr.allocId + mgr'.setsize < 2 ^ 32) →
    ∃ mgr'' id, ctxMgrAddContext t.idOf t.mgr ctx = some (mgr'', id, true) ∧
      mgr''.slot id = some ctx

/-- What the steps keep. -/
structure CtxTable.Inv (t : CtxTable) : Prop where
  ok : t.mgr.Ok t.idOf
  counted : t.mgr.Counted
  natural : ∀ p ∈ t.mgr.ptrs, 1 ≤ t.idOf p

section Runs

variable {t t' : CtxTable}

theorem CtxTable.Inv.grow (h : t.Inv) {mgr' : CtxMgr}
    (hgrow : ctxMgrGrow t.idOf t.mgr = some mgr') :
    CtxTable.Inv ⟨mgr', t.idOf⟩ ∧ mgr'.taken < mgr'.setsize ∧ mgr'.allocId = t.mgr.allocId := by
  obtain ⟨hok, hsame⟩ := ctxMgrGrow_ok h.ok hgrow
  have htaken := h.ok.counted_iff.mp h.counted
  have hfields : mgr'.contextNum = t.mgr.contextNum ∧ t.mgr.contextNum < mgr'.setsize ∧
      mgr'.allocId = t.mgr.allocId := by
    simp only [ctxMgrGrow] at hgrow
    split at hgrow
    · split at hgrow
      · cases hgrow
      · cases hgrow
        have hle := h.ok.taken_le
        have hpos := h.ok.size_pos
        exact ⟨rfl, show t.mgr.contextNum < t.mgr.setsize * 2 by omega, rfl⟩
    · rename_i hroom
      cases hgrow
      exact ⟨rfl, Nat.lt_of_not_le hroom, rfl⟩
  have hcounted : mgr'.Counted := h.counted.congr hfields.1 hsame
  refine ⟨⟨hok, hcounted, fun p hp => h.natural p ((hsame p).mp hp)⟩, ?_, hfields.2.2⟩
  rw [← hok.counted_iff.mp hcounted, hfields.1]
  exact hfields.2.1

theorem CtxTable.Inv.add (h : t.Inv) {ctx : Ptr} {mgr' : CtxMgr} {id : Nat} {found : Bool}
    (hnew : ctx ∉ t.mgr.ptrs) (hadd : ctxMgrAddContext t.idOf t.mgr ctx = some (mgr', id, found)) :
    CtxTable.Inv ⟨mgr', Function.update t.idOf ctx id⟩ := by
  obtain ⟨hok, hmem⟩ := ctxMgrAddContext_ok h.ok hnew hadd
  refine ⟨hok, h.counted.add h.ok hnew hadd, fun p hp => ?_⟩
  rcases (hmem p).mp hp with hold | ⟨rfl, rfl⟩
  · have hne : p ≠ ctx := fun heq => hnew (heq ▸ hold)
    show 1 ≤ Function.update t.idOf ctx id p
    rw [Function.update_of_ne hne]
    exact h.natural p hold
  · obtain ⟨grown, -, hplace⟩ := Option.map_eq_some_iff.mp hadd
    show 1 ≤ Function.update t.idOf p id p
    rw [Function.update_self]
    exact ctxMgrPlace_pos hplace

theorem CtxTable.Inv.remove (h : t.Inv) (id : Nat) :
    CtxTable.Inv { t with mgr := ctxMgrRemoveContext t.mgr id } := by
  rcases ctxMgrRemoveContext_cases t.mgr id with heq | ⟨q, hslot, heq⟩
  · rw [heq]
    exact h
  · rw [heq]
    obtain ⟨hok, hmem⟩ := h.ok.clear hslot
    exact ⟨hok, h.counted.clear h.ok hslot, fun p hp => h.natural p ((hmem p).mp hp).1⟩

theorem CtxTable.Inv.step (h : t.Inv) {op : CtxOp} (hs : t.step op = some t') : t'.Inv := by
  cases op with
  | add ctx =>
      obtain ⟨hnew, hs⟩ := Option.ite_none_left_eq_some.mp hs
      obtain ⟨⟨mgr', id, found⟩, hadd, rfl⟩ := Option.map_eq_some_iff.mp hs
      exact h.add hnew hadd
  | remove id =>
      cases hs
      exact h.remove id

/-- The search succeeds if the table is empty, or the numbers do not wrap. -/
theorem CtxTable.Inv.found (h : t.Inv) {ctx : Ptr} (htaken : t.mgr.taken < t.mgr.setsize)
    (hroom : t.mgr.ptrs = [] ∨ 1 ≤ t.mgr.allocId ∧ t.mgr.allocId + t.mgr.setsize < 2 ^ 32)
    {mgr' : CtxMgr} {id : Nat} {found : Bool}
    (hplace : ctxMgrPlace ctx t.mgr.setsize t.mgr 0 = (mgr', id, found)) : found = true := by
  cases found with
  | true => rfl
  | false =>
      rcases hroom with hempty | ⟨hpos, hlt⟩
      · -- the first slot is free
        obtain ⟨n, hn⟩ := Nat.exists_eq_succ_of_ne_zero (Nat.ne_of_gt h.ok.size_pos)
        have hfree : t.mgr.alloc.1.slot t.mgr.alloc.2 = none := by
          rw [Option.eq_none_iff_forall_ne_some]
          intro p hp
          have hmem := CtxMgr.mem_ptrs_of_slot hp
          unfold CtxMgr.ptrs at hmem hempty
          rw [CtxMgr.alloc_contexts, hempty] at hmem
          cases hmem
        rw [hn, ctxMgrPlace, if_pos hfree] at hplace
        cases hplace
      · have hall := h.ok.taken_all (ctxMgrPlace_failed hpos hlt hplace)
        omega

theorem CtxTable.Inv.valid (h : t.Inv) : t.Valid where
  size := h.ok.size_eq
  slots := fun i p hp => by
    have hslot := h.ok.slotted i p hp
    rw [h.ok.size_eq] at hslot
    exact ⟨h.natural p (CtxMgr.mem_ptrs.mpr (List.mem_of_getElem? hp)), hslot⟩
  distinct := fun p q hp hq heq =>
    h.ok.slotted.eq_of_mod_eq (CtxMgr.mem_ptrs.mp hp) (CtxMgr.mem_ptrs.mp hq) (by rw [heq])
  counted := h.ok.counted_iff.mp h.counted
  doubled := fun mgr' hgrow => (ctxMgrGrow_ok h.ok hgrow).2
  stores := fun ctx mgr' hnew hgrow hroom => by
    obtain ⟨hgrown, htaken, halloc⟩ := h.grow hgrow
    have hsame := (ctxMgrGrow_ok h.ok hgrow).2
    obtain ⟨⟨mgr'', id, found⟩, hplace⟩ :
        ∃ r, ctxMgrPlace ctx mgr'.setsize mgr' 0 = r := ⟨_, rfl⟩
    have hroom' : mgr'.ptrs = [] ∨ 1 ≤ mgr'.allocId ∧ mgr'.allocId + mgr'.setsize < 2 ^ 32 := by
      rw [halloc]
      refine hroom.imp_left fun hempty => ?_
      rw [List.eq_nil_iff_forall_not_mem] at hempty ⊢
      exact fun p hp => hempty p ((hsame p).mp hp)
    obtain rfl := hgrown.found htaken hroom' hplace
    have hadd : ctxMgrAddContext t.idOf t.mgr ctx = some (mgr'', id, true) := by
      unfold ctxMgrAddContext
      rw [hgrow, ← hplace]
      rfl
    obtain ⟨hok, hmem⟩ := ctxMgrAddContext_ok h.ok hnew hadd
    refine ⟨mgr'', id, hadd, hok.slot_eq_some.mpr ⟨(hmem ctx).mpr (Or.inr ⟨rfl, rfl⟩), ?_⟩⟩
    rw [Function.update_self]

/-- In every run the contexts are in the slots of their numbers, and counted; growing
    keeps them, and adding one succeeds unless the numbers wrap. -/
theorem ctxTable_valid {setsize : Nat} (hsize : 1 ≤ setsize) (idOf : Ptr → Nat)
    (ops : List CtxOp) : Always CtxTable.step CtxTable.Valid ⟨ctxMgrCreate setsize, idOf⟩ ops := by
  have hnone : (ctxMgrCreate setsize).ptrs = [] := by
    rw [List.eq_nil_iff_forall_not_mem]
    intro p hp
    cases List.eq_of_mem_replicate (CtxMgr.mem_ptrs.mp hp)
  have hinit : CtxTable.Inv ⟨ctxMgrCreate setsize, idOf⟩ :=
    { ok := .create idOf hsize
      counted := by
        unfold CtxMgr.Counted
        rw [hnone]
        rfl
      natural := fun p hp => by
        rw [hnone] at hp
        cases hp }
  exact always_of_invariant (J := CtxTable.Inv) (fun _ h => h.valid) (fun _ _ _ h hs => h.step hs)
    hinit

/-- A table of one slot grows for the second context, and loses the first. -/
theorem ctxTable_valid_two : Always CtxTable.step CtxTable.Valid ⟨ctxMgrCreate 1, fun _ => 0⟩
    [.add 7, .add 8, .remove 1] ∧
    (runFrom CtxTable.step ⟨ctxMgrCreate 1, fun _ => 0⟩ [.add 7, .add 8, .remove 1]).map
      (fun t => t.mgr) = some ⟨3, 1, [some 8, none], 2⟩ :=
  ⟨ctxTable_valid (by decide) _ _, by decide⟩

end Runs

end ZServer
