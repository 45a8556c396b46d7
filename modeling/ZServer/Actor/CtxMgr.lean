/-
  ZServer.Actor.CtxMgr

  The table of contexts (`src/ctx_mgr.c`), a hash table without chaining: the
  context with number `id` lives in the slot `id % setsize`, and a full table is
  rehashed to twice the size.  The functions here are what runs under the write
  lock; where the source reads `c->id`, they take the numbers of the contexts as
  a function of their addresses.
-/

import Mathlib.Data.Finset.Card
import ZServer.Actor.Context
import ZServer.Lib.SlotTable

namespace ZServer

open Lib

/-- `struct ctxMgr`. -/
structure CtxMgr where
  allocId : Nat
  contextNum : Nat
  contexts : List (Option Ptr)
  setsize : Nat
  deriving DecidableEq, Repr

/-- `ctxMgrCreate`. -/
def ctxMgrCreate (setsize : Nat) : CtxMgr where
  allocId := 0
  contextNum := 0
  contexts := List.replicate setsize none
  setsize := setsize

/-- `mgr->contexts[id % mgr->setsize]`. -/
def CtxMgr.slot (mgr : CtxMgr) (id : Nat) : Option Ptr := (mgr.contexts[id % mgr.setsize]?).join

/-- The growth at the head of `ctxMgrAddContext`; `none` when `zcalloc` aborts,
    as it does once `int newsetsize` comes out negative. -/
def ctxMgrGrow (idOf : Ptr → Nat) (mgr : CtxMgr) : Option CtxMgr :=
  if mgr.setsize ≤ mgr.contextNum then
    let newsetsize := mgr.setsize * 2
    if 2 ^ 31 ≤ newsetsize then none
    else
      some { mgr with
        setsize := newsetsize
        contexts := rehash idOf newsetsize mgr.contexts }
  else some mgr

/-- `uint32_t id = mgr->allocId++`, and 1 in place of 0. -/
def CtxMgr.alloc (mgr : CtxMgr) : CtxMgr × Nat :=
  if mgr.allocId = 0 then ({ mgr with allocId := 1 }, 1)
  else ({ mgr with allocId := u32 (mgr.allocId + 1) }, mgr.allocId)

/-- The search for a free slot, `fuel` numbers at most.  The result is the
    table, the last number tried (`ctx->id`) and whether its slot was free. -/
def ctxMgrPlace (ctx : Ptr) : Nat → CtxMgr → Nat → CtxMgr × Nat × Bool
  | 0, mgr, id => (mgr, id, false)
  | fuel + 1, mgr, _ =>
      let id := mgr.alloc.2
      let mgr := mgr.alloc.1
      if mgr.slot id = none then
        ({ mgr with
          contexts := mgr.contexts.set (id % mgr.setsize) (some ctx)
          contextNum := mgr.contextNum + 1 }, id, true)
      else ctxMgrPlace ctx fuel mgr id

/-- `ctxMgrAddContext`. -/
def ctxMgrAddContext (idOf : Ptr → Nat) (mgr : CtxMgr) (ctx : Ptr) :
    Option (CtxMgr × Nat × Bool) :=
  (ctxMgrGrow idOf mgr).map fun mgr => ctxMgrPlace ctx mgr.setsize mgr 0

/-- `ctxMgrRemoveContext`, whose `id` is an `int`. -/
def ctxMgrRemoveContext (mgr : CtxMgr) (id : Nat) : CtxMgr :=
  if 2 ^ 31 ≤ id then mgr
  else if (mgr.slot id).isSome then
    { mgr with
      contexts := mgr.contexts.set (id % mgr.setsize) none
      contextNum := mgr.contextNum - 1 }
  else mgr

/-! ## Who is in the table -/

/-- The contexts in the table. -/
def CtxMgr.ptrs (mgr : CtxMgr) : List Ptr := mgr.contexts.filterMap id

theorem CtxMgr.mem_ptrs {mgr : CtxMgr} {p : Ptr} : p ∈ mgr.ptrs ↔ some p ∈ mgr.contexts := by
  unfold CtxMgr.ptrs
  simp

theorem CtxMgr.mem_ptrs_of_slot {mgr : CtxMgr} {i : Nat} {p : Ptr}
    (h : (mgr.contexts[i]?).join = some p) : p ∈ mgr.ptrs := by
  rw [CtxMgr.mem_ptrs]
  exact List.mem_of_getElem? (Option.join_eq_some_iff.mp h)

@[simp] theorem CtxMgr.alloc_contexts (mgr : CtxMgr) : mgr.alloc.1.contexts = mgr.contexts := by
  unfold CtxMgr.alloc
  split <;> rfl

@[simp] theorem CtxMgr.alloc_setsize (mgr : CtxMgr) : mgr.alloc.1.setsize = mgr.setsize := by
  unfold CtxMgr.alloc
  split <;> rfl

@[simp] theorem CtxMgr.alloc_contextNum (mgr : CtxMgr) :
    mgr.alloc.1.contextNum = mgr.contextNum := by
  unfold CtxMgr.alloc
  split <;> rfl

theorem CtxMgr.alloc_pos (mgr : CtxMgr) : 1 ≤ mgr.alloc.2 := by
  unfold CtxMgr.alloc
  split
  · exact Nat.le_refl 1
  · rename_i hne
    exact Nat.pos_of_ne_zero hne

theorem CtxMgr.alloc_slot (mgr : CtxMgr) (id : Nat) : mgr.alloc.1.slot id = mgr.slot id := by
  unfold CtxMgr.slot
  rw [CtxMgr.alloc_contexts, CtxMgr.alloc_setsize]

/-- What the search can end with: the table but for `allocId`, or the context in a slot
    that was free. -/
theorem ctxMgrPlace_cases {ctx : Ptr} {fuel id id₀ : Nat} {mgr mgr' : CtxMgr} {found : Bool}
    (hplace : ctxMgrPlace ctx fuel mgr id₀ = (mgr', id, found)) :
    (found = false ∧ ∃ a, mgr' = { mgr with allocId := a }) ∨
      (found = true ∧ 1 ≤ id ∧ mgr.slot id = none ∧ ∃ a, mgr' = { mgr with
        allocId := a
        contexts := mgr.contexts.set (id % mgr.setsize) (some ctx)
        contextNum := mgr.contextNum + 1 }) := by
  induction fuel generalizing mgr id₀ with
  | zero =>
      cases hplace
      exact Or.inl ⟨rfl, mgr'.allocId, rfl⟩
  | succ fuel ih =>
      simp only [ctxMgrPlace] at hplace
      split at hplace
      · rename_i hfree
        cases hplace
        refine Or.inr ⟨rfl, mgr.alloc_pos, (mgr.alloc_slot _).symm.trans hfree,
          mgr.alloc.1.allocId, ?_⟩
        simp only [CtxMgr.alloc_contexts, CtxMgr.alloc_setsize, CtxMgr.alloc_contextNum]
      · have hrest := ih hplace
        simp only [CtxMgr.alloc_slot, CtxMgr.alloc_contexts, CtxMgr.alloc_setsize,
          CtxMgr.alloc_contextNum] at hrest
        exact hrest

theorem mem_of_mem_ctxMgrPlace {ctx p : Ptr} (fuel : Nat) (mgr : CtxMgr) (id : Nat)
    (h : p ∈ (ctxMgrPlace ctx fuel mgr id).1.ptrs) : p ∈ mgr.ptrs ∨ p = ctx := by
  rcases ctxMgrPlace_cases (Prod.eta (ctxMgrPlace ctx fuel mgr id)).symm with
    ⟨-, a, heq⟩ | ⟨-, -, -, a, heq⟩
  · rw [heq] at h
    exact Or.inl h
  · rw [heq, CtxMgr.mem_ptrs] at h
    rcases List.mem_or_eq_of_mem_set h with hold | hnew
    · exact Or.inl (CtxMgr.mem_ptrs.mpr hold)
    · exact Or.inr (Option.some.inj hnew)

/-- Only the new context comes into the table. -/
theorem mem_of_mem_ctxMgrAddContext {idOf : Ptr → Nat} {mgr mgr' : CtxMgr} {ctx p : Ptr} {id : Nat}
    {found : Bool} (h : ctxMgrAddContext idOf mgr ctx = some (mgr', id, found))
    (hp : p ∈ mgr'.ptrs) : p ∈ mgr.ptrs ∨ p = ctx := by
  obtain ⟨grown, hgrown, hplace⟩ := Option.map_eq_some_iff.mp h
  have hmem : p ∈ grown.ptrs → p ∈ mgr.ptrs := by
    simp only [ctxMgrGrow] at hgrown
    split at hgrown
    · split at hgrown
      · cases hgrown
      · cases hgrown
        rw [CtxMgr.mem_ptrs, CtxMgr.mem_ptrs]
        exact mem_of_mem_rehash
    · cases hgrown
      exact fun h => h
  have hplaced := @mem_of_mem_ctxMgrPlace ctx p grown.setsize grown 0
  rw [hplace] at hplaced
  rcases hplaced hp with hold | hnew
  · exact Or.inl (hmem hold)
  · exact Or.inr hnew

theorem mem_of_mem_ctxMgrRemoveContext {mgr : CtxMgr} {id : Nat} {p : Ptr}
    (hp : p ∈ (ctxMgrRemoveContext mgr id).ptrs) : p ∈ mgr.ptrs := by
  unfold ctxMgrRemoveContext at hp
  split at hp
  · exact hp
  · split at hp
    · rw [CtxMgr.mem_ptrs] at hp ⊢
      rcases List.mem_or_eq_of_mem_set hp with hold | hnew
      · exact hold
      · cases hnew
    · exact hp

/-! ## Everyone is in their slot -/

/-- The table has `setsize` slots, and each context is in the slot of its number. -/
structure CtxMgr.Ok (idOf : Ptr → Nat) (mgr : CtxMgr) : Prop where
  size_pos : 0 < mgr.setsize
  size_eq : mgr.contexts.length = mgr.setsize
  slotted : Slotted idOf mgr.contexts

variable {idOf : Ptr → Nat} {mgr : CtxMgr}

theorem CtxMgr.Ok.create (idOf : Ptr → Nat) {setsize : Nat} (h : 0 < setsize) :
    (ctxMgrCreate setsize).Ok idOf where
  size_pos := h
  size_eq := List.length_replicate
  slotted := Slotted.replicate idOf setsize

/-- Only the numbers of the contexts in the table matter. -/
theorem CtxMgr.Ok.congr {idOf' : Ptr → Nat} (h : mgr.Ok idOf)
    (hids : ∀ p ∈ mgr.ptrs, idOf' p = idOf p) : mgr.Ok idOf' where
  size_pos := h.size_pos
  size_eq := h.size_eq
  slotted := h.slotted.congr fun p hp => hids p (CtxMgr.mem_ptrs.mpr hp)

/-- A slot holds whoever is in the table with a number of its residue. -/
theorem CtxMgr.Ok.slot_eq_some (h : mgr.Ok idOf) {id : Nat} {p : Ptr} :
    mgr.slot id = some p ↔ p ∈ mgr.ptrs ∧ idOf p % mgr.setsize = id % mgr.setsize := by
  unfold CtxMgr.slot
  rw [Option.join_eq_some_iff, CtxMgr.mem_ptrs]
  constructor
  · intro hp
    have hslot := h.slotted _ p hp
    rw [h.size_eq] at hslot
    exact ⟨List.mem_of_getElem? hp, hslot⟩
  · rintro ⟨hp, hmod⟩
    have hget := h.slotted.getElem? hp
    rw [h.size_eq, hmod] at hget
    exact hget

/-- Growing keeps everyone: `newsetsize` is a multiple of the old size. -/
theorem ctxMgrGrow_ok {mgr' : CtxMgr} (h : mgr.Ok idOf) (hgrow : ctxMgrGrow idOf mgr = some mgr') :
    mgr'.Ok idOf ∧ ∀ p, p ∈ mgr'.ptrs ↔ p ∈ mgr.ptrs := by
  simp only [ctxMgrGrow] at hgrow
  split at hgrow
  · split at hgrow
    · cases hgrow
    · cases hgrow
      have hpos : 0 < mgr.setsize * 2 := Nat.mul_pos h.size_pos (by decide)
      have hdvd : mgr.contexts.length ∣ mgr.setsize * 2 := by
        rw [h.size_eq]
        exact Nat.dvd_mul_right _ _
      refine ⟨⟨hpos, rehash_length _ _, rehash_slotted _ _⟩, fun p => ?_⟩
      rw [CtxMgr.mem_ptrs, CtxMgr.mem_ptrs]
      exact ⟨mem_of_mem_rehash, mem_rehash h.slotted hpos hdvd⟩
  · cases hgrow
    exact ⟨h, fun p => Iff.rfl⟩

/-- The slot that the search ends with was free, and now holds the new context. -/
theorem ctxMgrPlace_ok {ctx : Ptr} {fuel id id₀ : Nat} {mgr' : CtxMgr} {found : Bool}
    (h : mgr.Ok idOf) (hnew : ctx ∉ mgr.ptrs)
    (hplace : ctxMgrPlace ctx fuel mgr id₀ = (mgr', id, found)) :
    mgr'.Ok (Function.update idOf ctx id) ∧
      ∀ p, p ∈ mgr'.ptrs ↔ p ∈ mgr.ptrs ∨ (p = ctx ∧ found = true) := by
  have hok : mgr.Ok (Function.update idOf ctx id) := by
    apply h.congr
    intro p hp
    exact Function.update_of_ne (fun heq : p = ctx => hnew (heq ▸ hp)) _ _
  rcases ctxMgrPlace_cases hplace with ⟨rfl, a, rfl⟩ | ⟨rfl, -, hfree, a, rfl⟩
  · refine ⟨⟨hok.size_pos, hok.size_eq, hok.slotted⟩, fun p => ?_⟩
    exact (or_iff_left (by rintro ⟨-, ⟨⟩⟩)).symm
  · have hlt : id % mgr.setsize < mgr.contexts.length := by
      rw [h.size_eq]
      exact Nat.mod_lt _ h.size_pos
    refine ⟨⟨hok.size_pos, List.length_set.trans hok.size_eq, ?_⟩, fun p => ?_⟩
    · have hset := hok.slotted.set_some ctx
      rw [Function.update_self, hok.size_eq] at hset
      exact hset
    · rw [CtxMgr.mem_ptrs, CtxMgr.mem_ptrs]
      constructor
      · intro hp
        rcases List.mem_or_eq_of_mem_set hp with hold | heq
        · exact Or.inl hold
        · exact Or.inr ⟨Option.some.inj heq, rfl⟩
      · rintro (hold | ⟨rfl, -⟩)
        · apply mem_set_of_mem hold
          intro hover
          rw [CtxMgr.slot, hover] at hfree
          cases hfree
        · exact List.mem_set hlt _

theorem ctxMgrAddContext_ok {ctx : Ptr} {id : Nat} {mgr' : CtxMgr} {found : Bool}
    (h : mgr.Ok idOf) (hnew : ctx ∉ mgr.ptrs)
    (hadd : ctxMgrAddContext idOf mgr ctx = some (mgr', id, found)) :
    mgr'.Ok (Function.update idOf ctx id) ∧
      ∀ p, p ∈ mgr'.ptrs ↔ p ∈ mgr.ptrs ∨ (p = ctx ∧ found = true) := by
  obtain ⟨grown, hgrow, hplace⟩ := Option.map_eq_some_iff.mp hadd
  obtain ⟨hgrown, hsame⟩ := ctxMgrGrow_ok h hgrow
  obtain ⟨hok, hmem⟩ := ctxMgrPlace_ok hgrown (fun hctx => hnew ((hsame ctx).mp hctx)) hplace
  refine ⟨hok, fun p => ?_⟩
  rw [hmem p, hsame p]

/-- The slot `i` is emptied. -/
def CtxMgr.clear (mgr : CtxMgr) (i : Nat) : CtxMgr :=
  { mgr with
    contexts := mgr.contexts.set i none
    contextNum := mgr.contextNum - 1 }

/-- Emptying a slot removes who is in it, and nobody else. -/
theorem CtxMgr.Ok.clear {i : Nat} {q : Ptr} (h : mgr.Ok idOf)
    (hslot : (mgr.contexts[i]?).join = some q) :
    (mgr.clear i).Ok idOf ∧ ∀ p, p ∈ (mgr.clear i).ptrs ↔ p ∈ mgr.ptrs ∧ p ≠ q := by
  have hget : mgr.contexts[i]? = some (some q) := Option.join_eq_some_iff.mp hslot
  refine ⟨⟨h.size_pos, ?_, h.slotted.set_none _⟩, fun p => ?_⟩
  · exact List.length_set.trans h.size_eq
  rw [CtxMgr.mem_ptrs, CtxMgr.mem_ptrs]
  constructor
  · intro hp
    rcases List.mem_or_eq_of_mem_set hp with hold | heq
    · refine ⟨hold, ?_⟩
      -- `q` is in no other slot than the one emptied
      rintro rfl
      obtain ⟨j, hj⟩ := List.mem_iff_getElem?.mp hp
      have hne : i ≠ j := by
        rintro rfl
        change (mgr.contexts.set i none)[i]? = _ at hj
        rw [List.getElem?_set_self', hget] at hj
        cases hj
      change (mgr.contexts.set i none)[j]? = _ at hj
      rw [List.getElem?_set_ne hne] at hj
      exact hne ((h.slotted i p hget).symm.trans (h.slotted j p hj))
    · cases heq
  · rintro ⟨hp, hne⟩
    refine mem_set_of_mem hp fun heq => hne ?_
    rw [hget] at heq
    exact (Option.some.inj (Option.some.inj heq)).symm

/-- The removal by the number of someone in the table removes them, and nobody else. -/
theorem ctxMgrRemoveContext_ok {q : Ptr} (h : mgr.Ok idOf) (hq : q ∈ mgr.ptrs)
    (hid : idOf q < 2 ^ 31) :
    (ctxMgrRemoveContext mgr (idOf q)).Ok idOf ∧
      ∀ p, p ∈ (ctxMgrRemoveContext mgr (idOf q)).ptrs ↔ p ∈ mgr.ptrs ∧ p ≠ q := by
  have hslot : mgr.slot (idOf q) = some q := h.slot_eq_some.mpr ⟨hq, rfl⟩
  unfold ctxMgrRemoveContext
  rw [if_neg (Nat.not_le.mpr hid), if_pos (by rw [hslot]; rfl)]
  exact h.clear hslot

/-- A removal by whatever number empties a slot, or nothing happens. -/
theorem ctxMgrRemoveContext_cases (mgr : CtxMgr) (id : Nat) :
    ctxMgrRemoveContext mgr id = mgr ∨ ∃ q, mgr.slot id = some q ∧
      ctxMgrRemoveContext mgr id = mgr.clear (id % mgr.setsize) := by
  unfold ctxMgrRemoveContext
  split
  · exact Or.inl rfl
  · split
    · rename_i hsome
      obtain ⟨q, hq⟩ := Option.isSome_iff_exists.mp hsome
      exact Or.inr ⟨q, hq, rfl⟩
    · exact Or.inl rfl

/-! ## How many are in the table -/

/-- `contextNum` counts the contexts in the table. -/
def CtxMgr.Counted (mgr : CtxMgr) : Prop := mgr.contextNum = mgr.ptrs.toFinset.card

/-- Tables with the same contexts count the same. -/
theorem CtxMgr.Counted.congr {mgr' : CtxMgr} (h : mgr.Counted)
    (hnum : mgr'.contextNum = mgr.contextNum) (hmem : ∀ p, p ∈ mgr'.ptrs ↔ p ∈ mgr.ptrs) :
    mgr'.Counted := by
  have hsame : mgr'.ptrs.toFinset = mgr.ptrs.toFinset :=
    Finset.ext fun p => by rw [List.mem_toFinset, List.mem_toFinset, hmem]
  unfold CtxMgr.Counted
  rw [hnum, hsame]
  exact h

theorem CtxMgr.Counted.clear {i : Nat} {q : Ptr} (h : mgr.Counted) (hok : mgr.Ok idOf)
    (hslot : (mgr.contexts[i]?).join = some q) : (mgr.clear i).Counted := by
  have herase : (mgr.clear i).ptrs.toFinset = mgr.ptrs.toFinset.erase q := by
    refine Finset.ext fun p => ?_
    rw [List.mem_toFinset, Finset.mem_erase, List.mem_toFinset, (hok.clear hslot).2, and_comm]
  have hmem : q ∈ mgr.ptrs.toFinset := List.mem_toFinset.mpr (CtxMgr.mem_ptrs_of_slot hslot)
  unfold CtxMgr.Counted
  rw [herase, Finset.card_erase_of_mem hmem]
  show mgr.contextNum - 1 = _
  rw [h]

theorem CtxMgr.Counted.insert {mgr' : CtxMgr} {ctx : Ptr} (h : mgr.Counted) (hnew : ctx ∉ mgr.ptrs)
    (hnum : mgr'.contextNum = mgr.contextNum + 1)
    (hmem : ∀ p, p ∈ mgr'.ptrs ↔ p ∈ mgr.ptrs ∨ p = ctx) : mgr'.Counted := by
  have hinsert : mgr'.ptrs.toFinset = Insert.insert ctx mgr.ptrs.toFinset := by
    refine Finset.ext fun p => ?_
    rw [List.mem_toFinset, Finset.mem_insert, List.mem_toFinset, hmem, or_comm]
  unfold CtxMgr.Counted
  rw [hinsert, Finset.card_insert_of_notMem (by rwa [List.mem_toFinset]), hnum, h]

/-- The search counts the new context when it has found a slot. -/
theorem ctxMgrPlace_contextNum {ctx : Ptr} {fuel id id₀ : Nat} {mgr' : CtxMgr} {found : Bool}
    (hplace : ctxMgrPlace ctx fuel mgr id₀ = (mgr', id, found)) :
    mgr'.contextNum = mgr.contextNum + found.toNat := by
  rcases ctxMgrPlace_cases hplace with ⟨rfl, a, rfl⟩ | ⟨rfl, -, -, a, rfl⟩
  · rfl
  · rfl

theorem CtxMgr.Counted.add {ctx : Ptr} {id : Nat} {mgr' : CtxMgr} {found : Bool} (h : mgr.Counted)
    (hok : mgr.Ok idOf) (hnew : ctx ∉ mgr.ptrs)
    (hadd : ctxMgrAddContext idOf mgr ctx = some (mgr', id, found)) : mgr'.Counted := by
  have hmem := (ctxMgrAddContext_ok hok hnew hadd).2
  obtain ⟨grown, hgrow, hplace⟩ := Option.map_eq_some_iff.mp hadd
  have hgrown : grown.contextNum = mgr.contextNum := by
    simp only [ctxMgrGrow] at hgrow
    split at hgrow
    · split at hgrow
      · cases hgrow
      · cases hgrow
        rfl
    · cases hgrow
      rfl
  have hnum := ctxMgrPlace_contextNum hplace
  rw [hgrown] at hnum
  cases found with
  | true => exact h.insert hnew hnum fun p => by rw [hmem, and_iff_left rfl]
  | false => exact h.congr hnum fun p => by simp [hmem]

end ZServer
