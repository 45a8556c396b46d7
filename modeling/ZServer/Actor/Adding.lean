/-
  ZServer.Actor.Adding

  Whether `ctxMgrAddContext` (`src/ctx_mgr.c`) adds a context or leaves the table alone,
  for every table and every value of `allocId`.

  The number is an `uint32_t` that is returned as an `int`: from `2 ^ 31` on it is stored
  and reads as a failure.  The round in which the counter is 0 sets it to 1, so the next
  round draws 1 again, and the last slot of a row of `setsize` numbers is not looked at.
-/

import ZServer.Actor.CtxTable
import ZServer.Actor.NameMgr

namespace ZServer

open Lib

-- ============================================================================
-- The numbers that are drawn
-- ============================================================================

/-- The numbers of `rounds` rounds of the search. -/
def allocIds : Nat → Nat → List Nat
  | _, 0 => []
  | allocId, rounds + 1 =>
      if allocId = 0 then 1 :: allocIds 1 rounds
      else allocId :: allocIds (u32 (allocId + 1)) rounds

/-- How many rounds there are from the one in which the counter is 0 on. -/
def roundsFromZero (rounds allocId : Nat) : Nat :=
  if allocId = 0 then rounds else allocId + rounds - 2 ^ 32

/-- The number is drawn in one of the rounds. -/
def Allocates (rounds allocId id : Nat) : Prop :=
  (1 ≤ allocId ∧ allocId ≤ id ∧ id < allocId + rounds ∧ id < 2 ^ 32) ∨
    (0 < roundsFromZero rounds allocId ∧ (id = 1 ∨ 1 ≤ id ∧ id < roundsFromZero rounds allocId))

instance (rounds allocId id : Nat) : Decidable (Allocates rounds allocId id) := by
  unfold Allocates
  infer_instance

section Draws

variable {a m n id : Nat}

theorem allocIds_zero (n : Nat) : allocIds 0 (n + 1) = 1 :: allocIds 1 n := rfl

theorem allocIds_pos (ha : 1 ≤ a) (n : Nat) :
    allocIds a (n + 1) = a :: allocIds (u32 (a + 1)) n := by
  rw [allocIds, if_neg (Nat.ne_of_gt ha)]

/-- Up to the wrap. -/
theorem mem_allocIds_row (ha : 1 ≤ a) (h : a + n ≤ 2 ^ 32) :
    id ∈ allocIds a n ↔ a ≤ id ∧ id < a + n := by
  induction n generalizing a with
  | zero =>
      constructor
      · rintro ⟨⟩
      · rintro ⟨hle, hlt⟩
        omega
  | succ n ih =>
      rw [allocIds_pos ha, List.mem_cons]
      cases n with
      | zero =>
          constructor
          · rintro (rfl | ⟨⟨⟩⟩)
            exact ⟨Nat.le_refl id, Nat.lt_succ_self id⟩
          · rintro ⟨hle, hlt⟩
            exact Or.inl (by omega)
      | succ n =>
          rw [u32_of_lt (by omega), ih (by omega) (by omega)]
          omega

theorem mem_allocIds_zero (h : n < 2 ^ 32) :
    id ∈ allocIds 0 n ↔ 0 < n ∧ (id = 1 ∨ 1 ≤ id ∧ id < n) := by
  cases n with
  | zero =>
      constructor
      · rintro ⟨⟩
      · rintro ⟨⟨⟩, -⟩
  | succ n =>
      rw [allocIds_zero, List.mem_cons, mem_allocIds_row (Nat.le_refl 1) (by omega)]
      omega

theorem u32_wrap (h : a + 1 = 2 ^ 32) : u32 (a + 1) = 0 := by
  rw [h]
  rfl

theorem mem_allocIds (ha : a < 2 ^ 32) (hn : n < 2 ^ 32) :
    id ∈ allocIds a n ↔ Allocates n a id := by
  unfold Allocates roundsFromZero
  induction n generalizing a with
  | zero =>
      constructor
      · rintro ⟨⟩
      · intro h
        split at h <;> omega
  | succ n ih =>
      by_cases hzero : a = 0
      · rw [if_pos hzero, hzero, mem_allocIds_zero hn]
        omega
      · rw [if_neg hzero, allocIds_pos (Nat.pos_of_ne_zero hzero), List.mem_cons]
        by_cases hwrap : a + 1 = 2 ^ 32
        · rw [u32_wrap hwrap, mem_allocIds_zero (Nat.lt_of_succ_lt hn)]
          omega
        · rw [u32_of_lt (by omega), ih (by omega) (by omega), if_neg (Nat.succ_ne_zero a)]
          omega

-- ============================================================================
-- The first number that is free
-- ============================================================================

variable {free : Nat → Bool}

/-- From a number below `2 ^ 31` on, one that an `int` can hold comes first. -/
theorem find_allocIds_low (ha : a < 2 ^ 31) (hn : n < 2 ^ 31) (hid : id ∈ allocIds a n)
    (hlt : id < 2 ^ 31) (hfree : free id = true) :
    ∃ id', (allocIds a n).find? free = some id' ∧ id' < 2 ^ 31 := by
  induction n generalizing a with
  | zero => cases hid
  | succ n ih =>
      -- `k` is drawn now, `b` is the counter afterwards
      obtain ⟨k, b, hdraw, hk, hb⟩ : ∃ k b, allocIds a (n + 1) = k :: allocIds b n ∧
          k < 2 ^ 31 ∧ 1 ≤ b ∧ b ≤ 2 ^ 31 := by
        by_cases hzero : a = 0
        · exact ⟨1, 1, by rw [hzero, allocIds_zero], by decide, by decide⟩
        · refine ⟨a, a + 1, ?_, ha, by omega⟩
          rw [allocIds_pos (Nat.pos_of_ne_zero hzero), u32_of_lt (by omega)]
      rw [hdraw] at hid ⊢
      by_cases hkfree : free k = true
      · exact ⟨k, List.find?_cons_of_pos hkfree, hk⟩
      · rw [List.find?_cons_of_neg hkfree]
        have hrest : id ∈ allocIds b n :=
          (List.mem_cons.mp hid).resolve_left fun heq => hkfree (heq ▸ hfree)
        refine ih ?_ (Nat.lt_of_succ_lt hn) hrest
        have hrow := (mem_allocIds_row hb.1 (by omega)).mp hrest
        omega

/-- Past the numbers that read as failures, all of them taken. -/
theorem find_allocIds_high (ha : 2 ^ 31 ≤ a) (ha' : a < 2 ^ 32) (hn : n < 2 ^ 31)
    (hhigh : ∀ k, k ∈ allocIds a n → 2 ^ 31 ≤ k → free k = false) (hid : id ∈ allocIds a n)
    (hlt : id < 2 ^ 31) (hfree : free id = true) :
    ∃ id', (allocIds a n).find? free = some id' ∧ id' < 2 ^ 31 := by
  induction n generalizing a with
  | zero => cases hid
  | succ n ih =>
      rw [allocIds_pos (by omega)] at hid hhigh ⊢
      have htaken : ¬ free a = true := by
        rw [hhigh a List.mem_cons_self ha]
        decide
      rw [List.find?_cons_of_neg htaken]
      have hrest : id ∈ allocIds (u32 (a + 1)) n :=
        (List.mem_cons.mp hid).resolve_left (by omega)
      by_cases hwrap : a + 1 = 2 ^ 32
      · rw [u32_wrap hwrap] at hrest ⊢
        exact find_allocIds_low (by decide) (Nat.lt_of_succ_lt hn) hrest hlt hfree
      · have hnext : u32 (a + 1) = a + 1 := u32_of_lt (by omega)
        rw [hnext] at hrest hhigh ⊢
        exact ih (by omega) (by omega) (Nat.lt_of_succ_lt hn)
          (fun k hk => hhigh k (List.mem_cons_of_mem a hk)) hrest

/-- A number that an `int` can hold is not found before a larger one that is free. -/
theorem find_allocIds_first (ha : 2 ^ 31 ≤ a) (ha' : a < 2 ^ 32) (hn : n < 2 ^ 31)
    (hfind : (allocIds a n).find? free = some id) (hlt : id < 2 ^ 31) :
    ∀ k, k ∈ allocIds a n → 2 ^ 31 ≤ k → free k = false := by
  induction n generalizing a with
  | zero => cases hfind
  | succ n ih =>
      rw [allocIds_pos (by omega)] at hfind ⊢
      by_cases hfree : free a = true
      · rw [List.find?_cons_of_pos hfree] at hfind
        have heq := Option.some.inj hfind
        omega
      · rw [List.find?_cons_of_neg hfree] at hfind
        intro k hk hhigh
        rcases List.mem_cons.mp hk with rfl | hk
        · exact Bool.eq_false_iff.mpr hfree
        · by_cases hwrap : a + 1 = 2 ^ 32
          · rw [u32_wrap hwrap, mem_allocIds_zero (by omega)] at hk
            omega
          · have hnext : u32 (a + 1) = a + 1 := u32_of_lt (by omega)
            rw [hnext] at hfind hk
            exact ih (by omega) (by omega) (Nat.lt_of_succ_lt hn) hfind k hk hhigh

/-- When the search ends with a number that an `int` can hold. -/
theorem find_allocIds_iff (ha : a < 2 ^ 32) (hn : n < 2 ^ 31) :
    (∃ id, (allocIds a n).find? free = some id ∧ id < 2 ^ 31) ↔
      (∃ id, id < 2 ^ 31 ∧ Allocates n a id ∧ free id = true) ∧
        (2 ^ 31 ≤ a → ∀ id, 2 ^ 31 ≤ id → Allocates n a id → free id = false) := by
  have hmem : ∀ {id}, id ∈ allocIds a n ↔ Allocates n a id := mem_allocIds ha (by omega)
  constructor
  · rintro ⟨id, hfind, hlt⟩
    refine ⟨⟨id, hlt, hmem.mp (List.mem_of_find?_eq_some hfind), List.find?_some hfind⟩, ?_⟩
    intro hhigh k hk hdraw
    exact find_allocIds_first hhigh ha hn hfind hlt k (hmem.mpr hdraw) hk
  · rintro ⟨⟨id, hlt, hdraw, hfree⟩, htaken⟩
    by_cases hlow : a < 2 ^ 31
    · exact find_allocIds_low hlow hn (hmem.mpr hdraw) hlt hfree
    · have hhigh := Nat.le_of_not_lt hlow
      exact find_allocIds_high hhigh ha hn (fun k hk hle => htaken hhigh k hle (hmem.mp hk))
        (hmem.mpr hdraw) hlt hfree

end Draws

-- ============================================================================
-- The search
-- ============================================================================

section Search

variable {mgr : CtxMgr} {ctx : Ptr} {n id id₀ : Nat}

/-- The slot of the number is free. -/
def CtxMgr.free (mgr : CtxMgr) (id : Nat) : Bool := (mgr.slot id).isNone

theorem CtxMgr.free_iff : mgr.free id = true ↔ mgr.slot id = none := Option.isNone_iff_eq_none

theorem CtxMgr.alloc_eq (mgr : CtxMgr) (n : Nat) :
    allocIds mgr.allocId (n + 1) = mgr.alloc.2 :: allocIds mgr.alloc.1.allocId n := by
  unfold CtxMgr.alloc
  rw [allocIds]
  split <;> rfl

theorem CtxMgr.alloc_free (mgr : CtxMgr) : mgr.alloc.1.free = mgr.free :=
  funext fun id => congrArg Option.isNone (mgr.alloc_slot id)

/-- The search ends with the first number whose slot is free. -/
theorem ctxMgrPlace_find {mgr' : CtxMgr} {found : Bool}
    (hplace : ctxMgrPlace ctx n mgr id₀ = (mgr', id, found)) :
    (allocIds mgr.allocId n).find? mgr.free = if found then some id else none := by
  induction n generalizing mgr id₀ with
  | zero =>
      cases hplace
      rfl
  | succ n ih =>
      simp only [ctxMgrPlace, CtxMgr.alloc_slot] at hplace
      rw [CtxMgr.alloc_eq]
      split at hplace
      · rename_i hfree
        cases hplace
        exact List.find?_cons_of_pos (CtxMgr.free_iff.mpr hfree)
      · rename_i htaken
        rw [List.find?_cons_of_neg fun hfree => htaken (CtxMgr.free_iff.mp hfree),
          ← mgr.alloc_free]
        exact ih hplace

/-- The search fails if all numbers that are drawn are taken, and the slots stay. -/
theorem ctxMgrPlace_of_taken (hfind : (allocIds mgr.allocId n).find? mgr.free = none) :
    ∃ mgr' id, ctxMgrPlace ctx n mgr id₀ = (mgr', id, false) ∧ mgr'.contexts = mgr.contexts := by
  obtain ⟨⟨mgr', id, found⟩, hplace⟩ : ∃ r, ctxMgrPlace ctx n mgr id₀ = r := ⟨_, rfl⟩
  have heq := hfind.symm.trans (ctxMgrPlace_find hplace)
  rcases ctxMgrPlace_cases hplace with ⟨rfl, a, rfl⟩ | ⟨rfl, -⟩
  · exact ⟨_, id, hplace, rfl⟩
  · cases heq

/-- Otherwise the context is put into the slot. -/
theorem ctxMgrPlace_of_free (hfind : (allocIds mgr.allocId n).find? mgr.free = some id) :
    ∃ mgr', ctxMgrPlace ctx n mgr id₀ = (mgr', id, true) ∧ mgr'.setsize = mgr.setsize ∧
      mgr'.contexts = mgr.contexts.set (id % mgr.setsize) (some ctx) := by
  obtain ⟨⟨mgr', id', found⟩, hplace⟩ : ∃ r, ctxMgrPlace ctx n mgr id₀ = r := ⟨_, rfl⟩
  have heq := hfind.symm.trans (ctxMgrPlace_find hplace)
  rcases ctxMgrPlace_cases hplace with ⟨rfl, -⟩ | ⟨rfl, -, -, a, rfl⟩
  · cases heq
  · cases heq
    exact ⟨_, hplace, rfl, rfl⟩

end Search

-- ============================================================================
-- The table after growth
-- ============================================================================

section Growth

variable {st : Services} {g : CtxMgr}

/-- `c->id`. -/
def Services.idOf (st : Services) (p : Ptr) : Nat := (st.heap p).id

/-- The `setsize` with which the search begins. -/
def Services.room (st : Services) : Nat :=
  if st.mgr.setsize ≤ st.mgr.contextNum then st.mgr.setsize * 2 else st.mgr.setsize

/-- The slot of the number is taken when the search begins. -/
def Services.Taken (st : Services) (id : Nat) : Prop :=
  if st.mgr.setsize ≤ st.mgr.contextNum then
    ∃ p ∈ st.mgr.ptrs, st.idOf p % st.room = id % st.room
  else st.mgr.slot id ≠ none

/-- The table that the search begins with. -/
structure Services.Grown (st : Services) (g : CtxMgr) : Prop where
  grow : ctxMgrGrow st.idOf st.mgr = some g
  allocId : g.allocId = st.mgr.allocId
  contextNum : g.contextNum = st.mgr.contextNum
  setsize : g.setsize = st.room
  length : g.contexts.length = g.setsize
  pos : 0 < g.setsize
  lt : g.setsize < 2 ^ 31
  free : ∀ id, g.free id = true ↔ ¬ st.Taken id
  mem : ∀ p ∈ g.ptrs, p ∈ st.mgr.ptrs
  /-- a table that has been doubled is not full -/
  same : (∀ id, st.Taken id) → g = st.mgr

theorem ctxMgrGrow_abort (hfull : st.mgr.setsize ≤ st.mgr.contextNum)
    (hbig : 2 ^ 30 ≤ st.mgr.setsize) : ctxMgrGrow st.idOf st.mgr = none := by
  unfold ctxMgrGrow
  rw [if_pos hfull]
  exact if_pos (by omega)

theorem ctxMgrGrow_grown (hlen : st.mgr.contexts.length = st.mgr.setsize)
    (hpos : 1 ≤ st.mgr.setsize) (hlt : st.mgr.setsize < 2 ^ 31)
    (hfits : st.mgr.setsize ≤ st.mgr.contextNum → st.mgr.setsize < 2 ^ 30) :
    ∃ g, st.Grown g := by
  by_cases hfull : st.mgr.setsize ≤ st.mgr.contextNum
  · have hroom : st.room = st.mgr.setsize * 2 := if_pos hfull
    have hsmall := hfits hfull
    have htaken : ∀ id, st.Taken id ↔
        ∃ x, (rehash st.idOf (st.mgr.setsize * 2) st.mgr.contexts)[id % (st.mgr.setsize * 2)]? =
          some (some x) := by
      intro id
      unfold Services.Taken
      rw [if_pos hfull, hroom, rehash_taken (Nat.mod_lt _ (by omega))]
      exact exists_congr fun p => by rw [CtxMgr.mem_ptrs]
    refine ⟨{ st.mgr with
      setsize := st.mgr.setsize * 2
      contexts := rehash st.idOf (st.mgr.setsize * 2) st.mgr.contexts }, ?_, rfl, rfl, hroom.symm,
      rehash_length _ _, show 0 < st.mgr.setsize * 2 by omega,
      show st.mgr.setsize * 2 < 2 ^ 31 by omega, fun id => ?_, fun p hp => ?_, fun hall => ?_⟩
    · unfold ctxMgrGrow
      rw [if_pos hfull]
      exact if_neg (by omega)
    · rw [CtxMgr.free_iff, htaken, Option.eq_none_iff_forall_ne_some, not_exists]
      exact forall_congr' fun p => not_congr Option.join_eq_some_iff
    · rw [CtxMgr.mem_ptrs] at hp ⊢
      exact mem_of_mem_rehash hp
    · have hle : st.mgr.setsize * 2 ≤ st.mgr.contexts.length :=
        le_length_of_rehash_taken fun i hi => by
          have hi' := (htaken i).mp (hall i)
          rwa [Nat.mod_eq_of_lt hi] at hi'
      omega
  · refine ⟨st.mgr, if_neg hfull, rfl, rfl, (if_neg hfull).symm, hlen, hpos, hlt, fun id => ?_,
      fun p hp => hp, fun _ => rfl⟩
    unfold Services.Taken
    rw [CtxMgr.free_iff, if_neg hfull, ne_eq, not_not]

theorem Services.Grown.full_iff (h : st.Grown g) : none ∉ g.contexts ↔ ∀ id, st.Taken id := by
  constructor
  · intro hfull id
    by_contra hfree
    have hslot := CtxMgr.free_iff.mp ((h.free id).mpr hfree)
    have hlt : id % g.setsize < g.contexts.length := by
      rw [h.length]
      exact Nat.mod_lt _ h.pos
    unfold CtxMgr.slot at hslot
    rw [List.getElem?_eq_getElem hlt] at hslot
    have hnone : g.contexts[id % g.setsize] = none := hslot
    exact hfull (hnone ▸ List.getElem_mem hlt)
  · intro hall hnone
    obtain ⟨i, hi, heq⟩ := List.mem_iff_getElem.mp hnone
    have hslot : g.slot i = none := by
      unfold CtxMgr.slot
      rw [Nat.mod_eq_of_lt (h.length ▸ hi), List.getElem?_eq_getElem hi, heq]
      rfl
    exact (h.free i).mp (CtxMgr.free_iff.mpr hslot) (hall i)

end Growth

-- ============================================================================
-- All or nothing
-- ============================================================================

section Adding

variable {st : Services} {g : CtxMgr} {id : Nat}

/-- What `ctxMgrAddContext` returns, an `int`. -/
def addResult (id : Nat) (found : Bool) : Int := if found then intOf id else -1

/-- What adding the context `st.next` is to do. -/
structure AddsWhole (st : Services) : Prop where
  adds : ∃ mgr' id found, ctxMgrAddContext st.idOf st.mgr st.next = some (mgr', id, found) ∧
    (0 < addResult id found ∧ addResult id found = id ∧ mgr'.slot id = some st.next ∨
      addResult id found = -1 ∧ mgr'.contexts = st.mgr.contexts ∧
        mgr'.contextNum = st.mgr.contextNum)
  /-- a context that is in the table is returned, and a failure of an `init` that
      succeeds means that no slot is free after growth -/
  creates : ∀ initOk cb, ∃ st', ctxMgrCreateContext st initOk cb = some st' ∧
    (st.next ∈ st'.mgr.ptrs → st'.launched = st.launched ++ [st.next]) ∧
    (initOk = true → st'.launched = st.launched →
      ∀ g, ctxMgrGrow st.idOf st.mgr = some g → none ∉ g.contexts)

/-- The table can grow if it has to, and no slot is free, or one of a number below `2 ^ 31`
    that is drawn, and none of a larger one before it. -/
def AddsCleanly (st : Services) : Prop :=
  (st.mgr.setsize ≤ st.mgr.contextNum → st.mgr.setsize < 2 ^ 30) ∧
    ((∀ id, st.Taken id) ∨
      (∃ id, id < 2 ^ 31 ∧ Allocates st.room st.mgr.allocId id ∧ ¬ st.Taken id) ∧
        (2 ^ 31 ≤ st.mgr.allocId →
          ∀ id, 2 ^ 31 ≤ id → Allocates st.room st.mgr.allocId id → st.Taken id))

theorem ctxMgrAddContext_grown (h : st.Grown g) :
    ctxMgrAddContext st.idOf st.mgr st.next =
      some (ctxMgrPlace st.next g.setsize g 0) := by
  unfold ctxMgrAddContext
  rw [h.grow]
  rfl

theorem addResult_small (hlt : id < 2 ^ 31) : addResult id true = id := if_pos hlt

theorem addResult_large (hle : 2 ^ 31 ≤ id) : addResult id true = (id : Int) - 2 ^ 32 :=
  if_neg (Nat.not_lt.mpr hle)

/-- The search as the condition has it. -/
theorem Services.Grown.small_iff (h : st.Grown g) (halloc : st.mgr.allocId < 2 ^ 32) :
    (∃ id, (allocIds g.allocId g.setsize).find? g.free = some id ∧ id < 2 ^ 31) ↔
      (∃ id, id < 2 ^ 31 ∧ Allocates st.room st.mgr.allocId id ∧ ¬ st.Taken id) ∧
        (2 ^ 31 ≤ st.mgr.allocId →
          ∀ id, 2 ^ 31 ≤ id → Allocates st.room st.mgr.allocId id → st.Taken id) := by
  have htaken : ∀ id, g.free id = false ↔ st.Taken id := fun id => by
    rw [Bool.eq_false_iff, ne_eq, h.free, not_not]
  rw [find_allocIds_iff (h.allocId ▸ halloc) h.lt, h.setsize, h.allocId]
  simp only [h.free, htaken]

theorem Services.Grown.fresh (h : st.Grown g) (hnew : st.next ∉ st.mgr.ptrs) :
    some st.next ∉ g.contexts :=
  fun hmem => hnew (h.mem _ (CtxMgr.mem_ptrs.mpr hmem))

/-- No number that is drawn is free. -/
theorem Services.Grown.addsWhole_none (h : st.Grown g) (hnew : st.next ∉ st.mgr.ptrs)
    (hfind : (allocIds g.allocId g.setsize).find? g.free = none) :
    AddsWhole st ↔ ∀ id, st.Taken id := by
  obtain ⟨mgr', id, hplace, hsame⟩ := @ctxMgrPlace_of_taken g st.next g.setsize 0 hfind
  have hadd : ctxMgrAddContext st.idOf st.mgr st.next = some (mgr', id, false) := by
    rw [ctxMgrAddContext_grown h, hplace]
  have hcreate : ∀ initOk cb, ∃ st', ctxMgrCreateContext st initOk cb = some st' ∧
      st'.launched = st.launched ∧ st'.mgr = mgr' := by
    intro initOk cb
    have hadd' : ctxMgrAddContext (fun p => (st.heap p).id) st.mgr st.next = _ := hadd
    unfold ctxMgrCreateContext
    dsimp only
    rw [hadd']
    exact ⟨_, rfl, rfl, rfl⟩
  constructor
  · intro hwhole
    obtain ⟨st', hst', -, hfails⟩ := hwhole.creates true true
    obtain ⟨st'', hst'', hlaunched, -⟩ := hcreate true true
    obtain rfl : st' = st'' := Option.some.inj (hst'.symm.trans hst'')
    exact h.full_iff.mp (hfails rfl hlaunched g h.grow)
  · intro hall
    have hnum := ctxMgrPlace_contextNum hplace
    refine ⟨⟨mgr', id, false, hadd, Or.inr ⟨rfl, ?_, ?_⟩⟩, fun initOk cb => ?_⟩
    · rw [hsame, h.same hall]
    · rw [hnum, h.contextNum]
      rfl
    · obtain ⟨st', hst', hlaunched, hmgr⟩ := hcreate initOk cb
      refine ⟨st', hst', fun hmem => ?_, fun _ _ g' hg' => ?_⟩
      · rw [hmgr, CtxMgr.mem_ptrs, hsame] at hmem
        exact absurd hmem (h.fresh hnew)
      · rw [h.grow] at hg'
        cases hg'
        exact h.full_iff.mpr hall

/-- A context that is stored under a small number is returned, or taken out again when its
    `init` fails. -/
theorem ctxMgrCreateContext_small {mgr' : CtxMgr}
    (hadd : ctxMgrAddContext st.idOf st.mgr st.next = some (mgr', id, true)) (hlt : id < 2 ^ 31)
    (initOk cb : Bool) : ∃ st', ctxMgrCreateContext st initOk cb = some st' ∧
      (initOk = true → st'.launched = st.launched ++ [st.next]) ∧
      (initOk = false → st'.mgr = ctxMgrRemoveContext mgr' id) := by
  have hadd' : ctxMgrAddContext (fun p => (st.heap p).id) st.mgr st.next = _ := hadd
  have hcond : ¬ (true = false ∨ 2 ^ 31 ≤ id) := by
    rintro (⟨⟨⟩⟩ | hle)
    omega
  unfold ctxMgrCreateContext
  dsimp only
  rw [hadd', Option.map_some]
  dsimp only
  rw [if_neg hcond]
  cases initOk with
  | true => exact ⟨_, rfl, fun _ => rfl, fun hfalse => by cases hfalse⟩
  | false => exact ⟨_, rfl, (fun htrue => by cases htrue), fun _ => rfl⟩

/-- The first number that is free. -/
theorem Services.Grown.addsWhole_some (h : st.Grown g) (hnew : st.next ∉ st.mgr.ptrs)
    (hfind : (allocIds g.allocId g.setsize).find? g.free = some id) :
    AddsWhole st ↔ id < 2 ^ 31 := by
  obtain ⟨mgr', hplace, hsize, hset⟩ := @ctxMgrPlace_of_free g st.next g.setsize id 0 hfind
  have hadd : ctxMgrAddContext st.idOf st.mgr st.next = some (mgr', id, true) := by
    rw [ctxMgrAddContext_grown h, hplace]
  have hindex : id % g.setsize < g.contexts.length := by
    rw [h.length]
    exact Nat.mod_lt _ h.pos
  have hslot : mgr'.slot id = some st.next := by
    unfold CtxMgr.slot
    rw [hsize, hset, List.getElem?_set_self hindex]
    rfl
  constructor
  · intro hwhole
    by_contra hlarge
    obtain ⟨mgr'', id', found, hadd', hcases⟩ := hwhole.adds
    rw [hadd] at hadd'
    cases hadd'
    rcases hcases with ⟨-, heq, -⟩ | ⟨-, hsame, -⟩
    · rw [addResult_large (Nat.le_of_not_lt hlarge)] at heq
      omega
    · refine hnew (CtxMgr.mem_ptrs.mpr ?_)
      rw [← hsame]
      exact CtxMgr.mem_ptrs.mp (CtxMgr.mem_ptrs_of_slot hslot)
  · intro hlt
    refine ⟨⟨mgr', id, true, hadd, Or.inl ⟨?_, addResult_small hlt, hslot⟩⟩, fun initOk cb => ?_⟩
    · have hpos := ctxMgrPlace_pos hplace
      rw [addResult_small hlt]
      omega
    · obtain ⟨st', hst', hok, hfailed⟩ := ctxMgrCreateContext_small hadd hlt initOk cb
      refine ⟨st', hst', ?_⟩
      cases initOk with
      | true =>
          refine ⟨fun _ => hok rfl, fun _ hsame => ?_⟩
          rw [hok rfl] at hsame
          cases List.append_right_eq_self.mp hsame
      | false =>
          refine ⟨fun hmem => ?_, fun htrue => by cases htrue⟩
          have hclear : ctxMgrRemoveContext mgr' id = mgr'.clear (id % mgr'.setsize) := by
            unfold ctxMgrRemoveContext
            rw [if_neg (Nat.not_le.mpr hlt), if_pos (by rw [hslot]; rfl)]
            rfl
          have hcontexts : (mgr'.clear (id % mgr'.setsize)).contexts =
              g.contexts.set (id % g.setsize) none := by
            unfold CtxMgr.clear
            rw [hsize, hset, List.set_set]
          rw [hfailed rfl, hclear, CtxMgr.mem_ptrs, hcontexts] at hmem
          rcases List.mem_or_eq_of_mem_set hmem with hold | hnone
          · exact absurd hold (h.fresh hnew)
          · cases hnone

/-- Adding a context is all or nothing just in case the search meets a free slot under a
    number that an `int` can hold, or there is none. -/
theorem addsWhole_iff (hlen : st.mgr.contexts.length = st.mgr.setsize)
    (hpos : 1 ≤ st.mgr.setsize) (hsize : st.mgr.setsize < 2 ^ 31)
    (halloc : st.mgr.allocId < 2 ^ 32) (hnew : st.next ∉ st.mgr.ptrs) :
    AddsWhole st ↔ AddsCleanly st := by
  by_cases hfits : st.mgr.setsize ≤ st.mgr.contextNum → st.mgr.setsize < 2 ^ 30
  · obtain ⟨g, h⟩ := ctxMgrGrow_grown hlen hpos hsize hfits
    unfold AddsCleanly
    rw [and_iff_right hfits, ← h.small_iff halloc]
    cases hfind : (allocIds g.allocId g.setsize).find? g.free with
    | none =>
        rw [h.addsWhole_none hnew hfind]
        refine ⟨Or.inl, ?_⟩
        rintro (hall | ⟨id, hid, -⟩)
        · exact hall
        · cases hid
    | some id =>
        rw [h.addsWhole_some hnew hfind]
        constructor
        · exact fun hlt => Or.inr ⟨id, rfl, hlt⟩
        · rintro (hall | ⟨id', hid', hlt⟩)
          · exact absurd (hall id) ((h.free id).mp (List.find?_some hfind))
          · rw [Option.some.inj hid']
            exact hlt
  · -- `zcalloc` aborts
    constructor
    · intro hwhole
      obtain ⟨mgr', id, found, hadd, -⟩ := hwhole.adds
      rw [Classical.not_imp] at hfits
      unfold ctxMgrAddContext at hadd
      rw [ctxMgrGrow_abort hfits.1 (Nat.le_of_not_lt hfits.2)] at hadd
      cases hadd
    · exact fun hclean => absurd hclean.1 hfits

/-- A table that is half full, at the last number before the wrap: its slot is taken, and so is
    the one of the number 1, which is drawn twice. -/
def nearWrap : Services :=
  { servicesInit 4 with
    next := 2, launched := [0, 1], mgr := ⟨2 ^ 32 - 1, 2, [none, some 0, none, some 1], 4⟩ }

theorem addsWhole_nearWrap : AddsWhole nearWrap := by
  refine (addsWhole_iff rfl (by decide : 1 ≤ 4) (by decide) (by decide) (by decide)).mpr
    ⟨fun _ => by decide, Or.inr ⟨⟨2, by decide, by decide, fun h => h rfl⟩, ?_⟩⟩
  rintro - id hid (⟨-, hle, -, hlt⟩ | ⟨-, rfl | ⟨-, hlt⟩⟩)
  · have hlast : id = 2 ^ 32 - 1 := Nat.le_antisymm (Nat.le_sub_one_of_lt hlt) hle
    rw [hlast]
    rintro ⟨⟩
  · omega
  · have hrounds : id < 3 := hlt
    omega

/-- With `allocId` at `2 ^ 31` the context is stored and reported as a failure; with the
    counter at 0 the number 1 is drawn twice, and the free slot 0 is not looked at. -/
theorem not_addsWhole : ∃ st st₁ : Services,
    (st.mgr = ⟨2 ^ 31, 0, [none, none], 2⟩ ∧ ¬ AddsWhole st ∧
      ∃ st', ctxMgrCreateContext st true true = some st' ∧ st'.launched = [] ∧
        st'.mgr.ptrs = [0]) ∧
    (st₁.mgr = ⟨0, 1, [none, some 0], 2⟩ ∧ ¬ AddsWhole st₁ ∧
      ∃ st', ctxMgrCreateContext st₁ true true = some st' ∧ st'.launched = [0] ∧
        st'.mgr.contexts = [none, some 0]) := by
  refine ⟨{ servicesInit 2 with mgr := ⟨2 ^ 31, 0, [none, none], 2⟩ },
    { servicesInit 2 with next := 1, launched := [0], mgr := ⟨0, 1, [none, some 0], 2⟩ },
    ⟨rfl, fun h => ?_, _, rfl, rfl, rfl⟩, rfl, fun h => ?_, _, rfl, rfl, rfl⟩
  · obtain ⟨st', hst', hin, -⟩ := h.creates true true
    cases hst'
    exact absurd (hin (by decide)) (by decide)
  · obtain ⟨st', hst', -, hfull⟩ := h.creates true true
    cases hst'
    exact hfull rfl rfl _ rfl (by decide)

end Adding

end ZServer
