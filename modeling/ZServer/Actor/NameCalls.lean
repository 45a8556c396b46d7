/-
  ZServer.Actor.NameCalls

  What the calls of `src/name_mgr.c` leave behind: the references of the contexts,
  and, after a registration that fails, the dictionary and the names.

  `nameMgrRegist` writes `ctx->name` before `dictAdd` has accepted the name, and
  `nameMgrUnRegist` does not give back what it got from `ctxMgrGetContext`.
-/

import ZServer.Actor.Delivery

namespace ZServer

open Lib

-- ============================================================================
-- Calls
-- ============================================================================

inductive NameOp where
  | regist (name : List Char) (id : Nat)
  | unregist (name : List Char)
  | getId (name : List Char)
  deriving DecidableEq, Repr

/-- The call, with its result. -/
def nameCall (st : Services) : NameOp → Services × Int
  | .regist name id => nameMgrRegist st name id
  | .unregist name => nameMgrUnRegist st name
  | .getId name => (st, intOf (nameMgrGetId st name))

def nameStep (st : Services) (op : NameOp) : Option Services := some (nameCall st op).1

/-- What is claimed of one call. -/
structure CleanCall (st : Services) (op : NameOp) : Prop where
  refs : ∀ p, ((nameCall st op).1.heap p).ref = (st.heap p).ref
  refused : ∀ name id, op = .regist name id → (nameCall st op).2 ≠ 0 →
    (nameCall st op).1.nameDict = st.nameDict ∧
      ∀ p, ((nameCall st op).1.heap p).name = (st.heap p).name

/-- A name that is taken is the one that the context has, and a name that is undone leads
    to no context. -/
def CleansUp (st : Services) : NameOp → Prop
  | .regist name id =>
      (st.nameDict.lookup name).isSome →
        ∀ p, st.mgr.slot id = some p → (st.heap p).name = snprintfName name
  | .unregist name =>
      ∀ id, st.nameDict.lookup name = some id → 0 < id → id < 2 ^ 31 → st.mgr.slot id = none
  | .getId _ => True

-- ============================================================================
-- What each call changes
-- ============================================================================

section Calls

variable {st : Services} {name : List Char} {id : Nat} {p : Ptr}

theorem ctxMgrReleaseContext_heap (st : Services) (p q : Ptr) :
    (ctxMgrReleaseContext st p).heap q =
      if q = p then (contextRelease (st.heap p)).1 else st.heap q := by
  by_cases hq : q = p
  · rw [if_pos hq, hq]
    unfold ctxMgrReleaseContext
    dsimp only
    split <;> exact Services.set_heap_self st p _
  · rw [if_neg hq, ctxMgrReleaseContext_heap_of_ne st hq]

theorem ctxMgrReleaseContext_nameDict (st : Services) (p : Ptr) :
    (ctxMgrReleaseContext st p).nameDict = st.nameDict := by
  unfold ctxMgrReleaseContext
  dsimp only
  split <;> rfl

theorem ctxMgrGetContext_of_slot (hslot : st.mgr.slot id = some p) :
    ctxMgrGetContext st id = (st.set p (contextRetain (st.heap p)), some p) := by
  unfold ctxMgrGetContext
  rw [hslot]

theorem ctxMgrGetContext_of_free (hslot : st.mgr.slot id = none) :
    ctxMgrGetContext st id = (st, none) := by
  unfold ctxMgrGetContext
  rw [hslot]

theorem nameMgrRegist_free (hslot : st.mgr.slot id = none) :
    nameMgrRegist st name id = (st, -2) := by
  unfold nameMgrRegist
  rw [ctxMgrGetContext_of_free hslot]

/-- Whether or not the name is accepted, the context is renamed. -/
theorem nameMgrRegist_heap (hslot : st.mgr.slot id = some p) (q : Ptr) :
    (nameMgrRegist st name id).1.heap q =
      if q = p then
        (contextRelease { contextRetain (st.heap p) with name := snprintfName name }).1
      else st.heap q := by
  unfold nameMgrRegist
  rw [ctxMgrGetContext_of_slot hslot]
  dsimp only
  rw [Services.set_heap_self]
  split <;>
    (rw [ctxMgrReleaseContext_heap]
     by_cases hq : q = p
     · rw [if_pos hq, if_pos hq]
       exact congrArg (fun ctx => (contextRelease ctx).1) (Services.set_heap_self _ p _)
     · rw [if_neg hq, if_neg hq]
       exact (Services.set_heap_of_ne _ _ hq).trans (Services.set_heap_of_ne _ _ hq))

theorem nameMgrRegist_refused (hslot : st.mgr.slot id = some p) :
    (nameMgrRegist st name id).2 ≠ 0 ↔ (st.nameDict.lookup name).isSome := by
  unfold nameMgrRegist
  rw [ctxMgrGetContext_of_slot hslot]
  dsimp only [Services.set]
  cases st.nameDict.lookup name <;> simp

theorem nameMgrRegist_nameDict (hslot : st.mgr.slot id = some p)
    (htaken : (st.nameDict.lookup name).isSome) :
    (nameMgrRegist st name id).1.nameDict = st.nameDict := by
  obtain ⟨id', hlookup⟩ := Option.isSome_iff_exists.mp htaken
  unfold nameMgrRegist
  rw [ctxMgrGetContext_of_slot hslot]
  dsimp only [Services.set]
  rw [hlookup]
  exact ctxMgrReleaseContext_nameDict _ p

/-- Without a number for the name nothing happens. -/
theorem nameMgrUnRegist_unknown
    (hid : ∀ id, st.nameDict.lookup name = some id → ¬ (0 < id ∧ id < 2 ^ 31)) :
    nameMgrUnRegist st name = (st, -1) := by
  have hnone : nameMgrGetId st name = 0 ∨ 2 ^ 31 ≤ nameMgrGetId st name := by
    unfold nameMgrGetId
    cases hlookup : st.nameDict.lookup name with
    | none => exact Or.inl rfl
    | some id =>
        have hnot := hid id hlookup
        show id = 0 ∨ 2 ^ 31 ≤ id
        omega
  unfold nameMgrUnRegist
  exact if_pos hnone

/-- The number of the name, and where it leads. -/
theorem nameMgrUnRegist_heap (hlookup : st.nameDict.lookup name = some id) (hpos : 0 < id)
    (hlt : id < 2 ^ 31) (q : Ptr) :
    ((nameMgrUnRegist st name).1.heap q).ref =
      if st.mgr.slot id = some q then (st.heap q).ref + 1 else (st.heap q).ref := by
  have hget : nameMgrGetId st name = id := by
    unfold nameMgrGetId
    rw [hlookup]
    rfl
  have hid : ¬ (id = 0 ∨ 2 ^ 31 ≤ id) := by omega
  unfold nameMgrUnRegist
  simp only [hget, hid, if_false, hlookup, Option.isNone_some, Bool.false_eq_true]
  -- the name is out of the dictionary before the context is looked for
  generalize hst : ({ st with nameDict := st.nameDict.filter fun e => e.1 ≠ name } : Services) = st₁
  have hheap : st₁.heap = st.heap := hst ▸ rfl
  cases hslot : st.mgr.slot id with
  | none =>
      have hslot₁ : st₁.mgr.slot id = none := hst ▸ hslot
      rw [ctxMgrGetContext_of_free hslot₁, if_neg (by rintro ⟨⟩), ← hheap]
  | some p =>
      have hslot₁ : st₁.mgr.slot id = some p := hst ▸ hslot
      rw [ctxMgrGetContext_of_slot hslot₁, ← hheap]
      by_cases hq : q = p
      · rw [hq, if_pos rfl, Services.set_heap_self, Services.set_heap_self]
        rfl
      · rw [if_neg fun heq => hq (Option.some.inj heq).symm, Services.set_heap_of_ne _ _ hq,
          Services.set_heap_of_ne _ _ hq]

end Calls

-- ============================================================================
-- Which calls are clean
-- ============================================================================

section Clean

variable {st : Services} {name : List Char} {id : Nat}

theorem cleanCall_regist_iff :
    CleanCall st (.regist name id) ↔ CleansUp st (.regist name id) := by
  cases hslot : st.mgr.slot id with
  | none =>
      refine ⟨fun _ _ p hp => ?_, fun _ => ⟨fun p => ?_, fun name' id' heq _ => ?_⟩⟩
      · rw [hslot] at hp
        cases hp
      · exact congrArg (fun r : Services × Int => (r.1.heap p).ref) (nameMgrRegist_free hslot)
      · rw [show nameCall st (.regist name id) = (st, -2) from nameMgrRegist_free hslot]
        exact ⟨rfl, fun _ => rfl⟩
  | some p =>
      have hheap := @nameMgrRegist_heap st name id p hslot
      have hname : ((nameMgrRegist st name id).1.heap p).name = snprintfName name := by
        rw [hheap p, if_pos rfl, contextRelease_name]
      constructor
      · intro hclean htaken q hq
        obtain rfl : p = q := Option.some.inj (hslot.symm.trans hq)
        have hrefused := (nameMgrRegist_refused hslot).mpr htaken
        exact ((hclean.refused name id rfl hrefused).2 p).symm.trans hname
      · intro hup
        refine ⟨fun q => ?_, fun name' id' heq hne => ?_⟩
        · show ((nameMgrRegist st name id).1.heap q).ref = _
          rw [hheap q]
          split
          · rename_i hq
            rw [contextRelease_ref, hq]
            exact Int.add_sub_cancel ..
          · rfl
        · have htaken := (nameMgrRegist_refused hslot).mp hne
          refine ⟨nameMgrRegist_nameDict hslot htaken, fun q => ?_⟩
          by_cases hq : q = p
          · rw [hq]
            exact hname.trans (hup htaken p hslot).symm
          · show ((nameMgrRegist st name id).1.heap q).name = _
            rw [hheap q, if_neg hq]

theorem cleanCall_unregist_iff :
    CleanCall st (.unregist name) ↔ CleansUp st (.unregist name) := by
  constructor
  · intro hclean id hlookup hpos hlt
    cases hslot : st.mgr.slot id with
    | none => rfl
    | some p =>
        have href : ((nameMgrUnRegist st name).1.heap p).ref = (st.heap p).ref := hclean.refs p
        rw [nameMgrUnRegist_heap hlookup hpos hlt, if_pos hslot] at href
        omega
  · intro hup
    refine ⟨fun p => ?_, fun name' id heq => by cases heq⟩
    show ((nameMgrUnRegist st name).1.heap p).ref = _
    by_cases hid : ∃ id, st.nameDict.lookup name = some id ∧ 0 < id ∧ id < 2 ^ 31
    · obtain ⟨id, hlookup, hpos, hlt⟩ := hid
      rw [nameMgrUnRegist_heap hlookup hpos hlt, hup id hlookup hpos hlt, if_neg (by rintro ⟨⟩)]
    · rw [nameMgrUnRegist_unknown fun id hlookup hlt => hid ⟨id, hlookup, hlt⟩]

theorem cleanCall_iff (st : Services) (op : NameOp) : CleanCall st op ↔ CleansUp st op := by
  cases op with
  | regist name id => exact cleanCall_regist_iff
  | unregist name => exact cleanCall_unregist_iff
  | getId name =>
      exact ⟨fun _ => trivial, fun _ => ⟨fun _ => rfl, fun name' id heq => by cases heq⟩⟩

end Clean

-- ============================================================================
-- Runs
-- ============================================================================

/-- Along every run the calls are clean if and only if no name that is taken renames a
    context, and no name that is undone leads to one. -/
theorem names_clean_iff (st : Services) (ops : List NameOp) :
    AllSteps nameStep CleanCall st ops ↔ AllSteps nameStep CleansUp st ops :=
  allSteps_iff (J := fun _ => True) (fun _ _ _ _ _ _ => trivial)
    (fun st op _ _ _ => cleanCall_iff st op) trivial

/-- A service that registers its name and undoes it keeps a reference that nobody has; a
    second service that asks for the name is refused it and has it in `ctx->name`. -/
theorem names_not_clean : ∃ st, Reachable servicesStep (servicesInit 4) st ∧
    (∀ p ∈ [0, 1], st.Live p) ∧
    ¬ AllSteps nameStep CleanCall st [.regist ['a'] 1, .unregist ['a']] ∧
    ¬ AllSteps nameStep CleanCall st [.regist ['a'] 1, .regist ['a'] 2] := by
  refine ⟨_, ⟨[.create true true, .create true true], rfl⟩, by decide, fun hclean => ?_,
    fun hclean => ?_⟩
  · have href := ((hclean _ rfl).2 _ rfl).1.refs 0
    revert href
    decide
  · have hname := (((hclean _ rfl).2 _ rfl).1.refused ['a'] 2 rfl (by decide)).2 1
    revert hname
    decide

end ZServer
