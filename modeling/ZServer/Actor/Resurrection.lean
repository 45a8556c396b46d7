/-
  ZServer.Actor.Resurrection

  `ctxMgrGetContext` against `ctxMgrReleaseContext`, with the lookup, the
  increment, the decrement, the `zfree` and the clearing of the slot as steps of
  their own.

  Between the lookup and the increment nothing protects the context, and a
  context stays in its slot after its count has reached zero.
  `never_resurrected` says that these are the two ways to get hold of a dead
  context, `resurrected_next` that each of them leads there.
-/

import Mathlib.Logic.Basic
import ZServer.Actor.CtxMgr
import ZServer.Lib.Threads

namespace ZServer

open Lib

/-- The contexts and their table, with the history of the counts. -/
structure Registry where
  heap : Ptr → Context
  mgr : CtxMgr
  /-- the contexts whose count has reached zero -/
  zeroed : List Ptr
  /-- the contexts that `ctxMgrGetContext` returned after that -/
  resurrected : List Ptr

/-- Where a thread stands in one of the two calls. -/
inductive RegistryPc where
  | idle
  /-- `contextRetain(ctx)`, the lock already dropped -/
  | retain (ctx : Ptr)
  /-- `AtomicSub(&ctx->ref, 1)` -/
  | decrement (ctx : Ptr)
  /-- `zfree(ctx)` and the rest of `contextRelease` -/
  | free (ctx : Ptr) (id : Nat)
  /-- `ctxMgrRemoveContext(M, id)` -/
  | remove (id : Nat)
  deriving DecidableEq, Repr

/-- Which call an idle thread makes. -/
inductive RegistryCall where
  | get (id : Nat)
  | release (ctx : Ptr)
  deriving DecidableEq, Repr

def registryStep (reg : Registry) (pc : RegistryPc) (call : RegistryCall) :
    Option (Registry × RegistryPc) :=
  match pc with
  | .idle =>
      match call with
      | .get id =>
          -- the slot is read under the read lock; `contextRetain(NULL)` does nothing
          match reg.mgr.slot id with
          | none => some (reg, .idle)
          | some ctx => some (reg, .retain ctx)
      | .release ctx => some (reg, .decrement ctx)
  | .retain ctx =>
      some ({ reg with
        heap := Function.update reg.heap ctx (contextRetain (reg.heap ctx))
        resurrected := if ctx ∈ reg.zeroed then reg.resurrected ++ [ctx] else reg.resurrected },
        .idle)
  | .decrement ctx =>
      let heap := Function.update reg.heap ctx { reg.heap ctx with ref := (reg.heap ctx).ref - 1 }
      if (reg.heap ctx).ref = 1 then
        some ({ reg with heap := heap, zeroed := reg.zeroed ++ [ctx] },
          .free ctx (reg.heap ctx).id)
      else some ({ reg with heap := heap }, .idle)
  | .free ctx id =>
      some ({ reg with heap := Function.update reg.heap ctx { reg.heap ctx with freed := true } },
        .remove id)
  | .remove id => some ({ reg with mgr := ctxMgrRemoveContext reg.mgr id }, .idle)

variable {ι : Type}

/-- `ctxMgrGetContext` has not returned a context whose count had reached zero. -/
def NoneResurrected (c : Config ι Registry RegistryPc) : Prop := c.shared.resurrected = []

/-- The condition on a step: a count reaches zero only while nobody stands
    between the lookup and the increment, and a lookup does not find a context
    whose count has reached zero. -/
def LooksUpLiving (c : Config ι Registry RegistryPc) (a : ι × RegistryCall) : Prop :=
  match c.pcs a.1, a.2 with
  | .decrement ctx, _ => (c.shared.heap ctx).ref = 1 → ∀ i, c.pcs i ≠ .retain ctx
  | .idle, .get id => ∀ ctx ∈ c.shared.mgr.slot id, ctx ∉ c.shared.zeroed
  | _, _ => True

instance (c : Config ι Registry RegistryPc) : Decidable (NoneResurrected c) :=
  inferInstanceAs (Decidable (_ = _))

instance [Fintype ι] (c : Config ι Registry RegistryPc) (a : ι × RegistryCall) :
    Decidable (LooksUpLiving c a) := by
  unfold LooksUpLiving
  split <;> infer_instance

/-- What a step does to the histories, and where a lookup comes from. -/
structure RegistryMove (reg reg' : Registry) (pc pc' : RegistryPc) (call : RegistryCall) :
    Prop where
  zeroed : reg'.zeroed = reg.zeroed ∨ ∃ ctx, pc = .decrement ctx ∧ (reg.heap ctx).ref = 1 ∧
    reg'.zeroed = reg.zeroed ++ [ctx]
  resurrected : reg'.resurrected = reg.resurrected ∨ ∃ ctx, pc = .retain ctx ∧ ctx ∈ reg.zeroed
  lookup : ∀ ctx, pc' = .retain ctx → reg'.zeroed = reg.zeroed ∧
    ∃ id, pc = .idle ∧ call = .get id ∧ reg.mgr.slot id = some ctx

theorem registry_move {reg reg' : Registry} {pc pc' : RegistryPc} {call : RegistryCall}
    (hs : registryStep reg pc call = some (reg', pc')) : RegistryMove reg reg' pc pc' call := by
  cases pc with
  | idle =>
      cases call with
      | get id =>
          simp only [registryStep] at hs
          split at hs
          · cases hs
            exact ⟨Or.inl rfl, Or.inl rfl, by rintro _ ⟨⟩⟩
          · rename_i ctx hslot
            cases hs
            refine ⟨Or.inl rfl, Or.inl rfl, fun ctx' h => ⟨rfl, id, rfl, rfl, ?_⟩⟩
            cases h
            exact hslot
      | release ctx =>
          cases hs
          exact ⟨Or.inl rfl, Or.inl rfl, by rintro _ ⟨⟩⟩
  | retain ctx =>
      cases hs
      refine ⟨Or.inl rfl, ?_, by rintro _ ⟨⟩⟩
      by_cases hdead : ctx ∈ reg.zeroed
      · exact Or.inr ⟨ctx, rfl, hdead⟩
      · exact Or.inl (if_neg hdead)
  | decrement ctx =>
      simp only [registryStep] at hs
      split at hs
      · rename_i href
        cases hs
        exact ⟨Or.inr ⟨ctx, rfl, href, rfl⟩, Or.inl rfl, by rintro _ ⟨⟩⟩
      · cases hs
        exact ⟨Or.inl rfl, Or.inl rfl, by rintro _ ⟨⟩⟩
  | free ctx id =>
      cases hs
      exact ⟨Or.inl rfl, Or.inl rfl, by rintro _ ⟨⟩⟩
  | remove id =>
      cases hs
      exact ⟨Or.inl rfl, Or.inl rfl, by rintro _ ⟨⟩⟩

/-! ## Runs without resurrection -/

/-- A context about to be retained has not died. -/
structure RegistryOk (c : Config ι Registry RegistryPc) : Prop where
  retain : ∀ i ctx, c.pcs i = .retain ctx → ctx ∉ c.shared.zeroed
  none : NoneResurrected c

variable [DecidableEq ι]

theorem RegistryOk.step {c c' : Config ι Registry RegistryPc} {a : ι × RegistryCall}
    (h : RegistryOk c) (hf : fire registryStep c a = some c') (hok : LooksUpLiving c a) :
    RegistryOk c' := by
  obtain ⟨reg', pc', hs, rfl⟩ := fire_eq_some.mp hf
  have hmove := registry_move hs
  refine ⟨fun i ctx hi => ?_, ?_⟩
  · show ctx ∉ reg'.zeroed
    by_cases hia : i = a.1
    · subst hia
      simp only [Function.update_self] at hi
      obtain ⟨hzeroed, id, hpc, hcall, hslot⟩ := hmove.lookup ctx hi
      simp only [LooksUpLiving, hpc, hcall] at hok
      rw [hzeroed]
      exact hok ctx hslot
    · simp only [Function.update_of_ne hia] at hi
      have hliving := h.retain i ctx hi
      rcases hmove.zeroed with hzeroed | ⟨dead, hpc, href, hzeroed⟩
      · rw [hzeroed]
        exact hliving
      · -- the context that dies is not one that somebody is about to retain
        have hne : ctx ≠ dead := by
          intro heq
          simp only [LooksUpLiving, hpc] at hok
          exact hok href i (heq ▸ hi)
        rw [hzeroed]
        intro hmem
        rcases List.mem_append.mp hmem with hold | hnew
        · exact hliving hold
        · exact hne (List.mem_singleton.mp hnew)
  · show reg'.resurrected = []
    rcases hmove.resurrected with hsame | ⟨ctx, hpc, hdead⟩
    · exact hsame.trans h.none
    · exact absurd hdead (h.retain a.1 ctx hpc)

/-- All threads idle, no count has reached zero so far. -/
def registryInit (heap : Ptr → Context) (mgr : CtxMgr) : Config ι Registry RegistryPc :=
  ⟨⟨heap, mgr, [], []⟩, fun _ => .idle⟩

omit [DecidableEq ι] in
theorem registryInit_ok (heap : Ptr → Context) (mgr : CtxMgr) :
    RegistryOk (registryInit heap mgr : Config ι Registry RegistryPc) :=
  ⟨fun _ _ h => (by cases h), rfl⟩

/-- From whatever contexts in whatever table: in a run whose steps all meet the
    condition no context comes back to life. -/
theorem never_resurrected (heap : Ptr → Context) (mgr : CtxMgr) {as : List (ι × RegistryCall)}
    (hok : AllSteps (fire registryStep) LooksUpLiving (registryInit heap mgr) as) :
    Always (fire registryStep) NoneResurrected (registryInit heap mgr) as :=
  always_of_allSteps (J := RegistryOk) (fun _ h => h.none) (fun _ _ _ h hs hok => h.step hs hok)
    (registryInit_ok heap mgr) hok

/-- One context, number 1, that one more release will free. -/
def lastReference : Config (Fin 2) Registry RegistryPc :=
  registryInit (fun _ => { Context.blank with id := 1, ref := 1 })
    { allocId := 2, contextNum := 1, contexts := [some 0], setsize := 1 }

/-- A caller gets the context, the other holder releases first, and a lookup
    after the last release finds an empty slot. -/
theorem never_resurrected_in_order :
    Always (fire registryStep) NoneResurrected lastReference
      ([(0, .get 1), (0, .get 1)] ++ List.replicate 2 (1, .release 0) ++
        List.replicate 4 (0, .release 0) ++ [(1, .get 1)]) :=
  never_resurrected _ _ (by decide)

/-- The last release falls between the lookup and the increment. -/
theorem resurrected_context :
    ¬ Always (fire registryStep) NoneResurrected lastReference
      [(0, .get 1), (1, .release 0), (1, .release 0), (0, .get 1)] := by
  decide

/-! ## No other way out -/

/-- A thread that has looked up a dead context returns it next. -/
theorem resurrected_of_retain {c : Config ι Registry RegistryPc} {i : ι} (ctx : Ptr)
    (hpc : c.pcs i = .retain ctx) (hdead : ctx ∈ c.shared.zeroed) :
    ∃ c', fire registryStep c (i, .get 0) = some c' ∧ ¬ NoneResurrected c' := by
  refine ⟨_, fire_eq_some.mpr ⟨_, _, by rw [hpc]; rfl, rfl⟩, ?_⟩
  show (if ctx ∈ c.shared.zeroed then c.shared.resurrected ++ [ctx] else c.shared.resurrected) ≠ []
  rw [if_pos hdead]
  exact List.append_ne_nil_of_right_ne_nil _ (List.cons_ne_nil _ _)

/-- After a step that does not meet the condition a dead context is only one
    step away from being returned. -/
theorem resurrected_next {c c' : Config ι Registry RegistryPc} {a : ι × RegistryCall}
    (hf : fire registryStep c a = some c') (hbad : ¬ LooksUpLiving c a) :
    ∃ i call c'', fire registryStep c' (i, call) = some c'' ∧ ¬ NoneResurrected c'' := by
  obtain ⟨reg', pc', hs, rfl⟩ := fire_eq_some.mp hf
  unfold LooksUpLiving at hbad
  split at hbad
  · rename_i _ ctx hpc
    obtain ⟨href, hpending⟩ := Classical.not_imp.mp hbad
    obtain ⟨i, hi⟩ := not_forall_not.mp hpending
    have hia : i ≠ a.1 := by
      intro hia
      rw [← hia, hi] at hpc
      cases hpc
    rw [hpc] at hs
    simp only [registryStep, if_pos href] at hs
    cases hs
    refine ⟨i, _, resurrected_of_retain ctx ?_ ?_⟩
    · show Function.update c.pcs a.1 _ i = _
      rw [Function.update_of_ne hia]
      exact hi
    · exact List.mem_append_right _ (List.mem_singleton_self _)
  · rename_i id hpc hcall
    obtain ⟨ctx, hctx⟩ := not_forall.mp hbad
    obtain ⟨hslot, hdead⟩ := Classical.not_imp.mp hctx
    have hslot' : c.shared.mgr.slot id = some ctx := hslot
    rw [hpc, hcall] at hs
    simp only [registryStep, hslot'] at hs
    cases hs
    refine ⟨a.1, _, resurrected_of_retain ctx ?_ ?_⟩
    · exact Function.update_self ..
    · exact not_not.mp hdead
  · exact absurd trivial hbad

end ZServer
