/-
  ZServer.Lib.Transition

  Runs of a system given by a partial step function `step : σ → α → Option σ`
  (`none`: the action is not enabled in that state).

    * `Reachable step s₀ s` — some run leads from `s₀` to `s`.
    * `Always step P s as` — `P` holds in every state the run `as` from `s`
      passes through, both ends included.
    * `AllSteps step ok s as` — every step the run `as` takes meets `ok`, a
      condition on the state before the step and the action.

  `Reachable.invariant` is induction over runs.  `always_iff_allSteps` is the
  rule for a property that one kind of step can break: it holds throughout a
  run exactly when no step of that kind is taken.
-/

import Mathlib.Logic.Function.Basic

namespace ZServer.Lib

variable {σ α : Type*} {step : σ → α → Option σ}

/-- The state after the actions `as`, `none` once one of them is not enabled. -/
def runFrom (step : σ → α → Option σ) (s : σ) (as : List α) : Option σ :=
  as.foldlM step s

/-- `s` is the end of some run from `s₀`. -/
def Reachable (step : σ → α → Option σ) (s₀ s : σ) : Prop :=
  ∃ as, runFrom step s₀ as = some s

/-- `P` holds in every state of the run. -/
def Always (step : σ → α → Option σ) (P : σ → Prop) : σ → List α → Prop
  | s, [] => P s
  | s, a :: as => P s ∧ ∀ s', step s a = some s' → Always step P s' as

/-- Every step taken by the run meets `ok`. -/
def AllSteps (step : σ → α → Option σ) (ok : σ → α → Prop) : σ → List α → Prop
  | _, [] => True
  | s, a :: as => ∀ s', step s a = some s' → ok s a ∧ AllSteps step ok s' as

@[simp] theorem runFrom_nil (s : σ) : runFrom step s [] = some s := rfl

@[simp] theorem runFrom_cons (s : σ) (a : α) (as : List α) :
    runFrom step s (a :: as) = (step s a).bind (fun s' => runFrom step s' as) := by
  simp [runFrom, List.foldlM_cons, bind]

theorem runFrom_append (s : σ) (as bs : List α) :
    runFrom step s (as ++ bs) = (runFrom step s as).bind (fun s' => runFrom step s' bs) := by
  simp [runFrom, List.foldlM_append, bind]

/-! ## Reachable states -/

theorem Reachable.refl (s : σ) : Reachable step s s := ⟨[], rfl⟩

theorem Reachable.tail {s₀ s s' : σ} {a : α} (h : Reachable step s₀ s)
    (hs : step s a = some s') : Reachable step s₀ s' := by
  obtain ⟨as, has⟩ := h
  refine ⟨as ++ [a], ?_⟩
  rw [runFrom_append, has]
  simp [hs]

theorem Reachable.of_runFrom {s₀ s : σ} {as : List α} (h : runFrom step s₀ as = some s) :
    Reachable step s₀ s :=
  ⟨as, h⟩

/-- Induction over runs: what holds at the start and is kept by every step
    holds in every reachable state. -/
theorem Reachable.invariant {J : σ → Prop} {s₀ s : σ} (h : Reachable step s₀ s)
    (hinit : J s₀) (hstep : ∀ s a s', J s → step s a = some s' → J s') : J s := by
  obtain ⟨as, has⟩ := h
  induction as generalizing s₀ with
  | nil =>
      cases has
      exact hinit
  | cons a as ih =>
      rw [runFrom_cons] at has
      obtain ⟨s₁, hs₁, hrest⟩ := Option.bind_eq_some_iff.mp has
      exact ih (hstep s₀ a s₁ hinit hs₁) hrest

/-! ## Properties of whole runs -/

theorem Always.head {P : σ → Prop} {s : σ} {as : List α} (h : Always step P s as) : P s := by
  cases as with
  | nil => exact h
  | cons a as => exact h.1

/-- The last state of a run that keeps `P` satisfies `P`. -/
theorem Always.last {P : σ → Prop} {s s' : σ} {as : List α} (h : Always step P s as)
    (hrun : runFrom step s as = some s') : P s' := by
  induction as generalizing s with
  | nil =>
      cases hrun
      exact h
  | cons a as ih =>
      rw [runFrom_cons] at hrun
      obtain ⟨s₁, hs₁, hrest⟩ := Option.bind_eq_some_iff.mp hrun
      exact ih (h.2 s₁ hs₁) hrest

/-- An invariant kept by every step holds along every run. -/
theorem always_of_invariant {J P : σ → Prop} {s : σ} {as : List α} (hJP : ∀ s, J s → P s)
    (hstep : ∀ s a s', J s → step s a = some s' → J s') (hinit : J s) : Always step P s as := by
  induction as generalizing s with
  | nil => exact hJP s hinit
  | cons a as ih => exact ⟨hJP s hinit, fun s' hs' => ih (hstep s a s' hinit hs')⟩

/-- An invariant kept by the steps that meet `ok` holds along every run whose
    steps all meet `ok`. -/
theorem always_of_allSteps {J P : σ → Prop} {ok : σ → α → Prop} {s : σ} {as : List α}
    (hJP : ∀ s, J s → P s)
    (hstep : ∀ s a s', J s → step s a = some s' → ok s a → J s')
    (hinit : J s) (hok : AllSteps step ok s as) : Always step P s as := by
  induction as generalizing s with
  | nil => exact hJP s hinit
  | cons a as ih =>
      refine ⟨hJP s hinit, fun s' hs' => ?_⟩
      obtain ⟨hoka, hrest⟩ := hok s' hs'
      exact ih (hstep s a s' hinit hs' hoka) hrest

/-- An invariant kept by the steps into states that satisfy `Q` holds along every
    run whose states all satisfy `Q`. -/
theorem always_of_always {J P Q : σ → Prop} {s : σ} {as : List α} (hJP : ∀ s, J s → P s)
    (hstep : ∀ s a s', J s → step s a = some s' → Q s' → J s')
    (hinit : J s) (hQ : Always step Q s as) : Always step P s as := by
  induction as generalizing s with
  | nil => exact hJP s hinit
  | cons a as ih =>
      refine ⟨hJP s hinit, fun s' hs' => ?_⟩
      have hrest := hQ.2 s' hs'
      exact ih (hstep s a s' hinit hs' hrest.head) hrest

/-- When moreover a step that does not meet `ok` breaks `P` at once, `P` holds
    along a run exactly when all its steps meet `ok`. -/
theorem always_iff_allSteps {J P : σ → Prop} {ok : σ → α → Prop} {s : σ} {as : List α}
    (hJP : ∀ s, J s → P s)
    (hstep : ∀ s a s', J s → step s a = some s' → ok s a → J s')
    (hbreak : ∀ s a s', J s → step s a = some s' → P s' → ok s a)
    (hinit : J s) : Always step P s as ↔ AllSteps step ok s as := by
  refine ⟨fun hP => ?_, always_of_allSteps hJP hstep hinit⟩
  induction as generalizing s with
  | nil => trivial
  | cons a as ih =>
      intro s' hs'
      have hrest := hP.2 s' hs'
      have hoka := hbreak s a s' hinit hs' hrest.head
      exact ⟨hoka, ih (hstep s a s' hinit hs' hoka) hrest⟩

theorem AllSteps.left {ok : σ → α → Prop} {s : σ} {as bs : List α}
    (hok : AllSteps step ok s (as ++ bs)) : AllSteps step ok s as := by
  induction as generalizing s with
  | nil => trivial
  | cons a as ih => exact fun s' hs' => ⟨(hok s' hs').1, ih (hok s' hs').2⟩

/-- An invariant kept by the steps that meet `ok` holds at the end of a run whose
    steps all meet `ok`; so do the steps after it. -/
theorem AllSteps.split {J : σ → Prop} {ok : σ → α → Prop} {s s' : σ} {as bs : List α}
    (hstep : ∀ s a s', J s → step s a = some s' → ok s a → J s')
    (hinit : J s) (hok : AllSteps step ok s (as ++ bs)) (hrun : runFrom step s as = some s') :
    J s' ∧ AllSteps step ok s' bs := by
  induction as generalizing s with
  | nil =>
      cases hrun
      exact ⟨hinit, hok⟩
  | cons a as ih =>
      rw [runFrom_cons] at hrun
      obtain ⟨s₁, hs₁, hrest⟩ := Option.bind_eq_some_iff.mp hrun
      obtain ⟨hoka, hok⟩ := hok s₁ hs₁
      exact ih (hstep s a s₁ hinit hs₁ hoka) hok hrest

/-- A condition on the steps of a run follows from another one when it does so for the
    steps from a state of an invariant. -/
theorem AllSteps.imp {J : σ → Prop} {A ok : σ → α → Prop} {s : σ} {as : List α}
    (hok : AllSteps step ok s as) (hstep : ∀ s a s', J s → step s a = some s' → J s')
    (himp : ∀ s a, J s → ok s a → A s a) (hinit : J s) : AllSteps step A s as := by
  induction as generalizing s with
  | nil => trivial
  | cons a as ih =>
      intro s' hs'
      obtain ⟨hoka, hrest⟩ := hok s' hs'
      exact ⟨himp s a hinit hoka, ih hrest (hstep s a s' hinit hs')⟩

/-- Two conditions on the steps of a run agree along it when they agree on every
    step from a state of the invariant that one of them keeps up. -/
theorem allSteps_iff {J : σ → Prop} {A ok : σ → α → Prop} {s : σ} {as : List α}
    (hstep : ∀ s a s', J s → step s a = some s' → ok s a → J s')
    (hiff : ∀ s a s', J s → step s a = some s' → (A s a ↔ ok s a))
    (hinit : J s) : AllSteps step A s as ↔ AllSteps step ok s as := by
  induction as generalizing s with
  | nil => exact Iff.rfl
  | cons a as ih =>
      refine forall_congr' fun s' => forall_congr' fun hs' => ?_
      rw [hiff s a s' hinit hs']
      exact and_congr_right fun hok => ih (hstep s a s' hinit hs' hok)

/-! ## Deciding concrete runs -/

instance AllSteps.decidable {ok : σ → α → Prop} [∀ s a, Decidable (ok s a)] :
    ∀ s as, Decidable (AllSteps step ok s as)
  | _, [] => isTrue trivial
  | s, a :: as =>
      match h : step s a with
      | none => isTrue fun s' hs' => by rw [h] at hs'; cases hs'
      | some s' =>
          have : Decidable (AllSteps step ok s' as) := AllSteps.decidable s' as
          decidable_of_iff (ok s a ∧ AllSteps step ok s' as)
            ⟨fun hok t ht => by rw [h] at ht; cases ht; exact hok, fun hok => hok s' h⟩

instance Always.decidable {P : σ → Prop} [DecidablePred P] :
    ∀ s as, Decidable (Always step P s as)
  | s, [] => inferInstanceAs (Decidable (P s))
  | s, a :: as =>
      match h : step s a with
      | none =>
          decidable_of_iff (P s)
            ⟨fun hP => ⟨hP, fun s' hs' => by rw [h] at hs'; cases hs'⟩, fun hP => hP.1⟩
      | some s' =>
          have : Decidable (Always step P s' as) := Always.decidable s' as
          decidable_of_iff (P s ∧ Always step P s' as)
            ⟨fun hP => ⟨hP.1, fun t ht => by rw [h] at ht; cases ht; exact hP.2⟩,
              fun hP => ⟨hP.1, hP.2 s' h⟩⟩

end ZServer.Lib
