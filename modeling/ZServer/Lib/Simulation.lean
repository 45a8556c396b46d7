/-
  ZServer.Lib.Simulation

  Runs of a system whose operations answer, `step : σ → α → Option (σ × β)`, and two such
  systems that answer the same.

    * `answersFrom step s as` — the last state and all answers.
    * `Simulates R ok abs conc` — from related states, an operation that `ok` allows and
      that the system `abs` performs is performed by `conc` with the same answer, and
      the states are related again.
    * `Simulates.run` — so are whole runs.
-/

import ZServer.Lib.Transition

namespace ZServer.Lib

variable {σ τ α β : Type*}

/-- The state after the operations and their answers, `none` once one is not enabled. -/
def answersFrom (step : σ → α → Option (σ × β)) : σ → List α → Option (σ × List β)
  | s, [] => some (s, [])
  | s, a :: as =>
      (step s a).bind fun r => (answersFrom step r.1 as).map fun rs => (rs.1, r.2 :: rs.2)

/-- Without the answers. -/
def moves (step : σ → α → Option (σ × β)) (s : σ) (a : α) : Option σ := (step s a).map Prod.fst

structure Simulates (R : τ → σ → Prop) (ok : τ → α → Prop) (abs : τ → α → Option (τ × β))
    (conc : σ → α → Option (σ × β)) : Prop where
  step : ∀ t s a t' b, R t s → ok t a → abs t a = some (t', b) →
    ∃ s', conc s a = some (s', b) ∧ R t' s'

theorem answersFrom_cons {step : σ → α → Option (σ × β)} {s s' : σ} {a : α} {as : List α}
    {bs : List β} (h : answersFrom step s (a :: as) = some (s', bs)) :
    ∃ mid b bs', step s a = some (mid, b) ∧ answersFrom step mid as = some (s', bs') ∧
      bs = b :: bs' := by
  obtain ⟨⟨mid, b⟩, hstep, hrest⟩ := Option.bind_eq_some_iff.mp h
  obtain ⟨⟨last, bs'⟩, hrun, heq⟩ := Option.map_eq_some_iff.mp hrest
  cases heq
  exact ⟨mid, b, bs', hstep, hrun, rfl⟩

theorem answersFrom_cons_of {step : σ → α → Option (σ × β)} {s mid s' : σ} {a : α} {b : β}
    {as : List α} {bs : List β} (hstep : step s a = some (mid, b))
    (hrun : answersFrom step mid as = some (s', bs)) :
    answersFrom step s (a :: as) = some (s', b :: bs) := by
  unfold answersFrom
  rw [hstep, Option.bind_some, hrun, Option.map_some]

/-- A run that `ok` allows is answered the same by both. -/
theorem Simulates.run {R : τ → σ → Prop} {ok : τ → α → Prop} {abs : τ → α → Option (τ × β)}
    {conc : σ → α → Option (σ × β)} (h : Simulates R ok abs conc) {t t' : τ} {s : σ}
    {as : List α} {bs : List β} (hR : R t s) (hok : AllSteps (moves abs) ok t as)
    (hrun : answersFrom abs t as = some (t', bs)) :
    ∃ s', answersFrom conc s as = some (s', bs) ∧ R t' s' := by
  induction as generalizing t s bs with
  | nil =>
      cases hrun
      exact ⟨s, rfl, hR⟩
  | cons a as ih =>
      obtain ⟨mid, b, bs', habs, hrest, rfl⟩ := answersFrom_cons hrun
      have hmove : moves abs t a = some mid := by
        unfold moves
        rw [habs, Option.map_some]
      obtain ⟨hoka, hokrest⟩ := hok mid hmove
      obtain ⟨smid, hconc, hRmid⟩ := h.step t s a mid b hR hoka habs
      obtain ⟨s', hlast, hR'⟩ := ih hRmid hokrest hrest
      exact ⟨s', answersFrom_cons_of hconc hlast, hR'⟩

end ZServer.Lib
