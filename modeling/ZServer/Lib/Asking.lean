/-
  ZServer.Lib.Asking

  Plans of programs that may run out of something.  A plan says what a program is to
  do when it lacks nothing, and everything that it asks for on the way: room on a stack,
  memory.  Whether it gets it is left open.

    * `Asking δ ε α` — an outcome, and what has been asked for up to it.
    * `Plan τ δ ε α` — a plan on the states `τ`.
    * `Refines T R R' m p` — where all that the plan asks for is granted, the program `m`
      does what the plan says; where something is refused, it fails, and tells so.  `R`
      relates the states before, `R'` those after; the terms `T` say what is granted and
      how failures look.

  `Refines` has a rule for every way a plan is built.
-/

import Mathlib.Data.List.Basic

namespace ZServer.Lib

structure Asking (δ ε α : Type) where
  asks : List δ
  result : Except ε α

namespace Asking

variable {δ ε α β : Type}

/-- What comes next is asked for later, and not at all after a failure. -/
def bind (x : Asking δ ε α) (f : α → Asking δ ε β) : Asking δ ε β :=
  match x.result with
  | .ok a => ⟨x.asks ++ (f a).asks, (f a).result⟩
  | .error e => ⟨x.asks, .error e⟩

instance : Monad (Asking δ ε) where
  pure a := ⟨[], .ok a⟩
  bind := bind

theorem bind_of_ok {x : Asking δ ε α} {f : α → Asking δ ε β} {a : α} (h : x.result = .ok a) :
    x >>= f = ⟨x.asks ++ (f a).asks, (f a).result⟩ := by
  show bind x f = _
  simp [bind, h]

theorem bind_of_error {x : Asking δ ε α} {f : α → Asking δ ε β} {e : ε} (h : x.result = .error e) :
    x >>= f = ⟨x.asks, .error e⟩ := by
  show bind x f = _
  simp [bind, h]

instance : LawfulMonad (Asking δ ε) := LawfulMonad.mk' (Asking δ ε)
  (by
    rintro α ⟨asks, _ | a⟩
    · rfl
    · show Asking.mk (asks ++ []) _ = _
      rw [List.append_nil]
      rfl)
  (by
    intro α β a f
    rfl)
  (by
    rintro α β γ ⟨asks, _ | a⟩ f g
    · rfl
    · simp only [Bind.bind, bind]
      rcases f a with ⟨asks', _ | b⟩ <;> simp)

end Asking

-- ============================================================================
-- Plans
-- ============================================================================

abbrev Plan (τ δ ε : Type) := StateT τ (Asking δ ε)

namespace Plan

variable {τ δ ε α β : Type}

def ask (d : δ) : Plan τ δ ε Unit := fun t => ⟨[d], .ok ((), t)⟩

def fail (e : ε) : Plan τ δ ε α := fun _ => ⟨[], .error e⟩

theorem bind_of_ok {p : Plan τ δ ε α} {f : α → Plan τ δ ε β} {t t' : τ} {a : α} {asks : List δ}
    (h : p t = ⟨asks, .ok (a, t')⟩) :
    (p >>= f) t = ⟨asks ++ (f a t').asks, (f a t').result⟩ := by
  show (p t >>= fun r => f r.1 r.2) = _
  rw [h, Asking.bind_of_ok rfl]

theorem bind_of_error {p : Plan τ δ ε α} {f : α → Plan τ δ ε β} {t : τ} {e : ε} {asks : List δ}
    (h : p t = ⟨asks, .error e⟩) : (p >>= f) t = ⟨asks, .error e⟩ := by
  show (p t >>= fun r => f r.1 r.2) = _
  rw [h, Asking.bind_of_error rfl]

theorem ask_bind (d : δ) (p : Plan τ δ ε α) (t : τ) :
    (ask d >>= fun _ => p) t = ⟨d :: (p t).asks, (p t).result⟩ := by
  rw [bind_of_ok (show ask d t = ⟨[d], .ok ((), t)⟩ from rfl)]
  rfl

/-- One after the other. -/
theorem bind_eq {p : Plan τ δ ε α} {f : α → Plan τ δ ε β} {t t' : τ} {a : α} {asks : List δ}
    {out : Asking δ ε (β × τ)} (h : p t = ⟨asks, .ok (a, t')⟩) (h' : f a t' = out) :
    (p >>= f) t = ⟨asks ++ out.asks, out.result⟩ := by
  rw [bind_of_ok h, h']

theorem map_of_ok {p : Plan τ δ ε α} {f : α → β} {t t' : τ} {a : α} {asks : List δ}
    (h : p t = ⟨asks, .ok (a, t')⟩) : (f <$> p) t = ⟨asks, .ok (f a, t')⟩ := by
  show (p >>= fun a => pure (f a)) t = _
  rw [bind_of_ok h]
  show Asking.mk (asks ++ []) _ = _
  rw [List.append_nil]
  rfl

end Plan

-- ============================================================================
-- Programs that do what a plan says
-- ============================================================================

/-- What is granted; and what a program answers, and with what state it is left, where the
    plan fails and where something is refused. -/
structure Terms (σ δ ε' ε : Type) where
  grants : δ → Prop
  fails : ε' → ε → σ → Prop
  refuses : ε → Prop

/-- All that is asked for is granted. -/
def Terms.Meet {σ δ ε' ε : Type} (T : Terms σ δ ε' ε) (asks : List δ) : Prop :=
  ∀ d ∈ asks, T.grants d

section Refines

variable {σ τ δ ε' ε α β γ : Type} {T : Terms σ δ ε' ε} {R R' R'' : σ → τ → Prop}

@[simp] theorem Terms.meet_nil : T.Meet [] := by simp [Terms.Meet]

@[simp] theorem Terms.meet_cons {d : δ} {ds : List δ} :
    T.Meet (d :: ds) ↔ T.grants d ∧ T.Meet ds := by simp [Terms.Meet]

@[simp] theorem Terms.meet_append {ds ds' : List δ} :
    T.Meet (ds ++ ds') ↔ T.Meet ds ∧ T.Meet ds' := by simp [Terms.Meet, or_imp, forall_and]

/-- What a program does that meets the terms of an outcome. -/
def Complies (T : Terms σ δ ε' ε) (R' : σ → τ → Prop) (out : EStateM.Result ε σ α) :
    Except ε' (α × τ) → Prop
  | .ok (a, t) => ∃ s, out = .ok a s ∧ R' s t
  | .error e => ∃ e' s, out = .error e' s ∧ T.fails e e' s

def Refines (T : Terms σ δ ε' ε) (R R' : σ → τ → Prop) (m : EStateM ε σ α)
    (p : Plan τ δ ε' α) : Prop :=
  ∀ s t, R s t →
    (T.Meet (p t).asks → Complies T R' (m s) (p t).result) ∧
      (¬T.Meet (p t).asks → ∃ e s', m s = .error e s' ∧ T.refuses e)

theorem run_bind_ok {m : EStateM ε σ α} {k : α → EStateM ε σ β} {s s' : σ} {a : α}
    (h : m s = .ok a s') : (m >>= k) s = k a s' := by
  show EStateM.bind m k s = _
  simp [EStateM.bind, h]

theorem run_bind_error {m : EStateM ε σ α} {k : α → EStateM ε σ β} {s s' : σ} {e : ε}
    (h : m s = .error e s') : (m >>= k) s = .error e s' := by
  show EStateM.bind m k s = _
  simp [EStateM.bind, h]

/-- A plan that asks for nothing. -/
theorem Refines.of_free {m : EStateM ε σ α} {p : Plan τ δ ε' α}
    (hfree : ∀ s t, R s t → (p t).asks = [] ∧ Complies T R' (m s) (p t).result) :
    Refines T R R' m p := by
  intro s t hR
  obtain ⟨hasks, hcomplies⟩ := hfree s t hR
  rw [hasks]
  exact ⟨fun _ => hcomplies, fun hnot => absurd T.meet_nil hnot⟩

theorem Refines.pure (h : ∀ s t, R s t → R' s t) (a : α) :
    Refines T R R' (pure a) (pure a : Plan τ δ ε' α) := by
  apply Refines.of_free
  intro s t hR
  exact ⟨rfl, s, rfl, h s t hR⟩

theorem Refines.fail {e : ε'} {e' : ε} (h : ∀ s t, R s t → T.fails e e' s) :
    Refines T R R' (throw e' : EStateM ε σ α) (Plan.fail e : Plan τ δ ε' α) := by
  apply Refines.of_free
  intro s t hR
  exact ⟨rfl, e', s, rfl, h s t hR⟩

/-- A program that takes what it needs, or fails. -/
theorem Refines.ask {m : EStateM ε σ Unit} {d : δ}
    (hgranted : ∀ s t, R s t → T.grants d → ∃ s', m s = .ok () s' ∧ R' s' t)
    (hrefused : ∀ s t, R s t → ¬T.grants d → ∃ e s', m s = .error e s' ∧ T.refuses e) :
    Refines T R R' m (Plan.ask d : Plan τ δ ε' Unit) := by
  intro s t hR
  have hmeet : T.Meet [d] ↔ T.grants d := by simp
  exact ⟨fun h => hgranted s t hR (hmeet.mp h), fun h => hrefused s t hR (mt hmeet.mpr h)⟩

/-- What is granted anyway need not be asked for. -/
theorem Refines.granted {m : EStateM ε σ α} {p : Plan τ δ ε' α} {d : δ} (hd : T.grants d)
    (hp : Refines T R R' m p) : Refines T R R' m (Plan.ask d >>= fun _ => p) := by
  intro s t hR
  rw [Plan.ask_bind]
  simpa [hd] using hp s t hR

theorem Refines.refused {m : EStateM ε σ α} {p : Plan τ δ ε' α} {d : δ} (hd : ¬T.grants d)
    (hm : ∀ s t, R s t → ∃ e s', m s = .error e s' ∧ T.refuses e) :
    Refines T R R' m (Plan.ask d >>= fun _ => p) := by
  intro s t hR
  rw [Plan.ask_bind]
  simpa [hd] using hm s t hR

/-- What follows may use what every result of the plan meets. -/
theorem Refines.bind_of {m : EStateM ε σ α} {p : Plan τ δ ε' α} {f : α → EStateM ε σ β}
    {g : α → Plan τ δ ε' β} {Q : α → Prop} (hp : Refines T R R' m p)
    (hQ : ∀ t a t', (p t).result = .ok (a, t') → Q a)
    (hf : ∀ a, Q a → Refines T R' R'' (f a) (g a)) : Refines T R R'' (m >>= f) (p >>= g) := by
  intro s t hR
  obtain ⟨hmeets, hrefused⟩ := hp s t hR
  rcases hpt : p t with ⟨asks, e | ⟨a, t'⟩⟩
  · rw [hpt] at hmeets hrefused
    rw [Plan.bind_of_error hpt]
    constructor
    · intro hmeet
      obtain ⟨e', s', hm, hfails⟩ := hmeets hmeet
      exact ⟨e', s', run_bind_error hm, hfails⟩
    · intro hnot
      obtain ⟨e', s', hm, hrefuses⟩ := hrefused hnot
      exact ⟨e', s', run_bind_error hm, hrefuses⟩
  · have ha := hQ t a t' (by rw [hpt])
    rw [hpt] at hmeets hrefused
    rw [Plan.bind_of_ok hpt]
    dsimp only at hmeets hrefused ⊢
    rw [Terms.meet_append]
    by_cases hmeet : T.Meet asks
    · obtain ⟨s', hm, hR'⟩ := hmeets hmeet
      obtain ⟨hmeets', hrefused'⟩ := hf a ha s' t' hR'
      rw [run_bind_ok hm]
      exact ⟨fun hand => hmeets' hand.2, fun hnot => hrefused' fun hrest => hnot ⟨hmeet, hrest⟩⟩
    · obtain ⟨e', s', hm, hrefuses⟩ := hrefused hmeet
      exact ⟨fun hand => absurd hand.1 hmeet, fun _ => ⟨e', s', run_bind_error hm, hrefuses⟩⟩

theorem Refines.bind {m : EStateM ε σ α} {p : Plan τ δ ε' α} {f : α → EStateM ε σ β}
    {g : α → Plan τ δ ε' β} (hp : Refines T R R' m p)
    (hf : ∀ a, Refines T R' R'' (f a) (g a)) : Refines T R R'' (m >>= f) (p >>= g) :=
  hp.bind_of (Q := fun _ => True) (fun _ _ _ _ => trivial) fun a _ => hf a

/-- A result that is changed on the way. -/
theorem Refines.map {m : EStateM ε σ α} {p : Plan τ δ ε' α} (f : α → β)
    (hp : Refines T R R' m p) :
    Refines T R R' (m >>= fun a => Pure.pure (f a)) (f <$> p) :=
  hp.bind fun a => Refines.pure (fun _ _ h => h) (f a)

theorem Refines.bind_map {m : EStateM ε σ α} {p : Plan τ δ ε' α} {k : α → β}
    {f : α → EStateM ε σ γ} {g : β → Plan τ δ ε' γ} (hp : Refines T R R' m p)
    (hf : ∀ a, Refines T R' R'' (f a) (g (k a))) : Refines T R R'' (m >>= f) ((k <$> p) >>= g) := by
  rw [bind_map_left]
  exact hp.bind hf

/-- A step of the program that the plan does not see. -/
theorem Refines.then {m : EStateM ε σ α} {p : Plan τ δ ε' α} {f : α → EStateM ε σ α}
    (hp : Refines T R R' m p) (hf : ∀ a s t, R' s t → ∃ s', f a s = .ok a s' ∧ R'' s' t) :
    Refines T R R'' (m >>= f) p := by
  have hlast : Refines T R R'' (m >>= f) (p >>= Pure.pure) := by
    apply hp.bind
    intro a
    apply Refines.of_free
    intro s t hR'
    exact ⟨rfl, hf a s t hR'⟩
  rwa [bind_pure] at hlast

/-- One round after the other. -/
theorem Refines.forM {κ : Type} {f : κ → EStateM ε σ PUnit} {g : κ → Plan τ δ ε' PUnit} (xs : List κ)
    (h : ∀ x ∈ xs, Refines T R R (f x) (g x)) : Refines T R R (xs.forM f) (xs.forM g) := by
  induction xs with
  | nil => exact Refines.pure (fun _ _ h => h) _
  | cons x xs ih =>
      exact (h x (by simp)).bind fun _ => ih fun y hy => h y (by simp [hy])

end Refines

end ZServer.Lib
