/-
  ZServer.Lib.Threads

  Threads over a shared memory.  One atomic step of one thread is a function
  `step : σ → π → ε → Option (σ × π)` of the shared memory, the thread's
  program point and what the environment chooses; a configuration is the shared
  memory with one program point per thread, and `fire` lets one thread step.

  Three ways to an invariant of every interleaving, each reduced to a fact about
  one step of one thread:

    * `Config.Sat.fire` — a shared invariant, a local assertion per program
      point, and a relation between the program points of two threads;
    * `fire_sum` — an accounting identity `F shared + ∑ f pc`;
    * `Reachable.simulate` — a map to another thread system.

  `Watched` adds a history variable: the shared memories a thread has seen
  since it last left an idle program point.
-/

import Mathlib.Algebra.BigOperators.Group.Finset.Piecewise
import Mathlib.Algebra.Order.BigOperators.Group.Finset
import Mathlib.Data.Fintype.Basic
import ZServer.Lib.Transition

namespace ZServer.Lib

variable {ι σ π ε τ ρ δ : Type*} [DecidableEq ι]

/-- The shared memory and the program point of every thread. -/
structure Config (ι σ π : Type*) where
  shared : σ
  pcs : ι → π

/-- Thread `a.1` takes one atomic step, with the choice `a.2`. -/
def fire (step : σ → π → ε → Option (σ × π)) (c : Config ι σ π) (a : ι × ε) :
    Option (Config ι σ π) :=
  (step c.shared (c.pcs a.1) a.2).map fun r => ⟨r.1, Function.update c.pcs a.1 r.2⟩

variable {step : σ → π → ε → Option (σ × π)}

theorem fire_eq_some {c c' : Config ι σ π} {a : ι × ε} :
    fire step c a = some c' ↔ ∃ s p, step c.shared (c.pcs a.1) a.2 = some (s, p) ∧
      c' = ⟨s, Function.update c.pcs a.1 p⟩ := by
  unfold fire
  constructor
  · intro h
    obtain ⟨r, hr, rfl⟩ := Option.map_eq_some_iff.mp h
    exact ⟨r.1, r.2, hr, rfl⟩
  · rintro ⟨s, p, h, rfl⟩
    rw [h]
    rfl

/-! ## Shared invariant, local assertions, pairs of threads -/

/-- `J` holds of the shared memory, `L` of every thread, `C` between any two. -/
structure Config.Sat (J : σ → Prop) (L : σ → π → Prop) (C : π → π → Prop)
    (c : Config ι σ π) : Prop where
  shared : J c.shared
  loc : ∀ i, L c.shared (c.pcs i)
  pair : ∀ i j, i ≠ j → C (c.pcs i) (c.pcs j)

/-- The stepping thread keeps the shared invariant and its own assertion, and
    does not disturb the assertion of a thread it is related to by `C`. -/
theorem fire_loc {J : σ → Prop} {L : σ → π → Prop} {C : π → π → Prop}
    {c c' : Config ι σ π} {a : ι × ε}
    (hown : ∀ s p e s' p', J s → L s p → step s p e = some (s', p') → J s' ∧ L s' p')
    (hother : ∀ s p e s' p' q, J s → L s p → L s q → C p q → step s p e = some (s', p') → L s' q)
    (hJ : J c.shared) (hL : ∀ i, L c.shared (c.pcs i))
    (hC : ∀ i j, i ≠ j → C (c.pcs i) (c.pcs j)) (hf : fire step c a = some c') :
    J c'.shared ∧ ∀ i, L c'.shared (c'.pcs i) := by
  obtain ⟨s, p, hs, rfl⟩ := fire_eq_some.mp hf
  have hJL := hown _ _ _ _ _ hJ (hL a.1) hs
  refine ⟨hJL.1, fun i => ?_⟩
  by_cases hi : i = a.1
  · subst hi
    simpa using hJL.2
  · simpa [hi] using hother _ _ _ _ _ _ hJ (hL a.1) (hL i) (hC a.1 i (Ne.symm hi)) hs

/-- The stepping thread keeps the shared invariant and its own assertion; the
    assertion of any other thread, and its relation to the stepping one, are
    not disturbed by this step. -/
theorem Config.Sat.fire_at {J : σ → Prop} {L : σ → π → Prop} {C : π → π → Prop}
    {c c' : Config ι σ π} {a : ι × ε} (hsymm : ∀ p q, C p q → C q p) (h : c.Sat J L C)
    (hown : ∀ s' p', step c.shared (c.pcs a.1) a.2 = some (s', p') → J s' ∧ L s' p')
    (hother : ∀ s' p' j, j ≠ a.1 → step c.shared (c.pcs a.1) a.2 = some (s', p') →
      L s' (c.pcs j) ∧ C p' (c.pcs j))
    (hf : fire step c a = some c') : c'.Sat J L C := by
  obtain ⟨s, p, hs, rfl⟩ := fire_eq_some.mp hf
  obtain ⟨hJ, hL⟩ := hown s p hs
  refine ⟨hJ, fun i => ?_, fun i j hij => ?_⟩
  · by_cases hi : i = a.1
    · subst hi
      simpa using hL
    · simpa [hi] using (hother s p i hi hs).1
  · by_cases hi : i = a.1
    · subst hi
      simpa [Ne.symm hij] using (hother s p j (Ne.symm hij) hs).2
    · by_cases hj : j = a.1
      · subst hj
        simpa [hi] using hsymm _ _ (hother s p i hi hs).2
      · simpa [hi, hj] using h.pair i j hij

/-- The same when it is so of every step. -/
theorem Config.Sat.fire {J : σ → Prop} {L : σ → π → Prop} {C : π → π → Prop}
    {c c' : Config ι σ π} {a : ι × ε}
    (hsymm : ∀ p q, C p q → C q p)
    (hown : ∀ s p e s' p', J s → L s p → step s p e = some (s', p') → J s' ∧ L s' p')
    (hother : ∀ s p e s' p' q, J s → L s p → L s q → C p q → step s p e = some (s', p') →
      L s' q ∧ C p' q)
    (h : c.Sat J L C) (hf : fire step c a = some c') : c'.Sat J L C :=
  h.fire_at hsymm (fun _ _ hs => hown _ _ _ _ _ h.shared (h.loc a.1) hs)
    (fun _ _ j hj hs => hother _ _ _ _ _ _ h.shared (h.loc a.1) (h.loc j)
      (h.pair a.1 j (Ne.symm hj)) hs) hf

/-! ## Accounting -/

section Sum

variable [Fintype ι]

/-- Replacing one thread's program point moves the sum by the difference. -/
theorem sum_update (f : π → ℤ) (pcs : ι → π) (i : ι) (p : π) :
    ∑ j, f (Function.update pcs i p j) = ∑ j, f (pcs j) - f (pcs i) + f p := by
  have h : (fun j => f (Function.update pcs i p j)) =
      Function.update (fun j => f (pcs j)) i (f p) := by
    funext j
    by_cases hj : j = i
    · subst hj; simp
    · simp [hj]
  rw [h, Finset.sum_update_of_mem (Finset.mem_univ i)]
  have hsplit := Finset.add_sum_erase Finset.univ (fun j => f (pcs j)) (Finset.mem_univ i)
  rw [← Finset.erase_eq] at *
  omega

/-- An account that every single step balances is constant: the shared part
    plus the parts held by the threads. -/
theorem fire_sum {F : σ → ℤ} {f : π → ℤ} {c c' : Config ι σ π} {a : ι × ε}
    (hbal : ∀ p e s' p', step c.shared p e = some (s', p') → F s' + f p' = F c.shared + f p)
    (hf : fire step c a = some c') :
    F c'.shared + ∑ i, f (c'.pcs i) = F c.shared + ∑ i, f (c.pcs i) := by
  obtain ⟨s, p, hs, rfl⟩ := fire_eq_some.mp hf
  have hb := hbal _ _ _ _ hs
  have hsum := sum_update f c.pcs a.1 p
  simp only
  omega

/-- Two different threads both hold at most the whole account. -/
theorem add_le_sum (f : π → ℤ) (pcs : ι → π) {i j : ι} (hij : i ≠ j) (hf : ∀ p, 0 ≤ f p) :
    f (pcs i) + f (pcs j) ≤ ∑ k, f (pcs k) := by
  have hpair := Finset.sum_pair (f := fun k => f (pcs k)) hij
  rw [← hpair]
  exact Finset.sum_le_sum_of_subset_of_nonneg (Finset.subset_univ _) fun k _ _ => hf (pcs k)

omit [DecidableEq ι] in
/-- One thread holds at most the whole account. -/
theorem le_sum (f : π → ℤ) (pcs : ι → π) (i : ι) (hf : ∀ p, 0 ≤ f p) :
    f (pcs i) ≤ ∑ k, f (pcs k) :=
  Finset.single_le_sum (f := fun k => f (pcs k)) (fun k _ => hf (pcs k)) (Finset.mem_univ i)

end Sum

/-! ## Simulation -/

/-- A map of configurations under which every step is matched by a step of the
    other system, or by none, maps reachable configurations to reachable ones. -/
theorem Reachable.simulate (step' : τ → ρ → δ → Option (τ × ρ)) (g : σ → τ) (h : π → ρ)
    (hsim : ∀ s p e s' p', step s p e = some (s', p') →
      (g s' = g s ∧ h p' = h p) ∨ ∃ d, step' (g s) (h p) d = some (g s', h p'))
    {c₀ c : Config ι σ π} (hr : Reachable (fire step) c₀ c) :
    Reachable (fire step') ⟨g c₀.shared, h ∘ c₀.pcs⟩ ⟨g c.shared, h ∘ c.pcs⟩ := by
  refine hr.invariant (J := fun c : Config ι σ π =>
    Reachable (fire step') ⟨g c₀.shared, h ∘ c₀.pcs⟩ ⟨g c.shared, h ∘ c.pcs⟩)
    (Reachable.refl _) fun c a c' hc hf => ?_
  obtain ⟨s, p, hs, rfl⟩ := fire_eq_some.mp hf
  have hupd : h ∘ Function.update c.pcs a.1 p = Function.update (h ∘ c.pcs) a.1 (h p) :=
    Function.comp_update h c.pcs a.1 p
  rcases hsim _ _ _ _ _ hs with ⟨hg, hp⟩ | ⟨d, hd⟩
  · have hsame : h ∘ Function.update c.pcs a.1 p = h ∘ c.pcs := by
      rw [hupd, hp]
      exact Function.update_eq_self a.1 (h ∘ c.pcs)
    rw [hsame, hg]
    exact hc
  · refine hc.tail (a := (a.1, d)) (fire_eq_some.mpr ⟨_, _, hd, ?_⟩)
    rw [hupd]

/-! ## What a thread has seen during its current call -/

/-- A configuration with, for every thread, the shared memories it has lived
    through since it last left an idle program point, newest first. -/
structure Watched (ι σ π : Type*) where
  config : Config ι σ π
  during : ι → List σ

/-- `fire` with the history variable: a thread that leaves an idle program
    point starts a new list, every other list grows by the new shared memory. -/
def watch (step : σ → π → ε → Option (σ × π)) (idle : π → Bool) (w : Watched ι σ π) (a : ι × ε) :
    Option (Watched ι σ π) :=
  (fire step w.config a).map fun c' =>
    ⟨c', fun j =>
      if j = a.1 ∧ idle (w.config.pcs j) = true then [c'.shared] else c'.shared :: w.during j⟩

theorem watch_eq_some {idle : π → Bool} {w w' : Watched ι σ π} {a : ι × ε} :
    watch step idle w a = some w' ↔ ∃ c', fire step w.config a = some c' ∧
      w' = ⟨c', fun j =>
        if j = a.1 ∧ idle (w.config.pcs j) = true then [c'.shared]
        else c'.shared :: w.during j⟩ := by
  unfold watch
  constructor
  · intro h
    obtain ⟨c', hc', rfl⟩ := Option.map_eq_some_iff.mp h
    exact ⟨c', hc', rfl⟩
  · rintro ⟨c', h, rfl⟩
    rw [h]
    rfl

end ZServer.Lib
