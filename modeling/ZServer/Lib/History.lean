/-
  ZServer.Lib.History

  Histories: lists of events, the latest last.

    * `Lawful allowed log` — every event of `log` is allowed by the events before it.
    * `latest f log` — what `f` makes of the latest event that it makes something of.
    * `Claims key old new xs` — the numbers that `key` reads off the elements of `xs` are
      in `new` and not in `old`, and each is read off one element.
-/

import Mathlib.Data.List.Basic

namespace ZServer.Lib

variable {ε α : Type*} {allowed : List ε → ε → Prop} {f : ε → Option α} {log : List ε} {e : ε}

/-- Every event of the history is allowed by the events before it. -/
def Lawful (allowed : List ε → ε → Prop) (log : List ε) : Prop :=
  ∀ before e after, log = before ++ e :: after → allowed before e

theorem lawful_nil : Lawful allowed [] := by
  intro before e after h
  exact absurd h.symm (List.append_ne_nil_of_right_ne_nil before (List.cons_ne_nil e after))

theorem Lawful.concat (h : Lawful allowed log) (he : allowed log e) :
    Lawful allowed (log ++ [e]) := by
  intro before e' after heq
  rcases List.eq_nil_or_concat after with rfl | ⟨front, last, rfl⟩
  · obtain ⟨rfl, hlast⟩ := List.append_inj' heq rfl
    cases hlast
    exact he
  · rw [List.concat_eq_append, ← List.cons_append, ← List.append_assoc] at heq
    exact h before e' front (List.append_inj' heq rfl).1

/-- What `f` makes of the latest event that it makes something of. -/
def latest (f : ε → Option α) (log : List ε) : Option α := log.reverse.findSome? f

theorem latest_concat : latest f (log ++ [e]) = (f e).or (latest f log) := by
  unfold latest
  rw [List.reverse_append, List.reverse_singleton, List.singleton_append, List.findSome?_cons]
  cases f e <;> rfl

theorem latest_concat_of_none (h : f e = none) : latest f (log ++ [e]) = latest f log := by
  rw [latest_concat, h, Option.none_or]

theorem latest_concat_of_some {a : α} (h : f e = some a) : latest f (log ++ [e]) = some a := by
  rw [latest_concat, h, Option.some_or]

-- ============================================================================
-- Claims
-- ============================================================================

section Claims

variable {κ : Type*} {key : ε → Option κ} {old mid new : List κ} {xs ys : List ε} {x y : ε} {k : κ}

structure Claims (key : ε → Option κ) (old new : List κ) (xs : List ε) : Prop where
  new : ∀ x ∈ xs, ∀ k, key x = some k → k ∉ old ∧ k ∈ new
  once : xs.Pairwise fun x y => ∀ k, key x = some k → key y ≠ some k

/-- Elements that claim nothing. -/
theorem Claims.of_none (h : ∀ x ∈ xs, key x = none) : Claims key old new xs := by
  constructor
  · intro x hx k hk
    rw [h x hx] at hk
    cases hk
  · rw [List.pairwise_iff_forall_sublist]
    intro x y hxy k hk
    have hx : x ∈ xs := hxy.subset (by simp)
    rw [h x hx] at hk
    cases hk

theorem Claims.nil : Claims key old new [] := .of_none fun _ hx => by simp at hx

theorem Claims.singleton (h : ∀ k, key x = some k → k ∉ old ∧ k ∈ new) :
    Claims key old new [x] := by
  constructor
  · intro y hy k hk
    rw [List.mem_singleton] at hy
    subst hy
    exact h k hk
  · exact List.pairwise_singleton _ _

theorem Claims.append (h₁ : Claims key old mid xs) (h₂ : Claims key mid new ys)
    (hold : old ⊆ mid) (hnew : mid ⊆ new) : Claims key old new (xs ++ ys) := by
  constructor
  · intro x hx k hk
    rcases List.mem_append.mp hx with hx | hx
    · obtain ⟨hfresh, hmem⟩ := h₁.new x hx k hk
      exact ⟨hfresh, hnew hmem⟩
    · obtain ⟨hfresh, hmem⟩ := h₂.new x hx k hk
      exact ⟨fun hin => hfresh (hold hin), hmem⟩
  · rw [List.pairwise_append]
    refine ⟨h₁.once, h₂.once, ?_⟩
    intro x hx y hy k hkx hky
    exact (h₂.new y hy k hky).1 (h₁.new x hx k hkx).2

/-- With another key, that reads the same off these elements. -/
theorem Claims.congr (h : Claims key old new xs) {key' : ε → Option κ}
    (hkey : ∀ x ∈ xs, key' x = key x) : Claims key' old new xs := by
  constructor
  · intro x hx k hk
    rw [hkey x hx] at hk
    exact h.new x hx k hk
  · refine h.once.imp_of_mem ?_
    intro x y hx hy hxy k hk
    rw [hkey x hx] at hk
    rw [hkey y hy]
    exact hxy k hk

theorem Claims.mono (h : Claims key old new xs) {new' : List κ} (hsub : new ⊆ new') :
    Claims key old new' xs := by
  refine ⟨?_, h.once⟩
  intro x hx k hk
  obtain ⟨hfresh, hmem⟩ := h.new x hx k hk
  exact ⟨hfresh, hsub hmem⟩

/-- A number is claimed by one element. -/
theorem Claims.unique (h : Claims key old new xs) (hx : x ∈ xs) (hy : y ∈ xs)
    (hkx : key x = some k) (hky : key y = some k) : x = y := by
  obtain ⟨i, hi, rfl⟩ := List.getElem_of_mem hx
  obtain ⟨j, hj, rfl⟩ := List.getElem_of_mem hy
  have honce := List.pairwise_iff_getElem.mp h.once
  rcases Nat.lt_trichotomy i j with hij | hij | hij
  · exact absurd hky (honce i j hi hj hij k hkx)
  · subst hij
    rfl
  · exact absurd hkx (honce j i hj hi hij k hky)

/-- It is claimed once. -/
theorem Claims.countP_le (h : Claims key old new xs) {p : ε → Bool}
    (hp : ∀ x ∈ xs, p x → key x = some k) : xs.countP p ≤ 1 := by
  obtain ⟨-, honce⟩ := h
  induction xs with
  | nil => simp
  | cons x xs ih =>
      rw [List.pairwise_cons] at honce
      have ih := ih (fun y hy => hp y (List.mem_cons_of_mem x hy)) honce.2
      by_cases hpx : p x
      · have hkx := hp x (by simp) hpx
        have hnone : xs.countP p = 0 := by
          rw [List.countP_eq_zero]
          intro y hy hpy
          exact honce.1 y hy k hkx (hp y (List.mem_cons_of_mem x hy) hpy)
        rw [List.countP_cons_of_pos hpx]
        omega
      · rwa [List.countP_cons_of_neg hpx]

end Claims

end ZServer.Lib
