/-
  ZServer.Lib.Buckets

  Tables of chains.

  A bucket is a list of entries, a table a list of buckets.  What the table holds is
  its flattening, up to the order: to change a bucket is to change its part of that.

    * `flatten_set` — a bucket and the rest of the table.
    * `Placed` — every entry is in the bucket of its key.
    * `EmptyBelow` — the first buckets are empty.
-/

import ZServer.Lib.Assoc

namespace ZServer.Lib

variable {E : Type*}

-- ============================================================================
-- A bucket and the rest
-- ============================================================================

/-- What is in the other buckets. -/
def others (t : List (List E)) (i : Nat) : List E :=
  (t.take i).flatten ++ (t.drop (i + 1)).flatten

theorem flatten_set {t : List (List E)} {i : Nat} (hi : i < t.length) (chain : List E) :
    (t.set i chain).flatten.Perm (chain ++ others t i) := by
  rw [List.set_eq_take_append_cons_drop, if_pos hi, List.flatten_append, List.flatten_cons]
  exact List.perm_append_comm_assoc _ _ _

theorem flatten_bucket {t : List (List E)} {i : Nat} {chain : List E} (h : t[i]? = some chain) :
    t.flatten.Perm (chain ++ others t i) := by
  obtain ⟨hi, hchain⟩ := List.getElem?_eq_some_iff.mp h
  have hset := flatten_set hi chain
  rwa [← hchain, List.set_getElem_self, hchain] at hset

/-- The bucket that was set, or one of the others. -/
theorem getElem?_set_cases {t : List (List E)} {i j : Nat} {chain chain' : List E}
    (h : (t.set i chain)[j]? = some chain') :
    i = j ∧ chain' = chain ∨ i ≠ j ∧ t[j]? = some chain' := by
  by_cases hij : i = j
  · subst hij
    by_cases hlt : i < t.length
    · rw [List.getElem?_set_self hlt] at h
      exact Or.inl ⟨rfl, (Option.some.inj h).symm⟩
    · rw [List.getElem?_eq_none (by simpa using hlt)] at h
      cases h
  · rw [List.getElem?_set_ne hij] at h
    exact Or.inr ⟨hij, h⟩

@[simp] theorem flatten_replicate_empty (n : Nat) :
    (List.replicate n ([] : List E)).flatten = [] := by
  induction n with
  | zero => rfl
  | succ n ih => rw [List.replicate_succ, List.flatten_cons, ih, List.append_nil]

-- ============================================================================
-- Entries in their buckets
-- ============================================================================

/-- Every entry is in its bucket. -/
def Placed (index : E → Nat) (t : List (List E)) : Prop :=
  ∀ i chain, t[i]? = some chain → ∀ e ∈ chain, index e = i

section Placed

variable {index : E → Nat} {t : List (List E)} {i : Nat} {chain : List E} {e : E}

theorem placed_replicate (n : Nat) : Placed index (List.replicate n []) := by
  intro i chain hchain e he
  rw [List.getElem?_replicate] at hchain
  split at hchain
  · cases hchain
    cases he
  · cases hchain

theorem Placed.set (h : Placed index t) (hchain : ∀ e ∈ chain, index e = i) :
    Placed index (t.set i chain) := by
  intro j chain' hj e he
  rcases getElem?_set_cases hj with ⟨rfl, rfl⟩ | ⟨-, hother⟩
  · exact hchain e he
  · exact h j chain' hother e he

/-- An entry of the table is in the bucket that is its own. -/
theorem Placed.mem_iff (h : Placed index t) (hchain : t[index e]? = some chain) :
    e ∈ t.flatten ↔ e ∈ chain := by
  constructor
  · intro he
    obtain ⟨chain', hmem, he'⟩ := List.mem_flatten.mp he
    obtain ⟨j, hj⟩ := List.mem_iff_getElem?.mp hmem
    have hindex := h j chain' hj e he'
    rw [hindex, hj] at hchain
    cases hchain
    exact he'
  · intro he
    exact List.mem_flatten.mpr ⟨chain, List.mem_of_getElem? hchain, he⟩

end Placed

-- ============================================================================
-- The first buckets are empty
-- ============================================================================

def EmptyBelow (i : Nat) (t : List (List E)) : Prop :=
  ∀ j chain, j < i → t[j]? = some chain → chain = []

section EmptyBelow

variable {t : List (List E)} {i : Nat}

theorem EmptyBelow.zero : EmptyBelow 0 t := by
  intro j chain hj
  omega

/-- The empty buckets that follow are skipped. -/
theorem EmptyBelow.skip {n : Nat} (h : EmptyBelow i t)
    (hskip : ((t.drop i).findIdx? fun chain => ¬chain.isEmpty) = some n) :
    EmptyBelow (i + n) t ∧ ∃ chain, t[i + n]? = some chain ∧ chain ≠ [] := by
  obtain ⟨hn, hfirst, hbefore⟩ := List.findIdx?_eq_some_iff_getElem.mp hskip
  constructor
  · intro j chain hj hchain
    by_cases hlt : j < i
    · exact h j chain hlt hchain
    · obtain ⟨k, rfl⟩ := Nat.exists_eq_add_of_le (Nat.le_of_not_lt hlt)
      have hk := hbefore k (by omega)
      rw [← List.getElem?_drop] at hchain
      obtain ⟨hklen, hget⟩ := List.getElem?_eq_some_iff.mp hchain
      rw [hget] at hk
      simpa using hk
  · refine ⟨(t.drop i)[n], ?_, by simpa using hfirst⟩
    rw [← List.getElem?_drop]
    exact List.getElem?_eq_getElem hn

/-- In a table that is not empty a bucket is left. -/
theorem EmptyBelow.exists_skip (h : EmptyBelow i t) (hne : t.flatten ≠ []) :
    ∃ n, ((t.drop i).findIdx? fun chain => ¬chain.isEmpty) = some n := by
  cases hskip : (t.drop i).findIdx? fun chain => ¬chain.isEmpty with
  | some n => exact ⟨n, rfl⟩
  | none =>
      exfalso
      apply hne
      rw [List.flatten_eq_nil_iff]
      intro chain hchain
      obtain ⟨j, hj⟩ := List.mem_iff_getElem?.mp hchain
      by_cases hlt : j < i
      · exact h j chain hlt hj
      · have hmem : chain ∈ t.drop i := by
          rw [List.mem_iff_getElem?]
          exact ⟨j - i, by rw [List.getElem?_drop, Nat.add_sub_cancel' (by omega), hj]⟩
        simpa using List.findIdx?_eq_none_iff.mp hskip chain hmem

theorem EmptyBelow.clear (h : EmptyBelow i t) : EmptyBelow (i + 1) (t.set i []) := by
  intro j chain hj hchain
  rcases getElem?_set_cases hchain with ⟨-, hnil⟩ | ⟨hij, hother⟩
  · exact hnil
  · exact h j chain (by omega) hother

/-- A bucket above may change. -/
theorem EmptyBelow.set {k : Nat} {chain : List E} (h : EmptyBelow i t)
    (hchain : k < i → chain = []) : EmptyBelow i (t.set k chain) := by
  intro j chain' hj hget
  rcases getElem?_set_cases hget with ⟨rfl, rfl⟩ | ⟨-, hother⟩
  · exact hchain hj
  · exact h j chain' hj hother

end EmptyBelow

end ZServer.Lib
