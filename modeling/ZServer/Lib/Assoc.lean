/-
  ZServer.Lib.Assoc

  Association lists whose keys are different.  The entry of a key depends on which
  entries there are, not on their order, so that such a list can stand for any store
  that keeps the same entries in another arrangement.

    * `KeysNodup l` — no key has two entries.
    * `find?_perm`, `lookup_perm` — the order does not matter.
    * `setKey`, `eraseKey` — a new value for a key, and no value any more.
-/

import Mathlib.Data.List.Perm.Basic
import Mathlib.Data.List.Nodup

namespace ZServer.Lib

variable {K V : Type*}

/-- No key has two entries. -/
def KeysNodup (l : List (K × V)) : Prop := (l.map Prod.fst).Nodup

section Keys

variable {l l' : List (K × V)} {e e' : K × V}

theorem KeysNodup.nil : KeysNodup ([] : List (K × V)) := List.nodup_nil

theorem KeysNodup.perm (h : KeysNodup l) (hperm : l.Perm l') : KeysNodup l' :=
  (hperm.map Prod.fst).nodup_iff.mp h

theorem keysNodup_cons : KeysNodup (e :: l) ↔ (∀ e' ∈ l, e'.1 ≠ e.1) ∧ KeysNodup l := by
  unfold KeysNodup
  rw [List.map_cons, List.nodup_cons, List.mem_map]
  simp only [not_exists, not_and, ne_eq]

theorem KeysNodup.sublist (h : KeysNodup l) (hsub : l'.Sublist l) : KeysNodup l' :=
  List.Nodup.sublist (hsub.map Prod.fst) h

theorem KeysNodup.eq_of_mem (h : KeysNodup l) (he : e ∈ l) (he' : e' ∈ l) (hkey : e.1 = e'.1) :
    e = e' :=
  List.inj_on_of_nodup_map h he he' hkey

end Keys

variable [DecidableEq K]

/-- The value of the key becomes `v`. -/
def setKey (k : K) (v : V) (l : List (K × V)) : List (K × V) :=
  l.map fun e => if e.1 = k then (e.1, v) else e

/-- The key has no value any more. -/
def eraseKey (k : K) (l : List (K × V)) : List (K × V) := l.filter fun e => e.1 ≠ k

section Lookup

variable {l l' : List (K × V)} {k k' : K} {v : V} {e : K × V}

theorem find?_eq_some (h : KeysNodup l) :
    l.find? (fun e => e.1 = k) = some e ↔ e ∈ l ∧ e.1 = k := by
  induction l with
  | nil => simp
  | cons e' l ih =>
      obtain ⟨hnew, hrest⟩ := keysNodup_cons.mp h
      by_cases hk : e'.1 = k
      · rw [List.find?_cons_of_pos (by simpa using hk)]
        constructor
        · rintro ⟨⟩
          exact ⟨List.mem_cons_self, hk⟩
        · rintro ⟨he, hek⟩
          rw [h.eq_of_mem he List.mem_cons_self (hek.trans hk.symm)]
      · rw [List.find?_cons_of_neg (by simpa using hk), ih hrest, List.mem_cons]
        refine and_congr_left fun hek => (or_iff_right ?_).symm
        rintro rfl
        exact hk hek

theorem find?_eq_none : l.find? (fun e => e.1 = k) = none ↔ ∀ e ∈ l, e.1 ≠ k := by simp

theorem find?_perm (h : KeysNodup l) (hperm : l.Perm l') :
    l.find? (fun e => e.1 = k) = l'.find? (fun e => e.1 = k) := by
  cases hfind : l.find? (fun e => e.1 = k) with
  | none =>
      have hnone := find?_eq_none.mp hfind
      exact (find?_eq_none.mpr fun e he => hnone e (hperm.mem_iff.mpr he)).symm
  | some e =>
      obtain ⟨he, hk⟩ := (find?_eq_some h).mp hfind
      exact ((find?_eq_some (h.perm hperm)).mpr ⟨hperm.mem_iff.mp he, hk⟩).symm

/-- For whatever test of the keys. -/
theorem lookup_eq_find? [BEq K] [LawfulBEq K] (l : List (K × V)) (k : K) :
    l.lookup k = (l.find? fun e => e.1 = k).map Prod.snd := by
  induction l with
  | nil => rfl
  | cons e l ih =>
      obtain ⟨k', v⟩ := e
      by_cases hk : k' = k
      · subst hk
        simp
      · have hne : (k == k') = false := by simpa using Ne.symm hk
        rw [List.lookup_cons, hne, List.find?_cons_of_neg (by simpa using hk), ih]

theorem lookup_perm (h : KeysNodup l) (hperm : l.Perm l') : l.lookup k = l'.lookup k := by
  rw [lookup_eq_find?, lookup_eq_find?, find?_perm h hperm]

theorem lookup_isSome_iff : (l.lookup k).isSome ↔ ∃ e ∈ l, e.1 = k := by
  rw [lookup_eq_find?, Option.isSome_map, List.find?_isSome]
  simp

end Lookup

section Update

variable {l l' : List (K × V)} {k : K} {v : V} {e : K × V}

theorem setKey_keys (k : K) (v : V) (l : List (K × V)) :
    (setKey k v l).map Prod.fst = l.map Prod.fst := by
  unfold setKey
  rw [List.map_map]
  apply List.map_congr_left
  intro e _
  by_cases hk : e.1 = k <;> simp [hk]

theorem KeysNodup.setKey (h : KeysNodup l) (k : K) (v : V) : KeysNodup (setKey k v l) := by
  unfold KeysNodup
  rw [setKey_keys]
  exact h

theorem setKey_perm (hperm : l.Perm l') : (setKey k v l).Perm (setKey k v l') := hperm.map _

theorem setKey_of_not_mem (h : ∀ e ∈ l, e.1 ≠ k) : setKey k v l = l := by
  unfold setKey
  conv_rhs => rw [← List.map_id l]
  apply List.map_congr_left
  intro e he
  rw [if_neg (h e he)]
  rfl

/-- The entry of the key comes first. -/
theorem setKey_cons_of_nodup (h : KeysNodup (e :: l)) (hk : e.1 = k) :
    setKey k v (e :: l) = (e.1, v) :: l := by
  have hrest := setKey_of_not_mem (v := v) (hk ▸ (keysNodup_cons.mp h).1)
  unfold setKey at hrest ⊢
  rw [List.map_cons, if_pos hk, hrest]

theorem eraseKey_perm (hperm : l.Perm l') : (eraseKey k l).Perm (eraseKey k l') := hperm.filter _

theorem eraseKey_of_not_mem (h : ∀ e ∈ l, e.1 ≠ k) : eraseKey k l = l :=
  List.filter_eq_self.mpr fun e he => by simpa using h e he

theorem eraseKey_cons_of_nodup (h : KeysNodup (e :: l)) (hk : e.1 = k) :
    eraseKey k (e :: l) = l := by
  have hrest := eraseKey_of_not_mem (hk ▸ (keysNodup_cons.mp h).1)
  unfold eraseKey at hrest ⊢
  rw [List.filter_cons_of_neg (by simpa using hk), hrest]

theorem KeysNodup.eraseKey (h : KeysNodup l) (k : K) : KeysNodup (eraseKey k l) :=
  h.sublist List.filter_sublist

/-- To take the first entry of the key is to take them all. -/
theorem eraseP_eq_eraseKey (h : KeysNodup l) :
    (l.eraseP fun e => e.1 = k) = eraseKey k l := by
  induction l with
  | nil => rfl
  | cons e l ih =>
      obtain ⟨hnew, hrest⟩ := keysNodup_cons.mp h
      unfold eraseKey
      by_cases hk : e.1 = k
      · rw [List.eraseP_cons_of_pos (by simpa using hk),
          List.filter_cons_of_neg (by simpa using hk)]
        exact (eraseKey_of_not_mem fun e' he' => hk ▸ hnew e' he').symm
      · rw [List.eraseP_cons_of_neg (by simpa using hk),
          List.filter_cons_of_pos (by simpa using hk), ih hrest]
        rfl

/-- What is taken and what is left. -/
theorem cons_eraseKey_perm (h : KeysNodup l) (he : e ∈ l) : (e :: eraseKey e.1 l).Perm l := by
  rw [← eraseP_eq_eraseKey h]
  obtain ⟨before, after, rfl⟩ := List.append_of_mem he
  have hbefore : ∀ e' ∈ before, ¬ decide (e'.1 = e.1) = true := by
    intro e' he' hk
    have hnodup := h
    unfold KeysNodup at hnodup
    rw [List.map_append, List.map_cons, List.nodup_middle, List.nodup_cons] at hnodup
    apply hnodup.1
    exact List.mem_append_left _ (List.mem_map.mpr ⟨e', he', by simpa using hk⟩)
  rw [List.eraseP_append_right _ hbefore, List.eraseP_cons_of_pos (by simp)]
  exact List.perm_middle.symm

end Update

end ZServer.Lib
