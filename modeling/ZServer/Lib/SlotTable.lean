/-
  ZServer.Lib.SlotTable

  Tables without chaining: an entry with key `k` can only be in the slot
  `k % length`, so entries with congruent keys exclude each other.

    * `Slotted key t` — every entry is in its slot.
    * `rehash key n t` — the entries of `t` in a new table of `n` slots.

  Rehashing to a multiple of the length keeps all entries (`mem_rehash`).
-/

import Mathlib.Data.Nat.ModEq
import Mathlib.Data.List.Perm.Basic

namespace ZServer.Lib

variable {α : Type*} {key : α → Nat} {t : List (Option α)}

/-- Every entry is in the slot of its key. -/
def Slotted (key : α → Nat) (t : List (Option α)) : Prop :=
  ∀ i x, t[i]? = some (some x) → key x % t.length = i

/-- Put the entries of `t`, in order, into an empty table of `n` slots. -/
def rehash (key : α → Nat) (n : Nat) (t : List (Option α)) : List (Option α) :=
  t.foldl
    (fun tmp slot =>
      match slot with
      | some x => tmp.set (key x % n) (some x)
      | none => tmp)
    (List.replicate n none)

/-! ## Slots -/

theorem Slotted.getElem? (h : Slotted key t) {x : α} (hx : some x ∈ t) :
    t[key x % t.length]? = some (some x) := by
  obtain ⟨i, hi⟩ := List.mem_iff_getElem?.mp hx
  rw [h i x hi]
  exact hi

/-- Entries with congruent keys are the same entry. -/
theorem Slotted.eq_of_mod_eq (h : Slotted key t) {x y : α} (hx : some x ∈ t) (hy : some y ∈ t)
    (heq : key x % t.length = key y % t.length) : x = y := by
  have hxy := h.getElem? hx
  rw [heq, h.getElem? hy] at hxy
  exact (Option.some.inj (Option.some.inj hxy)).symm

theorem Slotted.replicate (key : α → Nat) (n : Nat) : Slotted key (List.replicate n none) := by
  intro i x hx
  cases List.eq_of_mem_replicate (List.mem_of_getElem? hx)

theorem Slotted.set_some (h : Slotted key t) (x : α) :
    Slotted key (t.set (key x % t.length) (some x)) := by
  intro i y hy
  rw [List.length_set]
  by_cases hi : key x % t.length = i
  · rw [List.getElem?_set, if_pos hi] at hy
    split at hy
    · rw [← Option.some.inj (Option.some.inj hy)]
      exact hi
    · cases hy
  · rw [List.getElem?_set_ne hi] at hy
    exact h i y hy

theorem Slotted.set_none (h : Slotted key t) (i : Nat) : Slotted key (t.set i none) := by
  intro j y hy
  rw [List.length_set]
  by_cases hij : i = j
  · rw [List.getElem?_set, if_pos hij] at hy
    split at hy <;> cases hy
  · rw [List.getElem?_set_ne hij] at hy
    exact h j y hy

/-- Only the keys of the entries matter. -/
theorem Slotted.congr {key' : α → Nat} (h : Slotted key t) (hkey : ∀ x, some x ∈ t → key' x = key x) :
    Slotted key' t := by
  intro i x hx
  rw [hkey x (List.mem_of_getElem? hx)]
  exact h i x hx

/-- What is not overwritten stays. -/
theorem mem_set_of_mem {x : α} {i : Nat} {v : Option α} (h : some x ∈ t)
    (hi : t[i]? ≠ some (some x)) : some x ∈ t.set i v := by
  obtain ⟨j, hj⟩ := List.mem_iff_getElem?.mp h
  have hij : i ≠ j := by
    intro hij
    rw [hij] at hi
    exact hi hj
  apply List.mem_iff_getElem?.mpr
  exact ⟨j, by rw [List.getElem?_set_ne hij]; exact hj⟩

/-! ## Rehashing -/

/-- What the loop of `rehash` keeps, from any table it starts with. -/
theorem rehash_fold (n : Nat) (l tmp : List (Option α)) (hlen : tmp.length = n)
    (hslotted : Slotted key tmp) :
    let out := l.foldl
      (fun tmp slot =>
        match slot with
        | some x => tmp.set (key x % n) (some x)
        | none => tmp) tmp
    out.length = n ∧ Slotted key out ∧ ∀ x, some x ∈ out → some x ∈ tmp ∨ some x ∈ l := by
  induction l generalizing tmp with
  | nil => exact ⟨hlen, hslotted, fun _ h => Or.inl h⟩
  | cons slot l ih =>
      cases slot with
      | none =>
          obtain ⟨h₁, h₂, h₃⟩ := ih tmp hlen hslotted
          exact ⟨h₁, h₂, fun x hx => (h₃ x hx).imp_right fun h => List.mem_cons_of_mem _ h⟩
      | some y =>
          have hset : Slotted key (tmp.set (key y % n) (some y)) := by
            rw [← hlen]
            exact hslotted.set_some y
          obtain ⟨h₁, h₂, h₃⟩ := ih (tmp.set (key y % n) (some y)) (by rw [List.length_set]; exact hlen)
            hset
          refine ⟨h₁, h₂, fun x hx => ?_⟩
          rcases h₃ x hx with htmp | hl
          · rcases List.mem_or_eq_of_mem_set htmp with hold | hnew
            · exact Or.inl hold
            · exact Or.inr (hnew ▸ List.mem_cons_self)
          · exact Or.inr (List.mem_cons_of_mem _ hl)

theorem rehash_length (n : Nat) (t : List (Option α)) : (rehash key n t).length = n :=
  (rehash_fold n t _ List.length_replicate (Slotted.replicate key n)).1

theorem rehash_slotted (n : Nat) (t : List (Option α)) : Slotted key (rehash key n t) :=
  (rehash_fold n t _ List.length_replicate (Slotted.replicate key n)).2.1

/-- Rehashing brings in no entry. -/
theorem mem_of_mem_rehash {n : Nat} {x : α} (h : some x ∈ rehash key n t) : some x ∈ t := by
  rcases (rehash_fold n t _ List.length_replicate (Slotted.replicate key n)).2.2 x h with hnew | hold
  · cases List.eq_of_mem_replicate hnew
  · exact hold

/-- Entries whose keys differ modulo `n` do not overwrite each other. -/
theorem mem_rehash_fold {n : Nat} (hn : 0 < n) (l tmp : List (Option α)) (hlen : tmp.length = n)
    (hslotted : Slotted key tmp)
    (hinj : ∀ x y, some x ∈ tmp ∨ some x ∈ l → some y ∈ l → key x % n = key y % n → x = y)
    {x : α} (hx : some x ∈ tmp ∨ some x ∈ l) :
    some x ∈ l.foldl
      (fun tmp slot =>
        match slot with
        | some x => tmp.set (key x % n) (some x)
        | none => tmp) tmp := by
  induction l generalizing tmp with
  | nil =>
      rcases hx with hx | hx
      · exact hx
      · cases hx
  | cons slot l ih =>
      cases slot with
      | none =>
          apply ih tmp hlen hslotted
          · intro a b ha hb
            exact hinj a b (ha.imp_right fun h => List.mem_cons_of_mem _ h) (List.mem_cons_of_mem _ hb)
          · rcases hx with hx | hx
            · exact Or.inl hx
            · exact Or.inr ((List.mem_cons.mp hx).resolve_left (by rintro ⟨⟩))
      | some y =>
          have hset : Slotted key (tmp.set (key y % n) (some y)) := by
            rw [← hlen]
            exact hslotted.set_some y
          have hlt : key y % n < tmp.length := by
            rw [hlen]
            exact Nat.mod_lt _ hn
          have hput : some y ∈ tmp.set (key y % n) (some y) := List.mem_set hlt _
          apply ih _ (by rw [List.length_set]; exact hlen) hset
          · intro a b ha hb
            refine hinj a b ?_ (List.mem_cons_of_mem _ hb)
            rcases ha with ha | ha
            · rcases List.mem_or_eq_of_mem_set ha with hold | hnew
              · exact Or.inl hold
              · exact Or.inr (hnew ▸ List.mem_cons_self)
            · exact Or.inr (List.mem_cons_of_mem _ ha)
          · by_cases hxy : x = y
            · rw [hxy]
              exact Or.inl hput
            · rcases hx with hx | hx
              · refine Or.inl (mem_set_of_mem hx fun hover => hxy ?_)
                -- an entry in the slot of `y` has a key congruent to that of `y`
                have hmod := hslotted _ x hover
                rw [hlen] at hmod
                exact hinj x y (Or.inl hx) List.mem_cons_self hmod
              · rcases List.mem_cons.mp hx with heq | hl
                · exact absurd (Option.some.inj heq) hxy
                · exact Or.inr hl

/-- Rehashing to a multiple of the length loses no entry. -/
theorem mem_rehash (h : Slotted key t) {n : Nat} (hn : 0 < n) (hdvd : t.length ∣ n) {x : α}
    (hx : some x ∈ t) : some x ∈ rehash key n t := by
  apply mem_rehash_fold hn t _ List.length_replicate (Slotted.replicate key n) ?_ (Or.inr hx)
  intro a b ha hb hab
  rcases ha with ha | ha
  · cases List.eq_of_mem_replicate ha
  · apply h.eq_of_mod_eq ha hb
    rw [← Nat.mod_mod_of_dvd (key a) hdvd, hab, Nat.mod_mod_of_dvd]
    exact hdvd

/-- A slot that is taken stays so. -/
theorem rehash_fold_taken {n i : Nat} (hi : i < n) (l tmp : List (Option α)) (hlen : tmp.length = n)
    (h : (∃ x, tmp[i]? = some (some x)) ∨ ∃ x, some x ∈ l ∧ key x % n = i) :
    ∃ x, (l.foldl
      (fun tmp slot =>
        match slot with
        | some x => tmp.set (key x % n) (some x)
        | none => tmp) tmp)[i]? = some (some x) := by
  induction l generalizing tmp with
  | nil =>
      rcases h with hold | ⟨x, hx, -⟩
      · exact hold
      · cases hx
  | cons slot l ih =>
      cases slot with
      | none =>
          refine ih tmp hlen (h.imp_right ?_)
          rintro ⟨x, hx, hmod⟩
          exact ⟨x, (List.mem_cons.mp hx).resolve_left (by rintro ⟨⟩), hmod⟩
      | some y =>
          refine ih (tmp.set (key y % n) (some y)) (by rw [List.length_set, hlen]) ?_
          by_cases hy : key y % n = i
          · exact Or.inl ⟨y, by rw [hy, List.getElem?_set_self (by rw [hlen]; exact hi)]⟩
          · rcases h with ⟨x, hx⟩ | ⟨x, hx, hmod⟩
            · exact Or.inl ⟨x, by rw [List.getElem?_set_ne hy]; exact hx⟩
            · refine Or.inr ⟨x, (List.mem_cons.mp hx).resolve_left fun heq => hy ?_, hmod⟩
              rw [← Option.some.inj heq]
              exact hmod

/-- Whether a slot is taken after rehashing. -/
theorem rehash_taken {n i : Nat} (hi : i < n) :
    (∃ x, (rehash key n t)[i]? = some (some x)) ↔ ∃ x, some x ∈ t ∧ key x % n = i := by
  constructor
  · rintro ⟨x, hx⟩
    have hmod := rehash_slotted n t i x hx
    rw [rehash_length] at hmod
    exact ⟨x, mem_of_mem_rehash (List.mem_of_getElem? hx), hmod⟩
  · exact fun h => rehash_fold_taken hi t _ List.length_replicate (Or.inr h)

/-- To take all of `n` slots it needs as many entries. -/
theorem le_length_of_rehash_taken {n : Nat}
    (h : ∀ i, i < n → ∃ x, (rehash key n t)[i]? = some (some x)) : n ≤ t.length := by
  have hsub : List.range n ⊆ (t.filterMap id).map (fun x => key x % n) := by
    intro i hi
    obtain ⟨x, hx, hmod⟩ := (rehash_taken (List.mem_range.mp hi)).mp (h i (List.mem_range.mp hi))
    exact List.mem_map.mpr ⟨x, List.mem_filterMap.mpr ⟨some x, hx, rfl⟩, hmod⟩
  have hle := (List.subperm_of_subset List.nodup_range hsub).length_le
  rw [List.length_range, List.length_map] at hle
  exact Nat.le_trans hle (List.length_filterMap_le id t)

end ZServer.Lib
