/-
  ZServer.Lib.Circular

  Arrays that are used around their end.

    * `roundUp n` — the next power of two, by smearing the highest bit down.
    * `around cells head n` — the `n` cells from `head` on.
    * `copyCells dst i src j n` — a copy from one array to another.
-/

import Mathlib.Data.Nat.Bitwise
import Mathlib.Data.Nat.ModEq
import Mathlib.Data.List.Range
import Mathlib.Data.List.Basic

namespace ZServer.Lib

/-! ## Residues -/

/-- Among `n` numbers in a row there is one of each residue. -/
theorem exists_mod_eq {n j : Nat} (lo : Nat) (hj : j < n) :
    ∃ k, lo ≤ k ∧ k < lo + n ∧ k % n = j := by
  have hn : 0 < n := Nat.lt_of_le_of_lt (Nat.zero_le j) hj
  have hlo := Nat.mod_lt lo hn
  refine ⟨lo + (j + (n - lo % n)) % n, Nat.le_add_right _ _,
    Nat.add_lt_add_left (Nat.mod_lt _ hn) _, ?_⟩
  have hsum : lo % n + (j + (n - lo % n)) = j + n := by omega
  rw [Nat.add_mod, Nat.mod_mod, ← Nat.add_mod, ← Nat.mod_add_mod, hsum, Nat.add_mod_right,
    Nat.mod_eq_of_lt hj]

/-! ## Powers of two -/

/-- The bits of `n` from `k` down are set, at least `w` of them, and none is above. -/
structure Filled (w k n : Nat) : Prop where
  lt : n < 2 ^ (k + 1)
  set : ∀ i, i ≤ k → k < i + w → n.testBit i = true

theorem filled_log2 {n : Nat} (h : n ≠ 0) : Filled 1 n.log2 n where
  lt := Nat.lt_log2_self
  set := fun i hi hlt => by
    obtain rfl : i = n.log2 := by omega
    exact Nat.testBit_log2 h

/-- One step of smearing. -/
theorem Filled.smear {w k n : Nat} (h : Filled w k n) : Filled (2 * w) k (n ||| n >>> w) where
  lt := Nat.or_lt_two_pow h.lt (Nat.lt_of_le_of_lt (Nat.shiftRight_le n w) h.lt)
  set := fun i hi hlt => by
    rw [Nat.testBit_or, Nat.testBit_shiftRight, Bool.or_eq_true]
    by_cases hw : k < i + w
    · exact Or.inl (h.set i hi hw)
    · exact Or.inr (h.set (w + i) (by omega) (by omega))

theorem Filled.eq {w k n : Nat} (h : Filled w k n) (hw : k < w) : n = 2 ^ (k + 1) - 1 := by
  refine Nat.eq_of_testBit_eq fun i => ?_
  rw [Nat.testBit_two_pow_sub_one]
  by_cases hi : i < k + 1
  · rw [h.set i (by omega) (by omega), decide_eq_true hi]
  · rw [decide_eq_false hi]
    exact Nat.testBit_lt_two_pow
      (Nat.lt_of_lt_of_le h.lt (Nat.pow_le_pow_right (by decide) (Nat.le_of_not_lt hi)))

/-- The bits of a number of 32 bits, smeared down. -/
def smear32 (n : Nat) : Nat :=
  let n := n ||| n >>> 1
  let n := n ||| n >>> 2
  let n := n ||| n >>> 4
  let n := n ||| n >>> 8
  n ||| n >>> 16

theorem smear32_eq {n : Nat} (hlt : n < 2 ^ 32) :
    n = 0 ∧ smear32 n = 0 ∨ n.log2 < 32 ∧ smear32 n + 1 = 2 ^ (n.log2 + 1) := by
  by_cases hzero : n = 0
  · subst hzero
    exact Or.inl ⟨rfl, rfl⟩
  · have hlog : n.log2 < 32 := (Nat.log2_lt hzero).mpr hlt
    have heq : smear32 n = 2 ^ (n.log2 + 1) - 1 :=
      (filled_log2 hzero).smear.smear.smear.smear.smear.eq hlog
    exact Or.inr ⟨hlog, by rw [heq, Nat.sub_add_cancel (Nat.two_pow_pos _)]⟩

/-! ## Cells around the end -/

section Around

variable {α : Type*} [Inhabited α] {cells : List α} {head n : Nat}

/-- The `n` cells from `head` on. -/
def around (cells : List α) (head n : Nat) : List α :=
  (List.range n).map fun i => cells.getD ((head + i) % cells.length) default

theorem around_add (cells : List α) (head m n : Nat) :
    around cells head (m + n) =
      around cells head m ++ around cells ((head + m) % cells.length) n := by
  unfold around
  rw [List.range_add, List.map_append, List.map_map]
  refine congrArg _ (List.map_congr_left fun i _ => ?_)
  rw [Function.comp_apply, Nat.mod_add_mod, Nat.add_assoc]

/-- The cell at `head` comes first. -/
theorem around_succ (hhead : head < cells.length) (n : Nat) :
    around cells head (n + 1) =
      cells.getD head default :: around cells ((head + 1) % cells.length) n := by
  rw [Nat.add_comm, around_add]
  unfold around
  rw [List.range_one, List.map_singleton, Nat.add_zero, Nat.mod_eq_of_lt hhead]
  rfl

/-- A cell is written behind the others. -/
theorem around_set (hn : n < cells.length) (x : α) :
    around (cells.set ((head + n) % cells.length) x) head (n + 1) = around cells head n ++ [x] := by
  have hlt : (head + n) % cells.length < cells.length :=
    Nat.mod_lt _ (Nat.lt_of_le_of_lt (Nat.zero_le n) hn)
  unfold around
  rw [List.range_succ, List.map_append, List.map_singleton, List.length_set]
  refine congrArg₂ _ (List.map_congr_left fun i hi => ?_) ?_
  · have hi := List.mem_range.mp hi
    have hne : (head + n) % cells.length ≠ (head + i) % cells.length := by
      intro heq
      have hmod : n ≡ i [MOD cells.length] := Nat.ModEq.add_left_cancel' head heq
      have := hmod.eq_of_lt_of_lt hn (Nat.lt_trans hi hn)
      omega
    rw [List.getD_eq_getElem?_getD, List.getElem?_set_ne hne, ← List.getD_eq_getElem?_getD]
  · rw [List.getD_eq_getElem?_getD, List.getElem?_set_self hlt]
    rfl

/-- Up to the end, the cells are those of the array. -/
theorem around_of_le (h : head + n ≤ cells.length) :
    around cells head n = (cells.drop head).take n := by
  unfold around
  refine List.ext_getElem ?_ fun i hi _ => ?_
  · rw [List.length_map, List.length_range, List.length_take, List.length_drop]
    omega
  · rw [List.length_map, List.length_range] at hi
    have hlt : head + i < cells.length := by omega
    rw [List.getElem_map, List.getElem_range, List.getElem_take, List.getElem_drop,
      Nat.mod_eq_of_lt hlt, List.getD_eq_getElem _ _ hlt]

/-- Past the end, they are the rest of the array and its start. -/
theorem around_of_wrap (hhead : head ≤ cells.length) (hn : n ≤ cells.length)
    (h : cells.length ≤ head + n) :
    around cells head n = cells.drop head ++ cells.take (head + n - cells.length) := by
  obtain ⟨m, rfl⟩ : ∃ m, n = (cells.length - head) + m := ⟨head + n - cells.length, by omega⟩
  have hend : (head + (cells.length - head)) % cells.length = 0 := by
    rw [Nat.add_sub_cancel' hhead, Nat.mod_self]
  have hrest : head + (cells.length - head + m) - cells.length = m := by omega
  rw [around_add, hend, hrest, around_of_le (by omega), around_of_le (by omega), List.drop_zero,
    List.take_of_length_le (by rw [List.length_drop])]

/-- What stands at the start of an array. -/
theorem around_append (xs ys : List α) : around (xs ++ ys) 0 xs.length = xs := by
  rw [around_of_le (by rw [List.length_append]; omega), List.drop_zero, List.take_left]

end Around

/-! ## Copies -/

section Copies

variable {α : Type*}

/-- The `n` cells of `src` from `j` on, written to `dst` from `i` on; `none` past the
    end of one of them. -/
def copyCells (dst : List α) (i : Nat) (src : List α) (j n : Nat) : Option (List α) :=
  if i + n ≤ dst.length ∧ j + n ≤ src.length then
    some (dst.take i ++ ((src.drop j).take n ++ dst.drop (i + n)))
  else none

/-- A new array is filled from its start. -/
theorem copyCells_fill (xs : List α) (x : α) {src : List α} {m j n : Nat} (hn : n ≤ m)
    (hj : j + n ≤ src.length) :
    copyCells (xs ++ List.replicate m x) xs.length src j n =
      some (xs ++ (src.drop j).take n ++ List.replicate (m - n) x) := by
  unfold copyCells
  rw [if_pos ⟨by rw [List.length_append, List.length_replicate]; omega, hj⟩, List.take_left,
    List.drop_append, List.drop_replicate, List.drop_eq_nil_of_le (Nat.le_add_right _ _),
    Nat.add_sub_cancel_left, List.nil_append, List.append_assoc]

end Copies

end ZServer.Lib
