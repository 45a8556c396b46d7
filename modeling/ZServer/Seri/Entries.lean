/-
  ZServer.Seri.Entries

  The entries of a table are those at the indices of its array part and those of
  its hash part; and what building a table up from decoded entries gives.
-/

import Mathlib.Data.List.Nodup
import Mathlib.Data.List.Perm.Basic
import ZServer.Seri.Scalars

namespace ZServer.Seri

open Lib

-- ============================================================================
-- The two parts of a table
-- ============================================================================

/-- The entries that `wb_table_array` goes through. -/
def LuaTable.arrayPart (t : LuaTable) : List (Value × Value) :=
  (List.range' 1 t.border).flatMap fun i => (t.find i).toList

variable {t : LuaTable}

/-- The key at index `i` is this `int`. -/
theorem int32?_of_rawequal {k : Value} {i : Nat} (hi : i < 2 ^ 31)
    (h : k.rawequal (.number (.ofInt i)) = true) : ∃ n, k = .number n ∧ n.int32? = some (i : Int) := by
  cases k with
  | number n =>
      refine ⟨n, rfl, ?_⟩
      rw [Binary64.int32?_congr h]
      exact Binary64.int32?_ofInt (by omega) (by omega)
  | _ => cases h

theorem rawequal_of_int32? {n : Binary64} {x : Int} (h : n.int32? = some x) :
    (Value.number n).rawequal (.number (.ofInt x)) = true :=
  Binary64.eq_symm (Binary64.int32?_eq_some.mp h).2.2

theorem index_injective {k : Value} {i j : Nat} (hi : i < 2 ^ 31) (hj : j < 2 ^ 31)
    (h : k.rawequal (.number (.ofInt i)) = true) (h' : k.rawequal (.number (.ofInt j)) = true) :
    i = j := by
  obtain ⟨n, rfl, hn⟩ := int32?_of_rawequal hi h
  obtain ⟨m, heq, hm⟩ := int32?_of_rawequal hj h'
  cases heq
  rw [hn] at hm
  exact_mod_cast Option.some.inj hm

theorem LuaTable.find_mem {e : Value × Value} {i : Nat} (h : t.find i = some e) :
    e ∈ t.entries ∧ e.1.rawequal (.number (.ofInt i)) = true := by
  have hkey := List.find?_some h
  exact ⟨List.mem_of_find?_eq_some h, hkey⟩

/-- There is one entry for a key. -/
theorem LuaTable.entry_unique {e e' : Value × Value} (he : e ∈ t.entries) (he' : e' ∈ t.entries)
    {i : Nat} (h : e.1.rawequal (.number (.ofInt i)) = true)
    (h' : e'.1.rawequal (.number (.ofInt i)) = true) : e = e' := by
  by_contra hne
  have hsymm : Std.Symm fun e e' : Value × Value => e.1.rawequal e'.1 = false :=
    ⟨fun _ _ heq => Value.rawequal_symm.trans heq⟩
  have hdiff := t.distinct.forall he he' hne
  cases hk : e.1 with
  | number n =>
      cases hk' : e'.1 with
      | number n' =>
          rw [hk, hk'] at hdiff
          rw [hk] at h
          rw [hk'] at h'
          have htrue : n.eq n' = true := Binary64.eq_trans h (Binary64.eq_symm h')
          have hfalse : n.eq n' = false := hdiff
          rw [htrue] at hfalse
          cases hfalse
      | _ =>
          rw [hk'] at h'
          cases h'
  | _ =>
      rw [hk] at h
      cases h

theorem LuaTable.find_eq {e : Value × Value} (he : e ∈ t.entries) {i : Nat}
    (h : e.1.rawequal (.number (.ofInt i)) = true) : t.find i = some e := by
  cases hfind : t.find i with
  | none =>
      have hnone := List.find?_eq_none.mp hfind e he
      exact absurd h hnone
  | some e' =>
      obtain ⟨he', h'⟩ := LuaTable.find_mem hfind
      rw [LuaTable.entry_unique he' he h' h]

theorem inArray_iff {n : Nat} {k : Value} :
    inArray n k = true ↔ ∃ m x, k = .number m ∧ m.int32? = some x ∧ 0 < x ∧ x ≤ n := by
  cases k with
  | number m =>
      unfold inArray
      cases hm : m.int32? with
      | none => simp [hm]
      | some x => simp [hm]
  | _ => simp [inArray]

theorem LuaTable.entries_nodup : t.entries.Nodup :=
  t.distinct.imp_of_mem fun {e e'} he _ hne heq => by
    rw [← heq, Value.rawequal_self (t.keys e he)] at hne
    cases hne

theorem LuaTable.mem_arrayPart {e : Value × Value} :
    e ∈ t.arrayPart ↔ ∃ i, 1 ≤ i ∧ i ≤ t.border ∧ t.find i = some e := by
  unfold LuaTable.arrayPart
  simp only [List.mem_flatMap, List.mem_range'_1, Option.mem_toList]
  refine exists_congr fun i => ?_
  rw [and_assoc]
  refine and_congr_right fun hi => and_congr_left fun _ => ?_
  omega

theorem LuaTable.arrayPart_nodup : t.arrayPart.Nodup := by
  have hborder := t.border_lt
  refine List.nodup_flatMap.mpr ⟨fun i _ => ?_, ?_⟩
  · cases t.find i with
    | none => exact List.nodup_nil
    | some e => exact List.nodup_singleton e
  · have hrange : (List.range' 1 t.border).Nodup := List.nodup_range'
    refine List.Pairwise.imp_of_mem (fun {i j} hi hj hne => ?_) hrange
    intro e hei hej
    rw [List.mem_range'_1] at hi hj
    exact hne (index_injective (by omega) (by omega)
      (LuaTable.find_mem (Option.mem_toList.mp hei)).2 (LuaTable.find_mem (Option.mem_toList.mp hej)).2)

/-- Every entry belongs to one of the two parts, in whatever order. -/
theorem LuaTable.parts_perm (t : LuaTable) : (t.arrayPart ++ t.hashPart).Perm t.entries := by
  have hborder := t.border_lt
  have harray : t.arrayPart.Perm (t.entries.filter fun e => inArray t.border e.1) := by
    refine (List.perm_ext_iff_of_nodup LuaTable.arrayPart_nodup
      (LuaTable.entries_nodup.filter _)).mpr fun e => ?_
    rw [LuaTable.mem_arrayPart, List.mem_filter, inArray_iff]
    constructor
    · rintro ⟨i, hlo, hhi, hfind⟩
      obtain ⟨he, hkey⟩ := LuaTable.find_mem hfind
      obtain ⟨n, hn, hint⟩ := int32?_of_rawequal (by omega) hkey
      exact ⟨he, n, i, hn, hint, by omega, by omega⟩
    · rintro ⟨he, n, x, hn, hint, hlo, hhi⟩
      have hx : ((x.toNat : Nat) : Int) = x := Int.toNat_of_nonneg hlo.le
      refine ⟨x.toNat, by omega, by omega, LuaTable.find_eq he ?_⟩
      rw [hn, hx]
      exact rawequal_of_int32? hint
  exact (harray.append_right _).trans (List.filter_append_perm ..)

end ZServer.Seri
