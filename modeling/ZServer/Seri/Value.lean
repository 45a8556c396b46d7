/-
  ZServer.Seri.Value

  Lua values: those that are packed, whose tables are references into a heap and
  may share and contain one another, and those that come out of a stream, whose
  tables are fresh.  `DeepEq` says that a value that has come out is the one that
  was packed.
-/

import Mathlib.Data.List.Pairwise
import ZServer.Lib.Binary64

namespace ZServer.Seri

open Lib

-- ============================================================================
-- Values that are packed
-- ============================================================================

inductive Value where
  | nil
  | boolean (b : Bool)
  | number (n : Binary64)
  | string (s : List UInt8)
  | lightuserdata (p : UInt64)
  | table (ref : Nat)
  deriving DecidableEq, Repr

/-- The comparison of keys; a number that is not a number equals none. -/
def Value.rawequal : Value → Value → Bool
  | .nil, .nil => true
  | .boolean b, .boolean b' => b == b'
  | .number n, .number n' => n.eq n'
  | .string s, .string s' => s == s'
  | .lightuserdata p, .lightuserdata p' => p == p'
  | .table ref, .table ref' => ref == ref'
  | _, _ => false

/-- What may be a key. -/
def Value.IsKey : Value → Prop
  | .nil => False
  | .number n => n.isNaN = false
  | _ => True

/-- A table as `lua_next` goes through it. -/
structure LuaTable where
  entries : List (Value × Value)
  /-- `luaH_getn` -/
  border : Nat
  keys : ∀ e ∈ entries, e.1.IsKey
  values : ∀ e ∈ entries, e.2 ≠ .nil
  distinct : entries.Pairwise fun e e' => e.1.rawequal e'.1 = false
  /-- `luaH_getn` returns an `int` -/
  border_lt : border < 2 ^ 31

abbrev Heap := Nat → LuaTable

/-- The entry at index `i`. -/
def LuaTable.find (t : LuaTable) (i : Nat) : Option (Value × Value) :=
  t.entries.find? fun e => e.1.rawequal (.number (.ofInt i))

/-- `lua_rawgeti` -/
def LuaTable.rawgeti (t : LuaTable) (i : Nat) : Value := ((t.find i).map Prod.snd).getD .nil

-- ============================================================================
-- Values that have come out of a stream
-- ============================================================================

inductive Obj where
  | nil
  | boolean (b : Bool)
  | number (n : Binary64)
  | string (s : List UInt8)
  | lightuserdata (p : UInt64)
  | table (entries : List (Obj × Obj))

def Obj.isNil : Obj → Bool
  | .nil => true
  | _ => false

def Obj.isNaN : Obj → Bool
  | .number n => n.isNaN
  | _ => false

/-- Every table is another one. -/
def Obj.rawequal : Obj → Obj → Bool
  | .nil, .nil => true
  | .boolean b, .boolean b' => b == b'
  | .number n, .number n' => n.eq n'
  | .string s, .string s' => s == s'
  | .lightuserdata p, .lightuserdata p' => p == p'
  | _, _ => false

/-- `lua_rawset` -/
def rawset (t : List (Obj × Obj)) (k v : Obj) : List (Obj × Obj) :=
  let t := t.filter fun e => !e.1.rawequal k
  if v.isNil then t else t ++ [(k, v)]

/-- `lua_rawseti` -/
def rawseti (t : List (Obj × Obj)) (i : Int) (v : Obj) : List (Obj × Obj) :=
  rawset t (.number (.ofInt i)) v

-- ============================================================================
-- Deep equality
-- ============================================================================

mutual

inductive DeepEq (h : Heap) : Value → Obj → Prop where
  | nil : DeepEq h .nil .nil
  | boolean (b : Bool) : DeepEq h (.boolean b) (.boolean b)
  | number {n n' : Binary64} (heq : n.eq n' = true ∨ n.isNaN = true ∧ n'.isNaN = true) :
      DeepEq h (.number n) (.number n')
  | string (s : List UInt8) : DeepEq h (.string s) (.string s)
  | lightuserdata (p : UInt64) : DeepEq h (.lightuserdata p) (.lightuserdata p)
  | table {ref : Nat} {es : List (Value × Value)} {os : List (Obj × Obj)}
      (hperm : es.Perm (h ref).entries) (heq : EntriesEq h es os) :
      DeepEq h (.table ref) (.table os)

/-- Entry by entry. -/
inductive EntriesEq (h : Heap) : List (Value × Value) → List (Obj × Obj) → Prop where
  | nil : EntriesEq h [] []
  | cons {k v : Value} {k' v' : Obj} {es : List (Value × Value)} {os : List (Obj × Obj)}
      (hk : DeepEq h k k') (hv : DeepEq h v v') (hes : EntriesEq h es os) :
      EntriesEq h ((k, v) :: es) ((k', v') :: os)

end

variable {h : Heap}

theorem EntriesEq.append {es es' : List (Value × Value)} {os os' : List (Obj × Obj)}
    (h₁ : EntriesEq h es os) (h₂ : EntriesEq h es' os') : EntriesEq h (es ++ es') (os ++ os') := by
  induction es generalizing os with
  | nil =>
      cases h₁
      exact h₂
  | cons e es ih =>
      cases h₁ with
      | cons hk hv hes => exact .cons hk hv (ih hes)

theorem EntriesEq.mem {es : List (Value × Value)} {os : List (Obj × Obj)}
    (heq : EntriesEq h es os) {o : Obj × Obj} (ho : o ∈ os) :
    ∃ e ∈ es, DeepEq h e.1 o.1 ∧ DeepEq h e.2 o.2 := by
  induction os generalizing es with
  | nil => cases ho
  | cons o' os ih =>
      cases heq with
      | cons hk hv hes =>
          rcases List.mem_cons.mp ho with rfl | ho
          · exact ⟨_, List.mem_cons_self, hk, hv⟩
          · obtain ⟨e, he, heq⟩ := ih hes ho
            exact ⟨e, List.mem_cons_of_mem _ he, heq⟩

theorem DeepEq.isNil_iff {v : Value} {o : Obj} (heq : DeepEq h v o) :
    o.isNil = true ↔ v = .nil := by
  cases heq <;> simp [Obj.isNil]

theorem DeepEq.key {k : Value} {o : Obj} (heq : DeepEq h k o) (hk : k.IsKey) :
    o.isNil = false ∧ o.isNaN = false := by
  cases heq with
  | nil => exact hk.elim
  | number hnum =>
      rcases hnum with hnum | hnum
      · exact ⟨rfl, (Binary64.eq_iff.mp hnum).2.1⟩
      · have hnan : _ = false := hk
        rw [hnum.1] at hnan
        cases hnan
  | _ => exact ⟨rfl, rfl⟩

theorem Value.rawequal_symm {k k' : Value} : k.rawequal k' = k'.rawequal k := by
  cases k <;> cases k' <;> simp only [Value.rawequal, BEq.comm]
  rename_i n n'
  rw [Bool.eq_iff_iff]
  exact ⟨Binary64.eq_symm, Binary64.eq_symm⟩

theorem Value.rawequal_self {k : Value} (hk : k.IsKey) : k.rawequal k = true := by
  cases k with
  | nil => exact hk.elim
  | number n => exact Binary64.eq_refl hk
  | _ => simp [Value.rawequal]

/-- Keys that differ come out as keys that differ. -/
theorem DeepEq.rawequal {k k' : Value} {o o' : Obj} (hk : DeepEq h k o) (hk' : DeepEq h k' o')
    (hkey : k.IsKey) (hkey' : k'.IsKey) (heq : o.rawequal o' = true) :
    k.rawequal k' = true := by
  cases hk <;> cases hk' <;> simp only [Obj.rawequal, Bool.false_eq_true] at heq
  case nil.nil => rfl
  case boolean.boolean => exact heq
  case number.number hn _ _ hn' =>
    have hnum : ∀ {n n' : Binary64}, n.isNaN = false →
        n.eq n' = true ∨ n.isNaN = true ∧ n'.isNaN = true → n.eq n' = true := by
      intro n n' hnan hn
      rcases hn with hn | ⟨hn, -⟩
      · exact hn
      · rw [hnan] at hn
        cases hn
    exact Binary64.eq_trans (Binary64.eq_trans (hnum hkey hn) heq)
      (Binary64.eq_symm (hnum hkey' hn'))
  case string.string => exact heq
  case lightuserdata.lightuserdata => exact heq

/-- A key that differs from those of the entries still does when they have been read. -/
theorem EntriesEq.differs {es : List (Value × Value)} {os : List (Obj × Obj)}
    (heq : EntriesEq h es os) {k : Value} {o : Obj} (hk : DeepEq h k o) (hkey : k.IsKey)
    (hdiff : ∀ e ∈ es, e.1.IsKey ∧ e.1.rawequal k = false) : ∀ e ∈ os, e.1.rawequal o = false := by
  intro e he
  obtain ⟨e', he', hk', -⟩ := heq.mem he
  obtain ⟨hkey', hfalse⟩ := hdiff e' he'
  apply Bool.eq_false_of_not_eq_true
  intro htrue
  rw [hk'.rawequal hk hkey' hkey htrue] at hfalse
  cases hfalse

/-- A new key is put behind the others. -/
theorem rawset_new {t : List (Obj × Obj)} {k v : Obj} (hnew : ∀ e ∈ t, e.1.rawequal k = false) :
    rawset t k v = if v.isNil then t else t ++ [(k, v)] := by
  unfold rawset
  rw [List.filter_eq_self.mpr fun e he => by rw [hnew e he]; rfl]

end ZServer.Seri
