/-
  ZServer.Lib.Binary64

  IEEE 754 binary64 numbers by their bits: the comparison `==` of C, the numbers
  that are integers, and the conversions from and to `int`.

  A number is measured in units of `2 ^ -1074`, the smallest that is not zero, so
  that its value is an integer (`units`); an infinity is as large as the next
  exponent would make it.
-/

import Mathlib.Algebra.Order.Ring.Int
import Mathlib.Data.Nat.Log
import ZServer.Lib.Word

namespace ZServer.Lib

structure Binary64 where
  bits : UInt64
  deriving DecidableEq, Repr

namespace Binary64

def negative (d : Binary64) : Bool := decide (2 ^ 63 ≤ d.bits.toNat)

/-- The biased exponent. -/
def exponent (d : Binary64) : Nat := d.bits.toNat / 2 ^ 52 % 2 ^ 11

def fraction (d : Binary64) : Nat := d.bits.toNat % 2 ^ 52

def isNaN (d : Binary64) : Bool := d.exponent == 2047 && d.fraction != 0

def magnitude (d : Binary64) : Nat :=
  if d.exponent = 0 then d.fraction else (2 ^ 52 + d.fraction) * 2 ^ (d.exponent - 1)

def units (d : Binary64) : Int := if d.negative then -(d.magnitude : Int) else d.magnitude

/-- `a == b` -/
def eq (a b : Binary64) : Bool := !a.isNaN && !b.isNaN && a.units == b.units

/-- A unit is `2 ^ -unitExponent`. -/
def unitExponent : Nat := 1074

/-- How many units make 1. -/
def one : Nat := 2 ^ unitExponent

/-- `(double)i` for an integer of at most 53 bits. -/
def ofInt (i : Int) : Binary64 :=
  if i = 0 then ⟨0⟩
  else
    let e := i.natAbs.log2
    ⟨UInt64.ofNat ((if i < 0 then 2 ^ 63 else 0) + (e + 1023) * 2 ^ 52 +
      (i.natAbs * 2 ^ (52 - e) - 2 ^ 52))⟩

/-- The `int` that equals the number. -/
def int32? (d : Binary64) : Option Int :=
  let i := d.units / one
  if -2 ^ 31 ≤ i ∧ i < 2 ^ 31 ∧ eq (ofInt i) d = true then some i else none

/-- The number without its fraction. -/
def trunc (d : Binary64) : Int := d.units.tdiv one

/-- `(int)d`; what it gives when the number is out of range is not defined. -/
def toInt (overflow : Binary64 → Int) (d : Binary64) : Int :=
  if d.isNaN = false ∧ -2 ^ 31 ≤ d.trunc ∧ d.trunc < 2 ^ 31 then d.trunc else overflow d

/-! ## Comparison -/

theorem eq_iff {a b : Binary64} :
    eq a b = true ↔ a.isNaN = false ∧ b.isNaN = false ∧ a.units = b.units := by
  unfold eq
  simp [and_assoc]

theorem eq_refl {a : Binary64} (h : a.isNaN = false) : eq a a = true := eq_iff.mpr ⟨h, h, rfl⟩

theorem eq_symm {a b : Binary64} (h : eq a b = true) : eq b a = true := by
  obtain ⟨ha, hb, hu⟩ := eq_iff.mp h
  exact eq_iff.mpr ⟨hb, ha, hu.symm⟩

theorem eq_trans {a b c : Binary64} (hab : eq a b = true) (hbc : eq b c = true) :
    eq a c = true := by
  obtain ⟨ha, -, hu⟩ := eq_iff.mp hab
  obtain ⟨-, hc, hv⟩ := eq_iff.mp hbc
  exact eq_iff.mpr ⟨ha, hc, hu.trans hv⟩

/-! ## Integers -/

theorem two_pow_mul_two_pow {a b : Nat} (h : a + b = unitExponent) : 2 ^ a * 2 ^ b = one := by
  unfold one
  rw [← Nat.pow_add, h]

theorem one_pos : 0 < one := Nat.two_pow_pos unitExponent

/-- The fields of the double of an integer. -/
theorem fields_ofInt {i : Int} (hi : i ≠ 0) (hlt : i.natAbs < 2 ^ 53) :
    (ofInt i).negative = decide (i < 0) ∧ (ofInt i).exponent = i.natAbs.log2 + 1023 ∧
      2 ^ 52 + (ofInt i).fraction = i.natAbs * 2 ^ (52 - i.natAbs.log2) := by
  have hne : i.natAbs ≠ 0 := Int.natAbs_ne_zero.mpr hi
  have he : i.natAbs.log2 < 53 := (Nat.log2_lt hne).mpr hlt
  -- the leading bit of the integer comes to the place of the hidden bit
  have hlo : 2 ^ 52 ≤ i.natAbs * 2 ^ (52 - i.natAbs.log2) := by
    have hself := Nat.log2_self_le hne
    calc 2 ^ 52 = 2 ^ i.natAbs.log2 * 2 ^ (52 - i.natAbs.log2) := by
          rw [← Nat.pow_add]
          congr 1
          omega
      _ ≤ i.natAbs * 2 ^ (52 - i.natAbs.log2) := Nat.mul_le_mul_right _ hself
  have hhi : i.natAbs * 2 ^ (52 - i.natAbs.log2) < 2 ^ 53 := by
    have hself := @Nat.lt_log2_self i.natAbs
    calc i.natAbs * 2 ^ (52 - i.natAbs.log2)
        < 2 ^ (i.natAbs.log2 + 1) * 2 ^ (52 - i.natAbs.log2) :=
          Nat.mul_lt_mul_of_pos_right hself (Nat.two_pow_pos _)
      _ = 2 ^ 53 := by
          rw [← Nat.pow_add]
          congr 1
          omega
  have hbits : (ofInt i).bits.toNat = (if i < 0 then 2 ^ 63 else 0) +
      (i.natAbs.log2 + 1023) * 2 ^ 52 + (i.natAbs * 2 ^ (52 - i.natAbs.log2) - 2 ^ 52) := by
    unfold ofInt
    rw [if_neg hi]
    refine (UInt64.toNat_ofNat' ..).trans (Nat.mod_eq_of_lt ?_)
    split <;> omega
  refine ⟨?_, ?_, ?_⟩
  · unfold negative
    rw [hbits]
    refine decide_eq_decide.mpr ?_
    split <;> omega
  · unfold exponent
    rw [hbits]
    split <;> omega
  · unfold fraction
    rw [hbits]
    split <;> omega

theorem isNaN_ofInt {i : Int} (hlt : i.natAbs < 2 ^ 53) : (ofInt i).isNaN = false := by
  by_cases hi : i = 0
  · subst hi
    decide
  · obtain ⟨-, hexp, -⟩ := fields_ofInt hi hlt
    have he : i.natAbs.log2 < 53 := (Nat.log2_lt (Int.natAbs_ne_zero.mpr hi)).mpr hlt
    unfold isNaN
    rw [hexp, beq_eq_false_iff_ne.mpr (by omega), Bool.false_and]

theorem units_ofInt {i : Int} (hlt : i.natAbs < 2 ^ 53) : (ofInt i).units = i * one := by
  by_cases hi : i = 0
  · subst hi
    rw [Int.zero_mul]
    decide
  · obtain ⟨hneg, hexp, hfrac⟩ := fields_ofInt hi hlt
    have he : i.natAbs.log2 < 53 := (Nat.log2_lt (Int.natAbs_ne_zero.mpr hi)).mpr hlt
    have hmag : (ofInt i).magnitude = i.natAbs * one := by
      unfold magnitude
      rw [if_neg (by omega), hfrac, hexp, Nat.mul_assoc, two_pow_mul_two_pow (by unfold unitExponent; omega)]
    unfold units
    rw [hneg, hmag]
    push_cast
    by_cases hlt0 : i < 0
    · rw [if_pos (decide_eq_true hlt0), abs_of_neg hlt0, neg_mul, neg_neg]
    · rw [if_neg (by simpa using hlt0), abs_of_nonneg (not_lt.mp hlt0)]

theorem units_ofInt_div {i : Int} (hlt : i.natAbs < 2 ^ 53) : (ofInt i).units / one = i := by
  rw [units_ofInt hlt]
  exact Int.mul_ediv_cancel i (by exact_mod_cast one_pos.ne')

/-- An `int` that equals the number is the one found. -/
theorem units_div_of_eq {d : Binary64} {i : Int} (hlt : i.natAbs < 2 ^ 53)
    (h : eq (ofInt i) d = true) : d.units / one = i := by
  rw [← (eq_iff.mp h).2.2, units_ofInt_div hlt]

/-- `(lua_Number)x == n` holds for the `int` `x` that is found, and for no other. -/
theorem int32?_eq_some {d : Binary64} {i : Int} :
    d.int32? = some i ↔ -2 ^ 31 ≤ i ∧ i < 2 ^ 31 ∧ eq (ofInt i) d = true := by
  unfold int32?
  constructor
  · intro h
    obtain ⟨hcond, heq⟩ := Option.ite_none_right_eq_some.mp h
    cases heq
    exact hcond
  · rintro ⟨hlo, hhi, h⟩
    have hquot := units_div_of_eq (by omega) h
    rw [hquot]
    exact if_pos ⟨hlo, hhi, h⟩

theorem int32?_ofInt {i : Int} (hlo : -2 ^ 31 ≤ i) (hhi : i < 2 ^ 31) :
    (ofInt i).int32? = some i :=
  int32?_eq_some.mpr ⟨hlo, hhi, eq_refl (isNaN_ofInt (by omega))⟩

/-- Equal numbers equal the same `int`. -/
theorem int32?_congr {a b : Binary64} (h : eq a b = true) : a.int32? = b.int32? := by
  ext i
  rw [int32?_eq_some, int32?_eq_some]
  exact ⟨fun ⟨hlo, hhi, heq⟩ => ⟨hlo, hhi, eq_trans heq h⟩,
    fun ⟨hlo, hhi, heq⟩ => ⟨hlo, hhi, eq_trans heq (eq_symm h)⟩⟩

theorem toInt_ofInt (overflow : Binary64 → Int) {i : Int} (hlo : -2 ^ 31 ≤ i) (hhi : i < 2 ^ 31) :
    (ofInt i).toInt overflow = i := by
  have htrunc : (ofInt i).trunc = i := by
    unfold trunc
    rw [units_ofInt (by omega)]
    exact Int.mul_tdiv_cancel i (by exact_mod_cast one_pos.ne')
  unfold toInt
  rw [htrunc, if_pos ⟨isNaN_ofInt (by omega), hlo, hhi⟩]

/-! ## Eight bytes -/

def toBytes (d : Binary64) : List UInt8 := leBytes 8 d.bits.toNat

def ofBytes (bs : List UInt8) : Binary64 := ⟨UInt64.ofNat (leNat bs)⟩

theorem ofBytes_toBytes (d : Binary64) : ofBytes d.toBytes = d := by
  unfold ofBytes toBytes
  have hlt : d.bits.toNat < 256 ^ 8 := d.bits.toNat_lt
  rw [leNat_leBytes, Nat.mod_eq_of_lt hlt, UInt64.ofNat_toNat]

end Binary64

end ZServer.Lib
