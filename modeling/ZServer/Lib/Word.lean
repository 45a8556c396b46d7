/-
  ZServer.Lib.Word

  Fixed-width C integers as natural numbers with explicit wrap-around, and the
  little-endian layout of 32-bit values in memory.
-/

import Mathlib.Data.Nat.ModEq
import Mathlib.Data.List.Basic

namespace ZServer.Lib

/-! ## `uint32_t` and `int` -/

/-- A value stored in a `uint32_t`. -/
def u32 (n : Nat) : Nat := n % 2 ^ 32

/-- `a - b` on `uint32_t`. -/
def u32Sub (a b : Nat) : Nat := (a + (2 ^ 32 - b)) % 2 ^ 32

/-- The bits of a `uint32_t` read as an `int` and converted to `size_t`:
    a negative `int` becomes a number close to `2 ^ 64`. -/
def intToSize (n : Nat) : Nat := if n < 2 ^ 31 then n else n + (2 ^ 64 - 2 ^ 32)

/-- The bits of a `uint32_t` as an `int`. -/
def intOf (n : Nat) : Int := if n < 2 ^ 31 then n else n - 2 ^ 32

/-- The bits of an `int` that a value is converted to. -/
def int32Bits (i : Int) : Nat := (i % 2 ^ 32).toNat

theorem u32_of_lt {n : Nat} (h : n < 2 ^ 32) : u32 n = n := Nat.mod_eq_of_lt h

theorem u32_lt (n : Nat) : u32 n < 2 ^ 32 := Nat.mod_lt _ (by decide)

theorem u32Sub_of_le {a b : Nat} (hba : b ≤ a) (ha : a < 2 ^ 32) : u32Sub a b = a - b := by
  unfold u32Sub
  omega

theorem int32Bits_lt (i : Int) : int32Bits i < 2 ^ 32 := by
  unfold int32Bits
  omega

theorem intOf_int32Bits {i : Int} (hlo : -2 ^ 31 ≤ i) (hhi : i < 2 ^ 31) :
    intOf (int32Bits i) = i := by
  unfold intOf int32Bits
  omega

/-! ## Little-endian layout -/

/-- The `k` low bytes of `n`, the lowest first. -/
def leBytes : Nat → Nat → List UInt8
  | 0, _ => []
  | k + 1, n => UInt8.ofNat n :: leBytes k (n / 256)

/-- The number whose bytes these are. -/
def leNat : List UInt8 → Nat
  | [] => 0
  | b :: bs => b.toNat + 256 * leNat bs

@[simp] theorem length_leBytes (k n : Nat) : (leBytes k n).length = k := by
  induction k generalizing n with
  | zero => rfl
  | succ k ih =>
      unfold leBytes
      rw [List.length_cons, ih]

theorem leNat_leBytes (k n : Nat) : leNat (leBytes k n) = n % 256 ^ k := by
  induction k generalizing n with
  | zero =>
      rw [Nat.pow_zero, Nat.mod_one]
      rfl
  | succ k ih =>
      unfold leBytes leNat
      -- the low byte, and the rest above it
      rw [ih, Nat.pow_succ', Nat.mod_mul]
      rfl

theorem leNat_lt (bs : List UInt8) : leNat bs < 256 ^ bs.length := by
  induction bs with
  | nil => exact Nat.one_pos
  | cons b bs ih =>
      unfold leNat
      rw [List.length_cons, Nat.pow_succ]
      have hb := b.toNat_lt
      omega

/-! ## Residues -/

/-- Within a window of `n` numbers the residue modulo `n` determines the number. -/
theorem eq_of_mod_eq_of_window {n lo a b : Nat} (ha : lo ≤ a) (ha' : a < lo + n) (hb : lo ≤ b)
    (hb' : b < lo + n) (h : a % n = b % n) : a = b := by
  rcases Nat.le_total a b with hab | hba
  · have hz : (b - a) % n = 0 := Nat.sub_mod_eq_zero_of_mod_eq h.symm
    rw [Nat.mod_eq_of_lt (by omega)] at hz
    omega
  · have hz : (a - b) % n = 0 := Nat.sub_mod_eq_zero_of_mod_eq h
    rw [Nat.mod_eq_of_lt (by omega)] at hz
    omega

end ZServer.Lib
