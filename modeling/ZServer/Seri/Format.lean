/-
  ZServer.Seri.Format

  What a stream of `src/lua-seri.c` says, read value by value from its front, with
  no cursor and no C integers; and what reading it asks of the machine: slots on the Lua
  stack, room on the C stack, memory, and lengths that an `int` can hold.

  `decodeOne_within` bounds what is taken: at least one byte a value, so that as
  much fuel as there are bytes is enough.
-/

import ZServer.Lib.Decoder
import ZServer.Seri.Value

namespace ZServer.Seri

open Lib

-- ============================================================================
-- Constants
-- ============================================================================

def TYPE_NIL : Nat := 0

def TYPE_BOOLEAN : Nat := 1

def TYPE_NUMBER : Nat := 2

def TYPE_USERDATA : Nat := 3

def TYPE_SHORT_STRING : Nat := 4

def TYPE_LONG_STRING : Nat := 5

def TYPE_TABLE : Nat := 6

def MAX_COOKIE : Nat := 32

-- ============================================================================
-- Decoding
-- ============================================================================

inductive FormatError where
  | invalid
  /-- a key is not a number -/
  | nanKey
  | fuel
  deriving DecidableEq, Repr

inductive Demand where
  /-- a slot of the Lua stack above `used` others, in a round of `_luaseri_unpack` -/
  | slot (round used : Nat)
  /-- the C stack inside `depth` tables, with an array of `len` bytes -/
  | frames (depth len : Nat)
  /-- memory for the array part of a table -/
  | array (size : Nat)
  /-- an `int` for the length of a string -/
  | length (len : Nat)
  deriving DecidableEq, Repr

/-- Where a value is read: in which round of `_luaseri_unpack`, above how many slots, and
    inside how many tables. -/
structure Place where
  round : Nat
  used : Nat
  depth : Nat

/-- In a table that is read here, above `n` slots more. -/
def Place.inside (p : Place) (n : Nat) : Place := ⟨p.round, p.used + n, p.depth + 1⟩

abbrev Format (α : Type) := Decoder UInt8 Demand FormatError α

namespace Format

def bytes (n : Nat) : Format (List UInt8) := Decoder.take .invalid n

/-- An unsigned number of `n` bytes. -/
def unsigned (n : Nat) : Format Nat := leNat <$> bytes n

/-- A type and a cookie. -/
def head : Format (Nat × Nat) := (fun b => (b % 8, b / 8)) <$> unsigned 1

def integer : Nat → Format Int
  | 0 => pure 0
  | 1 => Int.ofNat <$> unsigned 1
  | 2 => Int.ofNat <$> unsigned 2
  | 4 => intOf <$> unsigned 4
  | _ => Plan.fail .invalid

def number (cookie : Nat) : Format Binary64 :=
  if cookie = 8 then Binary64.ofBytes <$> bytes 8 else Binary64.ofInt <$> integer cookie

/-- The length of a long string. -/
def stringLength (cookie : Nat) : Format Nat :=
  if cookie = 2 then unsigned 2 else if cookie = 4 then unsigned 4 else Plan.fail .invalid

/-- A value that has been read goes on the Lua stack. -/
def push (p : Place) (o : Obj) : Format Obj := do
  Plan.ask (.slot p.round p.used)
  return o

/-- The bytes of a string, with room for as many on the C stack. -/
def string (p : Place) (len : Nat) : Format Obj := do
  Plan.ask (.frames p.depth len)
  let s ← bytes len
  push p (.string s)

/-- A table with an array part of this size goes on the Lua stack. -/
def newTable (p : Place) (size : Nat) : Format Unit := do
  Plan.ask (.slot p.round p.used)
  Plan.ask (.array size)

section

variable (overflow : Binary64 → Int) (one : Place → Format Obj)

def arraySize (cookie : Nat) : Format Int :=
  if cookie = MAX_COOKIE - 1 then do
    let (type, cookie) ← head
    if type = TYPE_NUMBER then (·.toInt overflow) <$> number cookie else Plan.fail .invalid
  else pure cookie

def array (p : Place) : Nat → Int → List (Obj × Obj) → Format (List (Obj × Obj))
  | 0, _, t => pure t
  | n + 1, i, t => do
      let v ← one (p.inside 1)
      array p n (i + 1) (rawseti t i v)

/-- A value is read above its key. -/
def hash (p : Place) : Nat → List (Obj × Obj) → Format (List (Obj × Obj))
  | 0, _ => Plan.fail .fuel
  | fuel + 1, t => do
      let k ← one (p.inside 1)
      if k.isNil then pure t
      else do
        let v ← one (p.inside 2)
        if k.isNaN then Plan.fail .nanKey else hash p fuel (rawset t k v)

def table (p : Place) (fuel cookie : Nat) : Format Obj := do
  Plan.ask (.frames (p.depth + 1) 0)
  let size ← arraySize overflow cookie
  newTable p size.toNat
  let t ← array one p size.toNat 1 []
  .table <$> hash one p fuel t

def value (p : Place) (fuel : Nat) : Nat × Nat → Format Obj
  | (0, _) => push p .nil
  | (1, cookie) => push p (.boolean (cookie ≠ 0))
  | (2, cookie) => do push p (.number (← number cookie))
  | (3, _) => do push p (.lightuserdata (UInt64.ofNat (← unsigned 8)))
  | (4, cookie) => string p cookie
  | (5, cookie) => do
      let len ← stringLength cookie
      Plan.ask (.length len)
      string p len
  | (6, cookie) => table overflow one p fuel cookie
  | _ => Plan.fail .invalid

end

/-- One value; its tables are nested less than `fuel` deep. -/
def decodeOne (overflow : Binary64 → Int) : Nat → Place → Format Obj
  | 0, _ => Plan.fail .fuel
  | fuel + 1, p => do
      let h ← head
      value overflow (decodeOne overflow fuel) p fuel h

/-- All values up to the end of the stream; `i` are on the Lua stack already. -/
def decodeAll (overflow : Binary64 → Int) : Nat → Nat → Format (List Obj)
  | _, 0 => Plan.fail .fuel
  | i, fuel + 1 => fun bs =>
      if bs = [] then ⟨[], .ok ([], [])⟩
      else (do
        let v ← decodeOne overflow (fuel + 1) ⟨i, i, 0⟩
        let vs ← decodeAll overflow (i + 1) fuel
        pure (v :: vs)) bs

-- ============================================================================
-- How much is taken
-- ============================================================================

open Decoder

variable {overflow : Binary64 → Int} {one : Place → Format Obj} {n : Nat} {P : FormatError → Prop}
  (hP : ∀ e, e ≠ .fuel → P e)

theorem push_within (p : Place) (o : Obj) : Within n 0 P (push p o) :=
  (Within.pure o).ask_then _

theorem newTable_within (p : Place) (size : Nat) : Within n 0 P (newTable p size) :=
  (Within.ask _).ask_then _

/-- The elements of the array part take what they take. -/
theorem array_within (hone : ∀ p, Within n 1 P (one p)) (p : Place) (m : Nat) (i : Int)
    (t : List (Obj × Obj)) : Within n 0 P (array one p m i t) := by
  induction m generalizing i t with
  | zero => exact Within.pure t
  | succ m ih =>
      have helem := (hone (p.inside 1)).mono (Nat.le_refl n) (Nat.zero_le 1)
      exact helem.bind_any fun v => ih (i + 1) _

section Within

include hP

theorem bytes_within (k : Nat) : Within n k P (bytes k) :=
  Within.take (hP _ (by decide)) k

theorem unsigned_within (k : Nat) : Within n k P (unsigned k) :=
  (bytes_within hP k).map leNat

theorem head_within : Within n 1 P head := (unsigned_within hP 1).map _

theorem integer_within (cookie : Nat) : Within n 0 P (integer cookie) := by
  unfold integer
  split
  · exact Within.pure 0
  · exact ((unsigned_within hP 1).map _).mono (Nat.le_refl n) (Nat.zero_le 1)
  · exact ((unsigned_within hP 2).map _).mono (Nat.le_refl n) (Nat.zero_le 2)
  · exact ((unsigned_within hP 4).map _).mono (Nat.le_refl n) (Nat.zero_le 4)
  · exact Within.fail (hP _ (by decide))

theorem number_within (cookie : Nat) : Within n 0 P (number cookie) := by
  unfold number
  split
  · exact ((bytes_within hP 8).map _).mono (Nat.le_refl n) (Nat.zero_le 8)
  · exact (integer_within hP cookie).map _

theorem stringLength_within (cookie : Nat) : Within n 0 P (stringLength cookie) := by
  unfold stringLength
  split
  · exact (unsigned_within hP 2).mono (Nat.le_refl n) (Nat.zero_le 2)
  · split
    · exact (unsigned_within hP 4).mono (Nat.le_refl n) (Nat.zero_le 4)
    · exact Within.fail (hP _ (by decide))

theorem string_within (p : Place) (len : Nat) : Within n 0 P (string p len) := by
  apply Within.ask_then
  apply Within.mono _ (Nat.le_refl n) (Nat.zero_le len)
  apply (bytes_within hP len).bind_any
  intro s
  exact push_within p (.string s)

theorem arraySize_within (cookie : Nat) : Within n 0 P (arraySize overflow cookie) := by
  unfold arraySize
  split
  · apply Within.mono _ (Nat.le_refl n) (Nat.zero_le 1)
    apply (head_within hP).bind_any
    rintro ⟨type, cookie⟩
    dsimp only
    split
    · exact (number_within hP cookie).map _
    · exact Within.fail (hP _ (by decide))
  · exact Within.pure _

/-- Every entry of the hash part takes two bytes. -/
theorem hash_within (hone : ∀ p, Within n 1 P (one p)) (p : Place) (fuel : Nat)
    (hfuel : n ≤ fuel ∨ P .fuel) (t : List (Obj × Obj)) : Within n 0 P (hash one p fuel t) := by
  induction fuel generalizing n t with
  | zero =>
      intro bs hbs
      rcases hfuel with hfuel | hfuel
      · omega
      · exact Within.fail hfuel bs hbs
  | succ fuel ih =>
      unfold hash
      apply Within.mono _ (Nat.le_refl n) (Nat.zero_le 1)
      apply (hone (p.inside 1)).bind_any
      intro k
      split
      · exact Within.pure t
      · have hvalue := (hone (p.inside 2)).mono (Nat.sub_le n 1) (Nat.zero_le 1)
        apply hvalue.bind_any
        intro v
        split
        · exact Within.fail (hP _ (by decide))
        · apply ih
          · intro q
            exact (hone q).mono (by omega) (Nat.le_refl 1)
          · rcases hfuel with hfuel | hfuel
            · exact Or.inl (by omega)
            · exact Or.inr hfuel

theorem value_within (hone : ∀ p, Within n 1 P (one p)) (p : Place) (fuel : Nat)
    (hfuel : n ≤ fuel ∨ P .fuel) (h : Nat × Nat) : Within n 0 P (value overflow one p fuel h) := by
  unfold value
  split
  · exact push_within p _
  · exact push_within p _
  · exact (number_within hP _).bind_any fun v => push_within p _
  · have hpointer := (unsigned_within hP 8).mono (Nat.le_refl n) (Nat.zero_le 8)
    exact hpointer.bind_any fun v => push_within p _
  · exact string_within hP p _
  · apply (stringLength_within hP _).bind_any
    intro len
    exact (string_within hP p len).ask_then _
  · apply Within.ask_then
    apply (arraySize_within hP _).bind_any
    intro size
    apply (newTable_within p _).bind_any
    rintro ⟨⟩
    apply (array_within hone p _ _ _).bind_any
    intro t
    exact (hash_within hP hone p fuel hfuel t).map _
  · exact Within.fail (hP _ (by decide))

/-- A value takes at least a byte, and the fuel is enough for as many bytes. -/
theorem decodeOne_within (fuel : Nat) (hfuel : n ≤ fuel ∨ P .fuel) (p : Place) :
    Within n 1 P (decodeOne overflow fuel p) := by
  induction fuel generalizing n p with
  | zero =>
      intro bs hbs
      rcases hfuel with hfuel | hfuel
      · omega
      · exact Within.fail hfuel bs hbs
  | succ fuel ih =>
      have hfuel' : n - 1 ≤ fuel ∨ P .fuel := by
        rcases hfuel with hfuel | hfuel
        · exact Or.inl (by omega)
        · exact Or.inr hfuel
      unfold decodeOne
      apply (head_within hP).bind_any
      intro h
      exact value_within hP (ih hfuel') p fuel hfuel' h

end Within

theorem decodeOne_shrinks {fuel : Nat} {p : Place} {bs rest : List UInt8} {o : Obj}
    (h : (decodeOne overflow fuel p bs).result = .ok (o, rest)) : rest.length < bs.length :=
  (decodeOne_within (n := bs.length + 1) (P := fun _ => True) (fun _ _ => trivial) fuel
    (Or.inr trivial) p bs (Nat.lt_succ_self _)).1 o rest h

theorem decodeOne_fuel {fuel : Nat} {p : Place} {bs : List UInt8} (hlt : bs.length < fuel) :
    (decodeOne overflow fuel p bs).result ≠ .error .fuel := fun h =>
  (decodeOne_within (n := fuel) (P := fun e => e ≠ .fuel) (fun _ he => he) fuel
    (Or.inl (Nat.le_refl fuel)) p bs hlt).2 _ h rfl

/-- As much fuel as there are bytes is enough for the whole stream. -/
theorem decodeAll_fuel {i fuel : Nat} {bs : List UInt8} (hlt : bs.length < fuel) :
    (decodeAll overflow i fuel bs).result ≠ .error .fuel := by
  induction fuel generalizing i bs with
  | zero => omega
  | succ fuel ih =>
      unfold decodeAll
      split
      · rintro ⟨⟩
      · rcases h : decodeOne overflow (fuel + 1) ⟨i, i, 0⟩ bs with ⟨asks, e | ⟨o, rest⟩⟩
        · rw [Plan.bind_of_error h]
          rintro ⟨⟩
          exact decodeOne_fuel hlt (by rw [h])
        · have hrest : rest.length < bs.length := decodeOne_shrinks (by rw [h])
          have hmore : (decodeAll overflow (i + 1) fuel rest).result ≠ .error .fuel :=
            ih (by omega)
          rw [Plan.bind_of_ok h]
          rcases h' : decodeAll overflow (i + 1) fuel rest with ⟨asks', e | ⟨os, rest'⟩⟩
          · rw [Plan.bind_of_error h']
            rintro ⟨⟩
            exact hmore (by rw [h'])
          · rw [Plan.bind_of_ok h']
            rintro ⟨⟩

end Format

end ZServer.Seri
