/-
  ZServer.Seri.Unpack

  `_luaseri_unpack`: a cursor on the buffer, with the C integers that move it, and the
  stacks and the memory that it takes.  Functions that recurse through `_unpack_one`
  take it as the argument `one`, for the fuel that is left below them.

  A table stays on the Lua stack while its elements are read, a key while its value is;
  only the loop of `_luaseri_unpack` requests slots.  Memory is asked for where a table
  announces a size; what strings and entries take is bounded by the stream and is left
  out.
-/

import ZServer.Seri.Format
import ZServer.Seri.LuaStack

namespace ZServer.Seri

open Lib

-- ============================================================================
-- The host
-- ============================================================================

/-- What the functions run on. -/
structure Host where
  /-- the `int` that a double out of range is converted to -/
  overflow : Binary64 → Int
  /-- the slots of the Lua stack above the arguments of a call -/
  slots : Nat
  /-- the slots above the top that `lua_checkstack` gives in a round, if it succeeds -/
  requests : Nat → Option Nat
  /-- whether the C stack has room inside so many tables, with an array of so many bytes -/
  cstack : Nat → Nat → Bool
  /-- whether there is memory for an array part of this size -/
  memory : Nat → Bool

namespace Host

/-- How many slots there are for a call with `nargs` arguments before round `i`. -/
def frameTop (host : Host) (nargs : Nat) : Nat → Nat
  | 0 => nargs + host.slots
  | i + 1 =>
      if i % 16 = 15 then
        (host.requests i).elim (host.frameTop nargs i) fun n => max (host.frameTop nargs i) (i + n)
      else host.frameTop nargs i

/-- What there is for a call with `nargs` arguments. -/
def Grants (host : Host) (nargs : Nat) : Demand → Prop
  | .slot round used => used < host.frameTop nargs (round + 1)
  | .frames depth len => host.cstack depth len = true
  | .array size => size = 0 ∨ host.memory size = true
  | .length len => len < 2 ^ 31

instance (host : Host) (nargs : Nat) : DecidablePred (host.Grants nargs)
  | .slot _ _ => inferInstanceAs (Decidable (_ < _))
  | .frames _ _ => inferInstanceAs (Decidable (_ = true))
  | .array _ => inferInstanceAs (Decidable (_ ∨ _))
  | .length _ => inferInstanceAs (Decidable (_ < _))

end Host

-- ============================================================================
-- The cursor
-- ============================================================================

/-- A call of `rb_read`: where it found the cursor, and whether it gave bytes. -/
structure Read where
  ptr : Int
  remaining : Int
  sz : Int
  success : Bool
  deriving DecidableEq, Repr

/-- `struct read_block` on a buffer. -/
structure ReadBlock where
  buffer : List UInt8
  /-- the bytes that are left -/
  len : Int
  ptr : Int
  /-- history: the calls of `rb_read` -/
  reads : List Read
  /-- history: where the values that have been read begin and end -/
  values : List (Int × Int)

inductive UnpackError where
  /-- `"Invalid serialize stream %d (line:%d)"` -/
  | invalidStream (len : Int) (line : Nat)
  /-- `"table index is NaN"` -/
  | indexIsNaN
  /-- `lua_pushlstring` of a negative length, as a `size_t`: there is no such string -/
  | stringSize (len : Int)
  /-- a value is written beyond the slots of the Lua stack -/
  | luaStack
  /-- the C stack overflows -/
  | cStack
  /-- `"not enough memory"` -/
  | memory
  | fuel
  deriving DecidableEq, Repr

structure Frame where
  rb : ReadBlock
  stack : LuaStack

abbrev Unpack (α : Type) := EStateM UnpackError Frame α

def rballInit (buffer : List UInt8) (size : Int) : ReadBlock :=
  { buffer := buffer, len := size, ptr := 0, reads := [], values := [] }

/-- `rb_read`; a pointer is the bytes that follow it. -/
def rbRead (sz : Int) : Unpack (Option (List UInt8)) := fun f =>
  let rb := f.rb
  if rb.len < sz then
    .ok none { f with rb := { rb with reads := rb.reads ++ [⟨rb.ptr, rb.len, sz, false⟩] } }
  else
    .ok (some ((rb.buffer.drop rb.ptr.toNat).take sz.toNat))
      { f with rb := { rb with
          ptr := rb.ptr + sz, len := rb.len - sz
          reads := rb.reads ++ [⟨rb.ptr, rb.len, sz, true⟩] } }

def invalidStream {α : Type} (line : Nat) : Unpack α := fun f =>
  .error (.invalidStream f.rb.len line) f

/-- A read that must succeed. -/
def readOr (sz : Int) (line : Nat) : Unpack (List UInt8) := do
  match ← rbRead sz with
  | none => invalidStream line
  | some bs => pure bs

/-- A value has been read that begins at `start`. -/
def valueRead (start : Int) : Unpack Unit := fun f =>
  .ok () { f with rb := { f.rb with values := f.rb.values ++ [(start, f.rb.ptr)] } }

-- ============================================================================
-- The stacks
-- ============================================================================

/-- A value goes on the Lua stack. -/
def pushed (o : Obj) : Unpack Obj := fun f =>
  match f.stack.push with
  | some stack => .ok o { f with stack := stack }
  | none => .error .luaStack f

/-- `lua_pop`, or the pops of another function. -/
def popped (n : Nat) : Unpack Unit := fun f => .ok () { f with stack := f.stack.pop n }

/-- The frames of the functions that read a value inside `depth` tables, with an array of
    `len` bytes; of a negative length nothing is known. -/
def frames (host : Host) (depth : Nat) (len : Int) : Unpack Unit := fun f =>
  if host.cstack depth len.toNat then .ok () f else .error .cStack f

/-- `lua_createtable` pushes the table, and then makes room in it. -/
def createtable (host : Host) (narray : Int) : Unpack Unit := do
  let _ ← pushed (.table [])
  if 0 < narray ∧ host.memory narray.toNat = false then throw .memory

/-- `lua_pushlstring` of `len` as a `size_t`. -/
def pushlstring (p : List UInt8) (len : Int) : Unpack Obj :=
  if len < 0 then throw (.stringSize len) else pushed (.string p)

-- ============================================================================
-- Scalars
-- ============================================================================

/-- `_get_integer` -/
def getInteger : Nat → Unpack Int
  | 0 => pure 0
  | 1 => do return (leNat (← readOr 1 381) : Int)
  | 2 => do return (leNat (← readOr 2 388) : Int)
  | 4 => do return intOf (leNat (← readOr 4 395))
  | _ => invalidStream 399

/-- `_get_number` -/
def getNumber (cookie : Nat) : Unpack Binary64 :=
  if cookie = 8 then do return Binary64.ofBytes (← readOr 8 409)
  else do return Binary64.ofInt (← getInteger cookie)

/-- `_get_pointer` -/
def getPointer : Unpack UInt64 := do return UInt64.ofNat (leNat (← readOr 8 420))

section

variable (host : Host)

/-- `_get_buffer` -/
def getBuffer (depth : Nat) (len : Int) : Unpack Obj := do
  -- `char tmp[len]`, before the length is compared with what is left
  frames host depth len
  let p ← readOr len 429
  pushlstring p len

/-- The case of `TYPE_LONG_STRING`. -/
def getLongString (depth cookie : Nat) : Unpack Obj :=
  if cookie = 2 then do getBuffer host depth (leNat (← readOr 2 484))
  else if cookie ≠ 4 then invalidStream 489
  else do getBuffer host depth (intOf (leNat (← readOr 4 493)))

-- ============================================================================
-- Values
-- ============================================================================

variable (one : Unpack Obj)

/-- The size of the array part. -/
def getArraySize (cookie : Nat) : Unpack Int :=
  if cookie = MAX_COOKIE - 1 then do
    let t := leNat (← readOr 1 441)
    if t % 8 ≠ TYPE_NUMBER then invalidStream 441
    else do return (← getNumber (t / 8)).toInt host.overflow
  else pure cookie

/-- `for (i=1;i<=array_size;i++)`, with so many rounds left; `lua_rawseti` pops the value. -/
def unpackArray : Nat → Int → List (Obj × Obj) → Unpack (List (Obj × Obj))
  | 0, _, t => pure t
  | n + 1, i, t => do
      let v ← one
      popped 1
      unpackArray n (i + 1) (rawseti t i v)

/-- `lua_rawset` pops the key and the value. -/
def unpackHash : Nat → List (Obj × Obj) → Unpack (List (Obj × Obj))
  | 0, _ => throw .fuel
  | fuel + 1, t => do
      let k ← one
      if k.isNil then do
        popped 1
        return t
      else do
        let v ← one
        if k.isNaN then throw .indexIsNaN
        else do
          popped 2
          unpackHash fuel (rawset t k v)

/-- `_unpack_table` -/
def unpackTable (depth fuel cookie : Nat) : Unpack Obj := do
  frames host (depth + 1) 0
  let arraySize ← getArraySize host cookie
  createtable host arraySize
  let t ← unpackArray one arraySize.toNat 1 []
  let t ← unpackHash one fuel t
  return .table t

/-- `_push_value` -/
def pushValue (depth fuel : Nat) : Nat × Nat → Unpack Obj
  | (0, _) => pushed .nil
  | (1, cookie) => pushed (.boolean (cookie ≠ 0))
  | (2, cookie) => do pushed (.number (← getNumber cookie))
  | (3, _) => do pushed (.lightuserdata (← getPointer))
  | (4, cookie) => getBuffer host depth cookie
  | (5, cookie) => getLongString host depth cookie
  | (6, cookie) => unpackTable host one depth fuel cookie
  | _ => invalidStream 504

end

/-- `_unpack_one`, inside `depth` tables -/
def unpackOne (host : Host) : Nat → Nat → Unpack Obj
  | 0, _ => throw .fuel
  | fuel + 1, depth => do
      let start := (← get).rb.ptr
      let t := leNat (← readOr 1 514)
      let o ← pushValue host (unpackOne host fuel (depth + 1)) depth fuel (t % 8, t / 8)
      valueRead start
      return o

/-- `lua_checkstack(L, i)` in every sixteenth round. -/
def request (host : Host) (i : Nat) : Unpack Unit := fun f =>
  .ok () (if i % 16 = 15 then
    (host.requests i).elim f fun n => { f with stack := f.stack.checkstack n } else f)

/-- The loop of `_luaseri_unpack`, from round `i` on. -/
def unpackAll (host : Host) : Nat → Nat → Unpack (List Obj)
  | 0, _ => throw .fuel
  | fuel + 1, i => do
      request host i
      let start := (← get).rb.ptr
      match ← rbRead 1 with
      | none => pure []
      | some bs =>
          let t := leNat bs
          let o ← pushValue host (unpackOne host fuel 1) 0 fuel (t % 8, t / 8)
          valueRead start
          return o :: (← unpackAll host fuel (i + 1))

/-- `_luaseri_unpack`, called with `nargs` arguments; as much fuel as there are bytes is
    enough. -/
def luaseriUnpack (host : Host) (nargs : Nat) (buffer : List UInt8) (len : Int) :
    EStateM.Result UnpackError Frame (List Obj) :=
  let stack := LuaStack.enter nargs host.slots
  if len = 0 then .ok [] ⟨rballInit buffer len, stack⟩
  else unpackAll host (buffer.length + 1) 0 ⟨rballInit buffer len, stack.clear⟩

end ZServer.Seri
