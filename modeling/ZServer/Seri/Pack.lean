/-
  ZServer.Seri.Pack

  `_luaseri_pack`.  The functions that recurse through `_pack_one` take it as the
  argument `one`, for the levels that are left below them.

  An element of the array part is on the Lua stack while it is packed, a key and its value
  while both are; the loop of `lua_next` has one slot for the key all the time, and takes
  a second one for the values, also of the keys that it skips.  Nothing is requested.

  Lua's other types are not serialized; an index on the Lua stack is the value
  there.
-/

import ZServer.Seri.Format
import ZServer.Seri.LuaStack
import ZServer.Seri.WriteBlock

namespace ZServer.Seri

open Lib

-- ============================================================================
-- Scalars
-- ============================================================================

/-- The low byte of `COMBINE_TYPE(t, v)`. -/
def combineType (t : Nat) (v : Int) : UInt8 := UInt8.ofNat (t ||| (v % 32).toNat <<< 3)

def wbNil (wb : WriteBlock) : WriteBlock := wbPush wb [UInt8.ofNat TYPE_NIL]

def wbBoolean (wb : WriteBlock) (boolean : Bool) : WriteBlock :=
  wbPush wb [combineType TYPE_BOOLEAN (if boolean then 1 else 0)]

def wbInteger (wb : WriteBlock) (v : Int) (type : Nat) : WriteBlock :=
  if v = 0 then wbPush wb [combineType type 0]
  else if v < 0 then wbPush (wbPush wb [combineType type 4]) (leBytes 4 (int32Bits v))
  else if v < 0x100 then wbPush (wbPush wb [combineType type 1]) (leBytes 1 v.toNat)
  else if v < 0x10000 then wbPush (wbPush wb [combineType type 2]) (leBytes 2 v.toNat)
  else wbPush (wbPush wb [combineType type 4]) (leBytes 4 (int32Bits v))

def wbNumber (wb : WriteBlock) (v : Binary64) : WriteBlock :=
  wbPush (wbPush wb [combineType TYPE_NUMBER 8]) v.toBytes

def wbPointer (wb : WriteBlock) (v : UInt64) : WriteBlock :=
  wbPush (wbPush wb [UInt8.ofNat TYPE_USERDATA]) (leBytes 8 v.toNat)

def wbString (wb : WriteBlock) (str : List UInt8) (len : Int) : WriteBlock :=
  if len < MAX_COOKIE then
    let wb := wbPush wb [combineType TYPE_SHORT_STRING len]
    if 0 < len then wbPush wb (str.take len.toNat) else wb
  else
    let wb :=
      if len < 0x10000 then
        wbPush (wbPush wb [combineType TYPE_LONG_STRING 2]) (leBytes 2 len.toNat)
      else wbPush (wbPush wb [combineType TYPE_LONG_STRING 4]) (leBytes 4 len.toNat)
    wbPush wb (str.take len.toNat)

-- ============================================================================
-- Tables
-- ============================================================================

inductive PackError where
  /-- `"serialize can't pack too depth table"` -/
  | tooDepth
  /-- a value is written beyond the slots of the Lua stack -/
  | luaStack
  /-- the chain of blocks ends before the length in its header -/
  | lostBlock
  deriving DecidableEq, Repr

structure PackState where
  wb : WriteBlock
  stack : LuaStack

abbrev Pack (α : Type) := EStateM PackError PackState α

/-- What does not touch the Lua stack. -/
def write (f : WriteBlock → WriteBlock) : Pack Unit := fun s => .ok () { s with wb := f s.wb }

/-- A value goes on the Lua stack. -/
def pushSlot : Pack Unit := fun s =>
  match s.stack.push with
  | some stack => .ok () { s with stack := stack }
  | none => .error .luaStack s

def popSlot : Pack Unit := fun s => .ok () { s with stack := s.stack.pop 1 }

def MAX_DEPTH : Nat := 32

/-- The type byte, and the size when it does not fit. -/
def wbArraySize (wb : WriteBlock) (arraySize : Nat) : WriteBlock :=
  if MAX_COOKIE - 1 ≤ arraySize then
    wbInteger (wbPush wb [combineType TYPE_TABLE (MAX_COOKIE - 1 : Nat)]) arraySize TYPE_NUMBER
  else wbPush wb [combineType TYPE_TABLE arraySize]

/-- The keys that `wb_table_hash` skips. -/
def inArray (arraySize : Nat) : Value → Bool
  | .number n =>
      match n.int32? with
      | some x => decide (0 < x ∧ x ≤ arraySize)
      | none => false
  | _ => false

section

variable (one : Value → Pack Unit)

def wbTableArray (t : LuaTable) : Pack Unit := do
  write (wbArraySize · t.border)
  (List.range' 1 t.border).forM fun i => do
    -- `lua_rawgeti`
    pushSlot
    one (t.rawgeti i)
    popSlot

/-- `lua_next` puts the key in the place of the one before, and pushes the value. -/
def wbTableHash (t : LuaTable) (arraySize : Nat) : Pack Unit := do
  -- `lua_pushnil`
  pushSlot
  t.entries.forM fun e => do
    pushSlot
    if inArray arraySize e.1 then popSlot
    else do
      one e.1
      one e.2
      popSlot
  -- the last call of `lua_next` pops the key
  popSlot
  write wbNil

def wbTable (t : LuaTable) : Pack Unit := do
  wbTableArray one t
  wbTableHash one t t.border

end

/-- `_pack_one` at depth `MAX_DEPTH + 1 - levels`. -/
def packOne (h : Heap) : Nat → Value → Pack Unit
  | 0, _ => throw .tooDepth
  | _ + 1, .nil => write wbNil
  | _ + 1, .number n =>
      match n.int32? with
      | some x => write (wbInteger · x TYPE_NUMBER)
      | none => write (wbNumber · n)
  | _ + 1, .boolean b => write (wbBoolean · b)
  | _ + 1, .string s => write (wbString · s (intOf (u32 s.length)))
  | _ + 1, .lightuserdata p => write (wbPointer · p)
  | levels + 1, .table ref => wbTable (packOne h levels) (h ref)

/-- `_pack_from(L, b, 0)` -/
def packFrom (h : Heap) (vs : List Value) : Pack Unit := vs.forM (packOne h (MAX_DEPTH + 1))

/-- `wb_close` and `_seri`, which pushes the buffer and its size. -/
def packClose : Pack (List UInt8 × Int) := do
  match seri (wbClose (← get).wb) with
  | none => throw .lostBlock
  | some r => do
      pushSlot
      pushSlot
      return r

/-- The buffer and its size; the values are the arguments of the call, above which it has
    so many slots. -/
def luaseriPack (slots : Nat) (h : Heap) (vs : List Value) : Except PackError (List UInt8 × Int) :=
  match (packFrom h vs >>= fun _ => packClose) ⟨wbInit, .enter vs.length slots⟩ with
  | .ok r _ => .ok r
  | .error e _ => .error e

-- ============================================================================
-- How deep values are nested, and how much they take
-- ============================================================================

/-- `v` is reached from `vs` at nesting depth `d`: a value of the list at depth 0,
    an element of the array part, a key or a value of a table one deeper. -/
inductive Reached (h : Heap) (vs : List Value) : Nat → Value → Prop where
  | top {v : Value} (hv : v ∈ vs) : Reached h vs 0 v
  | item {d ref i : Nat} (ht : Reached h vs d (.table ref)) (hi : i ∈ List.range' 1 (h ref).border) :
      Reached h vs (d + 1) ((h ref).rawgeti i)
  | key {d ref : Nat} {e : Value × Value} (ht : Reached h vs d (.table ref))
      (he : e ∈ (h ref).entries) : Reached h vs (d + 1) e.1
  | value {d ref : Nat} {e : Value × Value} (ht : Reached h vs d (.table ref))
      (he : e ∈ (h ref).entries) : Reached h vs (d + 1) e.2

def TooDeep (h : Heap) (vs : List Value) : Prop := ∃ d v, Reached h vs d v ∧ MAX_DEPTH < d

def integerSize (v : Int) : Nat :=
  if v = 0 then 1 else if v < 0 then 5 else if v < 0x100 then 2 else if v < 0x10000 then 3 else 5

def stringSize (len : Nat) : Nat :=
  1 + (if len < MAX_COOKIE then 0 else if len < 0x10000 then 2 else 4) + len

/-- The entries that `wb_table_hash` does not skip. -/
def LuaTable.hashPart (t : LuaTable) : List (Value × Value) :=
  t.entries.filter fun e => !inArray t.border e.1

/-- The encoded size of a value, down to `levels` levels. -/
def valueSize (h : Heap) : Nat → Value → Nat
  | 0, _ => 0
  | _ + 1, .nil => 1
  | _ + 1, .boolean _ => 1
  | _ + 1, .number n =>
      match n.int32? with
      | some x => integerSize x
      | none => 9
  | _ + 1, .string s => stringSize s.length
  | _ + 1, .lightuserdata _ => 9
  | levels + 1, .table ref =>
      let t := h ref
      1 + (if MAX_COOKIE - 1 ≤ t.border then integerSize t.border else 0) +
        ((List.range' 1 t.border).map fun i => valueSize h levels (t.rawgeti i)).sum +
        (t.hashPart.map fun e => valueSize h levels e.1 + valueSize h levels e.2).sum + 1

def encodedSize (h : Heap) (vs : List Value) : Nat :=
  (vs.map (valueSize h (MAX_DEPTH + 1))).sum

end ZServer.Seri
