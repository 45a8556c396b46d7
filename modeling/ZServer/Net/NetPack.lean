/-
  ZServer.Net.NetPack

  `net_pack` and `net_unpack` of the Lua library (`lualib-src/lua-z.c`).  A
  packet is a frame whose body is a message: `int32 seq`, `int32 nameLen`, the
  name and the rest, all lengths little-endian.

  A pointer with a length is the list of the bytes it points to; a light
  userdata that points into such a list is an offset.  `net_unpack` keeps the name
  in a local array: how many bytes the stack of its thread has left for that array is
  a parameter.
-/

import ZServer.Buffer.Basic

namespace ZServer

open Lib

-- ============================================================================
-- Lua values
-- ============================================================================

/-- What the two functions return to Lua. -/
inductive LuaValue where
  | boolean (b : Bool)
  | integer (i : Int)
  | string (bytes : List UInt8)
  | lightuserdata (offset : Nat)
  deriving DecidableEq, Repr

/-- `lua_pushstring` of an ASCII literal. -/
def LuaValue.text (s : String) : LuaValue := .string (s.toList.map fun c => UInt8.ofNat c.toNat)

-- ============================================================================
-- `_netpack` and `_netunpack`
-- ============================================================================

/-- `_netpack`: the packet, which has the length that is returned with it. -/
def netpack (seq : Int) (name buffer : List UInt8) : Except Fault (List UInt8) := do
  let nameLen := name.length
  let bufferLen := buffer.length
  let len := u32 (nameLen + 2 * 4 + bufferLen)
  -- `len + sizeof(int32_t)` is a `size_t`
  let size := (intToSize len + 4) % 2 ^ 64
  if 2 ^ 63 ≤ size then throw .outOfMemory
  let body ← memcpy (some (zmalloc size)) 0 (leBytes 4 len)
  let body ← memcpy body 4 (leBytes 4 (int32Bits seq))
  let body ← memcpy body (2 * 4) (leBytes 4 nameLen)
  let body ← memcpy body (3 * 4) name
  let body ← memcpy body (3 * 4 + nameLen) buffer
  return body.getD []

/-- The source of a `memcpy`: `n` bytes of the message from `off` on. -/
def readBytes (buffer : List UInt8) (off n : Nat) : Except Fault (List UInt8) :=
  if off + n ≤ buffer.length then .ok ((buffer.drop off).take n) else .error .outOfBounds

/-- `_netunpack` on a message of `len` bytes. -/
def netunpack (stack : Nat) (buffer : List UInt8) (len : Nat) : Except Fault (List LuaValue) := do
  let seq ← readBytes buffer 0 4
  let nameLen := leNat (← readBytes buffer 4 4)
  -- `char name[nameLen + 1]`
  if (stack : Int) < intOf nameLen + 1 then throw .stackOverflow
  -- a negative `nameLen` is an enormous `size_t`
  let name ← readBytes buffer (2 * 4) (intToSize nameLen)
  let headLen := u32 (2 * 4 + intToSize nameLen)
  let bodyLen := intOf (u32Sub len headLen)
  if bodyLen < 0 then return [.boolean true, .text "body len error"]
  return [.boolean true, .integer (intOf (leNat seq)), .string name, .lightuserdata headLen,
    .integer bodyLen]

-- ============================================================================
-- The bytes of a packet
-- ============================================================================

/-- Bytes copied behind what has been written move the border on. -/
theorem memcpy_append {written bs : List UInt8} {off n : Nat} (hoff : off = written.length)
    (h : bs.length ≤ n) :
    memcpy (some (written ++ zmalloc n)) off bs =
      .ok (some (written ++ bs ++ zmalloc (n - bs.length))) := by
  subst hoff
  unfold memcpy zmalloc
  dsimp only
  rw [if_pos]
  · rw [List.take_left, List.drop_append, List.drop_of_length_le (Nat.le_add_right _ _),
      Nat.add_sub_cancel_left, List.drop_replicate, List.nil_append]
  · rw [List.length_append, List.length_replicate]
    omega

/-- The packet of a message: the length of the rest, and the message. -/
def packet (seq : Int) (name buffer : List UInt8) : List UInt8 :=
  leBytes 4 (name.length + 2 * 4 + buffer.length) ++ leBytes 4 (int32Bits seq) ++
    leBytes 4 name.length ++ name ++ buffer

/-- As long as the length fits an `int32_t`, the block is filled to its end. -/
theorem netpack_eq (seq : Int) {name buffer : List UInt8}
    (h : name.length + 2 * 4 + buffer.length < 2 ^ 31) :
    netpack seq name buffer = .ok (packet seq name buffer) := by
  have hlen : u32 (name.length + 2 * 4 + buffer.length) = name.length + 2 * 4 + buffer.length :=
    u32_of_lt (Nat.lt_trans h (by decide))
  have hsize : (intToSize (name.length + 2 * 4 + buffer.length) + 4) % 2 ^ 64 =
      name.length + 2 * 4 + buffer.length + 4 := by
    unfold intToSize
    rw [if_pos h]
    omega
  -- what is left of the block after each of the copies
  have hleft₂ : name.length + 2 * 4 + buffer.length - 4 = name.length + 4 + buffer.length := by omega
  have hleft₃ : name.length + 4 + buffer.length - 4 = name.length + buffer.length := by omega
  have hleft₄ : name.length + buffer.length - name.length = buffer.length := by omega
  have hlength := @memcpy_append [] (leBytes 4 (name.length + 2 * 4 + buffer.length)) 0
    (name.length + 2 * 4 + buffer.length + 4) rfl (by rw [length_leBytes]; omega)
  have hseq := @memcpy_append (leBytes 4 (name.length + 2 * 4 + buffer.length))
    (leBytes 4 (int32Bits seq)) 4 (name.length + 2 * 4 + buffer.length)
    (length_leBytes ..).symm (by rw [length_leBytes]; omega)
  have hnameLen := @memcpy_append
    (leBytes 4 (name.length + 2 * 4 + buffer.length) ++ leBytes 4 (int32Bits seq))
    (leBytes 4 name.length) (2 * 4) (name.length + 4 + buffer.length)
    (by rw [List.length_append, length_leBytes, length_leBytes]) (by rw [length_leBytes]; omega)
  have hname := @memcpy_append
    (leBytes 4 (name.length + 2 * 4 + buffer.length) ++ leBytes 4 (int32Bits seq) ++
      leBytes 4 name.length) name (3 * 4) (name.length + buffer.length)
    (by simp only [List.length_append, length_leBytes]) (by omega)
  have hbuffer := @memcpy_append
    (leBytes 4 (name.length + 2 * 4 + buffer.length) ++ leBytes 4 (int32Bits seq) ++
      leBytes 4 name.length ++ name) buffer (3 * 4 + name.length) buffer.length
    (by simp only [List.length_append, length_leBytes]) (Nat.le_refl _)
  rw [List.nil_append, List.nil_append, length_leBytes, Nat.add_sub_cancel] at hlength
  rw [length_leBytes, hleft₂] at hseq
  rw [length_leBytes, hleft₃] at hnameLen
  rw [hleft₄] at hname
  rw [Nat.sub_self] at hbuffer
  unfold netpack
  simp only [hlen, hsize, hlength, hseq, hnameLen, hname, hbuffer, bind, Except.bind, pure,
    Except.pure]
  rw [if_neg (by omega), Option.getD_some, show zmalloc 0 = [] from rfl, List.append_nil]
  rfl

-- ============================================================================
-- The bytes of a message
-- ============================================================================

/-- What `_netpack` puts into a frame. -/
def packetBody (seq : Int) (name buffer : List UInt8) : List UInt8 :=
  leBytes 4 (int32Bits seq) ++ leBytes 4 name.length ++ name ++ buffer

theorem packet_eq (seq : Int) (name buffer : List UInt8) :
    packet seq name buffer =
      leBytes 4 (packetBody seq name buffer).length ++ packetBody seq name buffer := by
  unfold packet packetBody
  simp only [List.length_append, length_leBytes, List.append_assoc]
  congr 2
  omega

/-- The bytes at the border of what stands before. -/
theorem readBytes_append {before bs after : List UInt8} {off n : Nat} (hoff : off = before.length)
    (hn : n = bs.length) : readBytes (before ++ bs ++ after) off n = .ok bs := by
  subst hoff hn
  unfold readBytes
  rw [if_pos, List.append_assoc, List.drop_left, List.take_left]
  rw [List.length_append, List.length_append]
  omega

/-- The result when all three reads stay inside the message and the name has room. -/
theorem netunpack_ok {stack : Nat} {buffer seq nameLen name : List UInt8} (len : Nat)
    (hseq : readBytes buffer 0 4 = .ok seq) (hnameLen : readBytes buffer 4 4 = .ok nameLen)
    (hroom : intOf (leNat nameLen) + 1 ≤ stack)
    (hname : readBytes buffer (2 * 4) (intToSize (leNat nameLen)) = .ok name) :
    netunpack stack buffer len =
      let headLen := u32 (2 * 4 + intToSize (leNat nameLen))
      let bodyLen := intOf (u32Sub len headLen)
      if bodyLen < 0 then .ok [.boolean true, .text "body len error"]
      else
        .ok [.boolean true, .integer (intOf (leNat seq)), .string name, .lightuserdata headLen,
          .integer bodyLen] := by
  simp only [netunpack, hseq, hnameLen, hname, if_neg (Int.not_lt.mpr hroom), bind, Except.bind,
    pure, Except.pure]

/-- The name is not even copied. -/
theorem netunpack_overflow {stack : Nat} {buffer seq nameLen : List UInt8} (len : Nat)
    (hseq : readBytes buffer 0 4 = .ok seq) (hnameLen : readBytes buffer 4 4 = .ok nameLen)
    (hover : (stack : Int) < intOf (leNat nameLen) + 1) :
    netunpack stack buffer len = .error .stackOverflow := by
  simp only [netunpack, hseq, hnameLen, if_pos hover, bind, Except.bind, throw, throwThe,
    MonadExceptOf.throw]

/-- A call that returns has made its three reads and had room for the name. -/
theorem netunpack_returns {stack : Nat} {buffer : List UInt8} {len : Nat} {values : List LuaValue}
    (h : netunpack stack buffer len = .ok values) :
    ∃ seq nameLen name, readBytes buffer 0 4 = .ok seq ∧ readBytes buffer 4 4 = .ok nameLen ∧
      intOf (leNat nameLen) + 1 ≤ stack ∧
      readBytes buffer (2 * 4) (intToSize (leNat nameLen)) = .ok name := by
  cases hseq : readBytes buffer 0 4 with
  | error e => simp [netunpack, hseq, bind, Except.bind] at h
  | ok seq =>
      cases hnameLen : readBytes buffer 4 4 with
      | error e => simp [netunpack, hseq, hnameLen, bind, Except.bind] at h
      | ok nameLen =>
          have hroom : intOf (leNat nameLen) + 1 ≤ stack := by
            by_contra hover
            rw [netunpack_overflow len hseq hnameLen (by omega)] at h
            simp at h
          cases hname : readBytes buffer (2 * 4) (intToSize (leNat nameLen)) with
          | error e =>
              simp [netunpack, hseq, hnameLen, hname, Int.not_lt.mpr hroom, bind, Except.bind] at h
          | ok name => exact ⟨seq, nameLen, name, rfl, rfl, hroom, hname⟩

-- ============================================================================
-- What `_netpack` has written
-- ============================================================================

section PacketBody

variable (seq : Int) (name buffer : List UInt8)

theorem length_packetBody :
    (packetBody seq name buffer).length = 2 * 4 + name.length + buffer.length := by
  unfold packetBody
  simp only [List.length_append, length_leBytes]

theorem readBytes_seq :
    readBytes (packetBody seq name buffer) 0 4 = .ok (leBytes 4 (int32Bits seq)) := by
  unfold packetBody
  rw [List.append_assoc, List.append_assoc]
  exact @readBytes_append [] _ _ _ _ rfl (length_leBytes ..).symm

theorem readBytes_nameLen :
    readBytes (packetBody seq name buffer) 4 4 = .ok (leBytes 4 name.length) := by
  unfold packetBody
  rw [List.append_assoc]
  exact readBytes_append (length_leBytes ..).symm (length_leBytes ..).symm

theorem readBytes_name : readBytes (packetBody seq name buffer) (2 * 4) name.length = .ok name := by
  unfold packetBody
  apply readBytes_append
  · rw [List.length_append, length_leBytes, length_leBytes]
  · rfl

variable {seq name buffer} (h : 2 * 4 + name.length + buffer.length < 2 ^ 31)

include h in
theorem leNat_nameLen : leNat (leBytes 4 name.length) = name.length := by
  rw [leNat_leBytes]
  omega

include h in
theorem intOf_nameLen : intOf (leNat (leBytes 4 name.length)) = name.length := by
  rw [leNat_nameLen h]
  unfold intOf
  rw [if_pos (by omega)]

include h in
/-- `_netunpack` reads back what `_netpack` has written. -/
theorem netunpack_packetBody {stack : Nat} (hlo : -2 ^ 31 ≤ seq) (hhi : seq < 2 ^ 31)
    (hroom : name.length + 1 ≤ stack) :
    netunpack stack (packetBody seq name buffer) (packetBody seq name buffer).length =
      .ok [.boolean true, .integer seq, .string name, .lightuserdata (2 * 4 + name.length),
        .integer buffer.length] := by
  have hseqBits : leNat (leBytes 4 (int32Bits seq)) = int32Bits seq := by
    have hlt := int32Bits_lt seq
    rw [leNat_leBytes]
    omega
  have hsize : intToSize name.length = name.length := if_pos (by omega)
  have hhead : u32 (2 * 4 + name.length) = 2 * 4 + name.length := u32_of_lt (by omega)
  have hbodyLen : u32Sub (2 * 4 + name.length + buffer.length) (2 * 4 + name.length) =
      buffer.length := by
    rw [u32Sub_of_le (by omega) (by omega)]
    omega
  have hbody : intOf buffer.length = buffer.length := if_pos (by omega)
  have hfits : intOf (leNat (leBytes 4 name.length)) + 1 ≤ stack := by
    rw [intOf_nameLen h]
    omega
  have hname : readBytes (packetBody seq name buffer) (2 * 4)
      (intToSize (leNat (leBytes 4 name.length))) = .ok name := by
    rw [leNat_nameLen h, hsize]
    apply readBytes_name
  rw [netunpack_ok _ (readBytes_seq ..) (readBytes_nameLen ..) hfits hname, leNat_nameLen h, hsize,
    length_packetBody, hhead, hseqBits, intOf_int32Bits hlo hhi]
  dsimp only
  rw [hbodyLen, hbody, if_neg (by omega)]

include h in
/-- A name that the stack has no room for. -/
theorem netunpack_packetBody_overflow {stack : Nat} (hover : stack < name.length + 1) (len : Nat) :
    netunpack stack (packetBody seq name buffer) len = .error .stackOverflow := by
  apply netunpack_overflow len (readBytes_seq ..) (readBytes_nameLen ..)
  rw [intOf_nameLen h]
  omega

end PacketBody

end ZServer
