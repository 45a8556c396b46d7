/-
  ZServer.Net.Unpack

  What `_netunpack` accepts.  It reads the head of a packet and its name before it
  looks at the length that it is given, tells of a body that is too short with
  `true`, and takes the room for the name from the C stack without asking.
-/

import ZServer.Net.NetPack

namespace ZServer

open Lib

-- ============================================================================
-- Packets
-- ============================================================================

/-- The name length of a packet, as an `int32_t`. -/
def packetNameLen (buffer : List UInt8) : Int := intOf (leNat ((buffer.drop 4).take 4))

/-- The head is there, and the name is inside. -/
def WellFormed (buffer : List UInt8) : Prop :=
  8 ≤ buffer.length ∧ 0 ≤ packetNameLen buffer ∧ 8 + packetNameLen buffer ≤ buffer.length

instance : DecidablePred WellFormed := fun buffer => by
  unfold WellFormed
  infer_instance

/-- What `_netunpack` is to do with a message: to return and read nothing past its end,
    and to accept it just in case it is well formed.  Behind it in memory stands `rest`. -/
structure UnpacksRight (stack : Nat) (buffer : List UInt8) : Prop where
  inside : ∃ values, netunpack stack buffer buffer.length = .ok values
  accepts : WellFormed buffer → netunpack stack buffer buffer.length =
    .ok [.boolean true, .integer (intOf (leNat (buffer.take 4))),
      .string ((buffer.drop 8).take (packetNameLen buffer).toNat),
      .lightuserdata (8 + (packetNameLen buffer).toNat),
      .integer (buffer.length - (8 + packetNameLen buffer))]
  rejects : ¬WellFormed buffer → ∀ rest values,
    netunpack stack (buffer ++ rest) buffer.length = .ok values → values.head? = some (.boolean false)

section Unpack

variable {stack : Nat} {buffer : List UInt8}

theorem readBytes_of_le {off n : Nat} (h : off + n ≤ buffer.length) :
    readBytes buffer off n = .ok ((buffer.drop off).take n) := if_pos h

theorem readBytes_inv {off n : Nat} {bs : List UInt8} (h : readBytes buffer off n = .ok bs) :
    bs = (buffer.drop off).take n := by
  unfold readBytes at h
  split at h <;> simp_all

/-- Whatever it returns, `true` comes first. -/
theorem netunpack_true {len : Nat} {values : List LuaValue}
    (h : netunpack stack buffer len = .ok values) :
    values.head? = some (.boolean true) := by
  obtain ⟨seq, nameLen, name, hseq, hnameLen, hroom, hname⟩ := netunpack_returns h
  rw [netunpack_ok len hseq hnameLen hroom hname] at h
  dsimp only at h
  split at h <;> cases h <;> rfl

theorem netunpack_wellFormed (hlen : buffer.length < 2 ^ 31) (h : WellFormed buffer)
    (hroom : packetNameLen buffer + 1 ≤ stack) :
    netunpack stack buffer buffer.length =
      .ok [.boolean true, .integer (intOf (leNat (buffer.take 4))),
        .string ((buffer.drop 8).take (packetNameLen buffer).toNat),
        .lightuserdata (8 + (packetNameLen buffer).toNat),
        .integer (buffer.length - (8 + packetNameLen buffer))] := by
  obtain ⟨hhead, hnatural, hend⟩ := h
  have hbytes : ((buffer.drop 4).take 4).length = 4 := by
    rw [List.length_take, List.length_drop]
    omega
  have hlt := leNat_lt ((buffer.drop 4).take 4)
  rw [hbytes] at hlt
  obtain ⟨n, hn⟩ : ∃ n, leNat ((buffer.drop 4).take 4) = n := ⟨_, rfl⟩
  have hname : packetNameLen buffer = intOf n := congrArg intOf hn
  rw [hn] at hlt
  rw [hname] at hnatural hend hroom ⊢
  -- the length is no negative one
  have hsmall : n < 2 ^ 31 := by
    by_contra hnot
    unfold intOf at hnatural
    rw [if_neg hnot] at hnatural
    omega
  have hint : intOf n = n := if_pos hsmall
  have hsize : intToSize n = n := if_pos hsmall
  rw [hint] at hend ⊢
  have hfits : 2 * 4 + n ≤ buffer.length := by omega
  have hread : readBytes buffer (2 * 4) (intToSize (leNat ((buffer.drop 4).take 4))) =
      .ok ((buffer.drop 8).take n) := by
    rw [hn, hsize]
    exact readBytes_of_le hfits
  rw [netunpack_ok _ (readBytes_of_le (by omega)) (readBytes_of_le (by omega))
    (by rw [hn]; exact hroom) hread, hn, hsize]
  have hheadLen : u32 (2 * 4 + n) = 8 + n := u32_of_lt (by omega)
  have hbody : intOf (u32Sub buffer.length (8 + n)) = buffer.length - (8 + (n : Int)) := by
    rw [u32Sub_of_le (by omega) (by omega)]
    unfold intOf
    rw [if_pos (by omega)]
    omega
  simp only [hheadLen, hbody]
  rw [if_neg (by omega), List.drop_zero, Int.toNat_natCast]

/-- `_netunpack` does what it is to do with the well-formed messages whose name has room
    on the stack, and with no others. -/
theorem netunpack_right_iff (hlen : buffer.length < 2 ^ 31) :
    UnpacksRight stack buffer ↔ WellFormed buffer ∧ packetNameLen buffer + 1 ≤ stack := by
  constructor
  · intro h
    obtain ⟨values, hvalues⟩ := h.inside
    constructor
    · by_contra hnot
      have hfalse := h.rejects hnot [] values (by rw [List.append_nil]; exact hvalues)
      rw [netunpack_true hvalues] at hfalse
      simp at hfalse
    · obtain ⟨-, nameLen, -, -, hnameLen, hroom, -⟩ := netunpack_returns hvalues
      rw [readBytes_inv hnameLen] at hroom
      exact hroom
  · rintro ⟨h, hroom⟩
    have heq := netunpack_wellFormed hlen h hroom
    exact ⟨⟨_, heq⟩, fun _ => heq, fun hnot => absurd h hnot⟩

theorem netunpack_right_name : UnpacksRight 3 [7, 0, 0, 0, 2, 0, 0, 0, 104, 105, 1] :=
  (netunpack_right_iff (by decide)).mpr (by decide)

/-- A name of one byte that is not there: the byte behind the message is read, and the
    answer begins with `true`. -/
theorem netunpack_short : ∃ buffer : List UInt8, buffer.length = 8 ∧ ¬WellFormed buffer ∧
    netunpack (8 * 2 ^ 20) buffer 8 = .error .outOfBounds ∧
    netunpack (8 * 2 ^ 20) (buffer ++ [0]) 8 = .ok [.boolean true, .text "body len error"] ∧
    ¬UnpacksRight (8 * 2 ^ 20) buffer := by
  refine ⟨[7, 0, 0, 0, 1, 0, 0, 0], rfl, by decide, by decide, by decide, fun h => ?_⟩
  obtain ⟨values, hvalues⟩ := h.inside
  cases hvalues

end Unpack

end ZServer
