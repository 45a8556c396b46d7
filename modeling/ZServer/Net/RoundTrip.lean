/-
  ZServer.Net.RoundTrip

  What `_netpack` packs on one side arrives through `headMessageCallback` and
  `_netunpack` on the other, however the network cuts the stream, as long as the
  receiver's stack has room for every name.
-/

import ZServer.Net.NetPack
import ZServer.Net.Proto

namespace ZServer

open Lib

/-- What `net_pack` is called with, when it makes a frame that the other side accepts. -/
structure NetMessage where
  seq : Int
  name : List UInt8
  body : List UInt8
  seq_int32 : -2 ^ 31 ≤ seq ∧ seq < 2 ^ 31
  fits : 8 + name.length + body.length ≤ kMaxMessageLen

def NetMessage.content (m : NetMessage) : Int × List UInt8 × List UInt8 := (m.seq, m.name, m.body)

def NetMessage.pack (m : NetMessage) : Except Fault (List UInt8) := netpack m.seq m.name m.body

/-- `local result, seq, cmd, msg, sz = z.net_unpack(data, sz)`, with the bytes of `msg`. -/
def netUnpack (stack : Nat) (data : List UInt8) : Option (Int × List UInt8 × List UInt8) :=
  match netunpack stack data data.length with
  | .ok [.boolean true, .integer seq, .string cmd, .lightuserdata msg, .integer sz] =>
      some (seq, cmd, (data.drop msg).take sz.toNat)
  | _ => none

-- ============================================================================
-- One message
-- ============================================================================

namespace NetMessage

variable (m : NetMessage)

/-- The frame's body. -/
def frame : List UInt8 := packetBody m.seq m.name m.body

theorem length_frame : m.frame.length = 2 * 4 + m.name.length + m.body.length := by
  unfold frame packetBody
  simp only [List.length_append, length_leBytes]

theorem length_frame_le : m.frame.length ≤ kMaxMessageLen := by
  have hfits := m.fits
  rw [length_frame]
  omega

theorem length_lt : 2 * 4 + m.name.length + m.body.length < 2 ^ 31 := by
  have hfits := m.fits
  unfold kMaxMessageLen at hfits
  omega

theorem pack_eq : m.pack = .ok (leBytes 4 m.frame.length ++ m.frame) := by
  have hlt := m.length_lt
  unfold pack
  rw [netpack_eq m.seq (by omega), packet_eq]
  rfl

theorem netUnpack_frame {stack : Nat} (hroom : m.name.length + 1 ≤ stack) :
    netUnpack stack m.frame = some m.content := by
  unfold netUnpack frame
  rw [netunpack_packetBody m.length_lt m.seq_int32.1 m.seq_int32.2 hroom]
  dsimp only
  -- the body is the rest of the frame
  have hbefore : (leBytes 4 (int32Bits m.seq) ++ leBytes 4 m.name.length ++ m.name).length =
      2 * 4 + m.name.length := by
    simp only [List.length_append, length_leBytes]
  unfold packetBody
  rw [List.drop_left' hbefore, Int.toNat_natCast, List.take_length]
  rfl

theorem netUnpack_frame_overflow {stack : Nat} (hover : stack < m.name.length + 1) :
    netUnpack stack m.frame = none := by
  unfold netUnpack frame
  rw [netunpack_packetBody_overflow m.length_lt hover]

theorem netUnpack_frame_iff {stack : Nat} :
    netUnpack stack m.frame = some m.content ↔ m.name.length + 1 ≤ stack := by
  refine ⟨fun h => ?_, m.netUnpack_frame⟩
  by_contra hover
  rw [m.netUnpack_frame_overflow (by omega)] at h
  simp at h

end NetMessage

-- ============================================================================
-- A stream of messages
-- ============================================================================

theorem mapM_pack (msgs : List NetMessage) :
    msgs.mapM NetMessage.pack = .ok (msgs.map fun m => leBytes 4 m.frame.length ++ m.frame) := by
  induction msgs with
  | nil => rfl
  | cons m msgs ih =>
      rw [List.mapM_cons, m.pack_eq, ih]
      rfl

/-- The loop over a stream of packets finds their bodies and nothing else. -/
theorem headMessageCallback_packets (msgs : List NetMessage) :
    headMessageCallback (msgs.map fun m => leBytes 4 m.frame.length ++ m.frame).flatten =
      ⟨msgs.map NetMessage.frame, [], false⟩ := by
  rw [headMessageCallback_eq_parse]
  apply Framer.parse_flatten
  · rfl
  · intro m t
    rw [headFramer_next]
    exact headNext_append m.length_frame_le t

/-- Packing succeeds, and reading the packets in any chunks gives the messages
    back; the connection is open all the time and nothing is left over. -/
structure RoundTrips (stack : Nat) (msgs : List NetMessage) : Prop where
  packs : ∃ packets, msgs.mapM NetMessage.pack = .ok packets
  arrives : ∀ packets chunks, msgs.mapM NetMessage.pack = .ok packets →
    chunks.flatten = packets.flatten →
      (∀ n, (Conn.start.onReads (chunks.take n)).closed = false) ∧
        (Conn.start.onReads chunks).readBuffer = [] ∧
        (Conn.start.onReads chunks).delivered.map (netUnpack stack) =
          msgs.map fun m => some m.content

section Chunks

variable {msgs : List NetMessage} {packets chunks : List (List UInt8)}
  (hpackets : msgs.mapM NetMessage.pack = .ok packets) (hchunks : chunks.flatten = packets.flatten)

include hpackets hchunks

/-- However the packets are cut, their bodies are delivered and nothing is left. -/
theorem onReads_packets : (Conn.start.onReads chunks).delivered = msgs.map NetMessage.frame ∧
    (Conn.start.onReads chunks).closed = false ∧ (Conn.start.onReads chunks).readBuffer = [] := by
  rw [mapM_pack] at hpackets
  cases hpackets
  obtain ⟨hdelivered, hclosed, hrest⟩ := Conn.onReads_start chunks
  rw [hchunks, headMessageCallback_packets] at hdelivered hclosed hrest
  exact ⟨hdelivered, hclosed, hrest rfl⟩

/-- A connection once closed would still be closed at the end. -/
theorem onReads_open (n : Nat) : (Conn.start.onReads (chunks.take n)).closed = false := by
  rw [← Bool.not_eq_true]
  intro hshut
  have hstill := Conn.closed_onReads hshut (chunks.drop n)
  rw [← Conn.onReads_append, List.take_append_drop, (onReads_packets hpackets hchunks).2.1] at hstill
  simp at hstill

end Chunks

/-- What arrives unpacks to the messages just in case every single one does. -/
theorem roundTrips_iff (stack : Nat) (msgs : List NetMessage) :
    RoundTrips stack msgs ↔ ∀ m ∈ msgs, netUnpack stack m.frame = some m.content := by
  constructor
  · intro h
    have hall := (h.arrives _ _ (mapM_pack msgs) rfl).2.2
    rw [(onReads_packets (mapM_pack msgs) rfl).1, List.map_map] at hall
    exact List.map_inj_left.mp hall
  · intro h
    refine ⟨⟨_, mapM_pack msgs⟩, fun packets chunks hpackets hchunks => ?_⟩
    obtain ⟨hdelivered, -, hrest⟩ := onReads_packets hpackets hchunks
    refine ⟨onReads_open hpackets hchunks, hrest, ?_⟩
    rw [hdelivered, List.map_map]
    exact List.map_inj_left.mpr h

/-- The messages come back if the stack has room for every name, and only then. -/
theorem net_round_trip (stack : Nat) (msgs : List NetMessage) :
    RoundTrips stack msgs ↔ ∀ m ∈ msgs, m.name.length + 1 ≤ stack := by
  rw [roundTrips_iff]
  exact forall₂_congr fun m _ => m.netUnpack_frame_iff

/-- A name of nine megabytes, which a frame has room for, on a stack of eight. -/
theorem net_long_name_lost : ∃ m : NetMessage, m.name.length = 9 * 2 ^ 20 ∧ m.body = [] ∧
    ¬RoundTrips (8 * 2 ^ 20) [m] := by
  have hlength : (List.replicate (9 * 2 ^ 20) (112 : UInt8)).length = 9 * 2 ^ 20 :=
    List.length_replicate
  refine ⟨⟨0, List.replicate (9 * 2 ^ 20) 112, [], by decide, ?_⟩, hlength, rfl, fun h => ?_⟩
  · rw [hlength]
    decide
  · have hback := (roundTrips_iff _ _).mp h _ (List.mem_singleton.mpr rfl)
    rw [NetMessage.netUnpack_frame_iff, hlength] at hback
    omega

end ZServer
