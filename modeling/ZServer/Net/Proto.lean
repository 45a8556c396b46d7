/-
  ZServer.Net.Proto

  The framing of connections (`src/proto.c`).  A frame is a little-endian
  `int32` length and as many bytes.  `headMessageCallback` runs after every read
  on the connection's read buffer, which is taken as the queue of its readable
  bytes (`ZServer.Buffer.ByteQueue`).
-/

import ZServer.Lib.Framing
import ZServer.Lib.Word

namespace ZServer

open Lib

-- ============================================================================
-- `headMessageCallback`
-- ============================================================================

def kHeaderLen : Nat := 4

def kMinMessageLen : Nat := 0

def kMaxMessageLen : Nat := 10 * 1024 * 1024

/-- `bufferPeekInt32` as a `uint32_t`. -/
def bufferPeekInt32 (buf : List UInt8) : Nat := leNat (buf.take kHeaderLen)

/-- The bodies given to `protoMessageCallback`, what stays readable, and whether
    `socketForceClose` was called. -/
def headMessageCallback (buf : List UInt8) : Parsed UInt8 (List UInt8) :=
  if kMinMessageLen + kHeaderLen ≤ buf.length then
    let len := bufferPeekInt32 buf
    if kMaxMessageLen < len ∨ len < kMinMessageLen then ⟨[], buf, true⟩
    else if len + kHeaderLen ≤ buf.length then
      let body := (buf.drop kHeaderLen).take len
      let r := headMessageCallback (buf.drop (len + kHeaderLen))
      { r with frames := body :: r.frames }
    else ⟨[], buf, false⟩
  else ⟨[], buf, false⟩
  termination_by buf.length
  decreasing_by
    rename_i _ _ hlen
    rw [List.length_drop]
    unfold kHeaderLen at hlen ⊢
    omega

-- ============================================================================
-- Connections
-- ============================================================================

/-- A connection's read buffer and what has come out of it. -/
structure Conn where
  readBuffer : List UInt8
  delivered : List (List UInt8)
  /-- `socketForceClose` was called: there are no more read events -/
  closed : Bool
  deriving DecidableEq, Repr

def Conn.start : Conn := ⟨[], [], false⟩

/-- A read event for which `socketRead` appends `chunk`. -/
def Conn.onRead (conn : Conn) (chunk : List UInt8) : Conn :=
  if conn.closed then conn
  else
    let r := headMessageCallback (conn.readBuffer ++ chunk)
    ⟨r.rest, conn.delivered ++ r.frames, r.illegal⟩

def Conn.onReads (conn : Conn) (chunks : List (List UInt8)) : Conn := chunks.foldl Conn.onRead conn

-- ============================================================================
-- One round of the loop
-- ============================================================================

/-- What the loop finds at the head of the buffer. -/
def headNext (buf : List UInt8) : Frame UInt8 (List UInt8) :=
  if buf.length < kHeaderLen then .more
  else if kMaxMessageLen < bufferPeekInt32 buf then .illegal
  else if buf.length < bufferPeekInt32 buf + kHeaderLen then .more
  else
    .frame ((buf.drop kHeaderLen).take (bufferPeekInt32 buf))
      (buf.drop (bufferPeekInt32 buf + kHeaderLen))

theorem bufferPeekInt32_append {s : List UInt8} (h : kHeaderLen ≤ s.length) (t : List UInt8) :
    bufferPeekInt32 (s ++ t) = bufferPeekInt32 s := by
  unfold bufferPeekInt32
  rw [List.take_append_of_le_length h]

theorem headNext_frame {s rest body : List UInt8} (h : headNext s = .frame body rest) :
    kHeaderLen ≤ s.length ∧ bufferPeekInt32 s ≤ kMaxMessageLen ∧
      bufferPeekInt32 s + kHeaderLen ≤ s.length ∧
      body = (s.drop kHeaderLen).take (bufferPeekInt32 s) ∧
      rest = s.drop (bufferPeekInt32 s + kHeaderLen) := by
  unfold headNext at h
  split at h
  · cases h
  · rename_i hheader
    split at h
    · cases h
    · rename_i hmax
      split at h
      · cases h
      · rename_i hwhole
        injection h with hbody hrest
        exact ⟨Nat.le_of_not_lt hheader, Nat.le_of_not_lt hmax, Nat.le_of_not_lt hwhole,
          hbody.symm, hrest.symm⟩

theorem headNext_illegal {s : List UInt8} (h : headNext s = .illegal) :
    kHeaderLen ≤ s.length ∧ kMaxMessageLen < bufferPeekInt32 s := by
  unfold headNext at h
  split at h
  · cases h
  · rename_i hheader
    split at h
    · rename_i hmax
      exact ⟨Nat.le_of_not_lt hheader, hmax⟩
    · split at h <;> cases h

/-- A body behind its own length is a frame, whatever follows. -/
theorem headNext_append {body : List UInt8} (h : body.length ≤ kMaxMessageLen) (t : List UInt8) :
    headNext (leBytes 4 body.length ++ body ++ t) = .frame body t := by
  have hpeek : bufferPeekInt32 (leBytes 4 body.length ++ body ++ t) = body.length := by
    unfold bufferPeekInt32 kHeaderLen
    rw [List.append_assoc, List.take_left' (length_leBytes ..), leNat_leBytes]
    unfold kMaxMessageLen at h
    omega
  have hlen : (leBytes 4 body.length ++ body ++ t).length = 4 + body.length + t.length := by
    simp only [List.length_append, length_leBytes]
  unfold headNext
  rw [hpeek, if_neg, if_neg (Nat.not_lt.mpr h), if_neg]
  · unfold kHeaderLen
    rw [List.append_assoc, List.drop_left' (length_leBytes ..), List.take_left, ← List.append_assoc,
      List.drop_left']
    rw [List.length_append, length_leBytes]
    omega
  · rw [hlen]
    unfold kHeaderLen
    omega
  · rw [hlen]
    unfold kHeaderLen
    omega

/-- The frames of a connection. -/
def headFramer : Framer UInt8 (List UInt8) where
  next := headNext
  rest_lt := by
    intro s body rest h
    obtain ⟨hheader, -, -, -, rfl⟩ := headNext_frame h
    rw [List.length_drop]
    unfold kHeaderLen at hheader ⊢
    omega
  frame_append := by
    intro s body rest t h
    obtain ⟨hheader, hmax, hwhole, rfl, rfl⟩ := headNext_frame h
    have hpeek := bufferPeekInt32_append hheader t
    unfold headNext
    rw [hpeek, if_neg, if_neg (Nat.not_lt.mpr hmax), if_neg]
    · rw [List.drop_append_of_le_length hheader, List.drop_append_of_le_length hwhole,
        List.take_append_of_le_length]
      rw [List.length_drop]
      omega
    · rw [List.length_append]
      omega
    · rw [List.length_append]
      omega
  illegal_append := by
    intro s t h
    obtain ⟨hheader, hmax⟩ := headNext_illegal h
    unfold headNext
    rw [bufferPeekInt32_append hheader t, if_neg, if_pos hmax]
    rw [List.length_append]
    omega

theorem headFramer_next (buf : List UInt8) : headFramer.next buf = headNext buf := rfl

/-- The loop is the parser of these frames. -/
theorem headMessageCallback_eq_parse (buf : List UInt8) :
    headMessageCallback buf = headFramer.parse buf := by
  have hmin : kMinMessageLen + kHeaderLen = kHeaderLen := Nat.zero_add _
  fun_induction headMessageCallback buf with
  | case1 buf hheader len hill =>
      rw [hmin] at hheader
      have hmax : kMaxMessageLen < len := hill.resolve_right (Nat.not_lt_zero len)
      refine (Framer.parse_illegal ?_).symm
      rw [headFramer_next, headNext]
      rw [if_neg (Nat.not_lt.mpr hheader), if_pos hmax]
  | case2 buf hheader len hlegal hwhole body r ih =>
      rw [hmin] at hheader
      have hnext : headFramer.next buf = .frame body (buf.drop (len + kHeaderLen)) := by
        rw [headFramer_next, headNext]
        rw [if_neg (Nat.not_lt.mpr hheader), if_neg fun hmax => hlegal (Or.inl hmax),
          if_neg (Nat.not_lt.mpr hwhole)]
      rw [Framer.parse_frame hnext, ← ih]
      rfl
  | case3 buf hheader len hlegal hpart =>
      -- the body is not there yet
      rw [hmin] at hheader
      refine (Framer.parse_more ?_).symm
      rw [headFramer_next, headNext]
      rw [if_neg (Nat.not_lt.mpr hheader), if_neg fun hmax => hlegal (Or.inl hmax),
        if_pos (Nat.lt_of_not_le hpart)]
  | case4 buf hpart =>
      -- not even the length is
      refine (Framer.parse_more ?_).symm
      rw [headFramer_next, headNext]
      rw [hmin] at hpart
      rw [if_pos (Nat.lt_of_not_le hpart)]

-- ============================================================================
-- Reads
-- ============================================================================

/-- A connection as the state of a parser. -/
def Conn.parsed (conn : Conn) : Parsed UInt8 (List UInt8) :=
  ⟨conn.delivered, conn.readBuffer, conn.closed⟩

theorem Conn.parsed_onRead (conn : Conn) (chunk : List UInt8) :
    (conn.onRead chunk).parsed = headFramer.feed conn.parsed chunk := by
  unfold Conn.onRead Framer.feed
  by_cases hclosed : conn.closed = true
  · rw [if_pos hclosed, if_pos (show conn.parsed.illegal = true from hclosed)]
  · rw [if_neg hclosed, if_neg (show ¬ conn.parsed.illegal = true from hclosed),
      ← headMessageCallback_eq_parse]
    rfl

/-- Reading chunk by chunk is feeding the parser. -/
theorem Conn.parsed_onReads (conn : Conn) (chunks : List (List UInt8)) :
    (conn.onReads chunks).parsed = chunks.foldl headFramer.feed conn.parsed := by
  induction chunks generalizing conn with
  | nil => rfl
  | cons chunk chunks ih =>
      rw [List.foldl_cons, ← Conn.parsed_onRead]
      exact ih (conn.onRead chunk)

theorem Conn.onReads_append (conn : Conn) (chunks chunks' : List (List UInt8)) :
    conn.onReads (chunks ++ chunks') = (conn.onReads chunks).onReads chunks' :=
  List.foldl_append

/-- A connection that has been closed stays closed. -/
theorem Conn.closed_onReads {conn : Conn} (h : conn.closed = true) (chunks : List (List UInt8)) :
    (conn.onReads chunks).closed = true := by
  have hfeed := congrArg Parsed.illegal (Conn.parsed_onReads conn chunks)
  rw [Framer.feed_illegal (show conn.parsed.illegal = true from h)] at hfeed
  exact hfeed.trans h

/-- However the stream is cut, what is delivered and whether the connection is
    closed is what one run over the whole stream gives. -/
theorem Conn.onReads_start (chunks : List (List UInt8)) :
    (Conn.start.onReads chunks).delivered = (headMessageCallback chunks.flatten).frames ∧
      (Conn.start.onReads chunks).closed = (headMessageCallback chunks.flatten).illegal ∧
      ((headMessageCallback chunks.flatten).illegal = false →
        (Conn.start.onReads chunks).readBuffer = (headMessageCallback chunks.flatten).rest) := by
  have hstart : Conn.start.parsed = headFramer.parse [] := (Framer.parse_more rfl).symm
  have hfeed := Conn.parsed_onReads Conn.start chunks
  have hwhole := headFramer.foldl_feed chunks []
  rw [← hstart, ← hfeed, List.nil_append, ← headMessageCallback_eq_parse] at hwhole
  exact hwhole

end ZServer
