/-
  ZServer.Tcp.Incoming

  The frames a connection delivers.  `headMessageCallback` runs after every read;
  however the stream is cut into reads, what is delivered, whether the socket is
  closed and what is left unread are what `parse` says of the whole stream.
-/

import ZServer.Tcp.Link

namespace ZServer.Tcp

open Lib

-- ============================================================================
-- The grammar
-- ============================================================================

/-- The payloads of a stream of frames, what is left over, and whether it begins
    with an illegal length. -/
def parse (bytes : List UInt8) : Parsed UInt8 (List UInt8) :=
  if 4 ≤ bytes.length then
    let len := leNat (bytes.take 4)
    if 10 * 1024 * 1024 < len then ⟨[], bytes, true⟩
    else if 4 + len ≤ bytes.length then
      (parse (bytes.drop (4 + len))).after [(bytes.drop 4).take len]
    else ⟨[], bytes, false⟩
  else ⟨[], bytes, false⟩
  termination_by bytes.length
  decreasing_by
    rw [List.length_drop]
    omega

/-- The loop of `headMessageCallback` follows the grammar. -/
theorem headMessageCallback_eq_grammar (bytes : List UInt8) :
    headMessageCallback bytes = parse bytes := by
  have hsum : ∀ len, len + kHeaderLen = 4 + len := fun len => Nat.add_comm len 4
  fun_induction parse bytes with
  | case1 bytes hheader len hmax =>
      rw [headMessageCallback, if_pos (by unfold kMinMessageLen kHeaderLen; omega)]
      exact if_pos (Or.inl hmax)
  | case2 bytes hheader len hmax hwhole ih =>
      rw [headMessageCallback, if_pos (by unfold kMinMessageLen kHeaderLen; omega)]
      have hlegal : ¬ (kMaxMessageLen < len ∨ len < kMinMessageLen) := by
        unfold kMaxMessageLen kMinMessageLen
        omega
      have hbody : len + kHeaderLen ≤ bytes.length := by rwa [hsum]
      have hpeek : bufferPeekInt32 bytes = len := rfl
      simp only [hpeek]
      rw [if_neg hlegal, if_pos hbody, hsum, ih]
      rfl
  | case3 bytes hheader len hmax hpart =>
      rw [headMessageCallback, if_pos (by unfold kMinMessageLen kHeaderLen; omega)]
      have hlegal : ¬ (kMaxMessageLen < len ∨ len < kMinMessageLen) := by
        unfold kMaxMessageLen kMinMessageLen
        omega
      have hbody : ¬ len + kHeaderLen ≤ bytes.length := by rwa [hsum]
      have hpeek : bufferPeekInt32 bytes = len := rfl
      simp only [hpeek]
      rw [if_neg hlegal, if_neg hbody]
  | case4 bytes hpart =>
      rw [headMessageCallback, if_neg (by unfold kMinMessageLen kHeaderLen; omega)]

-- ============================================================================
-- Reads of a socket
-- ============================================================================

/-- A chunk arrives and `headMessageCallback` runs; nothing is read after a close. -/
def readChunk (i : Nat) (w : World) (chunk : List UInt8) : Option World :=
  if (w.sockets i).state = .kSocketConnected then headMessageCallbackOn (socketRead w i chunk) i
  else some w

/-- That is what `onRead` does for a connection with this protocol. -/
theorem onRead_eq_readChunk {w : World} {i : Nat} {chunk : List UInt8} (hchunk : chunk ≠ [])
    (hs : (w.sockets i).state = .kSocketConnected)
    (hproto : (w.sockets i).protoType = HEAD_PROTO_TYPE) :
    onRead w i (.ok chunk) = readChunk i w chunk := by
  have hread : ((socketRead w i chunk).sockets i).protoType = HEAD_PROTO_TYPE := by
    unfold socketRead
    rw [World.modify_self]
    exact hproto
  unfold readChunk
  rw [if_pos hs]
  cases chunk with
  | nil => exact absurd rfl hchunk
  | cons b chunk =>
      show onMessageCallback (socketRead w i (b :: chunk)) i = _
      unfold onMessageCallback
      exact if_pos hread

/-- The socket has read what `conn` says, and can read on. -/
structure Reading (w₀ w : World) (i : Nat) (conn : Conn) : Prop where
  isOpen : conn.closed = false
  slot : w.sockets i = { w₀.sockets i with readBuffer := (w.sockets i).readBuffer }
  setsize : w.setsize = w₀.setsize
  readBuffer : bufferBytes (w.sockets i).readBuffer = conn.readBuffer
  log : w.log = w₀.log ++ conn.delivered.map (dataNotice (w₀.sockets i))

/-- The socket has been closed after what `conn` has delivered. -/
structure Shut (w₀ w : World) (i : Nat) (conn : Conn) : Prop where
  closed : conn.closed = true
  state : (w.sockets i).state ≠ .kSocketConnected
  isOpen : w.isOpen (w₀.sockets i).fd = false
  log : ∃ new, w.log = w₀.log ++ conn.delivered.map (dataNotice (w₀.sockets i)) ++ new ∧
    new.filterMap (observed (w₀.sockets i)) = [.closed]

/-- What a close leaves. -/
theorem closeSlot_shut (w : World) (i : Nat) :
    (w.closeSlot i).isOpen (w.sockets i).fd = false ∧ ∃ new, (w.closeSlot i).log = w.log ++ new ∧
      new.filterMap (observed (w.sockets i)) = [.closed] := by
  refine ⟨?_, ?_⟩
  · show ((w.unregister (w.sockets i).fd).closeFd (w.sockets i).id (w.sockets i).fd).isOpen _ = false
    rw [World.closeFd_isOpen, Function.update_self]
  · let fe := (w.unregister (w.sockets i).fd).events (w.sockets i).fd
    refine ⟨[.closed (w.sockets i).id (w.sockets i).fd fe.readable fe.writable,
      .notice ⟨(w.sockets i).fromId, 0, .close, .null, (w.sockets i).id⟩], ?_, ?_⟩
    · show ((w.unregister (w.sockets i).fd).closeFd (w.sockets i).id (w.sockets i).fd).log ++ [_] = _
      rw [World.closeFd_log, World.unregister_log, List.append_assoc]
      rfl
    · simp [observed, List.filterMap_cons]

section

variable {w₀ w : World} {i : Nat} {conn : Conn}
  (hid : 0 ≤ (w₀.sockets i).id) (hindex : getIndex w₀ (w₀.sockets i).id = i)
  (hs : (w₀.sockets i).state = .kSocketConnected)

include hid hindex hs in
theorem Reading.step (h : Reading w₀ w i conn) (chunk : List UInt8) :
    ∃ w', readChunk i w chunk = some w' ∧
      (Reading w₀ w' i (conn.onRead chunk) ∨ Shut w₀ w' i (conn.onRead chunk)) := by
  let r := headMessageCallback (conn.readBuffer ++ chunk)
  let v := ({ w with log := w.log ++ r.frames.map (dataNotice (w₀.sockets i)) } : World).modify i
    fun s => { s with readBuffer := some r.rest }
  have hstate : (w.sockets i).state = .kSocketConnected := by
    rw [h.slot]
    exact hs
  have hslot : v.sockets i = { w₀.sockets i with readBuffer := some r.rest } := by
    rw [show v.sockets i = { w.sockets i with readBuffer := some r.rest } from World.modify_self ..,
      h.slot]
  have hread : readChunk i w chunk = if r.illegal then some (v.closeSlot i) else some v := by
    have hbuf : bufferBytes ((socketRead w i chunk).sockets i).readBuffer =
        conn.readBuffer ++ chunk := by
      unfold socketRead
      rw [World.modify_self]
      exact congrArg (· ++ chunk) h.readBuffer
    have hnotice : dataNotice ((socketRead w i chunk).sockets i) = dataNotice (w₀.sockets i) := by
      unfold socketRead
      rw [World.modify_self, h.slot]
      rfl
    have hv : ({ socketRead w i chunk with
        log := w.log ++ r.frames.map (dataNotice (w₀.sockets i)) } : World).modify i
          (fun s => { s with readBuffer := some r.rest }) = v :=
      World.modify_modify { w with log := w.log ++ r.frames.map (dataNotice (w₀.sockets i)) } i
        (fun s => { s with readBuffer := some (bufferBytes s.readBuffer ++ chunk) })
        fun s => { s with readBuffer := some r.rest }
    have hforce : socketForceClose v i = some (v.closeSlot i) := by
      unfold socketForceClose
      rw [if_pos (Or.inl (by rw [hslot]; exact hs))]
      refine handleClose_eq ?_ ?_
      · rw [hslot]
        exact hid
      · rw [hslot]
        unfold getIndex
        rw [show v.setsize = w₀.setsize from h.setsize]
        exact hindex
    unfold readChunk
    rw [if_pos hstate, headMessageCallbackOn_eq, hbuf, hnotice]
    rw [← hforce, ← hv]
    rfl
  have hconn : conn.onRead chunk = ⟨r.rest, conn.delivered ++ r.frames, r.illegal⟩ := by
    unfold Conn.onRead
    rw [h.isOpen, if_neg Bool.false_ne_true]
  have hlog : v.log = w₀.log ++ (conn.delivered ++ r.frames).map (dataNotice (w₀.sockets i)) := by
    show w.log ++ _ = _
    rw [h.log, List.append_assoc, List.map_append]
  rw [hread, hconn]
  cases hill : r.illegal with
  | false =>
      refine ⟨v, rfl, Or.inl ⟨rfl, ?_, h.setsize, ?_, hlog⟩⟩
      · rw [hslot]
      · rw [hslot]
        rfl
  | true =>
      obtain ⟨hopen, new, hnew, hseen⟩ := closeSlot_shut v i
      refine ⟨v.closeSlot i, rfl, Or.inr ⟨rfl, ?_, ?_, new, ?_, ?_⟩⟩
      · rw [closeSlot_self]
        rintro ⟨⟩
      · rw [hslot] at hopen
        exact hopen
      · rw [hnew, hlog]
      · rw [hslot] at hseen
        exact hseen

theorem Shut.step (h : Shut w₀ w i conn) (chunk : List UInt8) :
    readChunk i w chunk = some w ∧ conn.onRead chunk = conn := by
  refine ⟨if_neg h.state, ?_⟩
  unfold Conn.onRead
  rw [if_pos h.closed]

include hid hindex hs in
theorem readChunks (chunks : List (List UInt8)) (h : Reading w₀ w i conn ∨ Shut w₀ w i conn) :
    ∃ w', runFrom (readChunk i) w chunks = some w' ∧
      (Reading w₀ w' i (conn.onReads chunks) ∨ Shut w₀ w' i (conn.onReads chunks)) := by
  induction chunks generalizing w conn with
  | nil => exact ⟨w, rfl, h⟩
  | cons chunk chunks ih =>
      obtain ⟨w₁, hstep, hnext⟩ : ∃ w₁, readChunk i w chunk = some w₁ ∧
          (Reading w₀ w₁ i (conn.onRead chunk) ∨ Shut w₀ w₁ i (conn.onRead chunk)) := by
        rcases h with hreading | hshut
        · exact hreading.step hid hindex hs chunk
        · obtain ⟨hstep, hconn⟩ := hshut.step chunk
          exact ⟨w, hstep, Or.inr (hconn.symm ▸ hshut)⟩
      obtain ⟨w', hrun, hend⟩ := ih hnext
      refine ⟨w', ?_, hend⟩
      rw [runFrom_cons, hstep]
      exact hrun

end

/-- However a stream is cut into chunks, a connected socket with nothing unread
    delivers the payloads of `parse` in order, is closed after them exactly when
    `parse` meets an illegal length, and otherwise keeps what `parse` leaves. -/
theorem framing_of_chunks {w : World} {i : Nat} (hid : 0 ≤ (w.sockets i).id)
    (hindex : getIndex w (w.sockets i).id = i) (hs : (w.sockets i).state = .kSocketConnected)
    (hempty : bufferBytes (w.sockets i).readBuffer = []) (chunks : List (List UInt8)) :
    ∃ w', runFrom (readChunk i) w chunks = some w' ∧
      (w'.log.drop w.log.length).filterMap (observed (w.sockets i)) =
        (parse chunks.flatten).frames.map .frame ++
          (if (parse chunks.flatten).illegal then [.closed] else []) ∧
      ((parse chunks.flatten).illegal = true →
        (w'.sockets i).state ≠ .kSocketConnected ∧ w'.isOpen (w.sockets i).fd = false) ∧
      ((parse chunks.flatten).illegal = false →
        (w'.sockets i).state = .kSocketConnected ∧
          bufferBytes (w'.sockets i).readBuffer = (parse chunks.flatten).rest) := by
  have hstart : Reading w w i Conn.start :=
    ⟨rfl, rfl, rfl, hempty, (List.append_nil _).symm⟩
  obtain ⟨w', hrun, hend⟩ := readChunks hid hindex hs chunks (Or.inl hstart)
  obtain ⟨hdelivered, hclosed, hrest⟩ := Conn.onReads_start chunks
  rw [headMessageCallback_eq_grammar] at hdelivered hclosed hrest
  refine ⟨w', hrun, ?_⟩
  rcases hend with hreading | hshut
  · have hlegal := hclosed.symm.trans hreading.isOpen
    refine ⟨?_, fun hill => absurd (hlegal.symm.trans hill) Bool.false_ne_true, fun _ => ⟨?_, ?_⟩⟩
    · rw [hreading.log, List.drop_left, observed_dataNotice, hdelivered, hlegal,
        if_neg Bool.false_ne_true, List.append_nil]
    · rw [hreading.slot]
      exact hs
    · rw [hreading.readBuffer, hrest hlegal]
  · have hillegal := hclosed.symm.trans hshut.closed
    obtain ⟨new, hlog, hseen⟩ := hshut.log
    refine ⟨?_, fun _ => ⟨hshut.state, hshut.isOpen⟩, fun hlegal =>
      absurd (hlegal.symm.trans hillegal) Bool.false_ne_true⟩
    rw [hlog, List.append_assoc, List.drop_left, List.filterMap_append, observed_dataNotice,
      hdelivered, hseen, hillegal, if_pos rfl]

/-- Slot 1 is connected to descriptor 7. -/
def connected : World :=
  ((tcpInit 4 64).opened 7).modify 1 fun s =>
    { s with id := 1, fd := 7, type := .kSocketType, state := .kSocketConnected, protoType := 1 }

/-- A header and a body cut in two. -/
theorem split_frame_delivered : ∃ w', runFrom (readChunk 1) connected [[2, 0], [0, 0, 7], [8]] = some w' ∧
    (w'.log.drop connected.log.length).filterMap (observed (connected.sockets 1)) =
      [.frame [7, 8]] := by
  have hparse : parse [[2, 0], [0, 0, 7], [8]].flatten = ⟨[[7, 8]], [], false⟩ := by
    have hnil : parse [] = ⟨[], [], false⟩ := by
      rw [parse]
      rfl
    rw [parse]
    exact congrArg (Parsed.after [[7, 8]]) hnil
  obtain ⟨w', hrun, hseen, -⟩ := framing_of_chunks (w := connected) (i := 1) (by decide) (by decide)
    (by decide) (by decide) [[2, 0], [0, 0, 7], [8]]
  refine ⟨w', hrun, ?_⟩
  rw [hseen, hparse]
  rfl

end ZServer.Tcp
