/-
  ZServer.Buffer.ByteQueue

  The buffer as a byte queue: bytes are put in at the back and consumed at the
  front.  `Session` runs a buffer and the queue it stands for side by side; the
  buffer refines the queue as long as every append finds room after the one
  doubling or the one compaction that `bufferMakeSpace` does (`RoomFor`).
-/

import ZServer.Buffer.Basic
import ZServer.Lib.Transition

namespace ZServer

open Lib

/-! ## The abstract queue and the operations on both -/

/-- What the users of a buffer do with it. -/
inductive BufferOp where
  | append (data : Chunk)
  | moveReadIndex (moveLen : Nat)
  | retrieveAll
  /-- a `socketRead` for which the kernel delivered these bytes -/
  | read (received : List UInt8)
  deriving DecidableEq, Repr

/-- What an operation does to the bytes put in and not yet consumed. -/
def BufferOp.onQueue : BufferOp → List UInt8 → List UInt8
  | .append data, q => q ++ data
  | .moveReadIndex moveLen, q => q.drop moveLen
  | .retrieveAll, _ => []
  | .read received, q => q ++ received

/-- What it does to the buffer. -/
def BufferOp.onBuffer : BufferOp → Buffer → Except Fault Buffer
  | .append data, buf => bufferAppend buf data
  | .moveReadIndex moveLen, buf => .ok (bufferMoveReadIndex buf moveLen)
  | .retrieveAll, buf => .ok (bufferRetrieveAll buf)
  | .read received, buf => socketRead buf received

/-- A buffer, faulted or not, beside the queue it stands for. -/
structure Session where
  buf : Except Fault Buffer
  queue : List UInt8
  deriving DecidableEq

def sessionCreate (initSize : Nat) : Session := ⟨.ok (bufferCreate initSize), []⟩

/-- One operation.  A faulted buffer takes no more of them, and a read brings at
    most `extrabufSize` bytes more than the free space. -/
def sessionStep (s : Session) (op : BufferOp) : Option Session :=
  match s.buf with
  | .error _ => none
  | .ok buf =>
      match op with
      | .read received =>
          if received.length ≤ bufferWriteableBytes buf + extrabufSize then
            some ⟨op.onBuffer buf, op.onQueue s.queue⟩
          else none
      | _ => some ⟨op.onBuffer buf, op.onQueue s.queue⟩

/-- The buffer is intact, its indices are in order and its readable bytes are
    the queue. -/
def Session.Refines (s : Session) : Prop :=
  ∃ buf, s.buf = .ok buf ∧ buf.readIndex ≤ buf.writeIndex ∧ buf.writeIndex ≤ buf.size ∧
    bufferReadable buf = s.queue

/-- There is room for `len` more bytes: after moving the readable bytes to the
    front, or behind them once the block has been doubled. -/
def RoomFor (buf : Buffer) (len : Nat) : Prop :=
  buf.writeIndex + len ≤ buf.size + buf.readIndex ∨
    (buf.writeIndex + len ≤ 2 * buf.size ∧ 2 * buf.size < 2 ^ 31)

instance (buf : Buffer) (len : Nat) : Decidable (RoomFor buf len) :=
  inferInstanceAs (Decidable (_ ∨ _))

/-- The condition on an operation: an append finds room, and a read that
    overflows the free space finds room for the rest once the buffer is full. -/
def BufferOp.Fits (s : Session) (op : BufferOp) : Prop :=
  ∀ buf, s.buf = .ok buf → match op with
    | .append data => RoomFor buf data.1.length
    | .read received => bufferWriteableBytes buf < received.length →
        RoomFor (bufferSetWriteIndex buf (bufferGetSize buf))
          (received.length - bufferWriteableBytes buf)
    | _ => True

/-! ## The representation invariant -/

/-- `buf` owns a block `d` of `size` bytes whose bytes between the indices are `q`. -/
structure Buffer.Holds (buf : Buffer) (d q : List UInt8) : Prop where
  data : buf.data = some d
  length : d.length = buf.size
  size_lt : buf.size < 2 ^ 32
  read_le : buf.readIndex ≤ buf.writeIndex
  write_le : buf.writeIndex ≤ buf.size
  bytes : (d.take buf.writeIndex).drop buf.readIndex = q

namespace Buffer.Holds

variable {buf : Buffer} {d q : List UInt8}

theorem writeableBytes (h : buf.Holds d q) :
    bufferWriteableBytes buf = buf.size - buf.writeIndex :=
  u32Sub_of_le h.write_le h.size_lt

theorem readableBytes (h : buf.Holds d q) :
    bufferReadableBytes buf = buf.writeIndex - buf.readIndex :=
  u32Sub_of_le h.read_le (Nat.lt_of_le_of_lt h.write_le h.size_lt)

theorem readable (h : buf.Holds d q) : bufferReadable buf = q := by
  rw [bufferReadable, h.data, h.readableBytes, ← h.bytes, List.drop_take]
  rfl

theorem queue_length (h : buf.Holds d q) : q.length = buf.writeIndex - buf.readIndex := by
  have hlen := h.length
  have hwr := h.write_le
  rw [← h.bytes, List.length_drop, List.length_take]
  omega

end Buffer.Holds

theorem bufferCreate_holds {n : Nat} (hn : 1 ≤ n) (hlt : n < 2 ^ 32) :
    (bufferCreate n).Holds (zmalloc n) [] where
  data := by
    have hne : n ≠ 0 := by omega
    simp [bufferCreate, kCheapPrepend, hne]
  length := by simp [bufferCreate, zmalloc]
  size_lt := hlt
  read_le := Nat.le_refl 0
  write_le := Nat.zero_le n
  bytes := by simp [bufferCreate, kCheapPrepend]

/-! ## Storing, compacting and doubling -/

theorem memcpy_of_le {d bs : List UInt8} {off : Nat} (h : off + bs.length ≤ d.length) :
    memcpy (some d) off bs = .ok (some (d.take off ++ bs ++ d.drop (off + bs.length))) :=
  if_pos h

theorem memcpy_of_lt {d bs : List UInt8} {off : Nat} (h : d.length < off + bs.length) :
    memcpy (some d) off bs = .error .outOfBounds :=
  if_neg (Nat.not_le.mpr h)

/-- Storing behind `writeIndex` appends to the queue. -/
theorem Buffer.Holds.store {buf : Buffer} {d q bs : List UInt8} (h : buf.Holds d q)
    (hroom : buf.writeIndex + bs.length ≤ buf.size) :
    Buffer.Holds { buf with
      data := some (d.take buf.writeIndex ++ bs ++ d.drop (buf.writeIndex + bs.length))
      writeIndex := u32 (buf.writeIndex + bs.length) }
      (d.take buf.writeIndex ++ bs ++ d.drop (buf.writeIndex + bs.length)) (q ++ bs) := by
  have hlen := h.length
  have hlt := h.size_lt
  have hrd := h.read_le
  have hwr : u32 (buf.writeIndex + bs.length) = buf.writeIndex + bs.length :=
    u32_of_lt (by omega)
  have htake : (d.take buf.writeIndex).length = buf.writeIndex := by
    rw [List.length_take]; omega
  constructor
  · rfl
  · simp only [List.length_append, List.length_take, List.length_drop]
    omega
  · exact hlt
  · simp only [hwr]
    omega
  · simp only [hwr]
    exact hroom
  · simp only [hwr]
    have hpre : (d.take buf.writeIndex ++ bs).length = buf.writeIndex + bs.length := by
      rw [List.length_append, htake]
    rw [List.take_left' hpre, List.drop_append_of_le_length (by rw [htake]; exact hrd), h.bytes]

/-- `bufferMakeSpace` makes room exactly when `RoomFor` holds. -/
theorem bufferMakeSpace_of_roomFor {buf : Buffer} {d q : List UInt8} {more : Nat}
    (h : buf.Holds d q) (hmore : more < 2 ^ 32) (hroom : RoomFor buf more) :
    ∃ buf' d', bufferMakeSpace buf more = .ok buf' ∧ buf'.Holds d' q ∧
      buf'.writeIndex + more ≤ buf'.size := by
  have hlen := h.length
  have hlt := h.size_lt
  have hrd := h.read_le
  have hwr := h.write_le
  have hfree : u32 (bufferWriteableBytes buf + bufferPrependableBytes buf) =
      buf.size - buf.writeIndex + buf.readIndex := by
    rw [h.writeableBytes]
    exact u32_of_lt (by simp only [bufferPrependableBytes]; omega)
  have hmore' : u32 (more + kCheapPrepend) = more := u32_of_lt hmore
  by_cases hlack : buf.size - buf.writeIndex + buf.readIndex < more
  · -- the block is doubled
    obtain ⟨hfit, hint⟩ : buf.writeIndex + more ≤ 2 * buf.size ∧ 2 * buf.size < 2 ^ 31 := by
      rcases hroom with hroom | hroom
      · omega
      · exact hroom
    have hsz : u32 (buf.size * 2) = 2 * buf.size := by
      rw [Nat.mul_comm]
      exact u32_of_lt (by omega)
    have hreq : intToSize (2 * buf.size) = 2 * buf.size := if_pos hint
    refine ⟨{ buf with
        size := 2 * buf.size
        data := some (d ++ List.replicate (2 * buf.size - d.length) 0) },
      d ++ List.replicate (2 * buf.size - d.length) 0, ?_, ?_, hfit⟩
    · have hpos : 0 < 2 * buf.size ∧ 2 * buf.size < 2 ^ 63 := by omega
      have htake : d.take (2 * buf.size) = d := List.take_of_length_le (by omega)
      simp only [bufferMakeSpace, h.data, hfree, hmore', if_pos hlack, bufferExpand, hsz, hreq,
        Option.getD_some, zrealloc, if_pos hpos, htake]
      rfl
    · constructor
      · rfl
      · simp only [List.length_append, List.length_replicate]
        omega
      · simp only
        omega
      · exact hrd
      · simp only
        omega
      · rw [← h.bytes]
        simp only
        rw [List.take_append_of_le_length (by omega)]
  · -- the readable bytes are moved to the front
    have hused : bufferReadableBytes buf = buf.writeIndex - buf.readIndex := h.readableBytes
    have hu : u32 (kCheapPrepend + (buf.writeIndex - buf.readIndex)) =
        buf.writeIndex - buf.readIndex := by
      rw [kCheapPrepend, Nat.zero_add]
      exact u32_of_lt (by omega)
    have hq : (d.drop buf.readIndex).take (buf.writeIndex - buf.readIndex) = q := by
      rw [← h.bytes, List.drop_take]
    have hql := h.queue_length
    refine ⟨{ buf with
        data := some (q ++ d.drop (buf.writeIndex - buf.readIndex))
        readIndex := 0
        writeIndex := buf.writeIndex - buf.readIndex },
      q ++ d.drop (buf.writeIndex - buf.readIndex), ?_, ?_, ?_⟩
    · have hmove : memmove d kCheapPrepend buf.readIndex (buf.writeIndex - buf.readIndex) =
          .ok (q ++ d.drop (buf.writeIndex - buf.readIndex)) := by
        have hb : kCheapPrepend + (buf.writeIndex - buf.readIndex) ≤ d.length ∧
            buf.readIndex + (buf.writeIndex - buf.readIndex) ≤ d.length := by
          simp only [kCheapPrepend]
          omega
        rw [memmove, if_pos hb, hq]
        simp [kCheapPrepend]
      simp only [bufferMakeSpace, h.data, hfree, hmore', if_neg hlack, hused, hmove, hu]
      rfl
    · constructor
      · rfl
      · simp only [List.length_append, List.length_drop, hql]
        omega
      · exact hlt
      · exact Nat.zero_le _
      · simp only
        omega
      · simp only
        rw [← hql, List.take_left, List.drop_zero]
    · simp only
      omega

/-- Without room the store of the append leaves the block, or doubling it asks
    for more than there is. -/
theorem bufferAppend_of_not_roomFor {buf : Buffer} {d q bs : List UInt8}
    (h : buf.Holds d q) (hbs : bs.length < 2 ^ 32) (hroom : ¬ RoomFor buf bs.length) :
    ∃ fault, bufferAppend buf bs = .error fault := by
  have hlen := h.length
  have hlt := h.size_lt
  have hrd := h.read_le
  have hwr := h.write_le
  have hno : buf.size + buf.readIndex < buf.writeIndex + bs.length ∧
      (buf.writeIndex + bs.length ≤ 2 * buf.size → 2 ^ 31 ≤ 2 * buf.size) := by
    unfold RoomFor at hroom
    omega
  have hfree : u32 (bufferWriteableBytes buf + bufferPrependableBytes buf) =
      buf.size - buf.writeIndex + buf.readIndex := by
    rw [h.writeableBytes]
    exact u32_of_lt (by simp only [bufferPrependableBytes]; omega)
  have hmore : u32 (bs.length + kCheapPrepend) = bs.length := u32_of_lt hbs
  have hlack : buf.size - buf.writeIndex + buf.readIndex < bs.length := by omega
  have hmake : bufferMakeSpace buf bs.length = bufferExpand buf := by
    simp only [bufferMakeSpace, h.data, hfree, hmore, if_pos hlack]
  have happ : bs.length > bufferWriteableBytes buf := by
    rw [h.writeableBytes]; omega
  have hdata : buf.data.getD [] = d := by rw [h.data]; rfl
  by_cases hreq : 0 < intToSize (u32 (buf.size * 2)) ∧ intToSize (u32 (buf.size * 2)) < 2 ^ 63
  · -- the doubled block, possibly wrapped around, is still too small
    have hint : u32 (buf.size * 2) < 2 ^ 31 := by
      by_contra hge
      rw [intToSize, if_neg hge] at hreq
      have := u32_lt (buf.size * 2)
      omega
    have hsmall : u32 (buf.size * 2) < buf.writeIndex + bs.length := by
      unfold u32 at hint ⊢
      omega
    have hsize : intToSize (u32 (buf.size * 2)) = u32 (buf.size * 2) := if_pos hint
    refine ⟨.outOfBounds, ?_⟩
    simp only [bufferAppend, if_pos happ, hmake, bufferExpand, hdata, zrealloc, if_pos hreq,
      bind, Except.bind, pure, Except.pure]
    rw [memcpy_of_lt]
    simp only [List.length_append, List.length_take, List.length_replicate, hsize]
    omega
  · refine ⟨.outOfMemory, ?_⟩
    simp only [bufferAppend, if_pos happ, hmake, bufferExpand, hdata, zrealloc, if_neg hreq,
      bind, Except.bind]

theorem bufferAppend_of_roomFor {buf : Buffer} {d q bs : List UInt8}
    (h : buf.Holds d q) (hbs : bs.length < 2 ^ 32) (hroom : RoomFor buf bs.length) :
    ∃ buf' d', bufferAppend buf bs = .ok buf' ∧ buf'.Holds d' (q ++ bs) := by
  by_cases happ : bs.length > bufferWriteableBytes buf
  · obtain ⟨b₁, d₁, hmake, hb₁, hfit⟩ := bufferMakeSpace_of_roomFor h hbs hroom
    refine ⟨_, _, ?_, hb₁.store hfit⟩
    simp only [bufferAppend, if_pos happ, hmake, bind, Except.bind, hb₁.data, pure, Except.pure]
    rw [memcpy_of_le (by rw [hb₁.length]; exact hfit)]
  · have hfit : buf.writeIndex + bs.length ≤ buf.size := by
      have hwr := h.write_le
      rw [h.writeableBytes] at happ
      omega
    refine ⟨_, _, ?_, h.store hfit⟩
    simp only [bufferAppend, if_neg happ, bind, Except.bind, h.data, pure, Except.pure]
    rw [memcpy_of_le (by rw [h.length]; exact hfit)]

/-! ## `socketRead` -/

/-- A read that fits in the free space. -/
theorem socketRead_of_le {buf : Buffer} {d q received : List UInt8} (h : buf.Holds d q)
    (hle : received.length ≤ bufferWriteableBytes buf) :
    ∃ buf' d', socketRead buf received = .ok buf' ∧ buf'.Holds d' (q ++ received) := by
  have hwr := h.write_le
  have hfit : buf.writeIndex + received.length ≤ buf.size := by
    rw [h.writeableBytes] at hle
    omega
  refine ⟨_, _, ?_, h.store hfit⟩
  simp only [socketRead, if_pos hle, List.take_of_length_le hle, h.data, bind, Except.bind]
  rw [memcpy_of_le (by rw [h.length]; exact hfit)]
  rfl

/-- A longer read fills the buffer and appends the rest. -/
theorem socketRead_of_lt {buf : Buffer} {d q received : List UInt8} (h : buf.Holds d q)
    (hlt : bufferWriteableBytes buf < received.length) :
    ∃ full d', full.Holds d' (q ++ received.take (bufferWriteableBytes buf)) ∧
      full.size = buf.size ∧ full.writeIndex = buf.size ∧ full.readIndex = buf.readIndex ∧
      socketRead buf received =
        bufferAppend full (received.drop (bufferWriteableBytes buf)) := by
  have hwr := h.write_le
  have hsz := h.size_lt
  have hlen : (received.take (bufferWriteableBytes buf)).length = bufferWriteableBytes buf := by
    rw [List.length_take]
    omega
  have hsum : buf.writeIndex + bufferWriteableBytes buf = buf.size := by
    rw [h.writeableBytes]
    omega
  have hfit : buf.writeIndex + (received.take (bufferWriteableBytes buf)).length ≤ buf.size := by
    rw [hlen, hsum]
  have hfull : u32 (buf.writeIndex + (received.take (bufferWriteableBytes buf)).length) =
      buf.size := by
    rw [hlen, hsum]
    exact u32_of_lt hsz
  refine ⟨_, _, h.store hfit, rfl, hfull, rfl, ?_⟩
  simp only [socketRead, if_neg (Nat.not_le.mpr hlt), h.data, bind, Except.bind]
  rw [memcpy_of_le (by rw [h.length]; exact hfit), hfull]
  rfl

/-! ## Refinement -/

/-- The invariant of a session: the buffer holds the queue. -/
def Session.Inv (s : Session) : Prop := ∃ buf d, s.buf = .ok buf ∧ buf.Holds d s.queue

theorem Session.Inv.refines {s : Session} (h : s.Inv) : s.Refines := by
  obtain ⟨buf, d, hbuf, hd⟩ := h
  exact ⟨buf, hbuf, hd.read_le, hd.write_le, hd.readable⟩

theorem sessionCreate_inv {n : Nat} (hn : 1 ≤ n) (hlt : n < 2 ^ 32) : (sessionCreate n).Inv :=
  ⟨_, _, rfl, bufferCreate_holds hn hlt⟩

theorem bufferRetrieveAll_holds {buf : Buffer} {d q : List UInt8} (h : buf.Holds d q) :
    (bufferRetrieveAll buf).Holds d [] where
  data := h.data
  length := h.length
  size_lt := h.size_lt
  read_le := Nat.le_refl 0
  write_le := Nat.zero_le _
  bytes := by simp [bufferRetrieveAll, kCheapPrepend]

theorem bufferMoveReadIndex_holds {buf : Buffer} {d q : List UInt8} (h : buf.Holds d q)
    (moveLen : Nat) : (bufferMoveReadIndex buf moveLen).Holds d (q.drop moveLen) := by
  have hql := h.queue_length
  by_cases hlt : moveLen < bufferReadableBytes buf
  · have hrd : moveLen < buf.writeIndex - buf.readIndex := by rwa [h.readableBytes] at hlt
    have hwr := h.write_le
    have hsz := h.size_lt
    have hmove : u32 (buf.readIndex + moveLen) = buf.readIndex + moveLen := u32_of_lt (by omega)
    rw [bufferMoveReadIndex, if_pos hlt]
    constructor
    · exact h.data
    · exact h.length
    · exact hsz
    · simp only [hmove]
      omega
    · exact hwr
    · simp only [hmove]
      rw [← h.bytes, List.drop_drop]
  · have hnil : q.drop moveLen = [] := by
      apply List.drop_eq_nil_of_le
      rw [h.readableBytes] at hlt
      omega
    rw [bufferMoveReadIndex, if_neg hlt, hnil]
    exact bufferRetrieveAll_holds h

/-- A step whose operation fits keeps the invariant. -/
theorem Session.Inv.step {s s' : Session} {op : BufferOp} (h : s.Inv)
    (hs : sessionStep s op = some s') (hfits : op.Fits s) : s'.Inv := by
  obtain ⟨buf, d, hbuf, hd⟩ := h
  have hroom := hfits buf hbuf
  cases op with
  | append data =>
      simp only [sessionStep, hbuf, Option.some.injEq] at hs
      subst hs
      obtain ⟨b', d', happ, hd'⟩ := bufferAppend_of_roomFor hd data.2 hroom
      exact ⟨b', d', happ, hd'⟩
  | moveReadIndex moveLen =>
      simp only [sessionStep, hbuf, Option.some.injEq] at hs
      subst hs
      exact ⟨_, _, rfl, bufferMoveReadIndex_holds hd moveLen⟩
  | retrieveAll =>
      simp only [sessionStep, hbuf, Option.some.injEq] at hs
      subst hs
      exact ⟨_, _, rfl, bufferRetrieveAll_holds hd⟩
  | read received =>
      simp only [sessionStep, hbuf, Option.ite_none_right_eq_some, Option.some.injEq] at hs
      obtain ⟨hcap, rfl⟩ := hs
      by_cases hle : received.length ≤ bufferWriteableBytes buf
      · obtain ⟨b', d', hread, hd'⟩ := socketRead_of_le hd hle
        exact ⟨b', d', hread, hd'⟩
      · obtain ⟨full, d', hfull, hsz, hwr, hrd, hread⟩ := socketRead_of_lt hd (Nat.lt_of_not_le hle)
        have hdrop : (received.drop (bufferWriteableBytes buf)).length =
            received.length - bufferWriteableBytes buf := List.length_drop
        have hroom' : RoomFor full (received.drop (bufferWriteableBytes buf)).length := by
          have := hroom (Nat.lt_of_not_le hle)
          simpa [RoomFor, hdrop, hsz, hwr, hrd, bufferSetWriteIndex, bufferGetSize] using this
        obtain ⟨b'', d'', happ, hd''⟩ := bufferAppend_of_roomFor hfull
          (by rw [hdrop]; unfold extrabufSize at hcap; omega) hroom'
        refine ⟨b'', d'', hread.trans happ, ?_⟩
        rw [List.append_assoc, List.take_append_drop] at hd''
        exact hd''

/-- A step whose operation does not fit ends with a fault. -/
theorem Session.Inv.fits_of_refines {s s' : Session} {op : BufferOp} (h : s.Inv)
    (hs : sessionStep s op = some s') (hP : s'.Refines) : op.Fits s := by
  obtain ⟨buf, d, hbuf, hd⟩ := h
  intro b hb
  cases hbuf.symm.trans hb
  obtain ⟨b', hb', -⟩ := hP
  cases op with
  | append data =>
      simp only [sessionStep, hbuf, Option.some.injEq] at hs
      subst hs
      by_contra hroom
      obtain ⟨fault, hfault⟩ := bufferAppend_of_not_roomFor hd data.2 hroom
      cases hfault.symm.trans hb'
  | moveReadIndex moveLen => trivial
  | retrieveAll => trivial
  | read received =>
      intro hlt
      simp only [sessionStep, hbuf, Option.ite_none_right_eq_some, Option.some.injEq] at hs
      obtain ⟨hcap, rfl⟩ := hs
      by_contra hroom
      obtain ⟨full, d', hfull, hsz, hwr, hrd, hread⟩ := socketRead_of_lt hd hlt
      have hdrop : (received.drop (bufferWriteableBytes buf)).length =
          received.length - bufferWriteableBytes buf := List.length_drop
      have hroom' : ¬ RoomFor full (received.drop (bufferWriteableBytes buf)).length := by
        simpa [RoomFor, hdrop, hsz, hwr, hrd, bufferSetWriteIndex, bufferGetSize] using hroom
      obtain ⟨fault, hfault⟩ := bufferAppend_of_not_roomFor hfull
        (by rw [hdrop]; unfold extrabufSize at hcap; omega) hroom'
      cases (hread.trans hfault).symm.trans hb'

/-- A buffer refines the byte queue throughout a run exactly when every append
    and every overflowing read of the run finds room. -/
theorem buffer_refines_queue_iff {n : Nat} (hn : 1 ≤ n) (hlt : n < 2 ^ 32)
    (ops : List BufferOp) :
    Always sessionStep Session.Refines (sessionCreate n) ops ↔
      AllSteps sessionStep (fun s op => op.Fits s) (sessionCreate n) ops :=
  always_iff_allSteps (J := Session.Inv) (fun _ h => h.refines)
    (fun _ _ _ h hs hok => h.step hs hok) (fun _ _ _ h hs hP => h.fits_of_refines hs hP)
    (sessionCreate_inv hn hlt)

set_option maxRecDepth 4000 in
/-- The 64-byte buffer of a new connection takes a first read of 128 bytes. -/
theorem buffer_refines_queue_first_read :
    Always sessionStep Session.Refines (sessionCreate 64) [.read (List.replicate 128 7)] := by
  refine (buffer_refines_queue_iff (by decide) (by decide) _).mpr fun s' _ => ⟨?_, trivial⟩
  rintro buf ⟨⟩ _
  decide

/-- A first read of 129 bytes is stored past the end of its block. -/
theorem buffer_first_read_overflows :
    ¬ Always sessionStep Session.Refines (sessionCreate 64) [.read (List.replicate 129 7)] := by
  intro h
  have hs : sessionStep (sessionCreate 64) (.read (List.replicate 129 7)) =
      some ⟨.error .outOfBounds, List.replicate 129 7⟩ := by decide +kernel
  obtain ⟨buf, hbuf, -⟩ := h.2 _ hs
  cases hbuf

end ZServer
