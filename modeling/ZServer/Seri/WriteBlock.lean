/-
  ZServer.Seri.WriteBlock

  The output of `src/lua-seri.c`: a chain of blocks of 128 bytes, the first four of
  which hold the length.  `_seri` makes one buffer of it: the bytes that have been
  pushed.
-/

import ZServer.Lib.Word

namespace ZServer.Seri

open Lib

def BLOCK_SIZE : Nat := 128

/-- `struct write_block`: the blocks that are full, and the bytes of the current
    one.  `ptr` is how many these are. -/
structure WriteBlock where
  full : List (List UInt8)
  current : List UInt8
  /-- the bits of `len` -/
  len : Nat
  full_length : ∀ b ∈ full, b.length = BLOCK_SIZE
  current_length : current.length ≤ BLOCK_SIZE

/-- The chain of blocks. -/
def WriteBlock.blocks (wb : WriteBlock) : List (List UInt8) := wb.full ++ [wb.current]

def WriteBlock.contents (wb : WriteBlock) : List UInt8 := wb.full.flatten ++ wb.current

/-- `b->current = b->current->next = blk_alloc()` -/
def WriteBlock.next (wb : WriteBlock) (h : wb.current.length = BLOCK_SIZE) : WriteBlock where
  full := wb.full ++ [wb.current]
  current := []
  len := wb.len
  full_length := fun b hb => by
    rcases List.mem_append.mp hb with hb | hb
    · exact wb.full_length b hb
    · rw [List.mem_singleton.mp hb]
      exact h
  current_length := Nat.zero_le _

/-- `memcpy` into the current block. -/
def WriteBlock.copy (wb : WriteBlock) (buf : List UInt8)
    (h : wb.current.length + buf.length ≤ BLOCK_SIZE) : WriteBlock where
  full := wb.full
  current := wb.current ++ buf
  len := (wb.len + buf.length) % 2 ^ 32
  full_length := wb.full_length
  current_length := by
    rw [List.length_append]
    exact h

/-- `wb_push`; `goto _again` comes back with the rest of the bytes. -/
def wbPush (wb : WriteBlock) (buf : List UInt8) : WriteBlock :=
  if h : wb.current.length = BLOCK_SIZE then
    if hfit : buf.length ≤ BLOCK_SIZE then
      (wb.next h).copy buf (by simpa [WriteBlock.next] using hfit)
    else
      wbPush ((wb.next h).copy (buf.take BLOCK_SIZE) (by simp [WriteBlock.next]))
        (buf.drop BLOCK_SIZE)
  else
    let copy := BLOCK_SIZE - wb.current.length
    if hfit : wb.current.length + buf.length ≤ BLOCK_SIZE then wb.copy buf hfit
    else
      wbPush (wb.copy (buf.take copy) (by have hle := wb.current_length; simp [copy]; omega))
        (buf.drop copy)
  termination_by buf.length
  decreasing_by
    all_goals
      have hle := wb.current_length
      unfold BLOCK_SIZE at *
      rw [List.length_drop]
      omega

/-- `wb_init(wb, NULL)`: four bytes for the length. -/
def wbInit : WriteBlock :=
  wbPush ⟨[], [], 0, by rintro _ ⟨⟩, Nat.zero_le _⟩ (leBytes 4 0)

/-- `wb_close` writes the length into the first block. -/
def wbClose (wb : WriteBlock) : List (List UInt8) :=
  match wb.blocks with
  | [] => []
  | head :: rest => (leBytes 4 wb.len ++ head.drop 4) :: rest

/-- The loop of `_seri`; `none` if the chain ends too early. -/
def seriRest (len : Nat) : List (List UInt8) → Option (List UInt8)
  | [] => if len = 0 then some [] else none
  | b :: bs =>
      if len = 0 then some []
      else if BLOCK_SIZE ≤ len then (seriRest (len - BLOCK_SIZE) bs).map fun rest => b ++ rest
      else some (b.take len)

/-- `_seri`: the buffer, and its size as an `int`. -/
def seri : List (List UInt8) → Option (List UInt8 × Int)
  | [] => none
  | b :: bs =>
      let len := u32Sub (leNat (b.take 4)) 4
      if len < BLOCK_SIZE - 4 then some ((b.drop 4).take len, intOf len)
      else (seriRest (len - (BLOCK_SIZE - 4)) bs).map fun rest => (b.drop 4 ++ rest, intOf len)

-- ============================================================================
-- What has been pushed
-- ============================================================================

@[simp] theorem WriteBlock.contents_next (wb : WriteBlock) (h : wb.current.length = BLOCK_SIZE) :
    (wb.next h).contents = wb.contents := by
  simp [WriteBlock.next, WriteBlock.contents]

@[simp] theorem WriteBlock.contents_copy (wb : WriteBlock) (buf : List UInt8)
    (h : wb.current.length + buf.length ≤ BLOCK_SIZE) :
    (wb.copy buf h).contents = wb.contents ++ buf := by
  simp [WriteBlock.copy, WriteBlock.contents]

/-- The bytes are pushed whole, however many blocks they take. -/
theorem contents_wbPush (wb : WriteBlock) (buf : List UInt8) :
    (wbPush wb buf).contents = wb.contents ++ buf := by
  induction wb, buf using wbPush.induct with
  | case1 wb buf h hfit =>
      rw [wbPush, dif_pos h, dif_pos hfit, WriteBlock.contents_copy, WriteBlock.contents_next]
  | case2 wb buf h hfit ih =>
      rw [wbPush, dif_pos h, dif_neg hfit, ih, WriteBlock.contents_copy, WriteBlock.contents_next,
        List.append_assoc, List.take_append_drop]
  | case3 wb buf h hfit =>
      rw [wbPush, dif_neg h, dif_pos hfit, WriteBlock.contents_copy]
  | case4 wb buf h copy hfit ih =>
      rw [wbPush, dif_neg h, dif_neg hfit, ih, WriteBlock.contents_copy, List.append_assoc,
        List.take_append_drop]

theorem len_wbPush (wb : WriteBlock) (buf : List UInt8) :
    (wbPush wb buf).len % 2 ^ 32 = (wb.len + buf.length) % 2 ^ 32 := by
  induction wb, buf using wbPush.induct with
  | case1 wb buf h hfit =>
      rw [wbPush, dif_pos h, dif_pos hfit]
      simp [WriteBlock.copy, WriteBlock.next]
  | case2 wb buf h hfit ih =>
      rw [wbPush, dif_pos h, dif_neg hfit, ih]
      simp only [WriteBlock.copy, WriteBlock.next, List.length_take, List.length_drop]
      omega
  | case3 wb buf h hfit =>
      rw [wbPush, dif_neg h, dif_pos hfit]
      simp [WriteBlock.copy]
  | case4 wb buf h copy hfit ih =>
      rw [wbPush, dif_neg h, dif_neg hfit, ih]
      simp only [WriteBlock.copy, List.length_take, List.length_drop]
      omega

/-- The block has its header, and counts what has been pushed. -/
structure WriteBlock.Counts (wb : WriteBlock) : Prop where
  header : 4 ≤ wb.contents.length
  len : wb.len % 2 ^ 32 = wb.contents.length % 2 ^ 32

theorem wbInit_contents : wbInit.contents = leBytes 4 0 := contents_wbPush ..

theorem wbInit_counts : wbInit.Counts where
  header := by
    rw [wbInit_contents, length_leBytes]
  len := by
    unfold wbInit
    rw [len_wbPush, contents_wbPush]
    rfl

theorem WriteBlock.Counts.wbPush {wb : WriteBlock} (h : wb.Counts) (buf : List UInt8) :
    (wbPush wb buf).Counts where
  header := by
    rw [contents_wbPush, List.length_append]
    have hheader := h.header
    omega
  len := by
    rw [len_wbPush, contents_wbPush, List.length_append]
    have hlen := h.len
    omega

-- ============================================================================
-- The buffer
-- ============================================================================

/-- The loop copies every block that is left. -/
theorem seriRest_eq (fs : List (List UInt8)) (cur : List UInt8)
    (hfs : ∀ b ∈ fs, b.length = BLOCK_SIZE) (hcur : cur.length ≤ BLOCK_SIZE) :
    seriRest (fs.flatten ++ cur).length (fs ++ [cur]) = some (fs.flatten ++ cur) := by
  induction fs with
  | nil =>
      show seriRest cur.length [cur] = some cur
      unfold seriRest
      by_cases hzero : cur.length = 0
      · rw [if_pos hzero, List.length_eq_zero_iff.mp hzero]
      · rw [if_neg hzero]
        by_cases hfull : BLOCK_SIZE ≤ cur.length
        · rw [if_pos hfull, le_antisymm hcur hfull, Nat.sub_self]
          simp [seriRest]
        · rw [if_neg hfull, List.take_length]
  | cons f fs ih =>
      have hf : f.length = BLOCK_SIZE := hfs f List.mem_cons_self
      have ih' := ih fun b hb => hfs b (List.mem_cons_of_mem f hb)
      have hlength : ((f :: fs).flatten ++ cur).length = BLOCK_SIZE + (fs.flatten ++ cur).length := by
        rw [List.flatten_cons, List.append_assoc, List.length_append, hf]
      rw [hlength, List.cons_append]
      unfold seriRest
      rw [if_neg (by unfold BLOCK_SIZE; omega), if_pos (Nat.le_add_right ..), Nat.add_sub_cancel_left,
        ih', List.flatten_cons, List.append_assoc]
      rfl

/-- The length in the header, less the header. -/
theorem headerLen {wb : WriteBlock} (h : wb.Counts) (hlt : wb.contents.length - 4 < 2 ^ 31)
    (rest : List UInt8) :
    u32Sub (leNat ((leBytes 4 wb.len ++ rest).take 4)) 4 = wb.contents.length - 4 := by
  have hheader := h.header
  have hlen := h.len
  rw [List.take_left' (length_leBytes ..), leNat_leBytes]
  unfold u32Sub
  omega

theorem seri_header {wb : WriteBlock} (h : wb.Counts) (hlt : wb.contents.length - 4 < 2 ^ 31)
    (b : List UInt8) (bs : List (List UInt8)) :
    seri ((leBytes 4 wb.len ++ b) :: bs) =
      if wb.contents.length - 4 < BLOCK_SIZE - 4 then
        some (b.take (wb.contents.length - 4), ((wb.contents.length - 4 : Nat) : Int))
      else (seriRest (wb.contents.length - 4 - (BLOCK_SIZE - 4)) bs).map fun rest =>
        (b ++ rest, ((wb.contents.length - 4 : Nat) : Int)) := by
  have hint : intOf (wb.contents.length - 4) = ((wb.contents.length - 4 : Nat) : Int) := if_pos hlt
  have hdrop : (leBytes 4 wb.len ++ b).drop 4 = b := List.drop_left' (length_leBytes ..)
  simp only [seri, headerLen h hlt, hdrop, hint]

/-- The buffer that `_luaseri_pack` returns. -/
theorem seri_wbClose {wb : WriteBlock} (h : wb.Counts) (hlt : wb.contents.length - 4 < 2 ^ 31) :
    seri (wbClose wb) = some (wb.contents.drop 4, ((wb.contents.length - 4 : Nat) : Int)) := by
  have hcur := wb.current_length
  cases hfull : wb.full with
  | nil =>
      have hcontents : wb.contents = wb.current := by
        unfold WriteBlock.contents
        rw [hfull]
        rfl
      have hblocks : wbClose wb = [leBytes 4 wb.len ++ wb.current.drop 4] := by
        unfold wbClose WriteBlock.blocks
        rw [hfull]
        rfl
      rw [hblocks, seri_header h hlt, hcontents]
      by_cases hshort : wb.current.length - 4 < BLOCK_SIZE - 4
      · rw [if_pos hshort, List.take_of_length_le (by simp)]
      · -- the first block is full and the loop does not run
        have hrest : wb.current.length - 4 - (BLOCK_SIZE - 4) = 0 := by omega
        rw [if_neg hshort, hrest]
        simp [seriRest]
  | cons f fs =>
      have hf : f.length = BLOCK_SIZE := wb.full_length f (hfull ▸ List.mem_cons_self)
      have hcontents : wb.contents = f ++ (fs.flatten ++ wb.current) := by
        unfold WriteBlock.contents
        rw [hfull, List.flatten_cons, List.append_assoc]
      have hblocks : wbClose wb = (leBytes 4 wb.len ++ f.drop 4) :: (fs ++ [wb.current]) := by
        unfold wbClose WriteBlock.blocks
        rw [hfull]
        rfl
      have hlength : wb.contents.length - 4 - (BLOCK_SIZE - 4) = (fs.flatten ++ wb.current).length := by
        rw [hcontents, List.length_append, hf]
        unfold BLOCK_SIZE
        omega
      have hlong : ¬ wb.contents.length - 4 < BLOCK_SIZE - 4 := by
        rw [hcontents, List.length_append, hf]
        unfold BLOCK_SIZE
        omega
      rw [hblocks, seri_header h hlt, if_neg hlong, hlength,
        seriRest_eq fs wb.current (fun b hb => wb.full_length b (hfull ▸ List.mem_cons_of_mem f hb))
          hcur, hcontents, List.drop_append_of_le_length (by rw [hf]; decide)]
      rfl

-- ============================================================================
-- Any pushes
-- ============================================================================

theorem contents_pushes (wb : WriteBlock) (bufs : List (List UInt8)) :
    (bufs.foldl wbPush wb).contents = wb.contents ++ bufs.flatten := by
  induction bufs generalizing wb with
  | nil => exact (List.append_nil _).symm
  | cons buf bufs ih =>
      rw [List.foldl_cons, ih, contents_wbPush, List.append_assoc, List.flatten_cons]

theorem WriteBlock.Counts.pushes {wb : WriteBlock} (h : wb.Counts) (bufs : List (List UInt8)) :
    (bufs.foldl Seri.wbPush wb).Counts := by
  induction bufs generalizing wb with
  | nil => exact h
  | cons buf bufs ih => exact ih (h.wbPush buf)

/-- Whatever is pushed comes out whole and in order, in a buffer of its length. -/
theorem seri_pushes (bufs : List (List UInt8)) (hlt : (bufs.map List.length).sum < 2 ^ 31) :
    seri (wbClose (bufs.foldl wbPush wbInit)) =
      some (bufs.flatten, (((bufs.map List.length).sum : Nat) : Int)) := by
  have hcontents : (bufs.foldl wbPush wbInit).contents = leBytes 4 0 ++ bufs.flatten := by
    rw [contents_pushes, wbInit_contents]
  have hlength : (bufs.foldl wbPush wbInit).contents.length - 4 = (bufs.map List.length).sum := by
    rw [hcontents, List.length_append, length_leBytes, Nat.add_sub_cancel_left, List.length_flatten]
  rw [seri_wbClose (wbInit_counts.pushes bufs) (by rw [hlength]; exact hlt), hlength, hcontents,
    List.drop_left' (length_leBytes ..)]

/-- A push that ends with the first block, an empty one, and one over two blocks. -/
theorem seri_pushes_three :
    seri (wbClose ([List.replicate 124 7, [], List.replicate 130 8].foldl wbPush wbInit)) =
      some (List.replicate 124 7 ++ List.replicate 130 8, 254) := by
  have h := seri_pushes [List.replicate 124 7, [], List.replicate 130 8] (by simp)
  rw [h]
  simp only [List.flatten_cons, List.flatten_nil, List.map_cons, List.map_nil, List.sum_cons,
    List.sum_nil, List.length_replicate, List.length_nil, List.nil_append, List.append_nil]
  rfl

end ZServer.Seri
