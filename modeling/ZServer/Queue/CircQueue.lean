/-
  ZServer.Queue.CircQueue

  The circular queue of `src/circqueue.c`.

  A queue created with a size is bounded by it, one with the size 0 grows when its
  array is full; the number of slots is a power of two, and `head` and `tail` go around
  its end.  An element is a `void *`, with `none` for NULL.  An operation is `none` where
  the C code would leave one of its arrays; `zcalloc` aborts rather than return NULL.

  `circQueue_fifo`: every sequence of operations is that of a list, to whose end a push
  that answers 0 appends.
-/

import ZServer.Lib.Circular
import ZServer.Lib.Transition
import ZServer.Lib.Word
import ZServer.Ring.Basic

namespace ZServer

open Lib

variable {α : Type}

-- ============================================================================
-- The queue
-- ============================================================================

/-- `struct circQueue`. -/
structure CircQueue (α : Type) where
  head : Nat
  tail : Nat
  count : Nat
  /-- 0: unbounded -/
  maxEntries : Nat
  arrayElements : Nat
  entries : List (Option α)
  deriving DecidableEq, Repr

def DEFAULT_UNBOUNDED_QUEUE_SIZE : Nat := 1024

/-- `circQueueCreate`; its `nextpow2` is that of the message queues. -/
def circQueueCreate (size : Nat) : CircQueue α :=
  let arrayElements :=
    if size = 0 ∨ nextpow2 size = 0 then DEFAULT_UNBOUNDED_QUEUE_SIZE else nextpow2 size
  ⟨0, 0, 0, size, arrayElements, List.replicate arrayElements none⟩

def circQueueLength (cq : CircQueue α) : Nat := cq.count

def circQueueIsEmpty (cq : CircQueue α) : Bool := cq.count = 0

def circQueueIsFull (cq : CircQueue α) : Bool := cq.count = cq.arrayElements

/-- `_circQueueGrow` -/
def circQueueGrow (cq : CircQueue α) : Option (CircQueue α × Int) :=
  let newsize := u32 (cq.arrayElements <<< 1)
  let headchunklen :=
    if cq.head < cq.tail then u32Sub cq.tail cq.head else u32Sub cq.arrayElements cq.head
  let tailchunklen := if cq.head < cq.tail then 0 else cq.tail
  (copyCells (List.replicate newsize none) 0 cq.entries cq.head headchunklen).bind fun newents =>
    (if tailchunklen ≠ 0 then copyCells newents headchunklen cq.entries 0 tailchunklen
      else some newents).bind fun newents =>
        some ({ cq with
          head := 0
          tail := u32 (headchunklen + tailchunklen)
          arrayElements := newsize
          entries := newents }, 0)

/-- The end of `circQueuePushTail`. -/
def CircQueue.store (cq : CircQueue α) (elem : Option α) : Option (CircQueue α × Int) :=
  if cq.tail < cq.entries.length then
    some ({ cq with
      count := u32 (cq.count + 1)
      entries := cq.entries.set cq.tail elem
      tail := u32 (cq.tail + 1) &&& u32Sub cq.arrayElements 1 }, 0)
  else none

def circQueuePushTail (cq : CircQueue α) (elem : Option α) : Option (CircQueue α × Int) :=
  if cq.maxEntries ≠ 0 then
    if cq.count = cq.maxEntries then some (cq, -2) else cq.store elem
  else if circQueueIsFull cq then
    (circQueueGrow cq).bind fun (cq, ret) => if ret ≠ 0 then some (cq, -1) else cq.store elem
  else cq.store elem

def circQueueForcePushTail (cq : CircQueue α) (elem : Option α) : Option (CircQueue α × Int) :=
  (circQueuePushTail cq elem).bind fun (cq, ret) =>
    if ret = 0 then some (cq, ret)
    else (circQueueGrow cq).bind fun (cq, ret) =>
      if ret = 0 then circQueuePushTail cq elem else some (cq, -1)

def circQueuePopHead (cq : CircQueue α) : Option (CircQueue α × Option α) :=
  if cq.count = 0 then some (cq, none)
  else cq.entries[cq.head]?.bind fun data =>
    some ({ cq with
      count := u32Sub cq.count 1
      head := u32 (cq.head + 1) &&& u32Sub cq.arrayElements 1 }, data)

def circQueueClear (cq : CircQueue α) : CircQueue α := { cq with count := 0, head := 0, tail := 0 }

/-- What is in the queue, from `head` for `count` slots. -/
def CircQueue.content (cq : CircQueue α) : List (Option α) :=
  (List.range cq.count).map fun i => cq.entries.getD ((cq.head + i) % cq.arrayElements) none

-- ============================================================================
-- The invariant
-- ============================================================================

structure CircQueue.Ok (cq : CircQueue α) : Prop where
  pow : ∃ k, k ≤ 31 ∧ cq.arrayElements = 2 ^ k
  length : cq.entries.length = cq.arrayElements
  head_lt : cq.head < cq.arrayElements
  tail_eq : cq.tail = (cq.head + cq.count) % cq.arrayElements
  count_le : cq.count ≤ cq.arrayElements
  bound : cq.maxEntries ≠ 0 → cq.count ≤ cq.maxEntries ∧ cq.maxEntries ≤ cq.arrayElements

section Ok

variable {cq : CircQueue α}

theorem CircQueue.Ok.content_eq (h : cq.Ok) :
    cq.content = around cq.entries cq.head cq.count := by
  unfold CircQueue.content around
  rw [h.length]
  rfl

theorem CircQueue.length_content (cq : CircQueue α) : cq.content.length = cq.count := by
  unfold CircQueue.content
  rw [List.length_map, List.length_range]

theorem CircQueue.Ok.pos (h : cq.Ok) : 0 < cq.arrayElements :=
  Nat.lt_of_le_of_lt (Nat.zero_le _) h.head_lt

theorem CircQueue.Ok.le (h : cq.Ok) : cq.arrayElements ≤ 2 ^ 31 := by
  obtain ⟨k, hk, heq⟩ := h.pow
  rw [heq]
  exact Nat.pow_le_pow_right (by decide) hk

theorem CircQueue.Ok.tail_lt (h : cq.Ok) : cq.tail < cq.arrayElements := by
  rw [h.tail_eq]
  exact Nat.mod_lt _ h.pos

/-- The masks take an index around the end. -/
theorem CircQueue.Ok.mask (h : cq.Ok) {i : Nat} (hi : i < cq.arrayElements) :
    u32 (i + 1) &&& u32Sub cq.arrayElements 1 = (i + 1) % cq.arrayElements := by
  have hle := h.le
  obtain ⟨k, -, heq⟩ := h.pow
  rw [u32_of_lt (by omega), u32Sub_of_le h.pos (by omega), heq, Nat.and_two_pow_sub_one_eq_mod]

-- ============================================================================
-- Creation
-- ============================================================================

/-- The next power of two, for a size that has one below `2 ^ 32`. -/
theorem nextpow2_eq {num : Nat} (hpos : num ≠ 0) (hle : num ≤ 2 ^ 31) :
    ∃ k, k ≤ 31 ∧ nextpow2 num = 2 ^ k ∧ num ≤ 2 ^ k := by
  have hsub : u32Sub num 1 = num - 1 := u32Sub_of_le (by omega) (by omega)
  show ∃ k, k ≤ 31 ∧ u32 (smear32 (u32Sub num 1) + 1) = 2 ^ k ∧ num ≤ 2 ^ k
  rw [hsub]
  rcases smear32_eq (n := num - 1) (by omega) with ⟨hzero, hsmear⟩ | ⟨-, hsmear⟩
  · exact ⟨0, by decide, by rw [hsmear]; rfl, by omega⟩
  · by_cases hone : num = 1
    · subst hone
      exact ⟨0, by decide, rfl, Nat.le_refl _⟩
    · have hlog : (num - 1).log2 < 31 := (Nat.log2_lt (by omega)).mpr (by omega)
      have hself := Nat.lt_log2_self (n := num - 1)
      refine ⟨(num - 1).log2 + 1, hlog, ?_, by omega⟩
      rw [hsmear]
      exact u32_of_lt (Nat.pow_lt_pow_right (by decide) (by omega))

theorem circQueueCreate_ok {size : Nat} (hsize : size ≤ 2 ^ 31) :
    (circQueueCreate size : CircQueue α).Ok ∧
      (circQueueCreate size : CircQueue α).content = [] := by
  have hpow : ∃ k, k ≤ 31 ∧ (circQueueCreate size : CircQueue α).arrayElements = 2 ^ k ∧
      size ≤ 2 ^ k := by
    by_cases hzero : size = 0
    · subst hzero
      exact ⟨10, by decide, rfl, by decide⟩
    · obtain ⟨k, hk, heq, hle⟩ := nextpow2_eq hzero hsize
      refine ⟨k, hk, ?_, hle⟩
      have hne : ¬(size = 0 ∨ nextpow2 size = 0) := by
        rw [heq]
        exact not_or.mpr ⟨hzero, Nat.ne_of_gt (Nat.two_pow_pos k)⟩
      unfold circQueueCreate
      rw [if_neg hne, heq]
  obtain ⟨k, hk, heq, hle⟩ := hpow
  have hpos : 0 < (circQueueCreate size : CircQueue α).arrayElements := by
    rw [heq]
    exact Nat.two_pow_pos k
  exact ⟨⟨⟨k, hk, heq⟩, List.length_replicate, hpos, (Nat.zero_mod _).symm, Nat.zero_le _,
    fun _ => ⟨Nat.zero_le _, hle.trans (Nat.le_of_eq heq.symm)⟩⟩, rfl⟩

-- ============================================================================
-- Growing
-- ============================================================================

/-- Where the tail is: behind the head, or around the end. -/
theorem CircQueue.Ok.tail_cases (h : cq.Ok) (hcount : 0 < cq.count) :
    cq.head < cq.tail ∧ cq.tail = cq.head + cq.count ∨
      cq.tail ≤ cq.head ∧ cq.head + cq.count = cq.arrayElements + cq.tail := by
  have hhead := h.head_lt
  have hle := h.count_le
  have htail := h.tail_eq
  by_cases hwrap : cq.head + cq.count < cq.arrayElements
  · rw [Nat.mod_eq_of_lt hwrap] at htail
    exact Or.inl ⟨by omega, htail⟩
  · rw [Nat.mod_eq_sub_mod (Nat.le_of_not_lt hwrap), Nat.mod_eq_of_lt (by omega)] at htail
    exact Or.inr ⟨by omega, by omega⟩

/-- The content goes to the start of the new array. -/
theorem circQueueGrow_eq (h : cq.Ok) (hcount : 0 < cq.count) (hroom : cq.arrayElements < 2 ^ 31) :
    circQueueGrow cq = some ({ cq with
      head := 0
      tail := cq.count
      arrayElements := 2 * cq.arrayElements
      entries := cq.content ++ List.replicate (2 * cq.arrayElements - cq.count) none }, 0) := by
  have hhead := h.head_lt
  have hle := h.count_le
  have hlen := h.length
  have hnew : u32 (cq.arrayElements <<< 1) = 2 * cq.arrayElements := by
    rw [Nat.shiftLeft_eq, u32_of_lt (by omega)]
    omega
  have hfirst : ∀ {n}, cq.head + n ≤ cq.arrayElements →
      copyCells (List.replicate (2 * cq.arrayElements) none) 0 cq.entries cq.head n =
        some ((cq.entries.drop cq.head).take n ++
          List.replicate (2 * cq.arrayElements - n) none) := fun hn =>
    copyCells_fill [] none (by omega) (by omega)
  unfold circQueueGrow
  simp only [hnew]
  rw [h.content_eq]
  rcases h.tail_cases hcount with ⟨hlt, htail⟩ | ⟨hge, hsum⟩
  · have htlt := h.tail_lt
    have hchunk : u32Sub cq.tail cq.head = cq.count := by
      have hroom' := h.le
      rw [u32Sub_of_le (by omega) (by omega)]
      omega
    rw [if_pos hlt, if_pos hlt, hchunk, hfirst (by omega), around_of_le (by omega)]
    show some _ = some _
    rw [Nat.add_zero, u32_of_lt (by omega)]
  · have hchunk : u32Sub cq.arrayElements cq.head = cq.arrayElements - cq.head :=
      u32Sub_of_le (by omega) (by omega)
    have hrest : cq.head + cq.count - cq.entries.length = cq.tail := by omega
    have hdrop : (cq.entries.drop cq.head).take (cq.arrayElements - cq.head) =
        cq.entries.drop cq.head :=
      List.take_of_length_le (by rw [List.length_drop, hlen])
    rw [if_neg (by omega), if_neg (by omega), hchunk, hfirst (by omega), hdrop,
      around_of_wrap (by omega) (by omega) (by omega), hrest]
    have hcopy : copyCells (cq.entries.drop cq.head ++
        List.replicate (2 * cq.arrayElements - (cq.arrayElements - cq.head)) none)
        (cq.entries.drop cq.head).length cq.entries 0 cq.tail = some (_ ++ _ ++ _) :=
      copyCells_fill _ none (by omega) (by omega)
    rw [List.length_drop, hlen, List.drop_zero] at hcopy
    have hlast : 2 * cq.arrayElements - (cq.arrayElements - cq.head) - cq.tail =
        2 * cq.arrayElements - cq.count := by omega
    rw [hlast] at hcopy
    have hsecond : ∀ newents, newents = cq.entries.drop cq.head ++
        List.replicate (2 * cq.arrayElements - (cq.arrayElements - cq.head)) none →
        (if cq.tail ≠ 0 then copyCells newents (cq.arrayElements - cq.head) cq.entries 0 cq.tail
          else some newents) = some (cq.entries.drop cq.head ++ cq.entries.take cq.tail ++
            List.replicate (2 * cq.arrayElements - cq.count) none) := by
      rintro _ rfl
      by_cases hzero : cq.tail = 0
      · rw [if_neg (not_not.mpr hzero), hzero, List.take_zero, List.append_nil]
        congr 3
        omega
      · rw [if_pos hzero, hcopy]
    rw [Option.bind_some, hsecond _ rfl, Option.bind_some, u32_of_lt (by omega)]
    congr 3
    omega

theorem CircQueue.Ok.pow_double (h : cq.Ok) (hroom : cq.arrayElements < 2 ^ 31) :
    ∃ k, k ≤ 31 ∧ 2 * cq.arrayElements = 2 ^ k := by
  obtain ⟨k, -, heq⟩ := h.pow
  rw [heq] at hroom
  have hlt := (Nat.pow_lt_pow_iff_right (by decide)).mp hroom
  exact ⟨k + 1, hlt, by rw [heq, Nat.pow_succ']⟩

/-- The queue is larger, and otherwise the same. -/
structure Grown (cq cq' : CircQueue α) : Prop where
  ok : cq'.Ok
  content : cq'.content = cq.content
  count : cq'.count = cq.count
  maxEntries : cq'.maxEntries = cq.maxEntries
  arrayElements : cq'.arrayElements = 2 * cq.arrayElements

theorem CircQueue.Ok.grow (h : cq.Ok) (hcount : 0 < cq.count) (hroom : cq.arrayElements < 2 ^ 31) :
    ∃ cq', circQueueGrow cq = some (cq', 0) ∧ Grown cq cq' := by
  have hle := h.count_le
  have hpos := h.pos
  have hlen : (cq.content ++ List.replicate (2 * cq.arrayElements - cq.count) none).length =
      2 * cq.arrayElements := by
    rw [List.length_append, CircQueue.length_content, List.length_replicate]
    omega
  refine ⟨_, circQueueGrow_eq h hcount hroom, ?_⟩
  have hok : CircQueue.Ok { cq with
      head := 0
      tail := cq.count
      arrayElements := 2 * cq.arrayElements
      entries := cq.content ++ List.replicate (2 * cq.arrayElements - cq.count) none } := by
    refine ⟨h.pow_double hroom, hlen, ?_, ?_, ?_, fun hmax => ?_⟩
    · show 0 < 2 * cq.arrayElements
      omega
    · show cq.count = (0 + cq.count) % (2 * cq.arrayElements)
      rw [Nat.zero_add, Nat.mod_eq_of_lt (by omega)]
    · show cq.count ≤ 2 * cq.arrayElements
      omega
    · show cq.count ≤ cq.maxEntries ∧ cq.maxEntries ≤ 2 * cq.arrayElements
      have hbound := h.bound hmax
      omega
  refine ⟨hok, ?_, rfl, rfl, rfl⟩
  rw [hok.content_eq]
  have hstart := around_append cq.content
    (List.replicate (2 * cq.arrayElements - cq.count) (none : Option α))
  rwa [CircQueue.length_content] at hstart

-- ============================================================================
-- The operations
-- ============================================================================

/-- An element is appended. -/
structure Appended (elem : Option α) (cq cq' : CircQueue α) : Prop where
  ok : cq'.Ok
  content : cq'.content = cq.content ++ [elem]
  maxEntries : cq'.maxEntries = cq.maxEntries
  arrayElements : cq.maxEntries ≠ 0 → cq'.arrayElements = cq.arrayElements

theorem CircQueue.Ok.store (h : cq.Ok) (hroom : cq.count < cq.arrayElements)
    (hmax : cq.maxEntries ≠ 0 → cq.count < cq.maxEntries) (elem : Option α) :
    ∃ cq', cq.store elem = some (cq', 0) ∧ Appended elem cq cq' := by
  have htail := h.tail_lt
  have hle := h.le
  have hcount : u32 (cq.count + 1) = cq.count + 1 := u32_of_lt (by omega)
  refine ⟨_, if_pos (by rw [h.length]; exact htail), ?_⟩
  have hok : CircQueue.Ok { cq with
      count := u32 (cq.count + 1)
      entries := cq.entries.set cq.tail elem
      tail := u32 (cq.tail + 1) &&& u32Sub cq.arrayElements 1 } := by
    refine ⟨h.pow, (List.length_set).trans h.length, h.head_lt, ?_, ?_, fun hbound => ?_⟩
    · show u32 (cq.tail + 1) &&& _ = (cq.head + u32 (cq.count + 1)) % cq.arrayElements
      rw [h.mask htail, hcount, h.tail_eq, Nat.mod_add_mod, Nat.add_assoc]
    · show u32 (cq.count + 1) ≤ _
      rw [hcount]
      exact hroom
    · show u32 (cq.count + 1) ≤ _ ∧ _
      rw [hcount]
      exact ⟨hmax hbound, (h.bound hbound).2⟩
  refine ⟨hok, ?_, rfl, fun _ => rfl⟩
  rw [hok.content_eq, h.content_eq]
  show around (cq.entries.set cq.tail elem) cq.head (u32 (cq.count + 1)) = _
  rw [hcount, h.tail_eq, ← h.length, around_set (by rw [h.length]; exact hroom)]

/-- A bounded queue is full. -/
def CircQueue.AtBound (cq : CircQueue α) : Prop := cq.maxEntries ≠ 0 ∧ cq.count = cq.maxEntries

instance (cq : CircQueue α) : Decidable cq.AtBound := by
  unfold CircQueue.AtBound
  infer_instance

/-- An unbounded queue is full, and its array is too. -/
def CircQueue.AtEnd (cq : CircQueue α) : Prop :=
  cq.maxEntries = 0 ∧ cq.count = cq.arrayElements

instance (cq : CircQueue α) : Decidable cq.AtEnd := by
  unfold CircQueue.AtEnd
  infer_instance

theorem circQueuePushTail_atBound (hfull : cq.AtBound) (elem : Option α) :
    circQueuePushTail cq elem = some (cq, -2) := by
  unfold circQueuePushTail
  rw [if_pos hfull.1, if_pos hfull.2]

theorem CircQueue.Ok.push (h : cq.Ok) (hfull : ¬cq.AtBound)
    (hroom : cq.AtEnd → cq.arrayElements < 2 ^ 31) (elem : Option α) :
    ∃ cq', circQueuePushTail cq elem = some (cq', 0) ∧ Appended elem cq cq' := by
  unfold circQueuePushTail
  by_cases hmax : cq.maxEntries ≠ 0
  · have hne : cq.count ≠ cq.maxEntries := fun heq => hfull ⟨hmax, heq⟩
    have hbound := h.bound hmax
    rw [if_pos hmax, if_neg hne]
    exact h.store (by omega) (fun _ => by omega) elem
  · rw [if_neg hmax]
    have hzero : cq.maxEntries = 0 := not_not.mp hmax
    by_cases hend : cq.count = cq.arrayElements
    · obtain ⟨cq', hgrow, hok, hcontent, hcount, hmaxEntries, harray⟩ :=
        h.grow (by rw [hend]; exact h.pos) (hroom ⟨hzero, hend⟩)
      have hpos := h.pos
      obtain ⟨cq'', hstore, hok', hcontent', hmaxEntries', -⟩ :=
        hok.store (by omega) (fun hne => absurd (hmaxEntries.trans hzero) hne) elem
      refine ⟨cq'', ?_, hok', hcontent'.trans (by rw [hcontent]), hmaxEntries'.trans hmaxEntries,
        fun hne => absurd hzero hne⟩
      rw [if_pos (show circQueueIsFull cq = true from decide_eq_true hend), hgrow]
      exact hstore
    · have hle := h.count_le
      rw [if_neg (show ¬circQueueIsFull cq = true from fun hfull => hend (of_decide_eq_true hfull))]
      exact h.store (by omega) (fun hne => absurd hzero hne) elem

/-- On a bounded queue that is full, a forced push lets the array grow, and is refused
    again. -/
theorem CircQueue.Ok.forcePush_atBound (h : cq.Ok) (hfull : cq.AtBound)
    (hroom : cq.arrayElements < 2 ^ 31) (elem : Option α) :
    ∃ cq', circQueueForcePushTail cq elem = some (cq', -2) ∧ Grown cq cq' := by
  obtain ⟨cq', hgrow, hgrown⟩ := h.grow (by have := hfull.1; have := hfull.2; omega) hroom
  have hfull' : cq'.AtBound :=
    ⟨by rw [hgrown.maxEntries]; exact hfull.1,
      by rw [hgrown.count, hgrown.maxEntries]; exact hfull.2⟩
  refine ⟨cq', ?_, hgrown⟩
  unfold circQueueForcePushTail
  rw [circQueuePushTail_atBound hfull, Option.bind_some]
  simp only [if_neg (show ¬(-2 : Int) = 0 by decide)]
  rw [hgrow, Option.bind_some]
  simp only [if_pos]
  exact circQueuePushTail_atBound hfull' elem

theorem CircQueue.Ok.forcePush (h : cq.Ok) (hfull : ¬cq.AtBound)
    (hroom : cq.AtEnd → cq.arrayElements < 2 ^ 31) (elem : Option α) :
    ∃ cq', circQueueForcePushTail cq elem = some (cq', 0) ∧ Appended elem cq cq' := by
  obtain ⟨cq', hpush, happended⟩ := h.push hfull hroom elem
  refine ⟨cq', ?_, happended⟩
  unfold circQueueForcePushTail
  rw [hpush]
  rfl

theorem CircQueue.Ok.pop (h : cq.Ok) (hcount : cq.count ≠ 0) :
    ∃ cq' data, circQueuePopHead cq = some (cq', data) ∧ cq'.Ok ∧
      cq.content = data :: cq'.content ∧ cq'.maxEntries = cq.maxEntries ∧
      cq'.arrayElements = cq.arrayElements := by
  have hhead : cq.head < cq.entries.length := by
    rw [h.length]
    exact h.head_lt
  have hle := h.le
  have hcl := h.count_le
  have hsub : u32Sub cq.count 1 = cq.count - 1 := u32Sub_of_le (by omega) (by omega)
  have hmask := h.mask h.head_lt
  refine ⟨{ cq with
    count := u32Sub cq.count 1
    head := u32 (cq.head + 1) &&& u32Sub cq.arrayElements 1 }, cq.entries[cq.head], ?_, ?_⟩
  · unfold circQueuePopHead
    rw [if_neg hcount, List.getElem?_eq_getElem hhead]
    rfl
  · have hok : CircQueue.Ok { cq with
        count := u32Sub cq.count 1
        head := u32 (cq.head + 1) &&& u32Sub cq.arrayElements 1 } := by
      refine ⟨h.pow, h.length, ?_, ?_, ?_, fun hmax => ?_⟩
      · show u32 (cq.head + 1) &&& _ < _
        rw [hmask]
        exact Nat.mod_lt _ h.pos
      · show cq.tail = (_ + u32Sub cq.count 1) % cq.arrayElements
        have hsum : cq.head + 1 + (cq.count - 1) = cq.head + cq.count := by omega
        rw [hmask, hsub, Nat.mod_add_mod, hsum]
        exact h.tail_eq
      · show u32Sub cq.count 1 ≤ cq.arrayElements
        omega
      · show u32Sub cq.count 1 ≤ cq.maxEntries ∧ cq.maxEntries ≤ cq.arrayElements
        have hbound := h.bound hmax
        exact ⟨by omega, hbound.2⟩
    refine ⟨hok, ?_, rfl, rfl⟩
    rw [hok.content_eq, h.content_eq]
    show around cq.entries cq.head cq.count = _ :: around cq.entries (_ &&& _) (u32Sub cq.count 1)
    obtain ⟨n, hn⟩ := Nat.exists_eq_succ_of_ne_zero hcount
    rw [hsub, hmask, hn, Nat.succ_sub_one, ← h.length, around_succ hhead,
      List.getD_eq_getElem _ _ hhead]

theorem circQueuePopHead_empty (hcount : cq.count = 0) :
    circQueuePopHead cq = some (cq, none) := if_pos hcount

theorem CircQueue.Ok.clear (h : cq.Ok) :
    (circQueueClear cq).Ok ∧ (circQueueClear cq).content = [] :=
  ⟨⟨h.pow, h.length, h.pos, (Nat.zero_mod _).symm, Nat.zero_le _,
    fun hmax => ⟨Nat.zero_le _, (h.bound hmax).2⟩⟩, rfl⟩

/-- An array of `2 ^ 31` slots cannot grow: the new one would have none. -/
theorem CircQueue.Ok.grow_none (h : cq.Ok) (hroom : ¬cq.arrayElements < 2 ^ 31) :
    circQueueGrow cq = none := by
  have hle := h.le
  have hhead := h.head_lt
  have htail := h.tail_lt
  have harray : cq.arrayElements = 2 ^ 31 := by omega
  have hnew : u32 (cq.arrayElements <<< 1) = 0 := by
    rw [harray]
    rfl
  have hfirst : ∀ {n}, 0 < n →
      copyCells (List.replicate 0 none) 0 cq.entries cq.head n = none := fun hn => by
    unfold copyCells
    rw [if_neg (by rw [List.length_replicate]; omega)]
  unfold circQueueGrow
  simp only [hnew]
  by_cases hlt : cq.head < cq.tail
  · rw [if_pos hlt, hfirst (by rw [u32Sub_of_le (by omega) (by omega)]; omega)]
    rfl
  · rw [if_neg hlt, hfirst (by rw [u32Sub_of_le (by omega) (by omega)]; omega)]
    rfl

theorem CircQueue.Ok.push_none (h : cq.Ok) (hend : cq.AtEnd) (hroom : ¬cq.arrayElements < 2 ^ 31)
    (elem : Option α) : circQueuePushTail cq elem = none := by
  have hfull : circQueueIsFull cq = true := decide_eq_true hend.2
  unfold circQueuePushTail
  rw [if_neg (not_not.mpr hend.1), if_pos hfull, h.grow_none hroom]
  rfl

theorem CircQueue.Ok.forcePush_none (h : cq.Ok) (hfull : cq.AtEnd ∨ cq.AtBound)
    (hroom : ¬cq.arrayElements < 2 ^ 31) (elem : Option α) :
    circQueueForcePushTail cq elem = none := by
  unfold circQueueForcePushTail
  rcases hfull with hend | hbound
  · rw [h.push_none hend hroom]
    rfl
  · rw [circQueuePushTail_atBound hbound, Option.bind_some]
    simp only [if_neg (show ¬(-2 : Int) = 0 by decide)]
    rw [h.grow_none hroom]
    rfl

end Ok

-- ============================================================================
-- Sequences of operations
-- ============================================================================

inductive CircOp (α : Type) where
  | pushTail (elem : Option α)
  | forcePushTail (elem : Option α)
  | popHead
  | clear

inductive CircAnswer (α : Type) where
  | ret (ret : Int)
  | data (data : Option α)
  | void

def CircQueue.perform (cq : CircQueue α) : CircOp α → Option (CircQueue α × CircAnswer α)
  | .pushTail elem => (circQueuePushTail cq elem).map fun r => (r.1, .ret r.2)
  | .forcePushTail elem => (circQueueForcePushTail cq elem).map fun r => (r.1, .ret r.2)
  | .popHead => (circQueuePopHead cq).map fun r => (r.1, .data r.2)
  | .clear => some (circQueueClear cq, .void)

/-- The array stays below `2 ^ 32` slots. -/
def CircQueue.Room (cq : CircQueue α) : CircOp α → Prop
  | .pushTail _ => cq.AtEnd → cq.arrayElements < 2 ^ 31
  | .forcePushTail _ => cq.AtEnd ∨ cq.AtBound → cq.arrayElements < 2 ^ 31
  | _ => True

/-- What the operation with that answer does to a list. -/
def fifo (l : List (Option α)) : CircOp α → CircAnswer α → List (Option α)
  | .pushTail elem, .ret ret => if ret = 0 then l ++ [elem] else l
  | .forcePushTail elem, .ret ret => if ret = 0 then l ++ [elem] else l
  | .popHead, _ => l.tail
  | .clear, _ => []
  | _, _ => l

/-- The answers that a list allows: a push is taken or refused, and a pop returns the
    first element, or NULL when there is none. -/
def Fits (l : List (Option α)) : CircOp α → CircAnswer α → Prop
  | .pushTail _, .ret ret => ret ≤ 0
  | .forcePushTail _, .ret ret => ret ≤ 0
  | .popHead, .data data => data = l.head?.join
  | .clear, .void => True
  | _, _ => False

theorem CircQueue.Ok.perform {cq : CircQueue α} (h : cq.Ok) (op : CircOp α) :
    (∃ cq' ans, cq.perform op = some (cq', ans) ∧ Fits cq.content op ans ∧ cq'.Ok ∧
        cq'.content = fifo cq.content op ans) ∨
      ¬cq.Room op ∧ cq.perform op = none := by
  unfold CircQueue.perform CircQueue.Room
  cases op with
  | pushTail elem =>
      by_cases hfull : cq.AtBound
      · refine Or.inl ⟨cq, .ret (-2), ?_, show (-2 : Int) ≤ 0 by decide, h, rfl⟩
        simp only [circQueuePushTail_atBound hfull]
        rfl
      · by_cases hroom : cq.AtEnd → cq.arrayElements < 2 ^ 31
        · obtain ⟨cq', hpush, hok, hcontent, -⟩ := h.push hfull hroom elem
          refine Or.inl ⟨cq', .ret 0, ?_, Int.le_refl 0, hok, hcontent⟩
          simp only [hpush]
          rfl
        · obtain ⟨hend, hlt⟩ := Classical.not_imp.mp hroom
          refine Or.inr ⟨hroom, ?_⟩
          simp only [h.push_none hend hlt]
          rfl
  | forcePushTail elem =>
      by_cases hroom : cq.AtEnd ∨ cq.AtBound → cq.arrayElements < 2 ^ 31
      · by_cases hfull : cq.AtBound
        · obtain ⟨cq', hpush, hgrown⟩ := h.forcePush_atBound hfull (hroom (Or.inr hfull)) elem
          refine Or.inl ⟨cq', .ret (-2), ?_, show (-2 : Int) ≤ 0 by decide, hgrown.ok,
            hgrown.content.trans rfl⟩
          simp only [hpush]
          rfl
        · obtain ⟨cq', hpush, hok, hcontent, -⟩ :=
            h.forcePush hfull (fun hend => hroom (Or.inl hend)) elem
          refine Or.inl ⟨cq', .ret 0, ?_, Int.le_refl 0, hok, hcontent⟩
          simp only [hpush]
          rfl
      · obtain ⟨hfull, hlt⟩ := Classical.not_imp.mp hroom
        refine Or.inr ⟨hroom, ?_⟩
        simp only [h.forcePush_none hfull hlt]
        rfl
  | popHead =>
      by_cases hcount : cq.count = 0
      · have hnil : cq.content = [] :=
          List.eq_nil_of_length_eq_zero (cq.length_content.trans hcount)
        refine Or.inl ⟨cq, .data none, ?_, ?_, h, ?_⟩
        · simp only [circQueuePopHead_empty hcount]
          rfl
        · rw [hnil]
          rfl
        · rw [hnil]
          rfl
      · obtain ⟨cq', data, hpop, hok, hcontent, -⟩ := h.pop hcount
        refine Or.inl ⟨cq', .data data, ?_, ?_, hok, ?_⟩
        · simp only [hpop]
          rfl
        · rw [hcontent]
          rfl
        · rw [hcontent]
          rfl
  | clear =>
      obtain ⟨hok, hnil⟩ := h.clear
      exact Or.inl ⟨_, _, rfl, trivial, hok, hnil⟩

/-- The queue, and the list that it stands for. -/
def fifoStep (s : CircQueue α × List (Option α)) (op : CircOp α) :
    Option (CircQueue α × List (Option α)) :=
  (s.1.perform op).map fun r => (r.1, fifo s.2 op r.2)

/-- The queue is the list: in its content, in what an operation answers, and after its
    array has grown. -/
structure IsFifo (s : CircQueue α × List (Option α)) : Prop where
  content : s.1.content = s.2
  answers : ∀ op, s.1.Room op → ∃ cq' ans, s.1.perform op = some (cq', ans) ∧ Fits s.2 op ans
  grows : 0 < s.1.count → s.1.arrayElements < 2 ^ 31 →
    ∃ cq', circQueueGrow s.1 = some (cq', 0) ∧ cq'.content = s.2 ∧
      cq'.arrayElements = 2 * s.1.arrayElements

theorem CircQueue.Ok.isFifo {cq : CircQueue α} (h : cq.Ok) : IsFifo (cq, cq.content) where
  content := rfl
  answers := fun op hroom => by
    rcases h.perform op with ⟨cq', ans, hop, hfits, -⟩ | ⟨hno, -⟩
    · exact ⟨cq', ans, hop, hfits⟩
    · exact absurd hroom hno
  grows := fun hcount hroom => by
    obtain ⟨cq', hgrow, hgrown⟩ := h.grow hcount hroom
    exact ⟨cq', hgrow, hgrown.content, hgrown.arrayElements⟩

/-- Every sequence of operations on a new queue is that of a list. -/
theorem circQueue_fifo {size : Nat} (hsize : size ≤ 2 ^ 31) (ops : List (CircOp α)) :
    Always fifoStep IsFifo (circQueueCreate size, []) ops := by
  obtain ⟨hok, hnil⟩ := circQueueCreate_ok (α := α) hsize
  refine always_of_invariant (J := fun s => s.1.Ok ∧ s.1.content = s.2) ?_ ?_ ⟨hok, hnil⟩
  · rintro ⟨cq, l⟩ ⟨hok, hl⟩
    have hl : cq.content = l := hl
    rw [← hl]
    exact hok.isFifo
  · rintro ⟨cq, l⟩ op s' ⟨hok, hl⟩ hs
    have hl : cq.content = l := hl
    subst hl
    rcases hok.perform op with ⟨cq', ans, hop, -, hok', hcontent⟩ | ⟨-, hop⟩
    · unfold fifoStep at hs
      simp only [hop, Option.map_some, Option.some.injEq] at hs
      rw [← hs]
      exact ⟨hok', hcontent⟩
    · unfold fifoStep at hs
      simp only [hop] at hs
      cases hs

/-- A queue of three: its four slots are used around the end, and doubled by a forced
    push that is refused. -/
theorem circQueue_fifo_three :
    Always fifoStep IsFifo ((circQueueCreate 3 : CircQueue Nat), [])
      [.pushTail (some 1), .pushTail (some 2), .popHead, .pushTail (some 3), .pushTail (some 4),
        .forcePushTail none] ∧
    (runFrom fifoStep ((circQueueCreate 3 : CircQueue Nat), [])
      [.pushTail (some 1), .pushTail (some 2), .popHead, .pushTail (some 3), .pushTail (some 4),
        .forcePushTail none]).map (fun s => (s.1.arrayElements, s.2)) =
      some (8, [some 2, some 3, some 4]) :=
  ⟨circQueue_fifo (by decide) _, rfl⟩

end ZServer
