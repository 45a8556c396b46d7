/-
  ZServer.Queue.BlockQueue

  The blocking queue of `src/blockqueue.c`: a circular queue under a mutex, with a
  condition variable that a push signals.  What a function does to the circular queue
  is done under the mutex, so it is one step of the thread that calls it.

  NULL is the sentinel: `blockQueueExit` pushes it by force, and a consumer that takes it
  ends.
-/

import ZServer.Queue.CircQueue

namespace ZServer

open Lib

variable {α : Type}

-- ============================================================================
-- The functions
-- ============================================================================

/-- `blockQueueCreate` -/
def blockQueueCreate (maxSize : Nat) : CircQueue α := circQueueCreate maxSize

def blockQueuePush (cq : CircQueue α) (elem : Option α) : Option (CircQueue α × Int) :=
  (circQueuePushTail cq elem).map fun r => (r.1, if r.2 < 0 then -1 else 0)

/-- `blockQueueExit`; that a forced push fails is only printed. -/
def blockQueueExit (cq : CircQueue α) : Option (CircQueue α) :=
  (circQueueForcePushTail cq none).map fun r => r.1

/-- `blockQueueTake`, which waits as long as the queue is empty. -/
def blockQueueTake (cq : CircQueue α) : Option (CircQueue α × Option α) :=
  if circQueueIsEmpty cq then none else circQueuePopHead cq

def blockQueueLength (cq : CircQueue α) : Nat := circQueueLength cq

/-- What `n` calls of `blockQueueTake` return. -/
def takes : Nat → CircQueue α → Option (List (Option α))
  | 0, _ => some []
  | n + 1, cq => (blockQueueTake cq).bind fun r => (takes n r.1).map fun elems => r.2 :: elems

-- ============================================================================
-- What they do
-- ============================================================================

section Functions

variable {cq : CircQueue α}

theorem blockQueueLength_eq (cq : CircQueue α) : blockQueueLength cq = cq.content.length :=
  cq.length_content.symm

theorem circQueueIsEmpty_iff (cq : CircQueue α) : circQueueIsEmpty cq = true ↔ cq.content = [] := by
  unfold circQueueIsEmpty
  rw [decide_eq_true_iff, ← cq.length_content, List.length_eq_zero_iff]

/-- The first element is taken. -/
theorem CircQueue.Ok.take (h : cq.Ok) {data : Option α} {l : List (Option α)}
    (hcontent : cq.content = data :: l) :
    ∃ cq', blockQueueTake cq = some (cq', data) ∧ cq'.Ok ∧ cq'.content = l ∧
      cq'.maxEntries = cq.maxEntries ∧ cq'.arrayElements = cq.arrayElements := by
  have hcount : cq.count ≠ 0 := by
    rw [← cq.length_content, hcontent]
    exact Nat.succ_ne_zero _
  obtain ⟨cq', data', hpop, hok, hcontent', hsame⟩ := h.pop hcount
  obtain ⟨rfl, rfl⟩ := List.cons.inj (hcontent.symm.trans hcontent')
  refine ⟨cq', ?_, hok, rfl, hsame⟩
  unfold blockQueueTake
  rw [if_neg (show ¬circQueueIsEmpty cq = true from fun h => hcount (of_decide_eq_true h))]
  exact hpop

theorem CircQueue.Ok.takes_all (h : cq.Ok) : takes cq.content.length cq = some cq.content := by
  generalize hl : cq.content = l
  induction l generalizing cq with
  | nil => rfl
  | cons data l ih =>
      obtain ⟨cq', htake, hok, hcontent, -⟩ := h.take hl
      show (blockQueueTake cq).bind _ = _
      rw [htake, Option.bind_some, ih hok hcontent]
      rfl

/-- One call more waits. -/
theorem CircQueue.Ok.takes_more (h : cq.Ok) : takes (cq.content.length + 1) cq = none := by
  generalize hl : cq.content = l
  induction l generalizing cq with
  | nil =>
      show (blockQueueTake cq).bind _ = _
      unfold blockQueueTake
      rw [if_pos ((circQueueIsEmpty_iff cq).mpr hl)]
      rfl
  | cons data l ih =>
      obtain ⟨cq', htake, hok, hcontent, -⟩ := h.take hl
      show (blockQueueTake cq).bind _ = _
      rw [htake, Option.bind_some, List.length_cons, ih hok hcontent]
      rfl

/-- A forced push has a place: the queue is not bounded and full, and its array can
    grow if it has to. -/
def CircQueue.HasRoom (cq : CircQueue α) : Prop :=
  ¬cq.AtBound ∧ (cq.AtEnd → cq.arrayElements < 2 ^ 31)

instance (cq : CircQueue α) : Decidable cq.HasRoom := by
  unfold CircQueue.HasRoom
  infer_instance

/-- A forced push that has no place fails, or does not return. -/
theorem CircQueue.Ok.forcePush_lost (h : cq.Ok) (hroom : ¬cq.HasRoom) (elem : Option α) :
    circQueueForcePushTail cq elem = none ∨
      ∃ cq', circQueueForcePushTail cq elem = some (cq', -2) ∧ Grown cq cq' := by
  by_cases hfull : cq.AtBound
  · by_cases hlt : cq.arrayElements < 2 ^ 31
    · exact Or.inr (h.forcePush_atBound hfull hlt elem)
    · exact Or.inl (h.forcePush_none (Or.inr hfull) hlt elem)
  · obtain ⟨hend, hlt⟩ := Classical.not_imp.mp fun hlt => hroom ⟨hfull, hlt⟩
    exact Or.inl (h.forcePush_none (Or.inl hend) hlt elem)

/-- Every forced push is answered with 0, and appends its element. -/
def CircQueue.PushesForced (cq : CircQueue α) : Prop :=
  ∀ elem, ∃ cq', circQueueForcePushTail cq elem = some (cq', 0) ∧ cq'.content = cq.content ++ [elem]

theorem CircQueue.Ok.pushesForced_iff (h : cq.Ok) : cq.PushesForced ↔ cq.HasRoom := by
  constructor
  · intro hpush
    by_contra hroom
    obtain ⟨cq', hret, -⟩ := hpush none
    rcases h.forcePush_lost hroom none with hnone | ⟨cq'', hlost, -⟩
    · rw [hnone] at hret
      cases hret
    · rw [hlost] at hret
      cases hret
  · intro hroom elem
    obtain ⟨cq', hpush, -, hcontent, -⟩ := h.forcePush hroom.1 hroom.2 elem
    exact ⟨cq', hpush, hcontent⟩

/-- After `blockQueueExit`, the consumer takes what is queued and then NULL. -/
def CircQueue.ExitsLast (cq : CircQueue α) : Prop :=
  ∃ cq', blockQueueExit cq = some cq' ∧
    takes (cq.content.length + 1) cq' = some (cq.content ++ [none])

theorem CircQueue.Ok.exit (h : cq.Ok) (hroom : cq.HasRoom) :
    ∃ cq', blockQueueExit cq = some cq' ∧ Appended none cq cq' := by
  obtain ⟨cq', hpush, happended⟩ := h.forcePush hroom.1 hroom.2 none
  refine ⟨cq', ?_, happended⟩
  unfold blockQueueExit
  rw [hpush]
  rfl

theorem CircQueue.Ok.exitsLast_iff (h : cq.Ok) : cq.ExitsLast ↔ cq.HasRoom := by
  constructor
  · rintro ⟨cq', hexit, htakes⟩
    by_contra hroom
    unfold blockQueueExit at hexit
    rcases h.forcePush_lost hroom none with hnone | ⟨cq'', hlost, hgrown⟩
    · rw [hnone] at hexit
      cases hexit
    · rw [hlost] at hexit
      cases hexit
      rw [← hgrown.content, hgrown.ok.takes_more] at htakes
      cases htakes
  · intro hroom
    obtain ⟨cq', hexit, hok, hcontent, -⟩ := h.exit hroom
    refine ⟨cq', hexit, ?_⟩
    have htakes := hok.takes_all
    rwa [hcontent, List.length_append] at htakes

end Functions

/-- The queues of `circQueue_fifo` meet the invariant. -/
theorem circQueue_ok {size : Nat} (hsize : size ≤ 2 ^ 31) {s : CircQueue α × List (Option α)}
    (h : Reachable fifoStep (circQueueCreate size, []) s) : s.1.Ok := by
  refine h.invariant (J := fun s => s.1.Ok) (circQueueCreate_ok hsize).1 ?_
  rintro ⟨cq, l⟩ op s' hok hs
  unfold fifoStep at hs
  rcases hok.perform op with ⟨cq', ans, hop, -, hok', -⟩ | ⟨-, hop⟩
  · simp only [hop, Option.map_some, Option.some.injEq] at hs
    rw [← hs]
    exact hok'
  · simp only [hop] at hs
    cases hs

end ZServer
