/-
  ZServer.Queue.Log

  The log thread of `src/log.c`, with `z_log_state` other than 0.

  Any thread may hand a line to the log thread (`logInfo`); the main thread asks it once
  to end (`logExit`), by a NULL in the queue.  When the log thread takes the NULL while
  there are lines behind it, it puts the NULL back at the end.  The queue is bounded, and
  `logExit` does not say whether the NULL has been taken: `sentinel_kept` says what is
  left of the shutdown when every `blockQueueExit` finds room.
-/

import ZServer.Lib.Threads
import ZServer.Queue.BlockQueue

namespace ZServer

open Lib

variable {α : Type}

-- ============================================================================
-- The log
-- ============================================================================

def SYS_LOG_QUEUE_LEN : Nat := 1024

/-- `struct log`, whether the log thread is blocked in `pthread_cond_wait`, and the
    history of the lines. -/
structure Log (α : Type) where
  queue : CircQueue α
  blocked : Bool
  /-- 1, until the log thread has ended -/
  exit : Int
  /-- the lines that `handleLog` has written -/
  written : List α
  /-- the lines that `blockQueuePush` has taken -/
  queued : List α
  /-- those that it had taken when the main thread called `logExit` -/
  atExit : Option (List α)

/-- Where a thread stands; `exits` is set for the main thread as long as it has not
    called `logExit`. -/
inductive LogPc (α : Type) where
  | user (exits : Bool)
  /-- in `logInfo`, before the push -/
  | push (exits : Bool) (buf : α)
  /-- the log thread, before `blockQueueTake` -/
  | take
  | wait
  /-- it has taken NULL -/
  | length
  | requeue
  | handle (buf : α)
  | ended
  deriving DecidableEq, Repr

inductive LogChoice (α : Type) where
  | logInfo (buf : α)
  | logExit
  /-- the thread goes on; a thread that is blocked may wake up for no reason -/
  | run (spurious : Bool)

/-- One action of one thread. -/
def logPcStep (L : Log α) (pc : LogPc α) (choice : LogChoice α) : Option (Log α × LogPc α) :=
  match pc, choice with
  | .user exits, .logInfo buf =>
      some (L, if L.exit = 0 then .user exits else .push exits buf)
  | .push exits buf, .run _ =>
      (blockQueuePush L.queue (some buf)).map fun r =>
        if r.2 < 0 then ({ L with queue := r.1 }, .user exits)
        else ({ L with queue := r.1, blocked := false, queued := L.queued ++ [buf] }, .user exits)
  | .user true, .logExit =>
      (blockQueueExit L.queue).map fun queue =>
        ({ L with queue := queue, blocked := false, atExit := some L.queued }, .user false)
  | .take, .run _ =>
      match blockQueueTake L.queue with
      | none => if circQueueIsEmpty L.queue then some ({ L with blocked := true }, .wait) else none
      | some (queue, none) => some ({ L with queue := queue }, .length)
      | some (queue, some buf) => some ({ L with queue := queue }, .handle buf)
  | .wait, .run spurious =>
      if L.blocked ∧ ¬spurious then none else some ({ L with blocked := false }, .take)
  | .length, .run _ =>
      if blockQueueLength L.queue = 0 then some ({ L with exit := 0 }, .ended)
      else some (L, .requeue)
  | .requeue, .run _ =>
      (blockQueueExit L.queue).map fun queue =>
        ({ L with queue := queue, blocked := false }, .take)
  | .handle buf, .run _ => some ({ L with written := L.written ++ [buf] }, .take)
  | _, _ => none

/-- `logInit` -/
def logInit {ι : Type} [DecidableEq ι] (logger main : ι) : Config ι (Log α) (LogPc α) where
  shared := ⟨blockQueueCreate SYS_LOG_QUEUE_LEN, false, 1, [], [], none⟩
  pcs := fun i => if i = logger then .take else .user (decide (i = main))

-- ============================================================================
-- Moves
-- ============================================================================

/-- The action is a `blockQueueExit`. -/
def LogPc.Exits (pc : LogPc α) (choice : LogChoice α) : Prop :=
  match pc, choice with
  | .user true, .logExit => True
  | .requeue, .run _ => True
  | _, _ => False

instance (pc : LogPc α) (choice : LogChoice α) : Decidable (pc.Exits choice) := by
  unfold LogPc.Exits
  split <;> infer_instance

/-- What one action of one thread does; `queue` is always one that meets the invariant
    and has the old bound. -/
inductive LogMove (L : Log α) : LogPc α → Log α → LogPc α → Prop where
  | check (exits : Bool) (pc : LogPc α) (hpc : pc = .user exits ∨ ∃ buf, pc = .push exits buf) :
      LogMove L (.user exits) L pc
  | refused (exits : Bool) (buf : α) : LogMove L (.push exits buf) L (.user exits)
  | pushed (exits : Bool) (buf : α) (queue : CircQueue α)
      (hqueue : Appended (some buf) L.queue queue) :
      LogMove L (.push exits buf)
        { L with queue := queue, blocked := false, queued := L.queued ++ [buf] } (.user exits)
  | exit (queue : CircQueue α) (hqueue : Appended none L.queue queue) :
      LogMove L (.user true)
        { L with queue := queue, blocked := false, atExit := some L.queued } (.user false)
  | block (hempty : L.queue.content = []) : LogMove L .take { L with blocked := true } .wait
  | took (data : Option α) (queue : CircQueue α) (hok : queue.Ok)
      (hcontent : L.queue.content = data :: queue.content)
      (hmax : queue.maxEntries = L.queue.maxEntries)
      (harray : queue.arrayElements = L.queue.arrayElements) :
      LogMove L .take { L with queue := queue } (data.elim .length .handle)
  | wake : LogMove L .wait { L with blocked := false } .take
  | ends (hempty : L.queue.content = []) : LogMove L .length { L with exit := 0 } .ended
  | again (hmore : L.queue.content ≠ []) : LogMove L .length L .requeue
  | requeue (queue : CircQueue α) (hqueue : Appended none L.queue queue) :
      LogMove L .requeue { L with queue := queue, blocked := false } .take
  | handle (buf : α) : LogMove L (.handle buf) { L with written := L.written ++ [buf] } .take

theorem log_move {L L' : Log α} {pc pc' : LogPc α} {choice : LogChoice α}
    (hs : logPcStep L pc choice = some (L', pc')) (hok : L.queue.Ok)
    (hbound : L.queue.maxEntries = SYS_LOG_QUEUE_LEN)
    (hroom : pc.Exits choice → ¬L.queue.AtBound) : LogMove L pc L' pc' := by
  have hunbounded : L.queue.AtEnd → L.queue.arrayElements < 2 ^ 31 := fun hend =>
    absurd (hbound.symm.trans hend.1) (by decide)
  have hexit : ¬L.queue.AtBound → ∃ queue, blockQueueExit L.queue = some queue ∧
      Appended none L.queue queue := fun hfull => hok.exit ⟨hfull, hunbounded⟩
  cases pc with
  | user exits =>
      cases choice with
      | logInfo buf =>
          cases hs
          refine .check exits _ ?_
          split
          · exact Or.inl rfl
          · exact Or.inr ⟨buf, rfl⟩
      | logExit =>
          cases exits with
          | false => cases hs
          | true =>
              obtain ⟨queue, hqueue, happended⟩ := hexit (hroom trivial)
              simp only [logPcStep, hqueue] at hs
              cases hs
              exact .exit queue happended
      | run spurious => cases exits <;> cases hs
  | push exits buf =>
      cases choice with
      | run spurious =>
          simp only [logPcStep, blockQueuePush] at hs
          by_cases hfull : L.queue.AtBound
          · simp only [circQueuePushTail_atBound hfull] at hs
            cases hs
            exact .refused exits buf
          · obtain ⟨queue, hqueue, happended⟩ := hok.push hfull hunbounded (some buf)
            simp only [hqueue] at hs
            cases hs
            exact .pushed exits buf queue happended
      | _ => cases hs
  | take =>
      cases choice with
      | run spurious =>
          cases hcontent : L.queue.content with
          | nil =>
              have hempty := (circQueueIsEmpty_iff L.queue).mpr hcontent
              simp only [logPcStep, blockQueueTake, hempty, if_true] at hs
              cases hs
              exact .block hcontent
          | cons data l =>
              obtain ⟨queue, hqueue, hok', rfl, hmax, harray⟩ := hok.take hcontent
              cases data with
              | none =>
                  simp only [logPcStep, hqueue] at hs
                  cases hs
                  exact .took none queue hok' hcontent hmax harray
              | some buf =>
                  simp only [logPcStep, hqueue] at hs
                  cases hs
                  exact .took (some buf) queue hok' hcontent hmax harray
      | _ => cases hs
  | wait =>
      cases choice with
      | run spurious =>
          simp only [logPcStep] at hs
          split at hs
          · cases hs
          · cases hs
            exact .wake
      | _ => cases hs
  | length =>
      cases choice with
      | run spurious =>
          simp only [logPcStep, blockQueueLength_eq] at hs
          split at hs
          · rename_i hlen
            cases hs
            exact .ends (List.eq_nil_of_length_eq_zero hlen)
          · rename_i hlen
            cases hs
            exact .again fun hnil => hlen (by rw [hnil]; rfl)
      | _ => cases hs
  | requeue =>
      cases choice with
      | run spurious =>
          obtain ⟨queue, hqueue, happended⟩ := hexit (hroom trivial)
          simp only [logPcStep, hqueue] at hs
          cases hs
          exact .requeue queue happended
      | _ => cases hs
  | handle buf =>
      cases choice with
      | run spurious =>
          cases hs
          exact .handle buf
      | _ => cases hs
  | ended => cases hs

-- ============================================================================
-- The invariant
-- ============================================================================

/-- The program points of the log thread. -/
def LogPc.logs : LogPc α → Bool
  | .user _ => false
  | .push _ _ => false
  | _ => true

/-- The thread has still to call `logExit`. -/
def LogPc.exits : LogPc α → Bool
  | .user exits => exits
  | .push exits _ => exits
  | _ => false

/-- The NULL that the log thread has taken. -/
def LogPc.sentinel : LogPc α → Nat
  | .length => 1
  | .requeue => 1
  | .ended => 1
  | _ => 0

/-- The line that it has taken. -/
def LogPc.line : LogPc α → List α
  | .handle buf => [buf]
  | _ => []

/-- The log, when the log thread is at `pc`. -/
structure Log.Inv (L : Log α) (pc : LogPc α) : Prop where
  ok : L.queue.Ok
  bound : L.queue.maxEntries = SYS_LOG_QUEUE_LEN
  array : L.queue.arrayElements = SYS_LOG_QUEUE_LEN
  logs : pc.logs = true
  nulls : L.queue.content.countP Option.isNone + pc.sentinel = L.atExit.toList.length
  lines : L.written ++ (pc.line ++ L.queue.content.filterMap id) = L.queued
  before : ∀ before, L.atExit = some before → before <+: L.queued
  ended : pc = .ended → ∀ before, L.atExit = some before → before <+: L.written
  blocked : L.blocked = true → L.queue.content = []

theorem Log.Inv.appended_array {L : Log α} {pc : LogPc α} (h : L.Inv pc) {elem : Option α}
    {queue : CircQueue α} (hqueue : Appended elem L.queue queue) :
    queue.arrayElements = SYS_LOG_QUEUE_LEN :=
  (hqueue.arrayElements (by rw [h.bound]; decide)).trans h.array

/-- The log thread keeps its invariant. -/
theorem Log.Inv.own {L L' : Log α} {pc pc' : LogPc α} (h : L.Inv pc) (hmove : LogMove L pc L' pc') :
    L'.Inv pc' := by
  have hnulls := h.nulls
  have hlines := h.lines
  cases hmove with
  | check exits pc hpc => exact absurd h.logs Bool.false_ne_true
  | refused exits buf => exact absurd h.logs Bool.false_ne_true
  | pushed exits buf queue hqueue => exact absurd h.logs Bool.false_ne_true
  | exit queue hqueue => exact absurd h.logs Bool.false_ne_true
  | block hempty =>
      exact ⟨h.ok, h.bound, h.array, rfl, hnulls, hlines, h.before, by rintro ⟨⟩, fun _ => hempty⟩
  | took data queue hok hcontent hmax harray =>
      have hblocked : L.blocked = true → queue.content = [] := fun hblocked => by
        have hnil := h.blocked hblocked
        rw [hcontent] at hnil
        cases hnil
      rw [hcontent] at hnulls hlines
      rw [List.countP_cons] at hnulls
      refine ⟨hok, hmax.trans h.bound, harray.trans h.array, ?_, ?_, ?_, h.before, ?_, hblocked⟩ <;>
        cases data
      · rfl
      · rfl
      · exact hnulls
      · exact hnulls
      · exact hlines
      · exact hlines
      · rintro ⟨⟩
      · rintro ⟨⟩
  | wake =>
      exact ⟨h.ok, h.bound, h.array, rfl, hnulls, hlines, h.before, by rintro ⟨⟩, by rintro ⟨⟩⟩
  | ends hempty =>
      refine ⟨h.ok, h.bound, h.array, rfl, hnulls, hlines, h.before, fun _ before hbefore => ?_,
        h.blocked⟩
      -- all that was queued has been written
      have hprefix := h.before before hbefore
      rw [← hlines, hempty] at hprefix
      exact hprefix.trans (by rw [show (LogPc.length : LogPc α).line = [] from rfl]; simp)
  | again hmore =>
      exact ⟨h.ok, h.bound, h.array, rfl, hnulls, hlines, h.before, by rintro ⟨⟩, h.blocked⟩
  | requeue queue hqueue =>
      refine ⟨hqueue.ok, hqueue.maxEntries.trans h.bound, h.appended_array hqueue, rfl, ?_, ?_,
        h.before, by rintro ⟨⟩, by rintro ⟨⟩⟩
      · rw [hqueue.content, List.countP_append]
        exact hnulls
      · rw [hqueue.content, List.filterMap_append]
        exact (congrArg _ (congrArg _ (List.append_nil _))).trans hlines
  | handle buf =>
      refine ⟨h.ok, h.bound, h.array, rfl, hnulls, ?_, h.before, by rintro ⟨⟩, h.blocked⟩
      rw [← hlines]
      exact List.append_assoc _ _ _

/-- The other threads keep the invariant of the log thread; only a thread that has still
    to call `logExit` calls it. -/
theorem Log.Inv.other {L L' : Log α} {pc q q' : LogPc α} (h : L.Inv pc) (hmove : LogMove L q L' q')
    (hq : q.logs = false) (hexits : q.exits = true → L.atExit = none) : L'.Inv pc := by
  have hnulls := h.nulls
  cases hmove with
  | check exits pc hpc => exact h
  | refused exits buf => exact h
  | pushed exits buf queue hqueue =>
      refine ⟨hqueue.ok, hqueue.maxEntries.trans h.bound, h.appended_array hqueue, h.logs, ?_, ?_,
        fun before hbefore => ?_, h.ended, by rintro ⟨⟩⟩
      · rw [hqueue.content, List.countP_append]
        exact hnulls
      · rw [hqueue.content, List.filterMap_append, ← h.lines]
        simp
      · exact (h.before before hbefore).trans (List.prefix_append _ _)
  | exit queue hqueue =>
      have hnone := hexits rfl
      rw [hnone] at hnulls
      refine ⟨hqueue.ok, hqueue.maxEntries.trans h.bound, h.appended_array hqueue, h.logs, ?_, ?_,
        fun before hbefore => ?_, fun hended => ?_, by rintro ⟨⟩⟩
      · rw [hqueue.content, List.countP_append, Nat.add_right_comm, hnulls]
        rfl
      · rw [hqueue.content, List.filterMap_append]
        exact (congrArg _ (congrArg _ (List.append_nil _))).trans h.lines
      · cases hbefore
        exact List.prefix_refl _
      · rw [hended] at hnulls
        exact absurd hnulls (Nat.succ_ne_zero _)
  | _ => exact absurd hq Bool.true_eq_false.mp

-- ============================================================================
-- What is left to do
-- ============================================================================

/-- The steps that the log thread takes for what is queued: two for a line before the
    NULL; for one behind it also those of the NULL that is put back, as though every
    line were the only one. -/
def ahead : List (Option α) → Nat
  | [] => 0
  | none :: l => 5 * l.countP Option.isSome
  | some _ :: l => 2 + ahead l

theorem ahead_append_some {l : List (Option α)} (h : none ∈ l) (buf : α) :
    ahead (l ++ [some buf]) = ahead l + 5 := by
  induction l with
  | nil => cases h
  | cons data l ih =>
      cases data with
      | none =>
          show 5 * (l ++ [some buf]).countP Option.isSome = 5 * l.countP Option.isSome + 5
          rw [List.countP_append]
          rfl
      | some x =>
          have hmem : none ∈ l := by simpa using h
          show 2 + ahead (l ++ [some buf]) = 2 + ahead l + 5
          rw [ih hmem, Nat.add_assoc]

theorem ahead_append_none {l : List (Option α)} (h : l.countP Option.isNone = 0) :
    ahead (l ++ [none]) = 2 * l.countP Option.isSome := by
  induction l with
  | nil => rfl
  | cons data l ih =>
      rw [List.countP_cons] at h
      cases data with
      | none => exact absurd h (Nat.succ_ne_zero _)
      | some x =>
          show 2 + ahead (l ++ [none]) = _
          rw [ih h, List.countP_cons_of_pos rfl]
          omega

theorem countP_isSome_pos {l : List (Option α)} (h : l.countP Option.isNone = 0) (hl : l ≠ []) :
    0 < l.countP Option.isSome := by
  obtain ⟨data, l, rfl⟩ := List.exists_cons_of_ne_nil hl
  cases data with
  | none =>
      rw [List.countP_cons] at h
      exact absurd h (Nat.succ_ne_zero _)
  | some x =>
      rw [List.countP_cons_of_pos rfl]
      exact Nat.succ_pos _

/-- A bound for the steps that the log thread takes until it ends. -/
def Log.work (L : Log α) : LogPc α → Nat
  | .take => ahead L.queue.content + 2
  | .wait => ahead L.queue.content + 3
  | .handle _ => ahead L.queue.content + 3
  | .length => 5 * L.queue.content.countP Option.isSome + 1
  | .requeue => 2 * L.queue.content.countP Option.isSome + 3
  | _ => 0

/-- After `logExit`, the NULL is in the queue or with the log thread. -/
theorem Log.Inv.null {L : Log α} {pc : LogPc α} (h : L.Inv pc) (hexit : L.atExit ≠ none) :
    none ∈ L.queue.content ∧ pc.sentinel = 0 ∨
      L.queue.content.countP Option.isNone = 0 ∧ pc.sentinel = 1 := by
  have hnulls := h.nulls
  obtain ⟨before, hbefore⟩ := Option.ne_none_iff_exists'.mp hexit
  rw [hbefore] at hnulls
  have hone : L.queue.content.countP Option.isNone + pc.sentinel = 1 := hnulls
  by_cases hmem : none ∈ L.queue.content
  · have hpos : 0 < L.queue.content.countP Option.isNone :=
      List.countP_pos_iff.mpr ⟨none, hmem, rfl⟩
    exact Or.inl ⟨hmem, by omega⟩
  · have hzero : L.queue.content.countP Option.isNone = 0 := by
      rw [List.countP_eq_zero]
      intro data hdata hnone
      rw [Option.isNone_iff_eq_none.mp hnone] at hdata
      exact hmem hdata
    exact Or.inr ⟨hzero, by omega⟩

theorem Log.Inv.work_own {L L' : Log α} {pc pc' : LogPc α} (h : L.Inv pc) (hexit : L.atExit ≠ none)
    (hmove : LogMove L pc L' pc') : L'.work pc' + 1 ≤ L.work pc := by
  have hnull := h.null hexit
  cases hmove with
  | check exits pc hpc => exact absurd h.logs Bool.false_ne_true
  | refused exits buf => exact absurd h.logs Bool.false_ne_true
  | pushed exits buf queue hqueue => exact absurd h.logs Bool.false_ne_true
  | exit queue hqueue => exact absurd h.logs Bool.false_ne_true
  | block hempty =>
      rcases hnull with ⟨hmem, -⟩ | ⟨-, hone⟩
      · rw [hempty] at hmem
        cases hmem
      · cases hone
  | took data queue hok hcontent hmax harray =>
      cases data with
      | none =>
          show 5 * queue.content.countP Option.isSome + 1 + 1 ≤ ahead L.queue.content + 2
          rw [hcontent]
          exact Nat.le_refl _
      | some buf =>
          show ahead queue.content + 3 + 1 ≤ ahead L.queue.content + 2
          rw [hcontent]
          show _ ≤ 2 + ahead queue.content + 2
          omega
  | wake => exact Nat.le_refl _
  | ends hempty => exact Nat.succ_le_succ (Nat.zero_le _)
  | again hmore =>
      rcases hnull with ⟨-, hzero⟩ | ⟨hnone, -⟩
      · cases hzero
      · have hpos := countP_isSome_pos hnone hmore
        show 2 * _ + 3 + 1 ≤ 5 * _ + 1
        omega
  | requeue queue hqueue =>
      rcases hnull with ⟨-, hzero⟩ | ⟨hnone, -⟩
      · cases hzero
      · show ahead queue.content + 2 + 1 ≤ _
        rw [hqueue.content, ahead_append_none hnone]
        exact Nat.le_refl _
  | handle buf => exact Nat.le_refl _

theorem Log.Inv.work_other {L L' : Log α} {pc q q' : LogPc α} (h : L.Inv pc)
    (hexit : L.atExit ≠ none) (hmove : LogMove L q L' q') (hq : q.logs = false)
    (hexits : q.exits = true → L.atExit = none) : L'.work pc ≤ L.work pc + 5 := by
  cases hmove with
  | check exits pc hpc => exact Nat.le_add_right _ _
  | refused exits buf => exact Nat.le_add_right _ _
  | exit queue hqueue => exact absurd (hexits rfl) hexit
  | pushed exits buf queue hqueue =>
      have hlines : queue.content.countP Option.isSome =
          L.queue.content.countP Option.isSome + 1 := by
        rw [hqueue.content, List.countP_append]
        rfl
      have hahead : pc.sentinel = 0 → ahead queue.content = ahead L.queue.content + 5 := by
        intro hzero
        rcases h.null hexit with ⟨hmem, -⟩ | ⟨-, hone⟩
        · rw [hqueue.content, ahead_append_some hmem]
        · rw [hzero] at hone
          cases hone
      unfold Log.work
      cases pc with
      | take =>
          have heq := hahead rfl
          simp only
          omega
      | wait =>
          have heq := hahead rfl
          simp only
          omega
      | handle buf =>
          have heq := hahead rfl
          simp only
          omega
      | length =>
          simp only
          omega
      | requeue =>
          simp only
          omega
      | _ => exact Nat.zero_le _
  | _ => exact absurd hq Bool.true_eq_false.mp

-- ============================================================================
-- Runs
-- ============================================================================

section Runs

variable {ι : Type} [DecidableEq ι] {logger main : ι} {c c' : Config ι (Log α) (LogPc α)}

/-- A step that is a `blockQueueExit` finds room in the queue. -/
def ExitHasRoom (c : Config ι (Log α) (LogPc α)) (a : ι × LogChoice α) : Prop :=
  (c.pcs a.1).Exits a.2 → ¬c.shared.queue.AtBound

instance (c : Config ι (Log α) (LogPc α)) (a : ι × LogChoice α) : Decidable (ExitHasRoom c a) := by
  unfold ExitHasRoom
  infer_instance

/-- What `logExit` is for. -/
structure LogShuts (logger : ι) (c : Config ι (Log α) (LogPc α)) : Prop where
  /-- until the log thread has ended, a NULL is in the queue or is being put back -/
  sentinel : c.shared.atExit ≠ none → none ∈ c.shared.queue.content ∨
    c.pcs logger = .length ∨ c.pcs logger = .requeue ∨ c.pcs logger = .ended
  written : c.pcs logger = .ended →
    ∃ before, c.shared.atExit = some before ∧ before <+: c.shared.written
  /-- the log thread can go on until it has ended -/
  runs : c.shared.atExit ≠ none → c.pcs logger ≠ .ended →
    ∃ c', fire logPcStep c (logger, .run false) = some c'
  /-- and takes finitely many steps between those of the others -/
  stops : c.shared.atExit ≠ none → ∃ n, ∀ as c', runFrom (fire logPcStep) c as = some c' →
    AllSteps (fire logPcStep) ExitHasRoom c as →
    as.countP (fun a => a.1 = logger) ≤ n + 5 * as.countP fun a => a.1 ≠ logger

/-- The log thread and the others. -/
structure LogThreads (logger main : ι) (c : Config ι (Log α) (LogPc α)) : Prop where
  inv : c.shared.Inv (c.pcs logger)
  users : ∀ i, i ≠ logger → (c.pcs i).logs = false
  exits : ∀ i, (c.pcs i).exits = true → i = main ∧ c.shared.atExit = none

/-- Only the thread that has still to call `logExit` does. -/
theorem LogMove.exits {L L' : Log α} {pc pc' : LogPc α} (hmove : LogMove L pc L' pc') :
    (pc'.exits = true → pc.exits = true ∧ L'.atExit = L.atExit) ∧
      (L'.atExit = L.atExit ∨ pc.exits = true) := by
  cases hmove with
  | check exits pc hpc =>
      refine ⟨fun h => ⟨?_, rfl⟩, Or.inl rfl⟩
      rcases hpc with rfl | ⟨buf, rfl⟩ <;> exact h
  | refused exits buf => exact ⟨fun h => ⟨h, rfl⟩, Or.inl rfl⟩
  | pushed exits buf queue hqueue => exact ⟨fun h => ⟨h, rfl⟩, Or.inl rfl⟩
  | exit queue hqueue => exact ⟨fun h => absurd h Bool.false_ne_true, Or.inr rfl⟩
  | took data queue hok hcontent hmax harray =>
      refine ⟨fun h => ?_, Or.inl rfl⟩
      cases data <;> exact absurd h Bool.false_ne_true
  | _ => exact ⟨fun h => absurd h Bool.false_ne_true, Or.inl rfl⟩

theorem LogMove.logs {L L' : Log α} {pc pc' : LogPc α} (hmove : LogMove L pc L' pc')
    (h : pc.logs = false) : pc'.logs = false := by
  cases hmove with
  | check exits pc hpc => rcases hpc with rfl | ⟨buf, rfl⟩ <;> rfl
  | refused exits buf => rfl
  | pushed exits buf queue hqueue => rfl
  | exit queue hqueue => rfl
  | _ => exact absurd h Bool.true_eq_false.mp

/-- One step, with what is left to do after it. -/
theorem LogThreads.step (h : LogThreads logger main c) {a : ι × LogChoice α}
    (hf : fire logPcStep c a = some c') (hroom : ExitHasRoom c a) :
    LogThreads logger main c' ∧ (c.shared.atExit ≠ none → c'.shared.atExit ≠ none ∧
      (c'.shared.work (c'.pcs logger) + [a].countP (fun a => a.1 = logger) ≤
        c.shared.work (c.pcs logger) + 5 * [a].countP fun a => a.1 ≠ logger)) := by
  obtain ⟨L', pc', hs, rfl⟩ := fire_eq_some.mp hf
  have hmove := log_move hs h.inv.ok h.inv.bound hroom
  obtain ⟨hexits, hatExit⟩ := hmove.exits
  have hexits' : ∀ i, (Function.update c.pcs a.1 pc' i).exits = true →
      i = main ∧ L'.atExit = none := by
    intro i hi
    by_cases hia : i = a.1
    · subst hia
      rw [Function.update_self] at hi
      obtain ⟨hpc, hsame⟩ := hexits hi
      rw [hsame]
      exact h.exits _ hpc
    · rw [Function.update_of_ne hia] at hi
      obtain ⟨hmain, hnone⟩ := h.exits i hi
      refine ⟨hmain, ?_⟩
      rcases hatExit with hsame | hpc
      · rw [hsame]
        exact hnone
      · exact absurd (hmain.trans (h.exits _ hpc).1.symm) hia
  have hstays : c.shared.atExit ≠ none → L'.atExit ≠ none := by
    intro hexit
    rcases hatExit with hsame | hpc
    · rwa [hsame]
    · exact absurd (h.exits _ hpc).2 hexit
  by_cases ha : a.1 = logger
  · subst ha
    have hself : Function.update c.pcs a.1 pc' a.1 = pc' := Function.update_self _ _ _
    refine ⟨⟨?_, fun i hi => ?_, hexits'⟩, fun hexit => ⟨hstays hexit, ?_⟩⟩
    · show L'.Inv (Function.update c.pcs a.1 pc' a.1)
      rw [hself]
      exact h.inv.own hmove
    · show (Function.update c.pcs a.1 pc' i).logs = false
      rw [Function.update_of_ne hi]
      exact h.users i hi
    · have hwork := h.inv.work_own hexit hmove
      show L'.work (Function.update c.pcs a.1 pc' a.1) + _ ≤ _
      rw [hself]
      simpa using hwork
  · have hself : Function.update c.pcs a.1 pc' logger = c.pcs logger :=
      Function.update_of_ne (Ne.symm ha) _ _
    have hlogs := h.users _ ha
    have hnone : (c.pcs a.1).exits = true → c.shared.atExit = none := fun hpc => (h.exits _ hpc).2
    refine ⟨⟨?_, fun i hi => ?_, hexits'⟩, fun hexit => ⟨hstays hexit, ?_⟩⟩
    · show L'.Inv (Function.update c.pcs a.1 pc' logger)
      rw [hself]
      exact h.inv.other hmove hlogs hnone
    · show (Function.update c.pcs a.1 pc' i).logs = false
      by_cases hia : i = a.1
      · subst hia
        rw [Function.update_self]
        exact hmove.logs hlogs
      · rw [Function.update_of_ne hia]
        exact h.users i hi
    · have hwork := h.inv.work_other hexit hmove hlogs hnone
      show L'.work (Function.update c.pcs a.1 pc' logger) + _ ≤ _
      rw [hself]
      simpa [ha] using hwork

/-- What is left to do bounds the steps of the log thread. -/
theorem LogThreads.bounded (h : LogThreads logger main c) (hexit : c.shared.atExit ≠ none)
    {as : List (ι × LogChoice α)} (hrun : runFrom (fire logPcStep) c as = some c')
    (hroom : AllSteps (fire logPcStep) ExitHasRoom c as) :
    as.countP (fun a => a.1 = logger) ≤
      c.shared.work (c.pcs logger) + 5 * as.countP fun a => a.1 ≠ logger := by
  induction as generalizing c with
  | nil => exact Nat.zero_le _
  | cons a as ih =>
      rw [runFrom_cons] at hrun
      obtain ⟨c₁, hc₁, hrest⟩ := Option.bind_eq_some_iff.mp hrun
      obtain ⟨hfirst, hroom'⟩ := hroom c₁ hc₁
      obtain ⟨hthreads, hwork⟩ := h.step hc₁ hfirst
      obtain ⟨hexit', hwork⟩ := hwork hexit
      have hbound := ih hthreads hexit' hrest hroom'
      rw [← List.singleton_append, List.countP_append, List.countP_append]
      omega

/-- The log thread is not blocked. -/
theorem LogThreads.runs (h : LogThreads logger main c) (hexit : c.shared.atExit ≠ none)
    (hended : c.pcs logger ≠ .ended) : ∃ c', fire logPcStep c (logger, .run false) = some c' := by
  have hlogs := h.inv.logs
  have hnull := h.inv.null hexit
  have hstep : (logPcStep c.shared (c.pcs logger) (.run false)).isSome = true := by
    cases hpc : c.pcs logger with
    | user exits =>
        rw [hpc] at hlogs
        cases hlogs
    | push exits buf =>
        rw [hpc] at hlogs
        cases hlogs
    | take =>
        rw [hpc] at hnull
        rcases hnull with ⟨hmem, -⟩ | ⟨-, hone⟩
        · obtain ⟨data, l, hcontent⟩ := List.exists_cons_of_ne_nil (List.ne_nil_of_mem hmem)
          obtain ⟨queue, hqueue, -⟩ := h.inv.ok.take hcontent
          simp only [logPcStep, hqueue]
          cases data <;> rfl
        · cases hone
    | wait =>
        rw [hpc] at hnull
        rcases hnull with ⟨hmem, -⟩ | ⟨-, hone⟩
        · have hblocked : ¬c.shared.blocked = true := fun hblocked => by
            rw [h.inv.blocked hblocked] at hmem
            cases hmem
          simp [logPcStep, hblocked]
        · cases hone
    | length =>
        simp only [logPcStep]
        split <;> rfl
    | requeue =>
        have hexits : ∃ queue, blockQueueExit c.shared.queue = some queue := by
          by_cases hfull : c.shared.queue.AtBound
          · have hsmall : c.shared.queue.arrayElements < 2 ^ 31 := by
              rw [h.inv.array]
              decide
            obtain ⟨queue, hqueue, -⟩ := h.inv.ok.forcePush_atBound hfull hsmall none
            refine ⟨queue, ?_⟩
            unfold blockQueueExit
            rw [hqueue]
            rfl
          · have hbounded : ¬c.shared.queue.AtEnd := fun hend =>
              absurd (h.inv.bound.symm.trans hend.1) (by decide)
            obtain ⟨queue, hqueue, -⟩ := h.inv.ok.exit ⟨hfull, fun hend => absurd hend hbounded⟩
            exact ⟨queue, hqueue⟩
        obtain ⟨queue, hqueue⟩ := hexits
        simp only [logPcStep, hqueue]
        rfl
    | handle buf => rfl
    | ended => exact absurd hpc hended
  obtain ⟨r, hr⟩ := Option.isSome_iff_exists.mp hstep
  unfold fire
  rw [hr]
  exact ⟨_, rfl⟩

theorem LogThreads.shuts (h : LogThreads logger main c) : LogShuts logger c where
  sentinel := fun hexit => by
    rcases h.inv.null hexit with ⟨hmem, -⟩ | ⟨-, hone⟩
    · exact Or.inl hmem
    · cases hpc : c.pcs logger with
      | length => exact Or.inr (Or.inl rfl)
      | requeue => exact Or.inr (Or.inr (Or.inl rfl))
      | ended => exact Or.inr (Or.inr (Or.inr rfl))
      | _ =>
          rw [hpc] at hone
          cases hone
  written := fun hended => by
    have hnulls := h.inv.nulls
    rw [hended] at hnulls
    cases hexit : c.shared.atExit with
    | none =>
        rw [hexit] at hnulls
        exact absurd hnulls (Nat.succ_ne_zero _)
    | some before => exact ⟨before, rfl, h.inv.ended hended before hexit⟩
  runs := h.runs
  stops := fun hexit => ⟨_, fun _ _ hrun hroom => h.bounded hexit hrun hroom⟩

theorem logInit_threads (logger main : ι) :
    LogThreads logger main (logInit logger main : Config ι (Log α) (LogPc α)) := by
  obtain ⟨hok, hnil⟩ := @circQueueCreate_ok α SYS_LOG_QUEUE_LEN (by decide)
  have hlogger : (logInit logger main : Config ι (Log α) (LogPc α)).pcs logger = .take := if_pos rfl
  refine ⟨?_, fun i hi => ?_, fun i hi => ?_⟩
  · rw [hlogger]
    refine ⟨hok, rfl, rfl, rfl, ?_, ?_, fun before hbefore => ?_, by rintro ⟨⟩, fun _ => hnil⟩
    · show (circQueueCreate SYS_LOG_QUEUE_LEN : CircQueue α).content.countP Option.isNone + 0 = 0
      rw [hnil]
      rfl
    · show (circQueueCreate SYS_LOG_QUEUE_LEN : CircQueue α).content.filterMap id = []
      rw [hnil]
      rfl
    · cases hbefore
  · show (if i = logger then LogPc.take else .user (decide (i = main))).logs = false
    rw [if_neg hi]
    rfl
  · have hi : (if i = logger then (LogPc.take : LogPc α) else .user (decide (i = main))).exits =
        true := hi
    split at hi
    · cases hi
    · exact ⟨of_decide_eq_true hi, rfl⟩

/-- A forced push, and with it the NULL of `blockQueueExit`, is kept just in case the
    queue has room for it; and when every `blockQueueExit` of a run finds room, `logExit`
    does what it is for. -/
theorem sentinel_kept (logger main : ι) (as : List (ι × LogChoice α)) :
    (∀ size ≤ 2 ^ 31, ∀ s : CircQueue α × List (Option α),
      Reachable fifoStep (circQueueCreate size, []) s →
        (s.1.PushesForced ↔ s.1.HasRoom) ∧ (s.1.ExitsLast ↔ s.1.HasRoom)) ∧
    (AllSteps (fire logPcStep) ExitHasRoom (logInit logger main) as →
      Always (fire logPcStep) (LogShuts logger) (logInit logger main) as) := by
  refine ⟨fun size hsize s hs => ?_, fun hroom => ?_⟩
  · have hok := circQueue_ok hsize hs
    exact ⟨hok.pushesForced_iff, hok.exitsLast_iff⟩
  · exact always_of_allSteps (J := LogThreads logger main) (fun _ h => h.shuts)
      (fun _ _ _ h hf hok => (h.step hf hok).1) (logInit_threads logger main) hroom

set_option maxRecDepth 20000 in
/-- The main thread logs a line and calls `logExit`; the log thread writes it and ends. -/
theorem sentinel_kept_line : ∃ c : Config (Fin 2) (Log Nat) (LogPc Nat),
    runFrom (fire logPcStep) (logInit 0 1)
      [(1, .logInfo 7), (1, .run false), (1, .logExit), (0, .run false), (0, .run false),
        (0, .run false), (0, .run false)] = some c ∧
      c.pcs 0 = .ended ∧ c.shared.written = [7] ∧ LogShuts 0 c := by
  have hkept := (sentinel_kept (0 : Fin 2) 1 [(1, .logInfo 7), (1, .run false), (1, .logExit),
    (0, .run false), (0, .run false), (0, .run false), (0, .run false)]).2 (by decide)
  exact ⟨_, rfl, rfl, rfl, hkept.last rfl⟩

end Runs

/-- A bounded queue that is full refuses a forced push as well: the consumer takes what
    is queued and then waits. -/
theorem sentinel_lost : ∃ s : CircQueue Nat × List (Option Nat),
    runFrom fifoStep (circQueueCreate 2, []) [.pushTail (some 1), .pushTail (some 2)] = some s ∧
      ¬s.1.PushesForced ∧ ¬s.1.ExitsLast ∧ ∃ cq', blockQueueExit s.1 = some cq' ∧
        takes 2 cq' = some [some 1, some 2] ∧ takes 3 cq' = none := by
  have hrun : ∃ s : CircQueue Nat × List (Option Nat),
      runFrom fifoStep (circQueueCreate 2, []) [.pushTail (some 1), .pushTail (some 2)] = some s ∧
        s.1.AtBound ∧ s.1.arrayElements = 2 ∧ s.1.content = [some 1, some 2] :=
    ⟨_, rfl, ⟨by decide, rfl⟩, rfl, rfl⟩
  obtain ⟨s, hs, hfull, harray, hcontent⟩ := hrun
  have hok := circQueue_ok (by decide) ⟨_, hs⟩
  have hlost : ¬s.1.HasRoom := fun hroom => hroom.1 hfull
  obtain ⟨cq', hpush, hgrown⟩ := hok.forcePush_atBound hfull (by rw [harray]; decide) none
  have hcontent' := hgrown.content.trans hcontent
  have htakes := hgrown.ok.takes_all
  have hmore := hgrown.ok.takes_more
  rw [hcontent'] at htakes hmore
  refine ⟨s, hs, hok.pushesForced_iff.not.mpr hlost, hok.exitsLast_iff.not.mpr hlost, cq', ?_,
    htakes, hmore⟩
  unfold blockQueueExit
  rw [hpush]
  rfl

end ZServer
