/-
  ZServer.Timer.Pass

  One call of `processTimeEvents` while the clock stands still.

  The loop starts again at the head of the list after every time event that it has
  processed.  Time events that are registered meanwhile are passed over by their ids;
  one that is given a new time is not, so the pass ends just in case every time event
  that is due moves on: its timer ends, or asks for a time to come.
-/

import ZServer.Timer.Identity

namespace ZServer
namespace Timer

open Lib

-- ============================================================================
-- The pass
-- ============================================================================

section Definitions

/- the `n`-th call of `zSend` returns `answer n`; the clock reads `sec` and `ms` -/
variable (answer : Nat → Int) (sec ms : Int)

/-- At most `fuel` actions of the timer thread, until it is through the list. -/
def passFrom : Nat → Timers → TimerPc → Option (Timers × TimerPc)
  | 0, _, .scan _ _ => none
  | fuel + 1, T, .scan maxId k =>
      (timerPcStep T (.scan maxId k) (.look sec ms (answer T.sent.length) sec ms)).bind
        fun r => passFrom fuel r.1 r.2
  | _, T, pc => some (T, pc)

def processTimeEvents (fuel : Nat) (T : Timers) : Option (Timers × TimerPc) :=
  (timerPcStep T .loop (.process sec)).bind fun r => passFrom answer sec ms fuel r.1 r.2

/-- A call of `processTimeEvents` returns, and has called `timeProc` at most once for
    each timer. -/
def Timers.PassEnds (T : Timers) : Prop :=
  ∃ fuel r, processTimeEvents answer sec ms fuel T = some r ∧ ∀ p, r.1.ticks p ≤ T.ticks p + 1

/-- The time events, once those of a clock that was set back are made due. -/
def Timers.skewed (T : Timers) : List AeTimeEvent :=
  if sec < T.lastTime then T.timeEventHead.map fun te => { te with whenSec := 0 }
  else T.timeEventHead

/-- A timer that is called again is called at a later time. -/
def TimerEvent.MovesOn (event : TimerEvent) (ret : Int) : Prop :=
  0 ≤ ret → event.noMore ≠ 0 → event.time = AE_NOMORE ∨ 0 < event.time

instance (event : TimerEvent) (ret : Int) : Decidable (event.MovesOn ret) := by
  unfold TimerEvent.MovesOn
  infer_instance

/-- All time events in `due` move on, when `zSend` has been called `n` times before. -/
def AllMoveOn (heap : EventPtr → TimerEvent) (n : Nat) (due : List AeTimeEvent) : Prop :=
  ∀ (j : Nat) te, due[j]? = some te → (heap te.clientData).MovesOn (answer (n + j))

/-- Every timer that is due moves on. -/
def Timers.DueMoveOn (T : Timers) : Prop :=
  AllMoveOn answer T.heap T.sent.length ((T.skewed sec).filter fun te => te.due sec ms)

end Definitions

-- ============================================================================
-- New times
-- ============================================================================

/-- A time event that is given a new time. -/
def AeTimeEvent.rearm (te : AeTimeEvent) (milliseconds sec ms : Int) : AeTimeEvent :=
  let due := aeAddMillisecondsToNow milliseconds sec ms
  { te with whenSec := due.1, whenMs := due.2 }

/-- It is due again at once unless it is to wait. -/
theorem AeTimeEvent.rearm_due (te : AeTimeEvent) (milliseconds sec : Int) {ms : Int} (hms : 0 ≤ ms)
    (hms' : ms < 1000) : (te.rearm milliseconds sec ms).due sec ms = true ↔ milliseconds ≤ 0 := by
  have hsum := Int.mul_tdiv_add_tmod milliseconds 1000
  have hrange : (0 ≤ milliseconds → 0 ≤ milliseconds.tmod 1000 ∧ milliseconds.tmod 1000 < 1000) ∧
      (milliseconds ≤ 0 → -1000 < milliseconds.tmod 1000 ∧ milliseconds.tmod 1000 ≤ 0) := by
    constructor
    · intro hpos
      exact ⟨Int.tmod_nonneg _ hpos, Int.tmod_lt_of_pos _ (by decide)⟩
    · intro hneg
      have hpos := Int.tmod_nonneg (a := -milliseconds) 1000 (by omega)
      have hlt := Int.tmod_lt_of_pos (-milliseconds) (b := 1000) (by decide)
      rw [Int.neg_tmod] at hpos hlt
      omega
  unfold AeTimeEvent.rearm AeTimeEvent.due aeAddMillisecondsToNow
  simp only [decide_eq_true_iff]
  generalize milliseconds.tdiv 1000 = q at hsum ⊢
  generalize milliseconds.tmod 1000 = r at hsum hrange ⊢
  split <;> simp only <;> omega

theorem TimerEvent.movesOn_iff {event : TimerEvent} {ret : Int} :
    event.MovesOn ret ↔ (timeProc event ret ≠ AE_NOMORE → 0 < timeProc event ret) := by
  unfold TimerEvent.MovesOn timeProc
  by_cases hret : ret < 0
  · simp [hret, Int.not_le.mpr hret]
  · by_cases hmore : event.noMore = 0
    · simp [hmore, hret]
    · simp [hmore, hret, Int.not_lt.mp hret, imp_iff_not_or]

-- ============================================================================
-- One time event
-- ============================================================================

section Scan

variable {answer : Nat → Int} {sec ms maxId : Int} {T : Timers} {te : AeTimeEvent}
  {before after : List AeTimeEvent}

theorem passFrom_skip_one {k : Nat} (hk : T.timeEventHead[k]? = some te)
    (hdue : te.due sec ms = false) (fuel : Nat) :
    passFrom answer sec ms (fuel + 1) T (.scan maxId k) =
      passFrom answer sec ms fuel T (.scan maxId (k + 1)) := by
  show (timerPcStep T (.scan maxId k) _).bind _ = _
  unfold timerPcStep
  simp only [hk, hdue, Bool.false_eq_true, if_false, ite_self]
  rfl

/-- Time events that are not due are passed over. -/
theorem passFrom_skip (hhead : T.timeEventHead = before ++ after)
    (hbefore : ∀ te ∈ before, te.due sec ms = false) (fuel : Nat) :
    passFrom answer sec ms (before.length + fuel) T (.scan maxId 0) =
      passFrom answer sec ms fuel T (.scan maxId before.length) := by
  induction before using List.reverseRecOn generalizing after fuel with
  | nil => rw [List.length_nil, Nat.zero_add]
  | append_singleton before te ih =>
      have hk : T.timeEventHead[before.length]? = some te := by
        rw [hhead, List.append_assoc, List.getElem?_append_right (Nat.le_refl _), Nat.sub_self]
        rfl
      rw [List.length_append, List.length_singleton, Nat.add_assoc, Nat.add_comm 1 fuel,
        ih (hhead.trans (List.append_assoc _ _ _))
          (fun te hte => hbefore te (List.mem_append_left _ hte)),
        passFrom_skip_one hk (hbefore te (List.mem_append_right _ (List.mem_singleton_self te)))]

/-- The pass ends when nothing is due. -/
theorem passFrom_done (hdue : ∀ te ∈ T.timeEventHead, te.due sec ms = false) :
    ∃ pc, passFrom answer sec ms (T.timeEventHead.length + 1) T (.scan maxId 0) = some (T, pc) := by
  rw [passFrom_skip (List.append_nil _).symm hdue]
  refine ⟨if T.stop then .stopped else .loop, ?_⟩
  show (timerPcStep T (.scan maxId _) _).bind _ = _
  unfold timerPcStep
  simp only [List.getElem?_eq_none (Nat.le_refl _)]
  cases T.stop <;> rfl

/-- The first time event that is due is processed, and the pass starts again. -/
theorem passFrom_fire (hhead : T.timeEventHead = before ++ te :: after)
    (hbefore : ∀ te ∈ before, te.due sec ms = false) (hdue : te.due sec ms = true)
    (hid : te.id ≤ maxId) (fuel : Nat) :
    passFrom answer sec ms (before.length + (fuel + 1)) T (.scan maxId 0) =
      passFrom answer sec ms fuel
        (T.runTimeEvent before.length te (answer T.sent.length) sec ms) (.scan maxId 0) := by
  have hk : T.timeEventHead[before.length]? = some te := by
    rw [hhead, List.getElem?_append_right (Nat.le_refl _), Nat.sub_self]
    rfl
  rw [passFrom_skip hhead hbefore]
  show (timerPcStep T (.scan maxId _) _).bind _ = _
  unfold timerPcStep
  simp only [hk, hdue, if_true, if_neg (Int.not_lt.mpr hid)]
  rfl

/-- A time event is given a new time or goes; the others stay. -/
theorem runTimeEvent_head (hhead : T.timeEventHead = before ++ te :: after)
    (honce : (T.timeEventHead.map AeTimeEvent.id).Nodup) (ret sec ms : Int) :
    (T.runTimeEvent before.length te ret sec ms).timeEventHead =
      before ++ (if timeProc (T.heap te.clientData) ret ≠ AE_NOMORE then
        te.rearm (timeProc (T.heap te.clientData) ret) sec ms :: after else after) := by
  unfold Timers.runTimeEvent
  simp only
  split
  · show T.timeEventHead.set before.length _ = _
    rw [hhead, List.set_append_right _ _ (Nat.le_refl _), Nat.sub_self]
    rfl
  · have hother : ∀ te' ∈ before, te'.id ≠ te.id := by
      intro te' hte' hid
      rw [hhead, List.map_append, List.nodup_append] at honce
      exact honce.2.2 te'.id (List.mem_map_of_mem hte') te.id List.mem_cons_self hid
    have hfind : T.timeEventHead.find? (fun te' => te'.id = te.id) = some te := by
      rw [hhead, List.find?_append, List.find?_eq_none.mpr (by simpa using hother),
        List.find?_cons_of_pos (by simp)]
      rfl
    have herase : T.timeEventHead.eraseP (fun te' => te'.id = te.id) = before ++ after := by
      rw [hhead, List.eraseP_append_right _ (by simpa using hother),
        List.eraseP_cons_of_pos (by simp)]
    unfold Timers.aeDeleteTimeEvent Timers.zSend
    simp only [hfind, herase]

end Scan

-- ============================================================================
-- The whole pass
-- ============================================================================

section Loop

variable (answer : Nat → Int) {sec ms maxId : Int}

/-- The ids that the pass goes by. -/
structure Timers.Scannable (maxId : Int) (T : Timers) : Prop where
  once : (T.timeEventHead.map AeTimeEvent.id).Nodup
  le : ∀ id ∈ T.timeEventHead.map AeTimeEvent.id, id ≤ maxId

/-- The call of `zSend` that `timeProc` makes. -/
def AeTimeEvent.tick (te : AeTimeEvent) (heap : EventPtr → TimerEvent) : Tick :=
  ⟨some te.clientData, (heap te.clientData).dest, (heap te.clientData).value⟩

/-- What the first time event that is due does to the list: when it moves on, the others
    that are due are left; otherwise it is the first again. -/
theorem Timers.Scannable.fire {T : Timers} (h : T.Scannable maxId) (hms : 0 ≤ ms)
    (hms' : ms < 1000) {te : AeTimeEvent} {due : List AeTimeEvent}
    (hdue : T.timeEventHead.filter (fun te => te.due sec ms) = te :: due) :
    ∃ n T', (∀ fuel, passFrom answer sec ms (n + (fuel + 1)) T (.scan maxId 0) =
        passFrom answer sec ms fuel T' (.scan maxId 0)) ∧
      T'.sent = T.sent ++ [te.tick T.heap] ∧ T'.heap = T.heap ∧ T'.Scannable maxId ∧
      ((T.heap te.clientData).MovesOn (answer T.sent.length) →
        T'.timeEventHead.filter (fun te => te.due sec ms) = due) ∧
      (¬(T.heap te.clientData).MovesOn (answer T.sent.length) →
        ∃ te', te'.clientData = te.clientData ∧
          T'.timeEventHead.filter (fun te => te.due sec ms) = te' :: due) := by
  obtain ⟨before, after, hhead, hbefore, hte, hafter⟩ := List.filter_eq_cons_iff.mp hdue
  have hbefore : ∀ te ∈ before, te.due sec ms = false :=
    fun te hte => Bool.eq_false_iff.mpr (hbefore te hte)
  have hid : te.id ≤ maxId := h.le _ (List.mem_map_of_mem (by rw [hhead]; simp))
  have hnone : before.filter (fun te => te.due sec ms) = [] :=
    List.filter_eq_nil_iff.mpr fun te hte => by rw [hbefore te hte]; decide
  have hT' := runTimeEvent_head hhead h.once (answer T.sent.length) sec ms
  have hk : T.timeEventHead[before.length]? = some te := by
    rw [hhead, List.getElem?_append_right (Nat.le_refl _), Nat.sub_self]
    rfl
  have hsub : ((T.runTimeEvent before.length te (answer T.sent.length) sec ms).timeEventHead.map
      AeTimeEvent.id).Sublist (T.timeEventHead.map AeTimeEvent.id) := by
    rw [hT', hhead, List.map_append, List.map_append, List.append_sublist_append_left]
    split
    · exact List.Sublist.refl _
    · exact List.sublist_cons_self _ _
  refine ⟨before.length, _, passFrom_fire hhead hbefore hte hid, runTimeEvent_sent _ _ _ _ _ _,
    (runTimeEvent_keeps T _ _ _ hk).heap,
    ⟨h.once.sublist hsub, fun id hid => h.le id (hsub.subset hid)⟩,
    fun hmoves => ?_, fun hmoves => ?_⟩
  · rw [hT', List.filter_append, hnone, List.nil_append]
    split
    · rename_i hmore
      have hlater := (te.rearm_due _ sec hms hms').not.mpr
        (Int.not_le.mpr (TimerEvent.movesOn_iff.mp hmoves hmore))
      rw [List.filter_cons, if_neg hlater]
      exact hafter
    · exact hafter
  · rw [TimerEvent.movesOn_iff, Classical.not_imp, Int.not_lt] at hmoves
    have hagain := (te.rearm_due _ sec hms hms').mpr hmoves.2
    rw [hT', if_pos hmoves.1, List.filter_append, hnone, List.nil_append, List.filter_cons,
      if_pos hagain, hafter]
    exact ⟨te.rearm _ sec ms, rfl, rfl⟩

variable {answer}

/-- When all that are due move on, the pass calls `timeProc` once for each of them. -/
theorem passFrom_ends (hms : 0 ≤ ms) (hms' : ms < 1000) {due : List AeTimeEvent} {T : Timers}
    (h : T.Scannable maxId) (hdue : T.timeEventHead.filter (fun te => te.due sec ms) = due)
    (hmove : AllMoveOn answer T.heap T.sent.length due) :
    ∃ fuel r, passFrom answer sec ms fuel T (.scan maxId 0) = some r ∧
      r.1.sent = T.sent ++ due.map fun te => te.tick T.heap := by
  induction due generalizing T with
  | nil =>
      have hnone : ∀ te ∈ T.timeEventHead, te.due sec ms = false := fun te hte =>
        Bool.eq_false_iff.mpr (List.filter_eq_nil_iff.mp hdue te hte)
      obtain ⟨pc, hdone⟩ := passFrom_done hnone
      exact ⟨_, _, hdone, (List.append_nil _).symm⟩
  | cons te due ih =>
      obtain ⟨n, T', hfire, hsent, hheap, hscan, hmoves, -⟩ := h.fire answer hms hms' hdue
      obtain ⟨fuel, r, hrun, hr⟩ := ih hscan (hmoves (hmove 0 te rfl)) (fun j te hj => by
        have hte := hmove (j + 1) te hj
        rw [hheap, hsent, List.length_append, List.length_singleton, Nat.add_assoc, Nat.add_comm 1]
        exact hte)
      refine ⟨_, r, (hfire fuel).trans hrun, ?_⟩
      rw [hr, hsent, hheap, List.append_assoc]
      rfl

theorem passFrom_more {fuel : Nat} {T : Timers} {pc : TimerPc} {r : Timers × TimerPc}
    (h : passFrom answer sec ms fuel T pc = some r) (n : Nat) :
    passFrom answer sec ms (fuel + n) T pc = some r := by
  induction fuel generalizing T pc with
  | zero =>
      cases pc with
      | scan maxId k => cases h
      | _ => cases n <;> exact h
  | succ fuel ih =>
      cases pc with
      | scan maxId k =>
          obtain ⟨r', hr', hrest⟩ := Option.bind_eq_some_iff.mp h
          rw [Nat.add_right_comm]
          exact Option.bind_eq_some_iff.mpr ⟨r', hr', ih hrest⟩
      | _ => cases n <;> exact h

theorem passFrom_sent {fuel : Nat} {T : Timers} {pc : TimerPc} {r : Timers × TimerPc}
    (h : passFrom answer sec ms fuel T pc = some r) : T.sent <+: r.1.sent := by
  induction fuel generalizing T pc with
  | zero =>
      cases pc with
      | scan maxId k => cases h
      | _ =>
          cases h
          exact List.prefix_refl _
  | succ fuel ih =>
      cases pc with
      | scan maxId k =>
          obtain ⟨r', hr', hrest⟩ := Option.bind_eq_some_iff.mp h
          refine List.IsPrefix.trans ?_ (ih hrest)
          unfold timerPcStep at hr'
          simp only at hr'
          split at hr'
          · cases hr'
            exact List.prefix_refl _
          · split_ifs at hr'
            · cases hr'
              exact List.prefix_refl _
            · cases hr'
              rw [runTimeEvent_sent]
              exact List.prefix_append _ _
            · cases hr'
              exact List.prefix_refl _
      | _ =>
          cases h
          exact List.prefix_refl _

theorem ticks_append {T T' : Timers} {ticks : List Tick} (h : T'.sent = T.sent ++ ticks)
    (p : EventPtr) : T'.ticks p = T.ticks p + ticks.countP fun tick => tick.timer = some p := by
  unfold Timers.ticks
  rw [h, List.countP_append]

/-- When one that is due does not move on, a timer is called twice, or the pass does not
    end. -/
theorem passFrom_repeats (hms : 0 ≤ ms) (hms' : ms < 1000) {due : List AeTimeEvent} {T : Timers}
    (h : T.Scannable maxId) (hdue : T.timeEventHead.filter (fun te => te.due sec ms) = due)
    (hmove : ¬AllMoveOn answer T.heap T.sent.length due) {fuel : Nat} {r : Timers × TimerPc}
    (hrun : passFrom answer sec ms fuel T (.scan maxId 0) = some r) :
    ∃ p, T.ticks p + 2 ≤ r.1.ticks p := by
  induction due generalizing T fuel with
  | nil => exact absurd (by rintro j te ⟨⟩) hmove
  | cons te due ih =>
      obtain ⟨n, T', hfire, hsent, hheap, hscan, hmoves, hagain⟩ := h.fire answer hms hms' hdue
      have hrun' : passFrom answer sec ms fuel T' (.scan maxId 0) = some r := by
        rw [← hfire, Nat.add_comm n, Nat.add_assoc]
        exact passFrom_more hrun _
      by_cases hte : (T.heap te.clientData).MovesOn (answer T.sent.length)
      · obtain ⟨p, hp⟩ := ih hscan (hmoves hte) (fun hall => hmove fun j te' hj => by
          cases j with
          | zero =>
              cases hj
              exact hte
          | succ j =>
              have hte' := hall j te' hj
              rw [hheap, hsent, List.length_append, List.length_singleton, Nat.add_assoc,
                Nat.add_comm 1] at hte'
              exact hte') hrun'
        have hticks := ticks_append hsent p
        exact ⟨p, by omega⟩
      · -- it is the first one again
        obtain ⟨te', hsame, hdue'⟩ := hagain hte
        obtain ⟨n', T'', hfire', hsent', hheap', -, -, -⟩ :=
          hscan.fire answer hms hms' hdue'
        have hrun'' : passFrom answer sec ms fuel T'' (.scan maxId 0) = some r := by
          rw [← hfire', Nat.add_comm n', Nat.add_assoc]
          exact passFrom_more hrun' _
        obtain ⟨later, hlater⟩ := passFrom_sent hrun''
        rw [hsent', hsent, List.append_assoc, List.append_assoc] at hlater
        refine ⟨te.clientData, ?_⟩
        rw [ticks_append hlater.symm, List.countP_append, List.countP_append]
        simp [AeTimeEvent.tick, hsame]
        omega

end Loop

-- ============================================================================
-- Every pass
-- ============================================================================

/-- The ids are handed out in order. -/
structure Timers.IdsOnce (T : Timers) : Prop where
  lt : ∀ e ∈ T.pending, e.1 < T.timeEventNextId
  once : (T.pending.map Prod.fst).Nodup

theorem Timers.IdsOnce.sublist {T T' : Timers} (h : T.IdsOnce)
    (hpending : T'.pending.Sublist T.pending) (hnext : T'.timeEventNextId = T.timeEventNextId) :
    T'.IdsOnce := by
  refine ⟨fun e he => ?_, h.once.sublist (hpending.map _)⟩
  rw [hnext]
  exact h.lt e (hpending.subset he)

theorem Timers.IdsOnce.delete {T : Timers} (h : T.IdsOnce) (id : Int) :
    (T.aeDeleteTimeEvent id).IdsOnce :=
  h.sublist (aeDeleteTimeEvent_sublist T id) (aeDeleteTimeEvent_same T id).timeEventNextId

theorem TimerMove.idsOnce {T T' : Timers} {pc pc' : TimerPc} (hmove : TimerMove T pc T' pc')
    (h : T.IdsOnce) : T'.IdsOnce := by
  cases hmove with
  | create dest time session noMore htime =>
      unfold Timers.timerTimeout
      rw [if_neg htime]
      exact h.sublist (List.Sublist.refl _) rfl
  | recv msg em curSec curMs hem =>
      have hbefore : ({ T with em := em } : Timers).IdsOnce := h.sublist (List.Sublist.refl _) rfl
      by_cases hadd : (T.heap msg).type = 0
      · rw [emCallback_add { T with em := em } msg curSec curMs hadd]
        refine ⟨fun e he => ?_, List.nodup_cons.mpr ⟨fun hmem => ?_, hbefore.once⟩⟩
        · show e.1 < T.timeEventNextId + 1
          rcases List.mem_cons.mp he with rfl | he
          · exact Int.lt_succ _
          · exact Int.lt_add_one_of_le (Int.le_of_lt (h.lt e he))
        · obtain ⟨e, he, heq⟩ := List.mem_map.mp hmem
          exact absurd heq (Int.ne_of_lt (h.lt e he))
      · by_cases hcancel : (T.heap msg).type = 1
        · rcases emCallback_cancel { T with em := em } msg curSec curMs hcancel with
            ⟨id, -, heq⟩ | ⟨-, heq⟩
          · rw [heq]
            exact (hbefore.delete id).sublist (List.Sublist.refl _) rfl
          · rw [heq]
            exact hbefore.sublist (List.Sublist.refl _) rfl
        · rw [emCallback_stop { T with em := em } msg curSec curMs hadd hcancel]
          exact hbefore.sublist (List.Sublist.refl _) rfl
  | fire maxId k te ret curSec curMs hk =>
      obtain ⟨T₁, rfl, ⟨-, head, hhead, heq⟩ | ⟨-, heq⟩⟩ := runTimeEvent_cases T curSec curMs ret hk
      · rw [heq]
        refine h.sublist ?_ rfl
        show (head.map _).Sublist _
        rw [hhead]
      · rw [heq]
        exact Timers.IdsOnce.delete (T := T.zSend _) (h.sublist (List.Sublist.refl _) rfl) _
  | look head lastTime _ _ hhead hpc hpc' =>
      refine h.sublist ?_ rfl
      show (head.map _).Sublist _
      rw [hhead]
  | _ => exact h.sublist (List.Sublist.refl _) rfl

section Runs

variable {ι : Type} [DecidableEq ι] [Fintype ι] {loop : ι} {c : Config ι Timers TimerPc}

omit [Fintype ι] in
theorem timers_idsOnce (h : Reachable (fire timerPcStep) (timerInit loop) c) :
    c.shared.IdsOnce := by
  refine h.invariant (J := fun c : Config ι Timers TimerPc => c.shared.IdsOnce)
    ⟨by rintro _ ⟨⟩, List.nodup_nil⟩ fun c a c' hc hf => ?_
  obtain ⟨T', pc', hs, rfl⟩ := fire_eq_some.mp hf
  exact (timer_move hs).idsOnce hc

theorem Timers.skewed_pending (T : Timers) (sec : Int) :
    (T.skewed sec).map (fun te => (te.id, te.clientData)) = T.pending := by
  unfold Timers.skewed Timers.pending
  split
  · rw [List.map_map]
    rfl
  · rfl

theorem Timers.IdsOnce.scannable {T : Timers} (h : T.IdsOnce) (sec : Int) :
    ({ T with timeEventHead := T.skewed sec, lastTime := sec } : Timers).Scannable
      (T.timeEventNextId - 1) := by
  have hids : (T.skewed sec).map AeTimeEvent.id = T.pending.map Prod.fst := by
    rw [← T.skewed_pending sec, List.map_map]
    rfl
  constructor
  · show ((T.skewed sec).map AeTimeEvent.id).Nodup
    rw [hids]
    exact h.once
  · show ∀ id ∈ (T.skewed sec).map AeTimeEvent.id, _
    rw [hids]
    intro id hid
    obtain ⟨e, he, rfl⟩ := List.mem_map.mp hid
    exact Int.le_sub_one_of_lt (h.lt e he)

/-- At most one time event is for the timer `p`. -/
theorem timers_due_le (h : Reachable (fire timerPcStep) (timerInit loop) c) (sec ms : Int)
    (p : EventPtr) :
    ((((c.shared.skewed sec).filter fun te => te.due sec ms).map fun te =>
      te.tick c.shared.heap).countP fun tick => tick.timer = some p) ≤ 1 := by
  have howned := timers_owned_le h p
  have hcount : ((c.shared.skewed sec).map AeTimeEvent.clientData).count p ≤ 1 := by
    have hclients : (c.shared.skewed sec).map AeTimeEvent.clientData =
        c.shared.pending.map Prod.snd := by
      rw [← c.shared.skewed_pending sec, List.map_map]
      rfl
    rw [hclients]
    unfold Timers.owned at howned
    omega
  have hsub := (List.filter_sublist (l := c.shared.skewed sec)
    (p := fun te => te.due sec ms)).map AeTimeEvent.clientData
  have hdue := hsub.count_le p
  rw [List.count, List.countP_map] at hdue
  rw [List.countP_map]
  refine Nat.le_trans (Nat.le_of_eq (List.countP_congr fun te _ => ?_)) (Nat.le_trans hdue hcount)
  simp [AeTimeEvent.tick]

theorem processTimeEvents_eq (answer : Nat → Int) (sec ms : Int) (fuel : Nat) (T : Timers) :
    processTimeEvents answer sec ms fuel T =
      passFrom answer sec ms fuel { T with timeEventHead := T.skewed sec, lastTime := sec }
        (.scan (T.timeEventNextId - 1) 0) :=
  rfl

omit [Fintype ι] in
theorem timers_dueMoveOn (h : Reachable (fire timerPcStep) (timerInit loop) c)
    {answer : Nat → Int} {sec ms : Int} (hms : 0 ≤ ms) (hms' : ms < 1000)
    (hends : c.shared.PassEnds answer sec ms) : c.shared.DueMoveOn answer sec ms := by
  obtain ⟨fuel, r, hrun, hr⟩ := hends
  by_contra hmove
  rw [processTimeEvents_eq] at hrun
  obtain ⟨p, hp⟩ := passFrom_repeats hms hms' ((timers_idsOnce h).scannable sec) rfl hmove hrun
  have hp : c.shared.ticks p + 2 ≤ r.1.ticks p := hp
  have hle := hr p
  omega

theorem timers_passEnds (h : Reachable (fire timerPcStep) (timerInit loop) c)
    {answer : Nat → Int} {sec ms : Int} (hms : 0 ≤ ms) (hms' : ms < 1000)
    (hmove : c.shared.DueMoveOn answer sec ms) : c.shared.PassEnds answer sec ms := by
  obtain ⟨fuel, r, hrun, hsent⟩ :=
    passFrom_ends hms hms' ((timers_idsOnce h).scannable sec) rfl hmove
  refine ⟨fuel, r, hrun, fun p => ?_⟩
  rw [ticks_append (T := c.shared) hsent p]
  exact Nat.add_le_add_left (timers_due_le h sec ms p) _

/-- In every state of the timers, a pass ends with at most one call for each timer just
    in case every timer that is due moves on. -/
theorem processTimeEvents_ends_iff (h : Reachable (fire timerPcStep) (timerInit loop) c)
    (answer : Nat → Int) (sec : Int) {ms : Int} (hms : 0 ≤ ms) (hms' : ms < 1000) :
    c.shared.PassEnds answer sec ms ↔ c.shared.DueMoveOn answer sec ms :=
  ⟨timers_dueMoveOn h hms hms', timers_passEnds h hms hms'⟩

/-- A repeating timer of 20 ms and a one shot, both due. -/
theorem processTimeEvents_ends_two : ∃ c : Config (Fin 2) Timers TimerPc,
    c.shared.timeEventHead = [⟨1, 10, 5, 1⟩, ⟨0, 10, 20, 0⟩] ∧
      c.shared.PassEnds (fun _ => 0) 30 0 := by
  let run : List (Fin 2 × TimerChoice) :=
    [(1, .timeout 5 20 7 1), (1, .pushed false), (0, .recv 10 0),
      (1, .timeout 5 5 8 0), (1, .pushed false), (0, .recv 10 0)]
  have hrun : ∃ c, runFrom (fire timerPcStep) (timerInit 0) run = some c ∧
      c.shared.timeEventHead = [⟨1, 10, 5, 1⟩, ⟨0, 10, 20, 0⟩] ∧
      (c.shared.skewed 30).filter (fun te => te.due 30 0) = [⟨1, 10, 5, 1⟩, ⟨0, 10, 20, 0⟩] ∧
      (c.shared.heap 0).time = 20 ∧ (c.shared.heap 1).noMore = 0 := ⟨_, rfl, rfl, rfl, rfl, rfl⟩
  obtain ⟨c, hc, hhead, hdue, htime, hone⟩ := hrun
  refine ⟨c, hhead, (processTimeEvents_ends_iff ⟨run, hc⟩ _ 30 (by decide) (by decide)).mpr ?_⟩
  intro j te hj
  rw [hdue] at hj
  match j, hj with
  | 0, hj =>
      cases hj
      exact fun _ hmore => absurd hone hmore
  | 1, hj =>
      cases hj
      exact fun _ _ => Or.inr (by rw [htime]; decide)

/-- A repeating timer of -5 ms is due again whenever it has been called. -/
theorem processTimeEvents_spins : ∃ c : Config (Fin 2) Timers TimerPc,
    Reachable (fire timerPcStep) (timerInit 0) c ∧ c.shared.timeEventHead = [⟨0, 10, -5, 0⟩] ∧
      (c.shared.heap 0).time = -5 ∧ ¬c.shared.PassEnds (fun _ => 0) 10 0 := by
  have hrun : ∃ c, runFrom (fire timerPcStep) (timerInit (0 : Fin 2))
      [(1, .timeout 5 (-5) 7 1), (1, .pushed false), (0, .recv 10 0)] = some c ∧
      c.shared.timeEventHead = [⟨0, 10, -5, 0⟩] ∧ c.shared.heap 0 = ⟨1, 5, 7, -5, 1, 0⟩ ∧
      (c.shared.skewed 10).filter (fun te => te.due 10 0) = [⟨0, 10, -5, 0⟩] :=
    ⟨_, rfl, rfl, rfl, rfl⟩
  obtain ⟨c, hc, hhead, hheap, hdue⟩ := hrun
  refine ⟨c, ⟨_, hc⟩, hhead, by rw [hheap], fun hends => ?_⟩
  have hmove := timers_dueMoveOn ⟨_, hc⟩ (by decide) (by decide) hends 0 ⟨0, 10, -5, 0⟩
    (by rw [hdue]; rfl)
  rw [hheap] at hmove
  exact absurd hmove (by decide)

end Runs

end Timer
end ZServer
