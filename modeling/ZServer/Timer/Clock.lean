/-
  ZServer.Timer.Clock

  Timers and the clock, while the clock does not go back.

    * `timers_never_early` — the `n`-th tick of a timer comes no earlier than `n` times
      its time after the timer thread has taken it up.
    * `timers_sleep` — how long `aeProcessEvents` lets `epoll_wait` sleep: until the
      nearest time event, and not a millisecond longer, if that is still to come.
-/

import ZServer.Timer.Pass

namespace ZServer
namespace Timer

open Lib

-- ============================================================================
-- Readings of the clock
-- ============================================================================

/-- A reading of the clock in milliseconds. -/
def stamp (sec ms : Int) : Int := 1000 * sec + ms

/-- When a time event is due. -/
def AeTimeEvent.stamp (te : AeTimeEvent) : Int := Timer.stamp te.whenSec te.whenMs

/-- The clock is read after it read `clock`; `time(NULL)` gives whole seconds. -/
def TimerChoice.After (clock : Int) : TimerChoice → Prop
  | .recv curSec curMs => 0 ≤ curMs ∧ curMs < 1000 ∧ clock ≤ stamp curSec curMs
  | .process now => clock < stamp now 1000
  | .look nowSec nowMs _ curSec curMs => 0 ≤ nowMs ∧ nowMs < 1000 ∧ 0 ≤ curMs ∧ curMs < 1000 ∧
      clock ≤ stamp nowSec nowMs ∧ stamp nowSec nowMs ≤ stamp curSec curMs
  | _ => True

instance (clock : Int) : DecidablePred (TimerChoice.After clock)
  | .recv _ _ => inferInstanceAs (Decidable (_ ∧ _))
  | .process _ => inferInstanceAs (Decidable (_ < _))
  | .look _ _ _ _ _ => inferInstanceAs (Decidable (_ ∧ _))
  | .timeout _ _ _ _ => isTrue trivial
  | .cancel _ => isTrue trivial
  | .stop => isTrue trivial
  | .pushed _ => isTrue trivial

/-- What the clock reads at least, after that. -/
def TimerChoice.clock (clock : Int) : TimerChoice → Int
  | .recv curSec curMs => stamp curSec curMs
  | .process now => max clock (stamp now 0)
  | .look _ _ _ curSec curMs => stamp curSec curMs
  | _ => clock

/-- The timers with the last reading of the clock, and the history of the timers: when the
    timer thread has taken up each record, and at what time each tick was sent. -/
structure Clocked (ι : Type) where
  config : Config ι Timers TimerPc
  clock : Int
  begun : EventPtr → Int
  ticks : List (EventPtr × Int)

section Steps

variable {ι : Type} [DecidableEq ι]

/-- The record that a choice of the timer thread takes up. -/
def takenUp (T : Timers) : TimerChoice → Option EventPtr
  | .recv _ _ => T.em.head?
  | _ => none

/-- The time that the ticks of a choice are sent at. -/
def sentAt : TimerChoice → Int
  | .look nowSec nowMs _ _ _ => stamp nowSec nowMs
  | _ => 0

/-- The timers that have sent a tick. -/
def newTicks (T T' : Timers) : List EventPtr := (T'.sent.drop T.sent.length).filterMap Tick.timer

def Clocked.after (s : Clocked ι) (choice : TimerChoice) (c : Config ι Timers TimerPc) :
    Clocked ι where
  config := c
  clock := choice.clock s.clock
  begun := match takenUp s.config.shared choice with
    | some p => Function.update s.begun p (choice.clock s.clock)
    | none => s.begun
  ticks := s.ticks ++ (newTicks s.config.shared c.shared).map fun p => (p, sentAt choice)

def clockedStep (s : Clocked ι) (a : ι × TimerChoice) : Option (Clocked ι) :=
  if a.2.After s.clock then (fire timerPcStep s.config a).map (s.after a.2) else none

def clockedInit (loop : ι) : Clocked ι := ⟨timerInit loop, 0, fun _ => 0, []⟩

/-- When the timer `p` has ticked. -/
def timesOf (p : EventPtr) (ticks : List (EventPtr × Int)) : List Int :=
  (ticks.filter fun t => t.1 = p).map Prod.snd

/-- No tick comes early. -/
def NeverEarly (s : Clocked ι) : Prop :=
  ∀ p (k : Nat) t, (timesOf p s.ticks)[k]? = some t →
    s.begun p + (k + 1) * (s.config.shared.heap p).time ≤ t

end Steps

-- ============================================================================
-- The sleep of the event loop
-- ============================================================================

/-- `te` comes before `nearest`, for `aeSearchNearestTimer`. -/
def AeTimeEvent.Before (te nearest : AeTimeEvent) : Prop :=
  te.whenSec < nearest.whenSec ∨ te.whenSec = nearest.whenSec ∧ te.whenMs < nearest.whenMs

instance (te nearest : AeTimeEvent) : Decidable (te.Before nearest) := by
  unfold AeTimeEvent.Before
  infer_instance

def nearer (nearest : Option AeTimeEvent) (te : AeTimeEvent) : Option AeTimeEvent :=
  match nearest with
  | none => some te
  | some n => if te.Before n then some te else some n

def aeSearchNearestTimer (head : List AeTimeEvent) : Option AeTimeEvent := head.foldl nearer none

/-- `tv_sec` and `tv_usec`, the time missing for the nearest timer to fire. -/
def missing (shortest : AeTimeEvent) (nowSec nowMs : Int) : Int × Int :=
  let tv :=
    if shortest.whenMs < nowMs then
      (shortest.whenSec - nowSec - 1, (shortest.whenMs + 1000 - nowMs) * 1000)
    else (shortest.whenSec - nowSec, (shortest.whenMs - nowMs) * 1000)
  (if tv.1 < 0 then 0 else tv.1, if tv.2 < 0 then 0 else tv.2)

/-- The timeout that `aeApiPoll` gives to `epoll_wait`, which takes an `int`. -/
def pollTimeout (head : List AeTimeEvent) (nowSec nowMs : Int) : Int :=
  match aeSearchNearestTimer head with
  | none => -1
  | some shortest =>
      let tv := missing shortest nowSec nowMs
      intOf (int32Bits (tv.1 * 1000 + tv.2.tdiv 1000))

/-- The loop sleeps for `timeout` milliseconds when the clock reads `nowSec` and `nowMs`:
    without end if there is no time event, else until the nearest of them, if that is not
    overdue. -/
structure SleepsFor (head : List AeTimeEvent) (nowSec nowMs timeout : Int) : Prop where
  idle : head = [] → timeout = -1
  nearest : head ≠ [] → ∃ te ∈ head, (∀ te' ∈ head, te.stamp ≤ te'.stamp) ∧
    timeout = if stamp nowSec nowMs ≤ te.stamp then te.stamp - stamp nowSec nowMs
      else (te.stamp - stamp nowSec nowMs) % 1000

/-- The timer thread sleeps like that if the timers wait for a time that is not negative. -/
def Sleeps {ι : Type} (s : Clocked ι) : Prop :=
  ∀ nowSec nowMs, 0 ≤ nowMs → nowMs < 1000 → s.clock ≤ stamp nowSec nowMs →
    (∀ te ∈ s.config.shared.timeEventHead, 0 ≤ (s.config.shared.heap te.clientData).time ∧
      (s.config.shared.heap te.clientData).time < 2 ^ 31) →
    SleepsFor s.config.shared.timeEventHead nowSec nowMs
      (pollTimeout s.config.shared.timeEventHead nowSec nowMs)

-- ============================================================================
-- Times
-- ============================================================================

/-- A new time is as far ahead as it is to be. -/
theorem aeAddMillisecondsToNow_stamp (milliseconds sec : Int) {ms : Int} (hms : 0 ≤ ms)
    (hms' : ms < 1000) :
    stamp (aeAddMillisecondsToNow milliseconds sec ms).1
        (aeAddMillisecondsToNow milliseconds sec ms).2 = stamp sec ms + milliseconds ∧
      (aeAddMillisecondsToNow milliseconds sec ms).2 < 1000 ∧
      (0 ≤ milliseconds → 0 ≤ (aeAddMillisecondsToNow milliseconds sec ms).2) := by
  have hsum := Int.mul_tdiv_add_tmod milliseconds 1000
  have hlt : milliseconds.tmod 1000 < 1000 := Int.tmod_lt_of_pos _ (by decide)
  have hpos : 0 ≤ milliseconds → 0 ≤ milliseconds.tmod 1000 := fun h => Int.tmod_nonneg _ h
  unfold aeAddMillisecondsToNow stamp
  simp only
  generalize milliseconds.tdiv 1000 = q at hsum ⊢
  generalize milliseconds.tmod 1000 = r at hsum hlt hpos ⊢
  split <;> simp only <;> omega

@[simp] theorem AeTimeEvent.rearm_clientData (te : AeTimeEvent) (milliseconds sec ms : Int) :
    (te.rearm milliseconds sec ms).clientData = te.clientData := rfl

/-- What is due is not early. -/
theorem AeTimeEvent.stamp_le {te : AeTimeEvent} {nowSec nowMs : Int} (hms : te.whenMs < 1000)
    (hnow : 0 ≤ nowMs) (hdue : te.due nowSec nowMs = true) : te.stamp ≤ Timer.stamp nowSec nowMs := by
  simp only [AeTimeEvent.due, decide_eq_true_eq] at hdue
  unfold AeTimeEvent.stamp Timer.stamp
  omega

theorem AeTimeEvent.before_iff {te te' : AeTimeEvent} (h : 0 ≤ te.whenMs ∧ te.whenMs < 1000)
    (h' : 0 ≤ te'.whenMs ∧ te'.whenMs < 1000) : te.Before te' ↔ te.stamp < te'.stamp := by
  unfold AeTimeEvent.Before AeTimeEvent.stamp Timer.stamp
  omega

-- ============================================================================
-- The nearest time event
-- ============================================================================

/-- `n` is in the list, and nothing in the list comes before it. -/
def Nearest (head : List AeTimeEvent) (n : AeTimeEvent) : Prop :=
  n ∈ head ∧ ∀ te ∈ head, n.stamp ≤ te.stamp

theorem aeSearchNearestTimer_cases {head : List AeTimeEvent}
    (hms : ∀ te ∈ head, 0 ≤ te.whenMs ∧ te.whenMs < 1000) :
    head = [] ∧ aeSearchNearestTimer head = none ∨
      ∃ n, aeSearchNearestTimer head = some n ∧ Nearest head n := by
  induction head using List.reverseRecOn with
  | nil => exact Or.inl ⟨rfl, rfl⟩
  | append_singleton head te ih =>
      have hte := hms te (by simp)
      have hfold : aeSearchNearestTimer (head ++ [te]) = nearer (aeSearchNearestTimer head) te := by
        simp [aeSearchNearestTimer]
      refine Or.inr ?_
      rcases ih fun te' hte' => hms te' (by simp [hte']) with ⟨rfl, hnone⟩ | ⟨n, hn, hmem, hleast⟩
      · exact ⟨te, hfold.trans (by rw [hnone]; rfl), by simp, by simp⟩
      · have hbefore := AeTimeEvent.before_iff hte (hms n (by simp [hmem]))
        rw [hfold, hn]
        unfold nearer
        by_cases hnear : te.Before n
        · rw [hbefore] at hnear
          refine ⟨te, by simp [hbefore, hnear], by simp, ?_⟩
          intro te' hte'
          rcases List.mem_append.mp hte' with hold | hnew
          · have hle := hleast te' hold
            omega
          · rw [List.mem_singleton.mp hnew]
        · rw [hbefore] at hnear
          refine ⟨n, by simp [hbefore, hnear], by simp [hmem], ?_⟩
          intro te' hte'
          rcases List.mem_append.mp hte' with hold | hnew
          · exact hleast te' hold
          · rw [List.mem_singleton.mp hnew]
            omega

/-- The time missing, in milliseconds; nearly a second more than nothing for a time that is
    over, since only the seconds are cut off. -/
theorem missing_eq {te : AeTimeEvent} {nowSec nowMs : Int}
    (hte : 0 ≤ te.whenMs ∧ te.whenMs < 1000) (hnow : 0 ≤ nowMs) (hnow' : nowMs < 1000) :
    (missing te nowSec nowMs).1 * 1000 + (missing te nowSec nowMs).2.tdiv 1000 =
      if stamp nowSec nowMs ≤ te.stamp then te.stamp - stamp nowSec nowMs
        else (te.stamp - stamp nowSec nowMs) % 1000 := by
  have hdiv : ∀ x : Int, 0 ≤ x → (x * 1000).tdiv 1000 = x := fun x _ =>
    Int.mul_tdiv_cancel x (by decide)
  unfold missing AeTimeEvent.stamp stamp
  by_cases hms : te.whenMs < nowMs
  · have husec : ¬(te.whenMs + 1000 - nowMs) * 1000 < 0 := by omega
    simp only [hms, if_true, husec, if_false]
    rw [hdiv _ (by omega)]
    split <;> split <;> omega
  · have husec : ¬(te.whenMs - nowMs) * 1000 < 0 := by omega
    simp only [hms, if_false, husec]
    rw [hdiv _ (by omega)]
    split <;> split <;> omega

theorem pollTimeout_sleepsFor {head : List AeTimeEvent} {nowSec nowMs : Int}
    (hms : ∀ te ∈ head, 0 ≤ te.whenMs ∧ te.whenMs < 1000) (hnow : 0 ≤ nowMs)
    (hnow' : nowMs < 1000) (hfar : ∀ te ∈ head, te.stamp < stamp nowSec nowMs + 2 ^ 31) :
    SleepsFor head nowSec nowMs (pollTimeout head nowSec nowMs) := by
  unfold pollTimeout
  rcases aeSearchNearestTimer_cases hms with ⟨rfl, hnone⟩ | ⟨n, hn, hmem, hleast⟩
  · rw [hnone]
    exact ⟨fun _ => rfl, fun hne => absurd rfl hne⟩
  · rw [hn]
    have hne : head ≠ [] := List.ne_nil_of_mem hmem
    refine ⟨fun hnil => absurd hnil hne, fun _ => ⟨n, hmem, hleast, ?_⟩⟩
    simp only [missing_eq (hms n hmem) hnow hnow']
    have hlt := hfar n hmem
    apply intOf_int32Bits
    · split <;> omega
    · split <;> omega

/-- A time event that is overdue by a millisecond makes the loop sleep for nearly a second. -/
example : pollTimeout [⟨0, 5, 100, 0⟩] 5 101 = 999 := by decide

-- ============================================================================
-- Moves
-- ============================================================================

/-- What a choice does to the time events, and when. -/
inductive ClockMove (T T' : Timers) : TimerChoice → Prop where
  | quiet (choice : TimerChoice) (hheap : ∀ p < T.next, T'.heap p = T.heap p)
      (hhead : ∀ te ∈ T'.timeEventHead, te ∈ T.timeEventHead) (hadded : ∀ p, T.Added p → T'.Added p)
      (hticks : newTicks T T' = []) (hlast : T'.lastTime = T.lastTime) : ClockMove T T' choice
  | process (now : Int) (hT' : T' = { T with
      timeEventHead := if now < T.lastTime then T.timeEventHead.map fun te => { te with whenSec := 0 }
        else T.timeEventHead
      lastTime := now }) : ClockMove T T' (.process now)
  | add (curSec curMs : Int) (msg : EventPtr) (em : List EventPtr) (hem : T.em = msg :: em)
      (hT' : T' = { { T with em := em }.aeCreateTimeEvent (T.heap msg).time msg curSec curMs with
        timerDict := dictAdd T.timerDict (T.heap msg).sn T.timeEventNextId }) :
      ClockMove T T' (.recv curSec curMs)
  | tick (nowSec nowMs ret curSec curMs : Int) (k : Nat) (te : AeTimeEvent)
      (hk : T.timeEventHead[k]? = some te) (hdue : te.due nowSec nowMs = true)
      (hT' : T' = T.runTimeEvent k te ret curSec curMs) :
      ClockMove T T' (.look nowSec nowMs ret curSec curMs)

section Moves

variable {T T' : Timers}

theorem newTicks_eq (more : List Tick) (h : T'.sent = T.sent ++ more) :
    newTicks T T' = more.filterMap Tick.timer := by
  unfold newTicks
  rw [h, List.drop_left]

theorem newTicks_same (h : T'.sent = T.sent) : newTicks T T' = [] :=
  newTicks_eq [] (h.trans (List.append_nil _).symm)

theorem ClockMove.same (choice : TimerChoice) : ClockMove T T choice :=
  .quiet choice (fun _ _ => rfl) (fun _ h => h) (fun _ h => h) (newTicks_same rfl) rfl

/-- A record is filled in. -/
theorem ClockMove.alloc (choice : TimerChoice)
    (hheap : ∃ event, T'.heap = Function.update T.heap T.next event)
    (hhead : T'.timeEventHead = T.timeEventHead) (hzfreed : T'.zfreed = T.zfreed)
    (hsent : T'.sent = T.sent) (hlast : T'.lastTime = T.lastTime) : ClockMove T T' choice := by
  obtain ⟨event, hheap⟩ := hheap
  refine .quiet choice ?_ ?_ ?_ (newTicks_same hsent) hlast
  · intro p hp
    rw [hheap, Function.update_of_ne (Nat.ne_of_lt hp)]
  · intro te hte
    rwa [hhead] at hte
  · intro p hp
    unfold Timers.Added Timers.pending at hp ⊢
    rwa [hhead, hzfreed]

theorem aeDeleteTimeEvent_lastTime (T : Timers) (id : Int) :
    (T.aeDeleteTimeEvent id).lastTime = T.lastTime := by
  unfold Timers.aeDeleteTimeEvent
  split <;> rfl

theorem mem_of_aeDeleteTimeEvent {id : Int} {te : AeTimeEvent}
    (h : te ∈ (T.aeDeleteTimeEvent id).timeEventHead) : te ∈ T.timeEventHead := by
  rcases aeDeleteTimeEvent_cases T id with ⟨te', before, after, hsplit, -, -, heq⟩ | ⟨-, heq⟩
  · rw [heq] at h
    rw [hsplit]
    rcases List.mem_append.mp h with hmem | hmem
    · simp [hmem]
    · simp [hmem]
  · rwa [heq] at h

/-- The timer thread takes up a record. -/
theorem recv_clock {msg : EventPtr} {em : List EventPtr} (hem : T.em = msg :: em)
    (curSec curMs : Int) :
    ClockMove T ({ T with em := em }.emCallback msg curSec curMs) (.recv curSec curMs) := by
  by_cases hadd : (T.heap msg).type = 0
  · rw [emCallback_add { T with em := em } msg curSec curMs hadd]
    exact .add curSec curMs msg em hem rfl
  · by_cases hcancel : (T.heap msg).type = 1
    · rcases emCallback_cancel { T with em := em } msg curSec curMs hcancel with ⟨id, -, heq⟩ |
        ⟨-, heq⟩
      · rw [heq]
        have hsame := aeDeleteTimeEvent_same { T with em := em } id
        refine .quiet _ ?_ ?_ ?_ (newTicks_same hsame.sent) (aeDeleteTimeEvent_lastTime _ id)
        · intro p _
          exact congrFun hsame.heap p
        · intro te hte
          exact mem_of_aeDeleteTimeEvent (T := { T with em := em }) hte
        · intro p hp
          have hadded : ({ T with em := em } : Timers).Added p := hp
          rcases aeDeleteTimeEvent_added _ id hadded with hpending | hfreed
          · exact Or.inl hpending
          · exact Or.inr (List.mem_append_left _ hfreed)
      · rw [heq]
        exact .quiet _ (fun _ _ => rfl) (fun _ h => h)
          (fun p hp => hp.imp_right (List.mem_append_left _)) (newTicks_same rfl) rfl
    · rw [emCallback_stop { T with em := em } msg curSec curMs hadd hcancel]
      exact .quiet _ (fun _ _ => rfl) (fun _ h => h)
        (fun p hp => hp.imp_right (List.mem_append_left _)) (newTicks_same rfl) rfl

theorem runTimeEvent_lastTime (T : Timers) (k : Nat) (te : AeTimeEvent) (ret curSec curMs : Int) :
    (T.runTimeEvent k te ret curSec curMs).lastTime = T.lastTime := by
  unfold Timers.runTimeEvent
  simp only
  split
  · rfl
  · exact aeDeleteTimeEvent_lastTime _ _

theorem runTimeEvent_added {k : Nat} {te : AeTimeEvent} {p : EventPtr} (ret curSec curMs : Int)
    (hk : T.timeEventHead[k]? = some te) (h : T.Added p) :
    (T.runTimeEvent k te ret curSec curMs).Added p := by
  obtain ⟨T₁, rfl, ⟨-, head, hhead, heq⟩ | ⟨-, heq⟩⟩ := runTimeEvent_cases T curSec curMs ret hk
  · rw [heq]
    refine h.imp_left fun hp => ?_
    show p ∈ (head.map _).map Prod.snd
    rw [hhead]
    exact hp
  · rw [heq]
    exact aeDeleteTimeEvent_added _ te.id h

/-- The time event is given a new time, or goes; the others are of other timers. -/
theorem runTimeEvent_mem {k : Nat} {te te' : AeTimeEvent} {ret curSec curMs : Int}
    (honce : T.IdsOnce) (hnodup : (T.timeEventHead.map AeTimeEvent.clientData).Nodup)
    (hk : T.timeEventHead[k]? = some te)
    (hte' : te' ∈ (T.runTimeEvent k te ret curSec curMs).timeEventHead) :
    te' ∈ T.timeEventHead ∧ te'.clientData ≠ te.clientData ∨
      te' = te.rearm (T.heap te.clientData).time curSec curMs := by
  unfold Timers.runTimeEvent at hte'
  simp only at hte'
  split at hte'
  · rename_i hmore
    have htime : timeProc (T.heap te.clientData) ret = (T.heap te.clientData).time := by
      unfold timeProc at hmore ⊢
      split at hmore <;> simp_all
    obtain ⟨j, hj⟩ := List.mem_iff_getElem?.mp hte'
    dsimp only [Timers.zSend] at hj
    by_cases hjk : k = j
    · subst hjk
      have hlt := (List.getElem?_eq_some_iff.mp hk).1
      rw [List.getElem?_set_self hlt, Option.some.injEq, htime] at hj
      exact Or.inr hj.symm
    · rw [List.getElem?_set_ne hjk] at hj
      refine Or.inl ⟨List.mem_of_getElem? hj, fun heq => hjk ?_⟩
      have hlt := (List.getElem?_eq_some_iff.mp hk).1
      apply (List.getElem?_inj (by simpa using hlt) hnodup).mp
      rw [List.getElem?_map, List.getElem?_map, hk, hj, Option.map_some, Option.map_some, heq]
  · have hte : te ∈ T.timeEventHead := List.mem_of_getElem? hk
    have hmem := mem_of_aeDeleteTimeEvent hte'
    refine Or.inl ⟨hmem, fun heq => ?_⟩
    have hsame := List.inj_on_of_nodup_map hnodup hmem hte heq
    obtain ⟨-, hpending⟩ := aeDeleteTimeEvent_pending (T := T.zSend
      ⟨some te.clientData, (T.heap te.clientData).dest, (T.heap te.clientData).value⟩)
      (List.pairwise_map.mp honce.once) hte
    exact ((hpending _).mp (Timers.mem_pending hte')).2 (by rw [hsame])

theorem clock_move {pc pc' : TimerPc} {choice : TimerChoice}
    (hs : timerPcStep T pc choice = some (T', pc')) : ClockMove T T' choice := by
  cases pc with
  | user =>
      cases choice with
      | timeout dest time session noMore =>
          simp only [timerPcStep, Timers.timerTimeout] at hs
          split at hs
          · cases hs
            refine .quiet _ (fun _ _ => rfl) (fun _ h => h) (fun _ h => h) ?_ rfl
            rw [newTicks_eq [⟨none, dest, session⟩] rfl]
            rfl
          · cases hs
            exact .alloc _ ⟨_, rfl⟩ rfl rfl rfl rfl
      | cancel sn =>
          cases hs
          exact .alloc _ ⟨_, rfl⟩ rfl rfl rfl rfl
      | stop =>
          cases hs
          exact .alloc _ ⟨_, rfl⟩ rfl rfl rfl rfl
      | _ => cases hs
  | push event =>
      cases choice with
      | pushed full =>
          cases full <;> cases hs
          · exact .quiet _ (fun _ _ => rfl) (fun _ h => h) (fun _ h => h) (newTicks_same rfl) rfl
          · exact .quiet _ (fun _ _ => rfl) (fun _ h => h)
              (fun p hp => hp.imp_right (List.mem_append_left _)) (newTicks_same rfl) rfl
      | _ => cases hs
  | loop =>
      cases choice with
      | recv curSec curMs =>
          simp only [timerPcStep] at hs
          split at hs
          · cases hs
          · rename_i msg em hem
            cases hs
            exact recv_clock hem curSec curMs
      | process now =>
          cases hs
          exact .process now rfl
      | _ => cases hs
  | scan maxId k =>
      cases choice with
      | look nowSec nowMs ret curSec curMs =>
          simp only [timerPcStep] at hs
          split at hs
          · cases hs
            exact .same _
          · rename_i te hk
            split at hs
            · cases hs
              exact .same _
            · split at hs
              · rename_i hdue
                cases hs
                exact .tick nowSec nowMs ret curSec curMs k te hk hdue rfl
              · cases hs
                exact .same _
      | _ => cases hs
  | stopped => cases hs

end Moves

-- ============================================================================
-- Runs
-- ============================================================================

section Runs

variable {ι : Type} [DecidableEq ι] {loop : ι}

/-- A time event stands for the next tick of its timer. -/
structure Scheduled (s : Clocked ι) (te : AeTimeEvent) : Prop where
  ms_lt : te.whenMs < 1000
  ms_nonneg : 0 ≤ (s.config.shared.heap te.clientData).time → 0 ≤ te.whenMs
  late : s.begun te.clientData +
    ((timesOf te.clientData s.ticks).length + 1) * (s.config.shared.heap te.clientData).time ≤
      te.stamp
  near : te.stamp ≤ s.clock + (s.config.shared.heap te.clientData).time

structure Clocked.Ok (loop : ι) (s : Clocked ι) : Prop where
  reachable : Reachable (fire timerPcStep) (timerInit loop) s.config
  lastTime : stamp s.config.shared.lastTime 0 ≤ s.clock
  scheduled : ∀ te ∈ s.config.shared.timeEventHead, Scheduled s te
  ticked : ∀ t ∈ s.ticks, s.config.shared.Added t.1
  early : NeverEarly s

@[simp] theorem timesOf_append (p : EventPtr) (ticks ticks' : List (EventPtr × Int)) :
    timesOf p (ticks ++ ticks') = timesOf p ticks ++ timesOf p ticks' := by
  simp [timesOf]

@[simp] theorem timesOf_nil (p : EventPtr) : timesOf p [] = [] := rfl

theorem timesOf_eq_nil {p : EventPtr} {ticks : List (EventPtr × Int)} (h : ∀ t ∈ ticks, t.1 ≠ p) :
    timesOf p ticks = [] := by
  simpa [timesOf] using h

variable {s s' : Clocked ι}

omit [DecidableEq ι] in
/-- The time event waits on. -/
theorem Scheduled.keep {te : AeTimeEvent} (h : Scheduled s te)
    (hheap : s'.config.shared.heap te.clientData = s.config.shared.heap te.clientData)
    (hbegun : s'.begun te.clientData = s.begun te.clientData)
    (hticks : timesOf te.clientData s'.ticks = timesOf te.clientData s.ticks)
    (hclock : s.clock ≤ s'.clock) : Scheduled s' te := by
  refine ⟨h.ms_lt, ?_, ?_, ?_⟩
  · rw [hheap]
    exact h.ms_nonneg
  · rw [hheap, hbegun, hticks]
    exact h.late
  · have hnear := h.near
    rw [hheap]
    omega

/-- Nothing ticks, and the time events are old ones, or scheduled. -/
theorem Clocked.Ok.next (h : s.Ok loop)
    (hreachable : Reachable (fire timerPcStep) (timerInit loop) s'.config)
    (hlast : stamp s'.config.shared.lastTime 0 ≤ s'.clock) (hclock : s.clock ≤ s'.clock)
    (hheap : ∀ p, s.config.shared.Added p →
      s'.config.shared.heap p = s.config.shared.heap p)
    (hbegun : ∀ p, s.config.shared.Added p → s'.begun p = s.begun p)
    (hadded : ∀ p, s.config.shared.Added p → s'.config.shared.Added p)
    (hticks : s'.ticks = s.ticks)
    (hhead : ∀ te ∈ s'.config.shared.timeEventHead,
      te ∈ s.config.shared.timeEventHead ∨ Scheduled s' te) : s'.Ok loop := by
  refine ⟨hreachable, hlast, ?_, ?_, ?_⟩
  · intro te hte
    rcases hhead te hte with hold | hnew
    · have hpending : s.config.shared.Added te.clientData :=
        Or.inl (List.mem_map_of_mem (Timers.mem_pending hold))
      exact (h.scheduled te hold).keep (hheap _ hpending) (hbegun _ hpending)
        (by rw [hticks]) hclock
    · exact hnew
  · intro t ht
    rw [hticks] at ht
    exact hadded _ (h.ticked t ht)
  · intro p k t ht
    rw [hticks] at ht
    have hp : s.config.shared.Added p := by
      obtain ⟨t', ht', -⟩ := List.mem_map.mp (List.mem_of_getElem? ht)
      obtain ⟨hmem, heq⟩ := List.mem_filter.mp ht'
      rw [← of_decide_eq_true heq]
      exact h.ticked t' hmem
    rw [hheap p hp, hbegun p hp]
    exact h.early p k t ht

variable [Fintype ι]

/-- A record that the timer thread has added is in use, and not on its way. -/
theorem Clocked.Ok.added (h : s.Ok loop) {p : EventPtr} (hp : s.config.shared.Added p) :
    p < s.config.shared.next ∧ p ∉ s.config.shared.em := by
  have howned := timers_owned h.reachable p
  have hle := timers_owned_le h.reachable p
  constructor
  · have hpos : 0 < s.config.shared.owned p := by
      unfold Timers.owned
      rcases hp with hmem | hmem
      · have hcount := List.count_pos_iff.mpr hmem
        omega
      · have hcount := List.count_pos_iff.mpr hmem
        omega
    unfold Timers.used at howned
    by_contra hge
    rw [if_neg hge] at howned
    omega
  · intro hem
    exact Timers.not_added _ hle hem hp

/-- Every timer has one time event at most. -/
theorem Clocked.Ok.nodup (h : s.Ok loop) :
    (s.config.shared.timeEventHead.map AeTimeEvent.clientData).Nodup := by
  rw [List.nodup_iff_count_le_one]
  intro p
  have howned := timers_owned_le h.reachable p
  have hpending : s.config.shared.pending.map Prod.snd =
      s.config.shared.timeEventHead.map AeTimeEvent.clientData := by
    simp [Timers.pending]
  unfold Timers.owned at howned
  rw [hpending] at howned
  omega

/-- A tick: the timer has no other time event, and its next tick is at least its time
    away. -/
theorem Clocked.Ok.tick (h : s.Ok loop) {nowSec nowMs ret curSec curMs : Int} {k : Nat}
    {te : AeTimeEvent} (hk : s.config.shared.timeEventHead[k]? = some te)
    (hdue : te.due nowSec nowMs = true) (hnow : 0 ≤ nowMs) (hcur : 0 ≤ curMs)
    (hcur' : curMs < 1000) (hclock : s.clock ≤ stamp nowSec nowMs)
    (hle : stamp nowSec nowMs ≤ stamp curSec curMs)
    (hreachable : Reachable (fire timerPcStep) (timerInit loop) s'.config)
    (hT' : s'.config.shared = s.config.shared.runTimeEvent k te ret curSec curMs)
    (hs'clock : s'.clock = stamp curSec curMs) (hbegun : s'.begun = s.begun)
    (hticks : s'.ticks = s.ticks ++ [(te.clientData, stamp nowSec nowMs)]) : s'.Ok loop := by
  have hte : te ∈ s.config.shared.timeEventHead := List.mem_of_getElem? hk
  have hold := h.scheduled te hte
  have hstamp := hold.late.trans (AeTimeEvent.stamp_le hold.ms_lt hnow hdue)
  have hheap : s'.config.shared.heap = s.config.shared.heap := by
    rw [hT']
    exact (runTimeEvent_keeps _ ret curSec curMs hk).heap
  have hself : timesOf te.clientData s'.ticks =
      timesOf te.clientData s.ticks ++ [stamp nowSec nowMs] := by
    rw [hticks, timesOf_append]
    simp [timesOf]
  have hothers : ∀ p, p ≠ te.clientData → timesOf p s'.ticks = timesOf p s.ticks := by
    intro p hp
    have hnone : timesOf p [(te.clientData, stamp nowSec nowMs)] = [] :=
      timesOf_eq_nil (by simpa using Ne.symm hp)
    rw [hticks, timesOf_append, hnone, List.append_nil]
  have hadded : ∀ p, s.config.shared.Added p → s'.config.shared.Added p := by
    intro p hp
    rw [hT']
    exact runTimeEvent_added ret curSec curMs hk hp
  have hteAdded : s.config.shared.Added te.clientData :=
    Or.inl (List.mem_map_of_mem (Timers.mem_pending hte))
  refine ⟨hreachable, ?_, ?_, ?_, ?_⟩
  · have hlast := h.lastTime
    rw [hT', runTimeEvent_lastTime]
    omega
  · intro te' hte'
    rw [hT'] at hte'
    rcases runTimeEvent_mem (timers_idsOnce h.reachable) h.nodup hk hte' with ⟨hmem, hne⟩ | rfl
    · exact (h.scheduled te' hmem).keep (by rw [hheap]) (by rw [hbegun]) (hothers _ hne)
        (by omega)
    · obtain ⟨hnew, hlt, hpos⟩ := aeAddMillisecondsToNow_stamp
        (s.config.shared.heap te.clientData).time curSec hcur hcur'
      have hrearm : (te.rearm (s.config.shared.heap te.clientData).time curSec curMs).stamp =
          stamp curSec curMs + (s.config.shared.heap te.clientData).time := hnew
      refine ⟨hlt, ?_, ?_, ?_⟩
      · rw [hheap]
        exact hpos
      · -- the tick was not early, and the clock has not gone back since
        rw [hrearm, hheap, hbegun, AeTimeEvent.rearm_clientData, hself, List.length_append,
          List.length_singleton]
        push_cast
        generalize (s.config.shared.heap te.clientData).time = time at hstamp ⊢
        rw [Int.add_mul _ 1 time]
        omega
      · rw [hrearm, hs'clock, hheap]
        exact Int.le_refl _
  · intro t ht
    rw [hticks] at ht
    rcases List.mem_append.mp ht with hold' | hnew
    · exact hadded _ (h.ticked t hold')
    · rw [List.mem_singleton.mp hnew]
      exact hadded _ hteAdded
  · intro p j t ht
    rw [hbegun, hheap]
    by_cases hp : p = te.clientData
    · subst hp
      rw [hself, List.getElem?_append] at ht
      split at ht
      · exact h.early _ _ _ ht
      · rename_i hge
        rw [List.getElem?_singleton] at ht
        split at ht
        · rename_i hzero
          have hj : j = (timesOf te.clientData s.ticks).length := by omega
          rw [Option.some.injEq] at ht
          rw [hj, ← ht]
          exact hstamp
        · cases ht
    · rw [hothers p hp] at ht
      exact h.early p j t ht

/-- A record that is taken up has not been added. -/
theorem Clocked.Ok.begun (h : s.Ok loop) (choice : TimerChoice) (c : Config ι Timers TimerPc)
    {p : EventPtr} (hp : s.config.shared.Added p) : (s.after choice c).begun p = s.begun p := by
  unfold Clocked.after
  dsimp only
  cases hq : takenUp s.config.shared choice with
  | none => rfl
  | some q =>
      have hmem : q ∈ s.config.shared.em := by
        unfold takenUp at hq
        split at hq
        · exact List.mem_of_head? hq
        · cases hq
      have hne : p ≠ q := by
        rintro rfl
        exact (h.added hp).2 hmem
      simp [Function.update_of_ne hne]

/-- The clock does not go back. -/
theorem TimerChoice.After.le {clock : Int} {choice : TimerChoice} (h : choice.After clock) :
    clock ≤ choice.clock clock := by
  cases choice <;> simp only [TimerChoice.After, TimerChoice.clock] at h ⊢ <;> omega

theorem Clocked.Ok.step (h : s.Ok loop) {a : ι × TimerChoice} (hs : clockedStep s a = some s') :
    s'.Ok loop := by
  obtain ⟨i, choice⟩ := a
  unfold clockedStep at hs
  split at hs
  · rename_i hafter
    obtain ⟨c, hfire, rfl⟩ := Option.map_eq_some_iff.mp hs
    have hreachable := h.reachable.tail hfire
    obtain ⟨T', pc', hstep, rfl⟩ := fire_eq_some.mp hfire
    have hlast := h.lastTime
    have hclock := hafter.le
    dsimp only at hafter hclock hstep ⊢
    cases clock_move hstep with
    | quiet _ hheap hhead hadded hticks hlast' =>
        refine h.next hreachable ?_ hclock (fun p hp => hheap p (h.added hp).1)
          (fun p hp => h.begun choice _ hp) hadded ?_ (fun te hte => Or.inl (hhead te hte))
        · show stamp T'.lastTime 0 ≤ choice.clock s.clock
          rw [hlast']
          omega
        · simp [Clocked.after, hticks]
    | process now hT' =>
        have hnow : ¬now < s.config.shared.lastTime := by
          simp only [TimerChoice.After, stamp] at hafter hlast
          omega
        rw [if_neg hnow] at hT'
        subst hT'
        refine h.next hreachable ?_ hclock (fun _ _ => rfl) (fun p hp => h.begun _ _ hp)
          (fun _ hp => hp) ?_ (fun te hte => Or.inl hte)
        · show stamp now 0 ≤ max s.clock (stamp now 0)
          omega
        · simp [Clocked.after, newTicks_same]
    | add curSec curMs msg em hem hT' =>
        obtain ⟨hms, hms', -⟩ := hafter
        obtain ⟨hnew, hlt, hpos⟩ := aeAddMillisecondsToNow_stamp (s.config.shared.heap msg).time
          curSec hms hms'
        have hsent : newTicks s.config.shared T' = [] := newTicks_same (by rw [hT']; rfl)
        have hheap : T'.heap = s.config.shared.heap := by
          rw [hT']
          rfl
        have hself : (s.after (.recv curSec curMs)
            ⟨T', Function.update s.config.pcs i pc'⟩).begun msg = stamp curSec curMs := by
          simp [Clocked.after, takenUp, hem, TimerChoice.clock]
        have hnone : timesOf msg s.ticks = [] := by
          refine timesOf_eq_nil fun t ht heq => ?_
          exact (h.added (h.ticked t ht)).2 (by rw [heq, hem]; simp)
        refine h.next hreachable ?_ hclock (fun p _ => congrFun hheap p)
          (fun p hp => h.begun _ _ hp) ?_ ?_ ?_
        · show stamp T'.lastTime 0 ≤ stamp curSec curMs
          rw [hT']
          exact hlast.trans hclock
        · rintro p (hp | hp)
          · refine Or.inl ?_
            show p ∈ T'.pending.map Prod.snd
            rw [hT']
            exact List.mem_cons_of_mem _ hp
          · refine Or.inr ?_
            show p ∈ T'.zfreed
            rw [hT']
            exact hp
        · simp [Clocked.after, hsent]
        · intro te hte
          have hte : te ∈ T'.timeEventHead := hte
          rw [hT'] at hte
          rcases List.mem_cons.mp hte with rfl | hold
          · have hstamp : AeTimeEvent.stamp ⟨s.config.shared.timeEventNextId,
                (aeAddMillisecondsToNow (s.config.shared.heap msg).time curSec curMs).1,
                (aeAddMillisecondsToNow (s.config.shared.heap msg).time curSec curMs).2, msg⟩ =
                stamp curSec curMs + (s.config.shared.heap msg).time := hnew
            refine Or.inr ⟨hlt, ?_, ?_, ?_⟩
            · simp only [Clocked.after, hheap]
              exact hpos
            · rw [hself]
              simp only [Clocked.after, hsent, hheap, List.map_nil, List.append_nil, hnone]
              refine Int.le_of_eq (Eq.trans ?_ hstamp.symm)
              simp
            · simp only [Clocked.after, hheap]
              exact Int.le_of_eq hstamp
          · exact Or.inl hold
    | tick nowSec nowMs ret curSec curMs k te hk hdue hT' =>
        obtain ⟨hnow, -, hcur, hcur', hle, hle'⟩ := hafter
        have hticks : newTicks s.config.shared T' = [te.clientData] := by
          rw [hT', newTicks_eq _ (runTimeEvent_sent _ k te ret curSec curMs)]
          rfl
        refine h.tick hk hdue hnow hcur hcur' hle hle' hreachable hT' rfl rfl ?_
        simp [Clocked.after, hticks, sentAt]
  · cases hs

omit [Fintype ι] in
theorem clockedInit_ok : (clockedInit loop).Ok loop := by
  refine ⟨Reachable.refl _, Int.le_refl _, ?_, ?_, ?_⟩
  · simp [clockedInit, timerInit]
  · simp [clockedInit]
  · intro p k t ht
    simp [clockedInit, timesOf] at ht

/-- Along every run in which the clock does not go back, whoever asks for timers or cancels
    them: the `n`-th tick of a timer is sent no earlier than `n` times its time after its
    time event was made. -/
theorem timers_never_early (as : List (ι × TimerChoice)) :
    Always clockedStep NeverEarly (clockedInit loop) as :=
  always_of_invariant (fun _ h => h.early) (fun _ _ _ h hs => h.step hs) clockedInit_ok

omit [Fintype ι] in
theorem Clocked.Ok.sleeps (h : s.Ok loop) : Sleeps s := by
  intro nowSec nowMs hnow hnow' hclock htimes
  apply pollTimeout_sleepsFor ?_ hnow hnow'
  · intro te hte
    have hnear := (h.scheduled te hte).near
    have htime := (htimes te hte).2
    omega
  · intro te hte
    have hscheduled := h.scheduled te hte
    exact ⟨hscheduled.ms_nonneg (htimes te hte).1, hscheduled.ms_lt⟩

/-- In every state that such a run passes through, `epoll_wait` gets the time to the nearest
    time event, in milliseconds; the nearest is the one that is due first. -/
theorem timers_sleep (as : List (ι × TimerChoice)) :
    Always clockedStep Sleeps (clockedInit loop) as :=
  always_of_invariant (fun _ h => h.sleeps) (fun _ _ _ h hs => h.step hs) clockedInit_ok

end Runs

end Timer
end ZServer
