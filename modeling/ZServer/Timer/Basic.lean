/-
  ZServer.Timer.Basic

  The timers of `src/timer.c` on the time events of `src/ae.c`.

  Any thread may ask for a timer, or cancel one: it fills in a `struct timerEvent`
  and pushes it to the timer thread (`emPush`).  The timer thread runs `aeMain`:
  it takes the records that have been pushed, one after the other (`emCallback`),
  and goes through the list of time events (`processTimeEvents`), which calls
  `timeProc` on those that are due.  `timerPcStep` is one such action of one thread;
  the list, its ids and `timerDict` are touched by the timer thread alone.

  What the clock reads, what `zSend` returns and whether a push is refused are
  choices of the environment.
-/

import ZServer.Lib.Threads
import ZServer.Lib.Word

namespace ZServer
namespace Timer

open Lib

-- ============================================================================
-- Time events
-- ============================================================================

/-- The address of a `struct timerEvent`. -/
abbrev EventPtr := Nat

/-- `aeTimeEvent`; all of them have `timeProc` and `eventFinalizerProc`. -/
structure AeTimeEvent where
  id : Int
  whenSec : Int
  whenMs : Int
  clientData : EventPtr
  deriving DecidableEq, Repr

def AE_NOMORE : Int := -1

/-- `aeAddMillisecondsToNow`, when the clock reads `curSec` and `curMs`. -/
def aeAddMillisecondsToNow (milliseconds curSec curMs : Int) : Int × Int :=
  let whenSec := curSec + milliseconds.tdiv 1000
  let whenMs := curMs + milliseconds.tmod 1000
  if 1000 ≤ whenMs then (whenSec + 1, whenMs - 1000) else (whenSec, whenMs)

-- ============================================================================
-- Memory
-- ============================================================================

/-- `struct timerEvent`. -/
structure TimerEvent where
  sn : Nat
  /-- `to` -/
  dest : Int
  /-- `value.session` or `value.sn` -/
  value : Nat
  time : Int
  /-- 0: one shot, 1: repeating -/
  noMore : Int
  /-- 0: add a timer, 1: cancel one, 2: stop -/
  type : Nat
  deriving DecidableEq, Repr

/-- A call of `zSend`, with the record of the timer that makes it. -/
structure Tick where
  timer : Option EventPtr
  dest : Int
  session : Nat
  deriving DecidableEq, Repr

/-- `struct timer`, its event loop, the records on the heap, and their history. -/
structure Timers where
  heap : EventPtr → TimerEvent
  /-- the addresses below are in use -/
  next : EventPtr
  /-- the records that have been freed -/
  zfreed : List EventPtr
  sn : Nat
  /-- the records on their way to the timer thread -/
  em : List EventPtr
  timeEventHead : List AeTimeEvent
  timeEventNextId : Int
  lastTime : Int
  /-- from the sn of a timer to the id of its time event -/
  timerDict : List (Nat × Int)
  stop : Bool
  /-- the calls of `zSend` so far -/
  sent : List Tick
  /-- the timers that have been created -/
  created : List EventPtr
  /-- the timers whose time event has been deleted -/
  ended : List EventPtr

/-- `dictAdd`, whose result `emCallback` ignores. -/
def dictAdd (dict : List (Nat × Int)) (key : Nat) (val : Int) : List (Nat × Int) :=
  if (dict.lookup key).isSome then dict else dict ++ [(key, val)]

/-- `aeCreateTimeEvent` -/
def Timers.aeCreateTimeEvent (T : Timers) (milliseconds : Int) (clientData : EventPtr)
    (curSec curMs : Int) : Timers :=
  let due := aeAddMillisecondsToNow milliseconds curSec curMs
  { T with
    timeEventHead := ⟨T.timeEventNextId, due.1, due.2, clientData⟩ :: T.timeEventHead
    timeEventNextId := T.timeEventNextId + 1 }

/-- `aeDeleteTimeEvent`, with the finalizer `eventFinalizerProc`. -/
def Timers.aeDeleteTimeEvent (T : Timers) (id : Int) : Timers :=
  match T.timeEventHead.find? fun te => te.id = id with
  | some te =>
      { T with
        timeEventHead := T.timeEventHead.eraseP fun te => te.id = id
        zfreed := T.zfreed ++ [te.clientData]
        ended := T.ended ++ [te.clientData] }
  | none => T

/-- `zmalloc` of a `struct timerEvent`, and what is written to it. -/
def Timers.zmalloc (T : Timers) (event : TimerEvent) : Timers :=
  { T with heap := Function.update T.heap T.next event, next := T.next + 1 }

def Timers.zfree (T : Timers) (event : EventPtr) : Timers := { T with zfreed := T.zfreed ++ [event] }

def Timers.zSend (T : Timers) (tick : Tick) : Timers := { T with sent := T.sent ++ [tick] }

/-- `emCallback`; `curSec` and `curMs` are for `aeCreateTimeEvent`. -/
def Timers.emCallback (T : Timers) (msg : EventPtr) (curSec curMs : Int) : Timers :=
  let event := T.heap msg
  if event.type = 0 then
    let id := T.timeEventNextId
    let T := T.aeCreateTimeEvent event.time msg curSec curMs
    { T with timerDict := dictAdd T.timerDict event.sn id }
  else if event.type = 1 then
    match T.timerDict.lookup event.value with
    | some id => (T.aeDeleteTimeEvent id).zfree msg
    | none => T.zfree msg
  else
    -- `aeStop`
    { T.zfree msg with stop := true }

/-- `timeProc`, when `zSend` returns `ret`. -/
def timeProc (event : TimerEvent) (ret : Int) : Int :=
  if ret < 0 then AE_NOMORE else if event.noMore = 0 then AE_NOMORE else event.time

-- ============================================================================
-- Program points
-- ============================================================================

inductive TimerPc where
  /-- any thread, outside of `timer.c` -/
  | user
  /-- `emPush(T->em, event)` -/
  | push (event : EventPtr)
  /-- the timer thread, in `aeMain` -/
  | loop
  /-- in `processTimeEvents`, at the `k`-th time event -/
  | scan (maxId : Int) (k : Nat)
  | stopped
  deriving DecidableEq, Repr

inductive TimerChoice where
  | timeout (dest time : Int) (session : Nat) (noMore : Int)
  | cancel (sn : Nat)
  | stop
  /-- the answer of `emPush` -/
  | pushed (full : Bool)
  /-- the timer thread takes a record, at that time -/
  | recv (curSec curMs : Int)
  /-- it enters `processTimeEvents`; `time(NULL)` is `now` -/
  | process (now : Int)
  /-- it looks at a time event, at that time; `zSend` returns `ret`, and then the
      clock reads `curSec` and `curMs` -/
  | look (nowSec nowMs ret curSec curMs : Int)
  deriving DecidableEq, Repr

-- ============================================================================
-- Steps
-- ============================================================================

/-- `timerTimeout` up to the push: a timer for the time 0 is sent at once. -/
def Timers.timerTimeout (T : Timers) (dest time : Int) (session : Nat) (noMore : Int) :
    Timers × TimerPc :=
  if time = 0 then (T.zSend ⟨none, dest, session⟩, .user)
  else
    -- `timerNewSn`
    let sn := u32 (T.sn + 1)
    ({ T.zmalloc ⟨sn &&& 0x7fffffff, dest, session, time, noMore, 0⟩ with
      sn := sn
      created := T.created ++ [T.next] }, .push T.next)

/-- A time event is due. -/
def AeTimeEvent.due (te : AeTimeEvent) (nowSec nowMs : Int) : Bool :=
  te.whenSec < nowSec ∨ nowSec = te.whenSec ∧ te.whenMs ≤ nowMs

/-- `timeProc` is called on the `k`-th time event, and its result taken up. -/
def Timers.runTimeEvent (T : Timers) (k : Nat) (te : AeTimeEvent) (ret curSec curMs : Int) :
    Timers :=
  let event := T.heap te.clientData
  let retval := timeProc event ret
  let T := T.zSend ⟨some te.clientData, event.dest, event.value⟩
  if retval ≠ AE_NOMORE then
    let due := aeAddMillisecondsToNow retval curSec curMs
    { T with timeEventHead := T.timeEventHead.set k { te with whenSec := due.1, whenMs := due.2 } }
  else T.aeDeleteTimeEvent te.id

/-- One action of one thread. -/
def timerPcStep (T : Timers) (pc : TimerPc) (choice : TimerChoice) : Option (Timers × TimerPc) :=
  match pc, choice with
  | .user, .timeout dest time session noMore => some (T.timerTimeout dest time session noMore)
  | .user, .cancel sn => some (T.zmalloc ⟨0, 0, sn, 0, 0, 1⟩, .push T.next)
  | .user, .stop => some (T.zmalloc ⟨0, 0, 0, 0, 0, 2⟩, .push T.next)
  | .push event, .pushed false => some ({ T with em := T.em ++ [event] }, .user)
  | .push event, .pushed true => some (T.zfree event, .user)
  | .loop, .recv curSec curMs =>
      match T.em with
      | [] => none
      | msg :: em => some ({ T with em := em }.emCallback msg curSec curMs, .loop)
  | .loop, .process now =>
      -- the clock has been set back: everything is due
      let head := if now < T.lastTime then T.timeEventHead.map fun te => { te with whenSec := 0 }
        else T.timeEventHead
      some ({ T with timeEventHead := head, lastTime := now }, .scan (T.timeEventNextId - 1) 0)
  | .scan maxId k, .look nowSec nowMs ret curSec curMs =>
      match T.timeEventHead[k]? with
      | none => some (T, if T.stop then .stopped else .loop)
      | some te =>
          if maxId < te.id then some (T, .scan maxId (k + 1))
          else if te.due nowSec nowMs then some (T.runTimeEvent k te ret curSec curMs, .scan maxId 0)
          else some (T, .scan maxId (k + 1))
  | _, _ => none

/-- `timerInit`, with the records that have not been filled in yet; thread `loop`
    is the timer thread. -/
def timerInit {ι : Type} [DecidableEq ι] (loop : ι) : Config ι Timers TimerPc where
  shared :=
    { heap := fun _ => ⟨0, 0, 0, 0, 0, 0⟩
      next := 0
      zfreed := []
      sn := 0
      em := []
      timeEventHead := []
      timeEventNextId := 0
      lastTime := 0
      timerDict := []
      stop := false
      sent := []
      created := []
      ended := [] }
  pcs := fun i => if i = loop then .loop else .user

-- ============================================================================
-- Small facts
-- ============================================================================

section Facts

variable {T : Timers}

/-- Which time events there are, for which timers. -/
def Timers.pending (T : Timers) : List (Int × EventPtr) :=
  T.timeEventHead.map fun te => (te.id, te.clientData)

/-- How often the timer `p` has called `zSend`. -/
def Timers.ticks (T : Timers) (p : EventPtr) : Nat :=
  T.sent.countP fun tick => tick.timer = some p

theorem Timers.mem_pending {te : AeTimeEvent} (h : te ∈ T.timeEventHead) :
    (te.id, te.clientData) ∈ T.pending :=
  List.mem_map.mpr ⟨te, h, rfl⟩

/-- `aeDeleteTimeEvent` takes the first time event with the id out of the list, or
    finds none. -/
theorem aeDeleteTimeEvent_cases (T : Timers) (id : Int) :
    (∃ te before after, T.timeEventHead = before ++ te :: after ∧ te.id = id ∧
      (∀ te' ∈ before, te'.id ≠ id) ∧ T.aeDeleteTimeEvent id =
        { T with
          timeEventHead := before ++ after
          zfreed := T.zfreed ++ [te.clientData]
          ended := T.ended ++ [te.clientData] }) ∨
    (∀ te ∈ T.timeEventHead, te.id ≠ id) ∧ T.aeDeleteTimeEvent id = T := by
  unfold Timers.aeDeleteTimeEvent
  split
  · rename_i te hfind
    obtain ⟨hid, before, after, hsplit, hbefore⟩ := List.find?_eq_some_iff_append.mp hfind
    have hid : te.id = id := by simpa using hid
    have hbefore : ∀ te' ∈ before, te'.id ≠ id := fun te' hte' => by simpa using hbefore te' hte'
    have herase : ((before ++ te :: after).eraseP fun te => te.id = id) = before ++ after := by
      rw [List.eraseP_append_right _ (by simpa using hbefore),
        List.eraseP_cons_of_pos (by simpa using hid)]
    refine Or.inl ⟨te, before, after, hsplit, hid, hbefore, ?_⟩
    rw [hsplit, herase]
  · rename_i hnone
    exact Or.inr ⟨fun te hte => by simpa using List.find?_eq_none.mp hnone te hte, rfl⟩

/-- A time event that is deleted has its record freed. -/
theorem aeDeleteTimeEvent_count (T : Timers) (id : Int) (p : EventPtr) :
    ((T.aeDeleteTimeEvent id).pending.map Prod.snd).count p +
      (T.aeDeleteTimeEvent id).zfreed.count p =
    (T.pending.map Prod.snd).count p + T.zfreed.count p := by
  rcases aeDeleteTimeEvent_cases T id with ⟨te, before, after, hsplit, -, -, heq⟩ | ⟨-, heq⟩
  · rw [heq]
    unfold Timers.pending
    simp only [hsplit, List.map_append, List.map_cons, List.count_append, List.count_cons,
      List.count_nil]
    omega
  · rw [heq]

/-- What `aeDeleteTimeEvent` leaves alone. -/
structure SameRecords (T T' : Timers) : Prop where
  heap : T'.heap = T.heap
  next : T'.next = T.next
  em : T'.em = T.em
  created : T'.created = T.created
  sn : T'.sn = T.sn
  timerDict : T'.timerDict = T.timerDict
  timeEventNextId : T'.timeEventNextId = T.timeEventNextId
  sent : T'.sent = T.sent

theorem aeDeleteTimeEvent_same (T : Timers) (id : Int) : SameRecords T (T.aeDeleteTimeEvent id) := by
  unfold Timers.aeDeleteTimeEvent
  split <;> exact ⟨rfl, rfl, rfl, rfl, rfl, rfl, rfl, rfl⟩

end Facts

end Timer
end ZServer
