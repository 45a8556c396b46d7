/-
  ZServer.Lua.Ticks

  A service and its timers: `z.timeout` and `z.timercancel` ask `timer.c`, on the thread
  of the service; the timer thread puts ticks into the mailbox of the service, which
  dispatches them one by one.  Other threads ask for timers of other services.

  A coroutine of a timer is registered under its session while it waits for a tick.
  The two sides agree as long as the coroutine waits only for ticks that can come, and
  ends only when none can.
-/

import ZServer.Lua.Soundness
import ZServer.Timer.Due

namespace ZServer
namespace Lua

open Lib
open Timer (Timers TimerPc TimerChoice Tick timerPcStep timerInit)

-- ============================================================================
-- The coroutines of timers
-- ============================================================================

inductive TimerStage where
  /-- the function has not been called -/
  | fresh
  /-- it has returned a true value, and the coroutine waits for the next tick -/
  | waiting
  /-- it executes, or waits in `z.call`, `z.kcall` or `z.ret` -/
  | busy
  deriving DecidableEq, Repr

/-- What the coroutine of a timer knows, and where it is. -/
structure TimerView where
  session : Nat
  id : Nat
  nomore : Int
  stage : TimerStage
  deriving DecidableEq, Repr

/-- The timer whose coroutine this is, if it has not ended. -/
def Coroutine.timer (c : Coroutine) : Option TimerView :=
  match c.body, c.pc with
  | .handler _ _, _ => none
  | .timer session id nomore, .start => some ⟨session, id, nomore, .fresh⟩
  | .timer session id nomore, .yieldTimeout => some ⟨session, id, nomore, .waiting⟩
  | .timer _ _ _, .yieldExit => none
  | .timer _ _ _, .dead => none
  | .timer session id nomore, _ => some ⟨session, id, nomore, .busy⟩

section Views

variable (L : Service)

def Service.timers (co : Co) : Option TimerView := (L.coroutines co).timer

/-- The session is that of a timer whose coroutine has not ended. -/
def Service.Times (session : Nat) : Prop :=
  ∃ co < L.next, ∃ v ∈ L.timers co, v.session = session

instance : DecidablePred L.Times := fun session => by
  unfold Service.Times
  infer_instance

/-- The next tick for the session finds the coroutine of its timer; or the coroutine is
    not done with the one before. -/
def Service.Attended (session : Nat) : Prop :=
  ∃ co < L.next, ∃ v ∈ L.timers co, v.session = session ∧
    (v.stage = .busy ∨ L.sessionIdCoroutine session = some co)

instance : DecidablePred L.Attended := fun session => by
  unfold Service.Attended
  infer_instance

/-- The timer whose coroutine is run, and whether `dispatch_error_queue` runs it. -/
def Service.running : Option (TimerView × Bool) :=
  match L.current with
  | .run co queued => (L.timers co).map fun v => (v, queued)
  | _ => none

end Views

-- ============================================================================
-- A service and the timer thread
-- ============================================================================

structure Clocked (ι : Type) where
  service : Service
  timers : Config ι Timers TimerPc
  /-- the sessions of the ticks in the mailbox -/
  ticks : List Nat
  /-- those of the ticks that have found no coroutine -/
  missed : List Nat

inductive ClockedAct (ι : Type) where
  /-- code of the service runs; `full` is whether `emPush` refuses what it asks for -/
  | run (act : Act) (full : Bool)
  /-- a tick is dispatched -/
  | tick (i : Nat)
  /-- so is another message -/
  | message (msg : Message) (unpacked : Bool) (order : List Nat)
  /-- another thread runs -/
  | thread (i : ι) (choice : TimerChoice)

section Steps

variable {ι : Type} [DecidableEq ι] (handle : Addr) (loop own : ι)

def clockedInit : Clocked ι := ⟨serviceInit handle, timerInit loop, [], []⟩

/-- What `zTimeoutCmd` prints with `%d`, as `z.timeout` reads it with `%d+`. -/
def readSession (session : Nat) : Nat := if session < 2 ^ 31 then session else 2 ^ 32 - session

def Act.readBack (act : Act) : Act :=
  match act with
  | .timeout time nomore session id => .timeout time nomore (readSession session) id
  | _ => act

/-- What the code that runs asks `timer.c` for. -/
def Service.asks (L : Service) (act : Act) : Option TimerChoice :=
  match act with
  | .timeout time nomore session _ => some (.timeout handle time session nomore)
  | .timercancel id => some (.cancel id)
  | .done false =>
      match L.running with
      | some (v, _) => if v.nomore = 1 then some (.cancel v.id) else none
      | none => none
  | _ => none

variable (P : Clocked ι)

/-- The sn that `timerTimeout` answers with. -/
def Clocked.answer (time : Int) (full : Bool) : Option Nat :=
  if time = 0 then some 0
  else if full then none
  else some (u32 (P.timers.shared.sn + 1) &&& 0x7fffffff)

/-- The code takes no message by itself; `nomore` is 0 or 1, and `z.timeout` gets the
    answer of `timerTimeout`. -/
def Act.agrees (full : Bool) (act : Act) : Prop :=
  match act with
  | .message _ _ _ => False
  | .timeout time nomore _ id => (nomore = 0 ∨ nomore = 1) ∧ id = P.answer time full
  | _ => True

instance (full : Bool) : DecidablePred (Act.agrees P full) := fun act =>
  match act with
  | .message _ _ _ => .isFalse id
  | .timeout time nomore _ id =>
      inferInstanceAs (Decidable ((nomore = 0 ∨ nomore = 1) ∧ id = P.answer time full))
  | .send _ _ _ | .call _ _ _ _ _ | .ret _ | .timercancel _ | .done _ | .raise => .isTrue trivial

/-- The thread of the service fills in a record, and pushes it. -/
def Clocked.ask (choice : TimerChoice) (full : Bool) : Option (Config ι Timers TimerPc) :=
  match fire timerPcStep P.timers (own, choice) with
  | none => none
  | some c =>
      match c.pcs own with
      | .push _ => fire timerPcStep c (own, .pushed full)
      | _ => some c

/-- Other threads ask for timers of other services; `zSend` finds this one. -/
def Clocked.Allows (i : ι) (choice : TimerChoice) : Prop :=
  match P.timers.pcs i, choice with
  | .user, .timeout dest _ _ _ => dest ≠ handle
  | .scan _ k, .look _ _ ret _ _ => ∀ te ∈ P.timers.shared.timeEventHead[k]?,
      (P.timers.shared.heap te.clientData).dest = handle → 0 ≤ ret
  | _, _ => True

instance (i : ι) : DecidablePred (P.Allows handle i) := fun choice => by
  unfold Clocked.Allows
  split <;> infer_instance

/-- The ticks that have been sent to the service go to its mailbox. -/
def Clocked.post (L : Service) (c : Config ι Timers TimerPc) : Clocked ι :=
  { P with
    service := L
    timers := c
    ticks := P.ticks ++ ((c.shared.sent.drop P.timers.shared.sent.length).filter fun tick =>
      tick.dest = (handle : Int)).map Tick.session }

def Clocked.step (act : ClockedAct ι) : Option (Clocked ι) :=
  match act with
  | .run act full =>
      if act.agrees P full then
        match P.service.step act.readBack, P.service.asks handle act with
        | none, _ => none
        | some L, none => some (P.post handle L P.timers)
        | some L, some choice => (P.ask own choice full).map (P.post handle L)
      else none
  | .tick i =>
      match P.ticks[i]? with
      | none => none
      | some session =>
          (P.service.step (.message ⟨0, handle, session, MSG_TYPE_RESPONSE, []⟩ true [])).map
            fun L =>
              { P with
                service := L
                ticks := P.ticks.eraseIdx i
                missed := P.missed ++
                  if (P.service.sessionIdCoroutine session).isSome then [] else [session] }
  | .message msg unpacked order =>
      (P.service.step (.message msg unpacked order)).map fun L => { P with service := L }
  | .thread i choice =>
      if i ≠ own ∧ P.Allows handle i choice then
        (fire timerPcStep P.timers (i, choice)).map (P.post handle P.service)
      else none

-- ============================================================================
-- Timers that are paired
-- ============================================================================

/-- No tick has been missed; a coroutine that is registered under the session of its
    timer has a tick in the mailbox, or a timer of the timer thread; and for such a
    timer, if nobody has cancelled it, there is a coroutine. -/
structure TimersPaired : Prop where
  found : P.missed = []
  ended : ∀ co v, P.service.timers co = some v → v.stage ≠ .busy →
    P.service.sessionIdCoroutine v.session = some co →
    v.session ∈ P.ticks ∨ ∃ p, P.timers.shared.Armed handle v.session p
  kept : ∀ session p, P.timers.shared.Due handle session p → P.service.Attended session

/-- A tick for the session is in the mailbox, or can come. -/
def Clocked.Possible (session : Nat) : Prop :=
  session ∈ P.ticks ∨ ∃ p ∈ P.timers.shared.held, P.timers.shared.IsFor handle session p

/-- Or comes for certain. -/
def Clocked.Coming (session : Nat) : Prop :=
  session ∈ P.ticks ∨ ∃ p ∈ P.timers.shared.held, P.timers.shared.IsFor handle session p ∧
    ¬P.timers.shared.Doomed p

instance : DecidablePred (P.Possible handle) := fun session => by
  unfold Clocked.Possible
  infer_instance

instance : DecidablePred (P.Coming handle) := fun session => by
  unfold Clocked.Coming
  infer_instance

/-- Nothing is left of an earlier use of the session, and `%d` prints it as it is. -/
def Clocked.New (session : Nat) : Prop :=
  session < 2 ^ 31 ∧ ¬P.service.Times session ∧ P.service.sessionIdCoroutine session = none ∧
    P.service.watchingSession session = none ∧ session ∉ P.service.errorQueue ∧
    ¬P.Possible handle session

instance : DecidablePred (P.New handle) := fun session => by
  unfold Clocked.New
  infer_instance

/-- The condition on what the function of a timer does: it returns a true value only if
    a further tick can come and the coroutine can wait for it; it returns a false value,
    or raises an error, only if no tick comes that would not be for the next call.  The
    function of a one shot timer may do both at any time. -/
def Clocked.Ends (full : Bool) (act : Act) (v : TimerView) (queued : Bool) : Prop :=
  match act with
  | .done true => if queued then ¬P.Coming handle v.session else P.Possible handle v.session
  | .done false => v.nomore ≠ 0 → v.session ∉ P.ticks ∧ (full = true → ¬P.Coming handle v.session)
  | .raise => v.nomore ≠ 0 → ¬P.Coming handle v.session
  | _ => True

instance (full : Bool) (act : Act) (v : TimerView) (queued : Bool) :
    Decidable (P.Ends handle full act v queued) := by
  unfold Clocked.Ends
  split <;> infer_instance

/-- The condition on a step. -/
def Clocked.Regular (act : ClockedAct ι) : Prop :=
  match act with
  | .run act full =>
      (∀ r ∈ P.service.running, P.Ends handle full act r.1 r.2) ∧
        match act with
        | .call _ _ _ _ (some session) => ¬P.service.Times session
        | .timeout _ _ session _ =>
            P.New handle session ∧ P.timers.shared.created.length + 1 < 2 ^ 31
        | _ => True
  | .tick i =>
      -- the function does not wait in `z.call`
      ∀ session ∈ P.ticks[i]?, ∀ co < P.service.next, ∀ v ∈ P.service.timers co,
        v.session = session → v.stage ≠ .busy
  | .message msg _ _ => msg.prototype = MSG_TYPE_RESPONSE → ¬P.service.Times msg.session
  | .thread i choice =>
      match P.timers.pcs i, choice with
      | .user, .timeout _ _ _ _ => P.timers.shared.created.length + 1 < 2 ^ 31
      | .loop, .recv _ _ =>
          -- no cancellation takes the timer of a coroutine that waits for a tick
          ∀ msg ∈ P.timers.shared.em.head?, ∀ co < P.service.next, ∀ v ∈ P.service.timers co,
            v.stage ≠ .busy → P.service.sessionIdCoroutine v.session = some co →
            v.session ∉ P.ticks → ∀ e ∈ P.timers.shared.pending,
              P.timers.shared.IsFor handle v.session e.2 → ¬P.timers.shared.Cancels msg e.2
      | .scan maxId k, .look nowSec nowMs _ _ _ =>
          -- no timer ticks between the end of its coroutine and its own
          ∀ te ∈ P.timers.shared.timeEventHead[k]?, te.id ≤ maxId → te.due nowSec nowMs = true →
            (P.timers.shared.heap te.clientData).dest = handle →
            P.timers.shared.Doomed te.clientData →
            P.service.Attended (P.timers.shared.heap te.clientData).value
      | _, _ => True

instance : DecidablePred (P.Regular handle) := fun act =>
  match act with
  | .run act _ => @instDecidableAnd _ _ inferInstance <|
      match act with
      | .call _ _ _ _ (some session) => inferInstanceAs (Decidable (¬P.service.Times session))
      | .timeout _ _ session _ => inferInstanceAs
          (Decidable (P.New handle session ∧ P.timers.shared.created.length + 1 < 2 ^ 31))
      | .call _ _ _ _ none | .message _ _ _ | .send _ _ _ | .ret _ | .timercancel _ | .done _
      | .raise => .isTrue trivial
  | .tick _ => by
      dsimp only [Clocked.Regular]
      infer_instance
  | .message msg _ _ =>
      inferInstanceAs (Decidable (msg.prototype = MSG_TYPE_RESPONSE → ¬P.service.Times msg.session))
  | .thread _ _ => by
      dsimp only [Clocked.Regular]
      split <;> infer_instance

end Steps

end Lua
end ZServer
