/-
  ZServer.Lua.Basic

  A service of `lualib/z.lua`.

  The main thread of the service takes one message at a time
  (`raw_dispatch_message`) and resumes a coroutine for it; what the coroutine
  yields goes to `suspend`.  The coroutines run code that `z.lua` does not know: the
  handlers that the service registers, and the functions that it gives to
  `z.timeout`.  `Service.step` is one message, or one thing that this code does, up to
  the next point where this code runs again.

  What the code does next, what `c.send` and `c.command` answer, and whether a
  payload can be packed and unpacked are choices of the environment.  The calls that
  z.lua refuses raise an error in the code that made them, which may catch it.
-/

import Mathlib.Algebra.Group.Nat.Defs
import Mathlib.Data.List.Perm.Basic
import Mathlib.Logic.Function.Basic
import ZServer.Lib.Transition

namespace ZServer
namespace Lua

-- ============================================================================
-- Messages
-- ============================================================================

abbrev Addr := Nat

/-- The number of a coroutine, in the order of their creation. -/
abbrev Co := Nat

abbrev Data := List UInt8

structure Message where
  source : Addr
  dest : Addr
  session : Nat
  prototype : Nat
  data : Data
  deriving DecidableEq, Repr

def MSG_TYPE_RESPONSE : Nat := 1

def MSG_TYPE_PROTO_LUA : Nat := 2

def MSG_TYPE_PROTO_SYS : Nat := 3

def MSG_TYPE_PROTO_SOCKET : Nat := 4

def MSG_TYPE_PROTO_ERROR : Nat := 5

inductive Dispatch where
  /-- a function of the service -/
  | user
  /-- `_error_dispatch` -/
  | error
  deriving DecidableEq, Repr

/-- A class of `z.register_protocol`. -/
structure Class where
  /-- packs with `z.lua_pack` and unpacks with `z.lua_unpack`; the others have no
      `pack`, and hand on what they get -/
  seri : Bool
  dispatch : Dispatch
  deriving DecidableEq, Repr

/-- `proto[prototype]` -/
def proto (prototype : Nat) : Option Class :=
  if prototype = MSG_TYPE_PROTO_LUA ∨ prototype = MSG_TYPE_PROTO_SYS then some ⟨true, .user⟩
  else if prototype = MSG_TYPE_PROTO_SOCKET then some ⟨false, .user⟩
  else if prototype = MSG_TYPE_PROTO_ERROR then some ⟨false, .error⟩
  else none

/-- `class.pack(…)`, for something that is packed as `packed`, or cannot be. -/
def pack (prototype : Nat) (packed : Option Data) : Option Data :=
  match proto prototype with
  | some ⟨true, _⟩ => packed
  | _ => none

/-- Only error messages are for z.lua itself. -/
theorem proto_dispatch {prototype : Nat} {cls : Class} (h : proto prototype = some cls)
    (hne : prototype ≠ MSG_TYPE_PROTO_ERROR) : cls.dispatch = .user := by
  unfold proto at h
  split at h
  · cases h
    rfl
  · split at h
    · cases h
      rfl
    · cases h

-- ============================================================================
-- Coroutines
-- ============================================================================

/-- The function that a coroutine has been given. -/
inductive Body where
  /-- `class.dispatch`, with its arguments `from` and `session` -/
  | handler (source : Addr) (session : Nat)
  /-- the one of `z.timeout` -/
  | timer (session id : Nat) (nomore : Int)
  deriving DecidableEq, Repr

inductive CallForm where
  /-- `z.call` -/
  | call
  /-- `z.kcall` -/
  | kcall
  deriving DecidableEq, Repr

/-- Where a coroutine is. -/
inductive CoPc where
  /-- it has its function, and has not been resumed with the arguments -/
  | start
  /-- in code of the service -/
  | user
  /-- `coroutine_yield("CALL", session)` -/
  | yieldCall (form : CallForm) (session : Nat)
  | yieldReturn
  | yieldTimeout
  | yieldExit
  | dead
  deriving DecidableEq, Repr

structure Coroutine where
  body : Body
  pc : CoPc
  deriving DecidableEq, Repr

/-- How a coroutine that waits is resumed. -/
inductive Resumed where
  /-- `coroutine.resume(co, true, msg, sz)`, for that message -/
  | answer (msg : Message)
  /-- `coroutine.resume(co)`, after "RETURN" -/
  | returned
  /-- `coroutine.resume(co, false)` -/
  | failure
  deriving DecidableEq, Repr

/-- What has happened in a service. -/
inductive Event where
  /-- `co_create` gives the coroutine a function -/
  | given (co : Co) (body : Body)
  | called (co : Co) (session : Nat)
  | resumed (co : Co) (how : Resumed)
  /-- `c.send` for "RETURN" -/
  | replied (co : Co) (msg : Message)
  /-- `c.send` of an error message -/
  | notified (co : Co) (msg : Message)
  | died (co : Co)
  | cancelled (id : Nat)
  deriving DecidableEq, Repr

/-- What the main thread is doing. -/
inductive Current where
  /-- it loads the service -/
  | chunk
  | idle
  /-- it runs a coroutine, which `dispatch_error_queue` has resumed if `queued` -/
  | run (co : Co) (queued : Bool)
  deriving DecidableEq, Repr

-- ============================================================================
-- The service
-- ============================================================================

/-- The tables of `z.lua`, the coroutines, and the history of the service. -/
structure Service where
  /-- `z.self()` -/
  handle : Addr
  current : Current
  coroutines : Co → Coroutine
  next : Co
  coroutinePool : List Co
  watchingSession : Nat → Option Addr
  watchingService : Addr → Option Bool
  errorQueue : List Nat
  sessionIdCoroutine : Nat → Option Co
  sessionCoroutineId : Co → Option Nat
  sessionCoroutineAddress : Co → Option Addr
  sessionCoroutinePrototype : Co → Option Nat
  /-- the sessions that the context has handed out -/
  issued : List Nat
  /-- what has been passed to `c.send` -/
  outbox : List Message
  log : List Event

def serviceInit (handle : Addr) : Service where
  handle := handle
  current := .chunk
  coroutines := fun _ => ⟨.handler 0 0, .dead⟩
  next := 0
  coroutinePool := []
  watchingSession := fun _ => none
  watchingService := fun _ => none
  errorQueue := []
  sessionIdCoroutine := fun _ => none
  sessionCoroutineId := fun _ => none
  sessionCoroutineAddress := fun _ => none
  sessionCoroutinePrototype := fun _ => none
  issued := []
  outbox := []
  log := []

section Operations

variable (L : Service)

def Service.goto (co : Co) (pc : CoPc) : Service :=
  { L with coroutines := Function.update L.coroutines co ⟨(L.coroutines co).body, pc⟩ }

def Service.note (e : Event) : Service := { L with log := L.log ++ [e] }

def Service.cSend (msg : Message) : Service := { L with outbox := L.outbox ++ [msg] }

/-- The context hands out a session. -/
def Service.issue (session : Nat) : Service := { L with issued := session :: L.issued }

/-- `session_id_coroutine[session] = co` -/
def Service.register (session : Nat) (co : Option Co) : Service :=
  { L with sessionIdCoroutine := Function.update L.sessionIdCoroutine session co }

/-- The three tables of a coroutine are set, for a request. -/
def Service.serve (co : Co) (msg : Message) : Service :=
  { L with
    sessionCoroutineId := Function.update L.sessionCoroutineId co (some msg.session)
    sessionCoroutineAddress := Function.update L.sessionCoroutineAddress co (some msg.source)
    sessionCoroutinePrototype :=
      Function.update L.sessionCoroutinePrototype co (some msg.prototype) }

/-- They are set to nil. -/
def Service.unserve (co : Co) : Service :=
  { L with
    sessionCoroutineId := Function.update L.sessionCoroutineId co none
    sessionCoroutineAddress := Function.update L.sessionCoroutineAddress co none
    sessionCoroutinePrototype := Function.update L.sessionCoroutinePrototype co none }

/-- The main thread is done with the message, or an error has ended its dispatch. -/
def Service.rest : Service := { L with current := .idle }

/-- `co_create(func)`: a coroutine from the pool, or a new one. -/
def Service.coCreate (body : Body) : Service × Co :=
  match L.coroutinePool.getLast? with
  | some co =>
      ({ L.note (.given co body) with
        coroutines := Function.update L.coroutines co ⟨body, .start⟩
        coroutinePool := L.coroutinePool.dropLast }, co)
  | none =>
      ({ L.note (.given L.next body) with
        coroutines := Function.update L.coroutines L.next ⟨body, .start⟩
        next := L.next + 1 }, L.next)

/-- The function of `co` returns: `co` goes to the pool and yields "EXIT". -/
def Service.exit (co : Co) : Service :=
  { L.goto co .yieldExit with coroutinePool := L.coroutinePool ++ [co] }

-- ============================================================================
-- Resuming
-- ============================================================================

/-- A coroutine goes on from where it is, up to code of the service; or, the timer
    that was not to be repeated, to its end (`true`). -/
def Service.goOn (co : Co) : Service × Bool :=
  match (L.coroutines co).pc, (L.coroutines co).body with
  | .yieldCall .call session, _ =>
      ({ L.goto co .user with
        watchingSession := Function.update L.watchingSession session none }, false)
  | .yieldTimeout, .timer _ _ nomore =>
      -- `until flag == 0`
      if nomore = 0 then (L.exit co, true) else (L.goto co .user, false)
  | _, _ => (L.goto co .user, false)

/-- `dispatch_error_queue`: what the coroutine yields is not looked at, since the
    `suspend` in scope there is nil. -/
def Service.dispatchErrorQueue : Service :=
  match L.errorQueue with
  | [] => L.rest
  | session :: errorQueue =>
      let L₁ := { L with errorQueue := errorQueue }.register session none
      match L.sessionIdCoroutine session with
      | none => L₁.rest
      | some co =>
          let (L₂, ended) := (L₁.note (.resumed co .failure)).goOn co
          if ended then L₂.rest else { L₂ with current := .run co true }

/-- What `suspend` gets from `coroutine.resume`. -/
inductive Cmd where
  | call (session : Nat)
  /-- with what the values to be returned are packed as -/
  | ret (packed : Option Data)
  | exit
  | timeout (session : Nat)
  /-- the coroutine has died of an error -/
  | failed
  deriving DecidableEq, Repr

/-- `suspend(co, coroutine.resume(co))`, after "RETURN". -/
def Service.resumeReturn (co : Co) : Service :=
  { (L.note (.resumed co .returned)).goto co .user with current := .run co false }

/-- The reply of `suspend` to the request that the tables have for `co`. -/
def Service.reply (co : Co) (session : Nat) (data : Data) : Service :=
  let msg : Message :=
    ⟨L.handle, (L.sessionCoroutineAddress co).getD 0, session, MSG_TYPE_RESPONSE, data⟩
  (L.cSend msg).note (.replied co msg)

/-- The error message of `suspend` to the sender of that request. -/
def Service.sendError (co : Co) : Service :=
  match L.sessionCoroutineId co with
  | some session =>
      let msg : Message :=
        ⟨L.handle, (L.sessionCoroutineAddress co).getD 0, session, MSG_TYPE_PROTO_ERROR, []⟩
      (L.cSend msg).note (.notified co msg)
  | none => L

/-- `suspend(co, …)` -/
def Service.suspend (co : Co) (cmd : Cmd) : Service :=
  match cmd with
  | .failed => ((L.sendError co).unserve co).rest
  | .call session => (L.register session (some co)).dispatchErrorQueue
  | .timeout session => (L.register session (some co)).dispatchErrorQueue
  | .exit => (L.unserve co).dispatchErrorQueue
  | .ret packed =>
      match L.sessionCoroutineId co with
      | none => L.rest -- nil is compared with 0
      | some session =>
          if session = 0 then L.resumeReturn co
          else
            match pack ((L.sessionCoroutinePrototype co).getD 0) packed with
            | none => L.rest
            | some data => (L.reply co session data).resumeReturn co

/-- `co` yields, or dies; what `dispatch_error_queue` has resumed is not suspended. -/
def Service.yield (co : Co) (queued : Bool) (cmd : Cmd) : Service :=
  if queued then L.rest else L.suspend co cmd

-- ============================================================================
-- Messages that arrive
-- ============================================================================

/-- The sessions for which `watching_session` has the service `srv`. -/
def Service.watched (srv : Addr) : List Nat :=
  L.issued.filter fun session => L.watchingSession session = some srv

/-- `_error_dispatch`; `order` is that of `pairs(watching_session)`. -/
def Service.errorDispatch (errorFrom : Addr) (errorSession : Nat) (order : List Nat) : Service :=
  if errorSession = 0 then
    { L with
      watchingService := Function.update L.watchingService errorFrom (some false)
      errorQueue := L.errorQueue ++ order }
  else if (L.watchingSession errorSession).isSome then
    { L with errorQueue := L.errorQueue ++ [errorSession] }
  else L

/-- The coroutine that waits for the response `msg` gets it. -/
def Service.dispatchResponse (msg : Message) : Service :=
  match L.sessionIdCoroutine msg.session with
  | none => L -- `unknow_response` raises an error
  | some co =>
      let (L₁, ended) :=
        ((L.register msg.session none).note (.resumed co (.answer msg))).goOn co
      if ended then L₁.suspend co .exit else { L₁ with current := .run co false }

/-- A coroutine is made for the request `msg`, and its handler called. -/
def Service.dispatchRequest (cls : Class) (msg : Message) (unpacked : Bool) (order : List Nat) :
    Service :=
  let (L₁, co) := L.coCreate (.handler msg.source msg.session)
  let L₂ := L₁.serve co msg
  match cls.dispatch with
  | .error => ((L₂.errorDispatch msg.source msg.session order).exit co).suspend co .exit
  | .user =>
      if cls.seri ∧ unpacked = false then L₂ -- `class.unpack` raises an error
      else
        { L₂.goto co .user with current := .run co false }

/-- `raw_dispatch_message`, when no error has been raised before: `dispatch_message`
    reports one, and the service goes on with the next message. -/
def Service.rawDispatchMessage (msg : Message) (unpacked : Bool) (order : List Nat) : Service :=
  if msg.prototype = MSG_TYPE_RESPONSE then L.dispatchResponse msg
  else
    match proto msg.prototype with
    | none => L -- `assert`
    | some cls => L.dispatchRequest cls msg unpacked order

-- ============================================================================
-- What the code of the service can do
-- ============================================================================

/-- `z.send` -/
def Service.send (dest : Addr) (prototype : Nat) (packed : Option Data) : Service :=
  if L.watchingService dest = some false then L
  else
    match pack prototype packed with
    | none => L
    | some data => L.cSend ⟨L.handle, dest, 0, prototype, data⟩

/-- `z.call` notes the service that it waits for. -/
def Service.watch (form : CallForm) (session : Nat) (dest : Addr) : Service :=
  match form with
  | .call => { L with watchingSession := Function.update L.watchingSession session (some dest) }
  | .kcall => L

theorem watch_same (form : CallForm) (session : Nat) (dest : Addr) :
    (L.watch form session dest).coroutines = L.coroutines ∧
      (L.watch form session dest).issued = L.issued ∧
      (L.watch form session dest).sessionIdCoroutine = L.sessionIdCoroutine ∧
      (L.watch form session dest).log = L.log := by
  cases form <;> exact ⟨rfl, rfl, rfl, rfl⟩

/-- `z.call` and `z.kcall` in `co`, when `c.send` hands out the session `answer`, or
    does not find the service. -/
def Service.call (co : Co) (queued : Bool) (form : CallForm) (dest : Addr) (prototype : Nat)
    (packed : Option Data) (answer : Option Nat) : Service :=
  if L.watchingService dest = some false then L
  else
    match pack prototype packed, answer with
    | some data, some session =>
        let L₁ := (L.cSend ⟨L.handle, dest, session, prototype, data⟩).issue session
        if session < 2 ^ 31 then
          (((L₁.watch form session dest).note (.called co session)).goto co
            (.yieldCall form session)).yield co queued (.call session)
        else L₁ -- negative for `c.send`
    | _, _ => L

/-- `z.timeout`, when the command answers with `session` and `id`; a negative id is not
    matched, and then both are nil for the function.  The session that is read back from the
    text of the answer is the one that was drawn only below `2 ^ 31`. -/
def Service.timeout (nomore : Int) (session : Nat) (id : Option Nat) : Service :=
  match id with
  | none =>
      -- `session_id_coroutine[nil] = co` raises an error, and the coroutine is lost
      ((L.issue session).coCreate (.timer session 0 nomore)).1
  | some id =>
      let (L₁, co) := (L.issue session).coCreate (.timer session id nomore)
      if (L₁.sessionIdCoroutine session).isSome then L₁ -- `assert`
      else L₁.register session (some co)

/-- `z.timercancel` -/
def Service.timercancel (id : Nat) : Service := L.note (.cancelled id)

/-- The handler, or the function of the timer, returns; `value` is whether it returns
    a true value. -/
def Service.done (co : Co) (queued value : Bool) : Service :=
  match (L.coroutines co).body with
  | .handler _ _ => (L.exit co).yield co queued .exit
  | .timer session id nomore =>
      if value then (L.goto co .yieldTimeout).yield co queued (.timeout session)
      else
        let L₁ := if nomore = 1 then L.timercancel id else L
        (L₁.exit co).yield co queued .exit

/-- It raises an error; that of a timer is raised again. -/
def Service.raise (co : Co) (queued : Bool) : Service :=
  ((L.goto co .dead).note (.died co)).yield co queued .failed

end Operations

-- ============================================================================
-- Steps
-- ============================================================================

inductive Act where
  | message (msg : Message) (unpacked : Bool) (order : List Nat)
  | send (dest : Addr) (prototype : Nat) (packed : Option Data)
  | call (form : CallForm) (dest : Addr) (prototype : Nat) (packed : Option Data)
      (answer : Option Nat)
  | ret (packed : Option Data)
  | timeout (time nomore : Int) (session : Nat) (id : Option Nat)
  | timercancel (id : Nat)
  | done (value : Bool)
  | raise
  deriving DecidableEq, Repr

/-- `contextNewsession` never hands out 0. -/
def Act.possible (act : Act) : Prop :=
  match act with
  | .call _ _ _ _ (some session) => 0 < session ∧ session < 2 ^ 32
  | .timeout _ _ session _ => 0 < session ∧ session < 2 ^ 32
  | _ => True

instance : DecidablePred Act.possible := fun act => by
  unfold Act.possible
  split <;> infer_instance

/-- What code that runs does: in the coroutine `co`, or while the service is loaded. -/
def Service.userStep (L : Service) (act : Act) : Option Service :=
  match L.current, act with
  | .idle, _ => none
  | _, .send dest prototype packed => some (L.send dest prototype packed)
  | _, .timeout _ nomore session id => some (L.timeout nomore session id)
  | _, .timercancel id => some (L.timercancel id)
  | .chunk, .done _ => some L.rest
  | .run co queued, .call form dest prototype packed answer =>
      some (L.call co queued form dest prototype packed answer)
  | .run co queued, .ret packed => some ((L.goto co .yieldReturn).yield co queued (.ret packed))
  | .run co queued, .done value => some (L.done co queued value)
  | .run co queued, .raise => some (L.raise co queued)
  | _, _ => none

def Service.step (L : Service) (act : Act) : Option Service :=
  if act.possible then
    match L.current, act with
    | .idle, .message msg unpacked order =>
        if msg.prototype = MSG_TYPE_PROTO_ERROR → order.Perm (L.watched msg.source) then
          some (L.rawDispatchMessage msg unpacked order)
        else none
    | _, _ => L.userStep act
  else none

end Lua
end ZServer
