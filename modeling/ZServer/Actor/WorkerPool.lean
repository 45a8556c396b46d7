/-
  ZServer.Actor.WorkerPool

  The scheduler of the services (`src/worker_pool.c`) with the parts of
  `src/context.c` and `src/ctx_mgr.c` that it runs: `workerPoolSend`, the worker
  loop `handle` with `contextDispatchMessage`, the creation of contexts and
  `ctxMgrStop`.

  `poolPcStep` is one access of one thread to the shared memory: an operation on
  a queue, a CAS, an atomic addition, a read of a shared field, or one critical
  section of the table's lock (`ctxMgrStop` holds that lock over many steps).
  Code of the services runs inside callbacks and module initialisers; it may
  call back into all of this, so a program point carries what it returns to.
-/

import ZServer.Actor.CtxMgr
import ZServer.Lib.Threads

namespace ZServer

open Lib

/-! ## Memory -/

/-- The assertions that end the process, and the failures that do. -/
inductive Abort where
  /-- `assert(0)` in `workerPoolSend` -/
  | queueFull
  /-- `assert(contextRelease(ctx) != NULL)` in `contextDispatchMessage` -/
  | exitReleased
  /-- `assert(CAS(&ctx->inGlobal, 1, 0))` in `handle` -/
  | notScheduled
  /-- `contextNewsession(NULL)` -/
  | nullContext
  /-- `zmalloc_default_oom` -/
  | outOfMemory
  deriving DecidableEq, Repr

/-- What the threads share. -/
structure Pool where
  heap : Ptr → Context
  /-- the addresses below are in use -/
  next : Ptr
  mgr : CtxMgr
  /-- `ctxMgrStop` holds the write lock of the table -/
  locked : Bool
  /-- `M->queue` -/
  queue : List Ptr
  /-- `M->running` -/
  running : Bool
  /-- the payloads freed so far -/
  zfreed : List Nat
  /-- the contexts whose `contextQueuePush` failed -/
  lost : List Ptr
  /-- `ctxMgrStop` has been called -/
  stopped : Bool
  aborted : Option Abort

/-! ## Program points -/

/-- Which user code is running, and on whose behalf. -/
inductive Caller where
  /-- a thread that is not a worker -/
  | outside
  /-- `ctx->cb(ctx, ctx->ud, &msg)` on a worker -/
  | callback (ctx : Ptr) (msg : Message)
  /-- `moduleInstanceInit` in `ctxMgrCreateContext` -/
  | init (ctx : Ptr) (id : Nat) (caller : Caller)
  deriving DecidableEq, Repr

/-- The context whose code it is. -/
def Caller.self : Caller → Option Ptr
  | .outside => none
  | .callback ctx _ => some ctx
  | .init ctx _ _ => some ctx

/-- Where `ctxMgrReleaseContext` returns to. -/
inductive After where
  | user (caller : Caller)
  | worker
  deriving DecidableEq, Repr

/-- Which access to the shared memory a thread makes next. -/
inductive PoolPc where
  | user (caller : Caller)
  /-- `M->contexts[id % M->setsize]` in `ctxMgrGetContext` -/
  | sendGet (caller : Caller) (ctx : Option Ptr) (toId : Nat) (msg : Message)
  /-- `contextRetain` in `ctxMgrGetContext` -/
  | sendRetain (caller : Caller) (ctx : Option Ptr) (toctx : Ptr) (msg : Message)
  /-- `AtomicAdd(&ctx->sessionid, 1)` in `contextNewsession` -/
  | sendSession (caller : Caller) (ctx : Option Ptr) (toctx : Ptr) (msg : Message)
  /-- `CAS(&ctx->sessionid, 0, 1)` -/
  | sendSessionCas (caller : Caller) (ctx : Ptr) (toctx : Ptr) (msg : Message)
  /-- `return ctx->sessionid` -/
  | sendSessionRead (caller : Caller) (ctx : Ptr) (toctx : Ptr) (msg : Message)
  /-- `messageQueuePush(toctx->queue, &msg)` -/
  | sendPush (caller : Caller) (toctx : Ptr) (msg : Message)
  /-- `CAS(&toctx->inGlobal, 0, 1)` -/
  | sendCas (caller : Caller) (toctx : Ptr)
  /-- `contextQueuePush(M->queue, toctx)` -/
  | sendRun (caller : Caller) (toctx : Ptr)
  /-- `contextRelease` in `ctxMgrReleaseContext` -/
  | release (after : After) (ctx : Ptr)
  /-- `ctxMgrRemoveContext` -/
  | remove (after : After) (id : Nat)
  /-- `ctxMgrStop` at slot `i` -/
  | stopSlot (i : Nat)
  /-- `contextQueuePop(M->queue)` -/
  | runPop
  /-- `messageQueuePop(ctx->queue, &msg)` -/
  | dispatch (ctx : Ptr)
  /-- the tests of `ctx->cb` and `msg.type`; `pos` is the message's position -/
  | dispatchMsg (ctx : Ptr) (msg : Message) (pos : Nat)
  /-- `assert(contextRelease(ctx) != NULL)` -/
  | exitRelease (ctx : Ptr) (msg : Message)
  /-- `assert(CAS(&ctx->inGlobal, 1, 0))` -/
  | giveUp (ctx : Ptr)
  /-- `workerPoolHaveWork()` -/
  | haveWork (ctx : Ptr)
  /-- `contextQueuePush(M->queue, ctx)` of a worker -/
  | requeue (ctx : Ptr)
  /-- `ctxMgrGetContextNum()` -/
  | num (sleep : Bool)
  /-- in `threadSleep` -/
  | sleeping
  /-- returned from `handle` -/
  | done
  deriving DecidableEq, Repr

/-- What user code does next, and how a push ends.  All other steps do not look
    at it. -/
inductive PoolEvent where
  /-- `workerPoolSend` with the own context, or with `ctx = NULL` -/
  | send (own : Bool) (fromId toId session type : Nat) (data : Option Nat) (sz ud : Nat)
  | create
  | setCallback (cb : Bool)
  | stop
  /-- `workerPoolStop()`, as `stop` in `main.c` calls it -/
  | poolStop
  /-- return from the callback, or from the initialiser with `r` -/
  | ret (r : Int)
  | go
  /-- the push answers "full", which the ring may do before it is -/
  | full
  deriving DecidableEq, Repr

/-! ## Steps -/

def After.pc : After → PoolPc
  | .user caller => .user caller
  | .worker => .num true

/-- The record at `p` becomes `ctx`. -/
def Pool.set (pool : Pool) (p : Ptr) (ctx : Context) : Pool :=
  { pool with heap := Function.update pool.heap p ctx }

/-- `if (data) zfree(data)`. -/
def Pool.zfree (pool : Pool) (data : Option Nat) : Pool :=
  { pool with zfreed := pool.zfreed ++ data.toList }

/-- `contextQueuePush(M->queue, ctx)`; both callers ignore the result. -/
def Pool.runPush (pool : Pool) (p : Ptr) (e : PoolEvent) : Pool :=
  if pool.queue.length < queueRoom ∧ e ≠ .full then { pool with queue := pool.queue ++ [p] }
  else { pool with lost := pool.lost ++ [p] }

/-- `ctxMgrCreateContext` up to the call of `moduleInstanceInit`. -/
def createStep (pool : Pool) (caller : Caller) : Pool × PoolPc :=
  let ctx := pool.next
  match ctxMgrAddContext (fun p => (pool.heap p).id) pool.mgr ctx with
  | none => ({ pool with aborted := some .outOfMemory }, .user caller)
  | some (mgr, id, found) =>
      let rec0 := { contextCreate (pool.heap ctx) with id := id }
      -- `return id` as an `int`, and `id < 0` in the caller
      if found = true ∧ id < 2 ^ 31 then
        ({ pool with
          heap := Function.update pool.heap ctx
            { rec0 with name := snprintfName ("c_" ++ toString id).toList }
          next := pool.next + 1
          mgr := mgr }, .user (.init ctx id caller))
      else
        -- "can't add context", and it is not freed
        ({ pool with
          heap := Function.update pool.heap ctx rec0
          next := pool.next + 1
          mgr := mgr }, .user caller)

/-- User code takes a step. -/
def userStep (pool : Pool) (caller : Caller) (e : PoolEvent) : Option (Pool × PoolPc) :=
  match e with
  | .send own fromId toId session type data sz ud =>
      let ctx := if own then caller.self else none
      let fromId := if fromId = 0 then (ctx.map fun p => (pool.heap p).id).getD 0 else fromId
      if toId = 0 then some (pool, .user caller)
      else some (pool, .sendGet caller ctx toId ⟨fromId, session, type, ud, sz, data⟩)
  | .create => if pool.locked then none else some (createStep pool caller)
  | .setCallback cb =>
      match caller with
      | .callback ctx _ | .init ctx _ _ =>
          some (pool.set ctx { pool.heap ctx with cb := cb }, .user caller)
      | .outside => none
  | .stop =>
      if caller = .outside ∧ ¬ pool.stopped ∧ ¬ pool.locked then
        some ({ pool with locked := true, stopped := true }, .stopSlot 0)
      else none
  | .poolStop =>
      if caller = .outside then some ({ pool with running := false }, .user caller) else none
  | .ret r =>
      match caller with
      | .callback ctx msg => some (pool.zfree msg.data, .haveWork ctx)
      | .init _ id caller =>
          if r = 0 then some (pool, .user caller) else some (pool, .remove (.user caller) id)
      | .outside => none
  | _ => none

/-- One access of one thread to the shared memory. -/
def poolPcStep (pool : Pool) (pc : PoolPc) (e : PoolEvent) : Option (Pool × PoolPc) :=
  match pc with
  | .user caller => userStep pool caller e
  | .sendGet caller ctx toId msg =>
      if pool.locked then none
      else
        match pool.mgr.slot toId with
        | none => some (pool.zfree msg.data, .user caller)
        | some toctx => some (pool, .sendRetain caller ctx toctx msg)
  | .sendRetain caller ctx toctx msg =>
      some (pool.set toctx (contextRetain (pool.heap toctx)),
        if msg.type &&& MSG_TYPE_NEWSESSION ≠ 0 then .sendSession caller ctx toctx msg
        else .sendPush caller toctx msg)
  | .sendSession caller ctx toctx msg =>
      match ctx with
      | none => some ({ pool with aborted := some .nullContext }, .sendSession caller ctx toctx msg)
      | some ctx =>
          let id := (pool.heap ctx).sessionid
          some (pool.set ctx { pool.heap ctx with sessionid := u32 (id + 1) },
            .sendSessionCas caller ctx toctx { msg with session := id })
  | .sendSessionCas caller ctx toctx msg =>
      if (pool.heap ctx).sessionid = 0 then
        some (pool.set ctx { pool.heap ctx with sessionid := 1 },
          .sendSessionRead caller ctx toctx msg)
      else some (pool, .sendPush caller toctx msg)
  | .sendSessionRead caller ctx toctx msg =>
      some (pool, .sendPush caller toctx { msg with session := (pool.heap ctx).sessionid })
  | .sendPush caller toctx msg =>
      if (pool.heap toctx).queue.length < queueRoom ∧ e ≠ .full then
        some (pool.set toctx ((pool.heap toctx).push msg), .sendCas caller toctx)
      else some ({ pool with aborted := some .queueFull }, .sendPush caller toctx msg)
  | .sendCas caller toctx =>
      if (pool.heap toctx).inGlobal then some (pool, .release (.user caller) toctx)
      else
        some (pool.set toctx { pool.heap toctx with inGlobal := true }, .sendRun caller toctx)
  | .sendRun caller toctx => some (pool.runPush toctx e, .user caller)
  | .release after ctx =>
      let r := contextRelease (pool.heap ctx)
      some (pool.set ctx r.1, if r.2 then .remove after (pool.heap ctx).id else after.pc)
  | .remove after id =>
      if pool.locked then none
      else some ({ pool with mgr := ctxMgrRemoveContext pool.mgr id }, after.pc)
  | .stopSlot i =>
      if i < pool.mgr.setsize then
        match (pool.mgr.contexts[i]?).join with
        | none => some (pool, .stopSlot (i + 1))
        | some ctx =>
            let r := contextReleaseMgr (pool.heap ctx)
            let mgr := pool.mgr
            some ({ pool.set ctx r.1 with
              mgr := if r.2 then
                { mgr with
                  contexts := mgr.contexts.set i none
                  contextNum := mgr.contextNum - 1 }
                else mgr }, .stopSlot (i + 1))
      else some ({ pool with locked := false }, .user .outside)
  | .runPop =>
      match pool.queue with
      | [] => some (pool, .num true)
      | ctx :: queue => some ({ pool with queue := queue }, .dispatch ctx)
  | .dispatch ctx =>
      match (pool.heap ctx).queue with
      | [] => some (pool, .giveUp ctx)
      | msg :: queue =>
          let pos := (pool.heap ctx).taken
          some (pool.set ctx { pool.heap ctx with queue := queue, taken := pos + 1 },
            .dispatchMsg ctx msg pos)
  | .dispatchMsg ctx msg pos =>
      if (pool.heap ctx).cb = false then
        -- "Drop message from ..."
        some (pool.zfree msg.data, .giveUp ctx)
      else if msg.type = MSG_TYPE_EXIT_CONTEXT then some (pool, .exitRelease ctx msg)
      else
        some (pool.set ctx { pool.heap ctx with handled := (pool.heap ctx).handled ++ [pos] },
          .user (.callback ctx msg))
  | .exitRelease ctx msg =>
      let r := contextReleaseMgr (pool.heap ctx)
      if r.2 then some ({ pool.set ctx r.1 with aborted := some .exitReleased }, .giveUp ctx)
      else some ((pool.set ctx r.1).zfree msg.data, .giveUp ctx)
  | .giveUp ctx =>
      if (pool.heap ctx).inGlobal then
        some (pool.set ctx { pool.heap ctx with inGlobal := false }, .release .worker ctx)
      else some ({ pool with aborted := some .notScheduled }, .giveUp ctx)
  | .haveWork ctx => if pool.queue = [] then some (pool, .dispatch ctx) else some (pool, .requeue ctx)
  | .requeue ctx => some (pool.runPush ctx e, .num false)
  | .num sleep =>
      if pool.mgr.contextNum = 0 then
        -- `workerPoolStop()`
        some ({ pool with running := false }, .done)
      else some (pool, if sleep then .sleeping else .runPop)
  | .sleeping => if pool.queue ≠ [] ∨ ¬ pool.running then some (pool, .runPop) else none
  | .done => none

/-- A thread, with the positions of the messages that it has pushed. -/
structure PoolThread where
  pc : PoolPc
  sent : List (Ptr × Nat)
  deriving DecidableEq, Repr

/-- What a step of a sender adds to its history. -/
def pushed (pool : Pool) (pc pc' : PoolPc) : List (Ptr × Nat) :=
  match pc, pc' with
  | .sendPush _ toctx _, .sendCas _ _ => [(toctx, (pool.heap toctx).accepted.length)]
  | _, _ => []

/-- One step of one thread; an abort stops all of them. -/
def poolStep (pool : Pool) (th : PoolThread) (e : PoolEvent) : Option (Pool × PoolThread) :=
  if pool.aborted = none then
    (poolPcStep pool th.pc e).map fun r => (r.1, ⟨r.2, th.sent ++ pushed pool th.pc r.2⟩)
  else none

/-- The start: no contexts, the workers about to look into the run queue. -/
def poolInit {ι : Type} (workers : ι → Bool) (setsize : Nat) : Config ι Pool PoolThread where
  shared :=
    { heap := fun _ => Context.blank
      next := 0
      mgr := ctxMgrCreate setsize
      locked := false
      queue := []
      running := true
      zfreed := []
      lost := []
      stopped := false
      aborted := none }
  pcs := fun i => ⟨if workers i then .runPop else .user .outside, []⟩

end ZServer
