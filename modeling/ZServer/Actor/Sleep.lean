/-
  ZServer.Actor.Sleep

  The run queue of `src/worker_pool.c` as a ring with a count, and the workers that
  sleep on it.  `sleepPcStep` is one access of one thread to the shared memory: a
  step of `ringStep`, an operation on the lock or on the condition variable, a read
  of the count or of `running`.

  What a dispatch gives, whom a callback sends to and whether any context is left
  are choices of the environment here: nothing that follows depends on them.
-/

import ZServer.Actor.Context
import ZServer.Lib.Monitor
import ZServer.Ring.Safety

namespace ZServer

open Lib

-- ============================================================================
-- Memory
-- ============================================================================

/-- `struct workerPool`; `lock` and `cond` are the monitor. -/
structure SleepPool (ι : Type) where
  queue : Ring Ptr
  monitor : Monitor ι
  running : Bool

-- ============================================================================
-- Program points
-- ============================================================================

/-- Whose code calls `workerPoolSend`. -/
inductive SleepCaller where
  | outside
  /-- the callback of `ctx`, on a worker -/
  | callback (ctx : Ptr)
  deriving DecidableEq, Repr

inductive SleepPc where
  | user (caller : SleepCaller)
  /-- in `contextQueuePush(M->queue, toctx)` of `workerPoolSend` -/
  | push (caller : SleepCaller) (pc : RingPc Ptr)
  /-- `pthread_mutex_lock` in `threadWakeUp` -/
  | wakeLock (caller : SleepCaller)
  /-- `pthread_cond_signal` -/
  | wakeSignal (caller : SleepCaller)
  | wakeUnlock (caller : SleepCaller)
  /-- the start of the loop of `handle` -/
  | loop
  /-- in `contextQueuePop(M->queue)` -/
  | pop (pc : RingPc Ptr)
  /-- in `contextDispatchMessage(ctx, th)` -/
  | dispatch (ctx : Ptr)
  /-- `workerPoolHaveWork()` in `handle` -/
  | haveWork (ctx : Ptr)
  /-- in `contextQueuePush(M->queue, ctx)` of `handle` -/
  | requeue (pc : RingPc Ptr)
  /-- `ctxMgrGetContextNum()` -/
  | num (sleep : Bool)
  /-- `pthread_mutex_lock` in `workerPoolStop`, which a worker calls, or `stop` in `main.c` -/
  | stopLock (worker : Bool)
  /-- `M->running = 0` -/
  | stopRunning (worker : Bool)
  /-- `pthread_cond_broadcast` -/
  | stopBroadcast (worker : Bool)
  | stopUnlock (worker : Bool)
  /-- `pthread_mutex_lock` in `threadSleep` -/
  | sleepLock
  /-- `!workerPoolHaveWork()` -/
  | sleepTest
  /-- `M->running` -/
  | sleepRunning
  /-- `pthread_cond_wait` -/
  | sleepWait
  /-- blocked in it, or about to return from it -/
  | sleeping
  | sleepUnlock
  /-- returned from `handle` -/
  | done
  deriving DecidableEq, Repr

/-- A thread, and its name for the monitor. -/
structure SleepThread (ι : Type) where
  self : ι
  pc : SleepPc

inductive SleepEvent (ι : Type) where
  /-- user code calls `workerPoolSend`, and wins the CAS -/
  | send (toctx : Ptr)
  /-- the callback returns -/
  | ret
  /-- `stop` in `main.c` -/
  | stop
  /-- the callback of the context is called -/
  | call
  /-- the context is given up -/
  | giveUp
  | num (n : Nat)
  /-- a signal wakes `j` -/
  | signal (j : ι)
  | spurious
  | go

-- ============================================================================
-- Steps
-- ============================================================================

variable {ι : Type} [DecidableEq ι]

/-- A step inside the ring. -/
def SleepPool.ringStep (pool : SleepPool ι) (pc : RingPc Ptr) (k : RingPc Ptr → SleepPc) :
    Option (SleepPool ι × SleepPc) :=
  (ZServer.ringStep pool.queue pc .pop).map fun r => ({ pool with queue := r.1 }, k r.2)

/-- An operation on the monitor. -/
def SleepPool.withMonitor (pool : SleepPool ι) (m : Option (Monitor ι)) (pc : SleepPc) :
    Option (SleepPool ι × SleepPc) :=
  m.map fun m => ({ pool with monitor := m }, pc)

/-- `workerPoolHaveWork` -/
def SleepPool.haveWork (pool : SleepPool ι) : Bool := 0 < ringCount pool.queue

def sleepPcStep (pool : SleepPool ι) (self : ι) (pc : SleepPc) (e : SleepEvent ι) :
    Option (SleepPool ι × SleepPc) :=
  match pc with
  | .user caller =>
      match e, caller with
      | .send toctx, caller => some (pool, .push caller (.pushReadWrite toctx))
      | .ret, .callback ctx => some (pool, .haveWork ctx)
      | .stop, .outside => some (pool, .stopLock false)
      | _, _ => none
  | .push caller (.pushRet _) => some (pool, .wakeLock caller)
  | .push caller pc => pool.ringStep pc (.push caller)
  | .wakeLock caller => pool.withMonitor (pool.monitor.lock self) (.wakeSignal caller)
  | .wakeSignal caller =>
      match e with
      | .signal j => pool.withMonitor (pool.monitor.signal j) (.wakeUnlock caller)
      | _ => none
  | .wakeUnlock caller => pool.withMonitor (some pool.monitor.unlock) (.user caller)
  | .loop => some (pool, .pop .popReadRead)
  | .pop (.popRet none) => some (pool, .num true)
  | .pop (.popRet (some ctx)) => some (pool, .dispatch ctx)
  | .pop pc => pool.ringStep pc .pop
  | .dispatch ctx =>
      match e with
      | .call => some (pool, .user (.callback ctx))
      | .giveUp => some (pool, .num true)
      | _ => none
  | .haveWork ctx =>
      some (pool, if pool.haveWork then .requeue (.pushReadWrite ctx) else .dispatch ctx)
  | .requeue (.pushRet _) => some (pool, .num false)
  | .requeue pc => pool.ringStep pc .requeue
  | .num sleep =>
      match e with
      | .num 0 => some (pool, .stopLock true)
      | .num (_ + 1) => some (pool, if sleep then .sleepLock else .loop)
      | _ => none
  | .stopLock worker => pool.withMonitor (pool.monitor.lock self) (.stopRunning worker)
  | .stopRunning worker => some ({ pool with running := false }, .stopBroadcast worker)
  | .stopBroadcast worker =>
      pool.withMonitor (some pool.monitor.broadcast) (.stopUnlock worker)
  | .stopUnlock worker =>
      pool.withMonitor (some pool.monitor.unlock) (if worker then .done else .user .outside)
  | .sleepLock => pool.withMonitor (pool.monitor.lock self) .sleepTest
  | .sleepTest => some (pool, if pool.haveWork then .sleepUnlock else .sleepRunning)
  | .sleepRunning => some (pool, if pool.running then .sleepWait else .sleepUnlock)
  | .sleepWait => pool.withMonitor (some (pool.monitor.wait self)) .sleeping
  | .sleeping =>
      match e with
      | .spurious => pool.withMonitor (some (pool.monitor.wake self)) .sleeping
      | _ => pool.withMonitor (pool.monitor.resume self) .sleepTest
  | .sleepUnlock => pool.withMonitor (some pool.monitor.unlock) .loop
  | .done => none

def sleepStep (pool : SleepPool ι) (th : SleepThread ι) (e : SleepEvent ι) :
    Option (SleepPool ι × SleepThread ι) :=
  (sleepPcStep pool th.self th.pc e).map fun r => (r.1, { th with pc := r.2 })

/-- `workerPoolInit` and `workerPoolStart`: the workers at the start of their loops. -/
def sleepInit (workers : ι → Bool) : Config ι (SleepPool ι) (SleepThread ι) where
  shared := ⟨ringCreate 1024, Monitor.free, true⟩
  pcs := fun i => ⟨i, if workers i then .loop else .user .outside⟩

-- ============================================================================
-- The ring inside
-- ============================================================================

/-- The program point as the ring sees it. -/
def SleepPc.toRing : SleepPc → RingPc Ptr
  | .push _ pc | .pop pc | .requeue pc => pc
  | _ => .idle

end ZServer
