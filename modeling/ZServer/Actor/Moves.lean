/-
  ZServer.Actor.Moves

  What a step of the pool can do.  Seen from the contexts almost all steps are
  quiet: they change neither a queue nor a count.  `PoolMove` lists the others;
  `pool_move` is the only place where the steps are taken apart, and every
  invariant of the pool is derived from it.

    * `PoolPc.tokens` — the contexts a thread answers for because it won the
      CAS on `inGlobal` or took them out of the run queue.
    * `PoolPc.retained` — the contexts it holds another reference to: from
      `ctxMgrGetContext`, or, after giving a context up, until its release.
-/

import ZServer.Actor.WorkerPool

namespace ZServer

open Lib

/-! ## What a thread carries -/

def Caller.tokens : Caller → List Ptr
  | .outside => []
  | .callback ctx _ => [ctx]
  | .init _ _ caller => caller.tokens

def After.tokens : After → List Ptr
  | .user caller => caller.tokens
  | .worker => []

def PoolPc.tokens : PoolPc → List Ptr
  | .user caller | .sendGet caller _ _ _ | .sendRetain caller _ _ _ | .sendSession caller _ _ _
  | .sendSessionCas caller _ _ _ | .sendSessionRead caller _ _ _ | .sendPush caller _ _
  | .sendCas caller _ => caller.tokens
  | .sendRun caller toctx => toctx :: caller.tokens
  | .release after _ | .remove after _ => after.tokens
  | .dispatch ctx | .dispatchMsg ctx _ _ | .exitRelease ctx _ | .giveUp ctx | .haveWork ctx
  | .requeue ctx => [ctx]
  | .stopSlot _ | .runPop | .num _ | .sleeping | .done => []

/-- The callback that a piece of user code belongs to. -/
def Caller.running : Caller → Option (Ptr × Message)
  | .outside => none
  | .callback ctx msg => some (ctx, msg)
  | .init _ _ caller => caller.running

def After.running : After → Option (Ptr × Message)
  | .user caller => caller.running
  | .worker => none

/-- The callback that a thread is inside of. -/
def PoolPc.running : PoolPc → Option (Ptr × Message)
  | .user caller | .sendGet caller _ _ _ | .sendRetain caller _ _ _ | .sendSession caller _ _ _
  | .sendSessionCas caller _ _ _ | .sendSessionRead caller _ _ _ | .sendPush caller _ _
  | .sendCas caller _ | .sendRun caller _ => caller.running
  | .release after _ | .remove after _ => after.running
  | _ => none

/-- The context a caller holds from `ctxMgrGetContext`. -/
def PoolPc.held : PoolPc → List Ptr
  | .sendSession _ _ toctx _ | .sendSessionCas _ _ toctx _ | .sendSessionRead _ _ toctx _
  | .sendPush _ toctx _ | .sendCas _ toctx | .release (.user _) toctx => [toctx]
  | _ => []

/-- The context a worker has given up and not released yet. -/
def PoolPc.leaving : PoolPc → List Ptr
  | .release .worker ctx => [ctx]
  | _ => []

/-- The context a sender has pushed to without having tried the CAS yet. -/
def PoolPc.casing : PoolPc → Option Ptr
  | .sendCas _ toctx => some toctx
  | _ => none

/-- A message that has been popped and not looked at yet, with its context and
    its position. -/
def PoolPc.popped : PoolPc → Option (Ptr × Message × Nat)
  | .dispatchMsg ctx msg pos => some (ctx, msg, pos)
  | _ => none

def PoolPc.retained (pc : PoolPc) : List Ptr := pc.held ++ pc.leaving

/-! ## Moves -/

@[simp] theorem Pool.set_heap (pool : Pool) (p : Ptr) (ctx : Context) :
    (pool.set p ctx).heap p = ctx :=
  Function.update_self ..

/-- The step of a thread that changes the record `ctx` at `p` into `ctx'`. -/
inductive CtxMove (p : Ptr) : PoolPc → Context → PoolPc → Context → Prop where
  | retain (caller : Caller) (from? : Option Ptr) (msg : Message) (pc' : PoolPc) (ctx : Context)
      (hpc' : pc' = .sendSession caller from? p msg ∨ pc' = .sendPush caller p msg) :
      CtxMove p (.sendRetain caller from? p msg) ctx pc' (contextRetain ctx)
  | push (caller : Caller) (msg : Message) (ctx : Context) :
      CtxMove p (.sendPush caller p msg) ctx (.sendCas caller p) (ctx.push msg)
  | casWin (caller : Caller) (ctx : Context) (h : ctx.inGlobal = false) :
      CtxMove p (.sendCas caller p) ctx (.sendRun caller p) { ctx with inGlobal := true }
  | casLose (caller : Caller) (ctx : Context) (h : ctx.inGlobal = true) :
      CtxMove p (.sendCas caller p) ctx (.release (.user caller) p) ctx
  | release (after : After) (pc' : PoolPc) (ctx : Context)
      (hpc' : pc' = .remove after ctx.id ∨ pc' = after.pc) :
      CtxMove p (.release after p) ctx pc' (contextRelease ctx).1
  | stop (i : Nat) (ctx : Context) :
      CtxMove p (.stopSlot i) ctx (.stopSlot (i + 1)) (contextReleaseMgr ctx).1
  | take (msg : Message) (queue : List Message) (ctx : Context) (h : ctx.queue = msg :: queue) :
      CtxMove p (.dispatch p) ctx (.dispatchMsg p msg ctx.taken)
        { ctx with queue := queue, taken := ctx.taken + 1 }
  | handle (msg : Message) (pos : Nat) (ctx : Context) :
      CtxMove p (.dispatchMsg p msg pos) ctx (.user (.callback p msg))
        { ctx with handled := ctx.handled ++ [pos] }
  | exit (msg : Message) (ctx : Context) :
      CtxMove p (.exitRelease p msg) ctx (.giveUp p) (contextReleaseMgr ctx).1
  | giveUp (ctx : Context) (h : ctx.inGlobal = true) :
      CtxMove p (.giveUp p) ctx (.release .worker p) { ctx with inGlobal := false }

/-- A step that no queue and no count notices. -/
structure PoolQuiet (pool pool' : Pool) (pc pc' : PoolPc) : Prop where
  heap : ∀ p, ∃ cb sessionid, pool'.heap p = { pool.heap p with cb := cb, sessionid := sessionid }
  queue : pool'.queue = pool.queue
  lost : pool'.lost = pool.lost
  next : pool'.next = pool.next
  tokens : pc'.tokens = pc.tokens
  held : pc'.held = pc.held
  leaving : pc.leaving = [] ∧ pc'.leaving = []
  casing : pc.casing = none ∧ pc'.casing = none
  popped : pc'.popped = none
  running : ∀ r, pc'.running = some r → pc.running = some r

inductive PoolMove (pool pool' : Pool) (pc pc' : PoolPc) : Prop where
  | quiet (h : PoolQuiet pool pool' pc pc')
  | ctx (p : Ptr) (h : CtxMove p pc (pool.heap p) pc' (pool'.heap p))
      (hother : ∀ q, q ≠ p → pool'.heap q = pool.heap q)
      (hqueue : pool'.queue = pool.queue) (hlost : pool'.lost = pool.lost)
      (hnext : pool'.next = pool.next)
  | runPush (p : Ptr) (hpc : (∃ caller, pc = .sendRun caller p ∧ pc' = .user caller) ∨
        (pc = .requeue p ∧ pc' = .num false))
      (hheap : pool'.heap = pool.heap) (hnext : pool'.next = pool.next)
      (hqueue : (pool'.queue = pool.queue ++ [p] ∧ pool'.lost = pool.lost) ∨
        (pool'.queue = pool.queue ∧ pool'.lost = pool.lost ++ [p]))
  | runPop (p : Ptr) (hpc : pc = .runPop ∧ pc' = .dispatch p)
      (hheap : pool'.heap = pool.heap) (hnext : pool'.next = pool.next)
      (hqueue : pool.queue = p :: pool'.queue) (hlost : pool'.lost = pool.lost)
  | create (caller caller' : Caller) (id : Nat) (name : List Char) (hpc : pc = .user caller)
      (hpc' : pc' = .user caller') (hcaller : caller'.tokens = caller.tokens)
      (hrunning : caller'.running = caller.running)
      (hheap : pool'.heap = Function.update pool.heap pool.next
        { contextCreate (pool.heap pool.next) with id := id, name := name })
      (hnext : pool'.next = pool.next + 1)
      (hqueue : pool'.queue = pool.queue) (hlost : pool'.lost = pool.lost)

/-- A step that leaves the heap and the queues alone is quiet when its program
    points are.  At concrete program points that can be read off. -/
theorem PoolQuiet.of_pc {pool pool' : Pool} {pc pc' : PoolPc}
    (hheap : pool'.heap = pool.heap := by rfl) (hqueue : pool'.queue = pool.queue := by rfl)
    (hlost : pool'.lost = pool.lost := by rfl) (hnext : pool'.next = pool.next := by rfl)
    (htokens : pc'.tokens = pc.tokens := by rfl) (hheld : pc'.held = pc.held := by rfl)
    (hleaving : pc.leaving = [] ∧ pc'.leaving = [] := by exact ⟨rfl, rfl⟩)
    (hcasing : pc.casing = none ∧ pc'.casing = none := by exact ⟨rfl, rfl⟩)
    (hpopped : pc'.popped = none := by rfl)
    (hrunning : ∀ r, pc'.running = some r → pc.running = some r := by
      first | exact fun _ h => h | rintro _ ⟨⟩) :
    PoolQuiet pool pool' pc pc' where
  heap := fun p => ⟨(pool.heap p).cb, (pool.heap p).sessionid, by rw [hheap]⟩
  queue := hqueue
  lost := hlost
  next := hnext
  tokens := htokens
  held := hheld
  leaving := hleaving
  casing := hcasing
  popped := hpopped
  running := hrunning

/-- A step that changes `cb` or `sessionid` of one record. -/
theorem PoolQuiet.of_set {pool : Pool} {p : Ptr} {ctx : Context} {pc pc' : PoolPc}
    (hctx : ∃ cb sessionid, ctx = { pool.heap p with cb := cb, sessionid := sessionid })
    (htokens : pc'.tokens = pc.tokens := by rfl) (hheld : pc'.held = pc.held := by rfl)
    (hleaving : pc.leaving = [] ∧ pc'.leaving = [] := by exact ⟨rfl, rfl⟩)
    (hcasing : pc.casing = none ∧ pc'.casing = none := by exact ⟨rfl, rfl⟩)
    (hpopped : pc'.popped = none := by rfl)
    (hrunning : ∀ r, pc'.running = some r → pc.running = some r := by exact fun _ h => h) :
    PoolQuiet pool (pool.set p ctx) pc pc' where
  heap := fun q => by
    by_cases hq : q = p
    · obtain ⟨cb, sessionid, rfl⟩ := hctx
      exact ⟨cb, sessionid, by rw [hq]; exact Function.update_self ..⟩
    · exact ⟨(pool.heap q).cb, (pool.heap q).sessionid, Function.update_of_ne hq ..⟩
  queue := rfl
  lost := rfl
  next := rfl
  tokens := htokens
  held := hheld
  leaving := hleaving
  casing := hcasing
  popped := hpopped
  running := hrunning

/-- A step that replaces one record. -/
theorem PoolMove.of_set {pool pool' : Pool} {p : Ptr} {ctx : Context} {pc pc' : PoolPc}
    (h : CtxMove p pc (pool.heap p) pc' ctx) (hheap : pool'.heap = Function.update pool.heap p ctx)
    (hqueue : pool'.queue = pool.queue) (hlost : pool'.lost = pool.lost)
    (hnext : pool'.next = pool.next) : PoolMove pool pool' pc pc' := by
  refine .ctx p ?_ (fun q hq => ?_) hqueue hlost hnext
  · rw [hheap, Function.update_self]
    exact h
  · rw [hheap, Function.update_of_ne hq]

/-! ## Every step is such a move -/

theorem After.pc_tokens (after : After) : after.pc.tokens = after.tokens := by
  cases after <;> rfl

/-- After its release a thread carries what it is to return to, and retains nothing. -/
theorem After.released (after : After) {pc' : PoolPc} {id : Nat}
    (hpc' : pc' = .remove after id ∨ pc' = after.pc) :
    pc'.tokens = after.tokens ∧ pc'.held = [] ∧ pc'.leaving = [] := by
  rcases hpc' with rfl | rfl
  · exact ⟨rfl, rfl, rfl⟩
  · exact ⟨after.pc_tokens, by cases after <;> rfl, by cases after <;> rfl⟩

theorem user_move {pool pool' : Pool} {caller : Caller} {pc' : PoolPc} {e : PoolEvent}
    (hs : userStep pool caller e = some (pool', pc')) : PoolMove pool pool' (.user caller) pc' := by
  cases e with
  | send own fromId toId session type data sz ud =>
      simp only [userStep] at hs
      split at hs <;> (cases hs; exact .quiet .of_pc)
  | create =>
      simp only [userStep] at hs
      split at hs
      · cases hs
      · simp only [createStep, Option.some.injEq] at hs
        split at hs
        · cases hs
          exact .quiet .of_pc
        · split at hs
          · cases hs
            exact .create caller _ _ _ rfl rfl rfl rfl rfl rfl rfl rfl
          · cases hs
            exact .create caller _ _ _ rfl rfl rfl rfl rfl rfl rfl rfl
  | setCallback cb =>
      cases caller with
      | outside => cases hs
      | callback ctx msg =>
          cases hs
          exact .quiet (.of_set ⟨_, _, rfl⟩)
      | init ctx id caller =>
          cases hs
          exact .quiet (.of_set ⟨_, _, rfl⟩)
  | stop =>
      simp only [userStep] at hs
      split at hs
      · rename_i h
        cases hs
        rw [h.1]
        exact .quiet .of_pc
      · cases hs
  | poolStop =>
      simp only [userStep] at hs
      split at hs
      · cases hs
        exact .quiet .of_pc
      · cases hs
  | ret r =>
      cases caller with
      | outside => cases hs
      | callback ctx msg =>
          cases hs
          exact .quiet .of_pc
      | init ctx id caller =>
          simp only [userStep] at hs
          split at hs <;> (cases hs; exact .quiet .of_pc)
  | _ => cases hs

theorem pool_move {pool pool' : Pool} {pc pc' : PoolPc} {e : PoolEvent}
    (hs : poolPcStep pool pc e = some (pool', pc')) : PoolMove pool pool' pc pc' := by
  cases pc with
  | user caller => exact user_move hs
  | sendGet caller ctx toId msg =>
      simp only [poolPcStep] at hs
      split at hs
      · cases hs
      · split at hs <;> (cases hs; exact .quiet .of_pc)
  | sendRetain caller ctx toctx msg =>
      cases hs
      refine .of_set (.retain caller ctx msg _ _ ?_) rfl rfl rfl rfl
      split
      · exact Or.inl rfl
      · exact Or.inr rfl
  | sendSession caller ctx toctx msg =>
      cases ctx with
      | none =>
          cases hs
          exact .quiet .of_pc
      | some ctx =>
          cases hs
          exact .quiet (.of_set ⟨_, _, rfl⟩)
  | sendSessionCas caller ctx toctx msg =>
      simp only [poolPcStep] at hs
      split at hs
      · cases hs
        exact .quiet (.of_set ⟨_, _, rfl⟩)
      · cases hs
        exact .quiet .of_pc
  | sendSessionRead caller ctx toctx msg =>
      cases hs
      exact .quiet .of_pc
  | sendPush caller toctx msg =>
      simp only [poolPcStep] at hs
      split at hs
      · cases hs
        exact .of_set (.push caller msg _) rfl rfl rfl rfl
      · cases hs
        exact .quiet .of_pc
  | sendCas caller toctx =>
      simp only [poolPcStep] at hs
      split at hs
      · rename_i h
        cases hs
        exact .ctx toctx (.casLose caller _ h) (fun _ _ => rfl) rfl rfl rfl
      · rename_i h
        cases hs
        exact .of_set (.casWin caller _ (Bool.eq_false_iff.mpr h)) rfl rfl rfl rfl
  | sendRun caller toctx =>
      simp only [poolPcStep, Pool.runPush] at hs
      split at hs
      · cases hs
        exact .runPush toctx (Or.inl ⟨caller, rfl, rfl⟩) rfl rfl (Or.inl ⟨rfl, rfl⟩)
      · cases hs
        exact .runPush toctx (Or.inl ⟨caller, rfl, rfl⟩) rfl rfl (Or.inr ⟨rfl, rfl⟩)
  | release after ctx =>
      simp only [poolPcStep, Option.some.injEq] at hs
      cases hs
      refine .of_set (.release after _ _ ?_) rfl rfl rfl rfl
      split
      · exact Or.inl rfl
      · exact Or.inr rfl
  | remove after id =>
      simp only [poolPcStep] at hs
      split at hs
      · cases hs
      · cases hs
        cases after with
        | user caller => exact .quiet .of_pc
        | worker => exact .quiet .of_pc
  | stopSlot i =>
      simp only [poolPcStep] at hs
      split at hs
      · split at hs
        · cases hs
          exact .quiet .of_pc
        · cases hs
          exact .of_set (.stop i _) rfl rfl rfl rfl
      · cases hs
        exact .quiet .of_pc
  | runPop =>
      simp only [poolPcStep] at hs
      split at hs
      · cases hs
        exact .quiet .of_pc
      · rename_i ctx queue hqueue
        cases hs
        exact .runPop ctx ⟨rfl, rfl⟩ rfl rfl hqueue rfl
  | dispatch ctx =>
      simp only [poolPcStep] at hs
      split at hs
      · cases hs
        exact .quiet .of_pc
      · rename_i msg queue hqueue
        cases hs
        exact .of_set (.take msg queue _ hqueue) rfl rfl rfl rfl
  | dispatchMsg ctx msg pos =>
      simp only [poolPcStep] at hs
      split at hs
      · cases hs
        exact .quiet .of_pc
      · split at hs
        · cases hs
          exact .quiet .of_pc
        · cases hs
          exact .of_set (.handle msg pos _) rfl rfl rfl rfl
  | exitRelease ctx msg =>
      simp only [poolPcStep] at hs
      split at hs <;> (cases hs; exact .of_set (.exit msg _) rfl rfl rfl rfl)
  | giveUp ctx =>
      simp only [poolPcStep] at hs
      split at hs
      · rename_i h
        cases hs
        exact .of_set (.giveUp _ h) rfl rfl rfl rfl
      · cases hs
        exact .quiet .of_pc
  | haveWork ctx =>
      simp only [poolPcStep] at hs
      split at hs <;> (cases hs; exact .quiet .of_pc)
  | requeue ctx =>
      simp only [poolPcStep, Pool.runPush] at hs
      split at hs
      · cases hs
        exact .runPush ctx (Or.inr ⟨rfl, rfl⟩) rfl rfl (Or.inl ⟨rfl, rfl⟩)
      · cases hs
        exact .runPush ctx (Or.inr ⟨rfl, rfl⟩) rfl rfl (Or.inr ⟨rfl, rfl⟩)
  | num sleep =>
      simp only [poolPcStep] at hs
      split at hs
      · cases hs
        exact .quiet .of_pc
      · cases hs
        cases sleep <;> exact .quiet .of_pc
  | sleeping =>
      simp only [poolPcStep] at hs
      split at hs
      · cases hs
        exact .quiet .of_pc
      · cases hs
  | done => cases hs

theorem pool_step {pool pool' : Pool} {th th' : PoolThread} {e : PoolEvent}
    (hs : poolStep pool th e = some (pool', th')) :
    pool.aborted = none ∧ poolPcStep pool th.pc e = some (pool', th'.pc) ∧
      th'.sent = th.sent ++ pushed pool th.pc th'.pc := by
  simp only [poolStep] at hs
  split at hs
  · rename_i hab
    obtain ⟨r, hr, hpair⟩ := Option.map_eq_some_iff.mp hs
    cases hpair
    exact ⟨hab, hr, rfl⟩
  · cases hs

/-- A thread starts as a worker or outside. -/
theorem pool_init_pc {ι : Type} (workers : ι → Bool) (setsize : Nat) (i : ι) :
    ((poolInit workers setsize).pcs i).pc = .runPop ∨
      ((poolInit workers setsize).pcs i).pc = .user .outside := by
  show (if workers i then PoolPc.runPop else PoolPc.user .outside) = _ ∨
    (if workers i then PoolPc.runPop else PoolPc.user .outside) = _
  split
  · exact Or.inl rfl
  · exact Or.inr rfl

end ZServer
