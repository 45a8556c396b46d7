/-
  ZServer.Actor.NameMgr

  The contexts with their table and their names (`src/name_mgr.c`), one whole
  call after the other: creation, sends by number and by name, rounds of the
  worker loop, registration and its undoing.

  `ctxMgrGetContext`, `workerPoolSend` and the others are here what a single
  thread does from beginning to end; how their steps interleave is the subject
  of `ZServer.Actor.WorkerPool`.  In which order the workers take the scheduled
  contexts is left open.
-/

import ZServer.Actor.CtxMgr

namespace ZServer

open Lib

/-- The contexts, the table and the dictionary of names. -/
structure Services where
  heap : Ptr → Context
  /-- the addresses below are in use -/
  next : Ptr
  mgr : CtxMgr
  nameDict : List (List Char × Nat)
  /-- the contexts that `ctxMgrCreateContext` has returned -/
  launched : List Ptr

/-- Created, and not freed since. -/
def Services.Live (st : Services) (p : Ptr) : Prop :=
  p ∈ st.launched ∧ (st.heap p).freed = false

instance (st : Services) (p : Ptr) : Decidable (st.Live p) := inferInstanceAs (Decidable (_ ∧ _))

/-- The record at `p` becomes `ctx`. -/
def Services.set (st : Services) (p : Ptr) (ctx : Context) : Services :=
  { st with heap := Function.update st.heap p ctx }

/-! ## Contexts -/

/-- `ctxMgrGetContext`; the caller then holds a reference. -/
def ctxMgrGetContext (st : Services) (id : Nat) : Services × Option Ptr :=
  match st.mgr.slot id with
  | none => (st, none)
  | some ctx => (st.set ctx (contextRetain (st.heap ctx)), some ctx)

/-- `ctxMgrReleaseContext`. -/
def ctxMgrReleaseContext (st : Services) (ctx : Ptr) : Services :=
  let id := (st.heap ctx).id
  let r := contextRelease (st.heap ctx)
  if r.2 then { st.set ctx r.1 with mgr := ctxMgrRemoveContext st.mgr id } else st.set ctx r.1

/-- `ctxMgrCreateContext`, with the result of `moduleInstanceInit` and the
    callback it has set; `none` when `zcalloc` aborts. -/
def ctxMgrCreateContext (st : Services) (initOk cb : Bool) : Option Services :=
  let ctx := st.next
  (ctxMgrAddContext (fun p => (st.heap p).id) st.mgr ctx).map fun (mgr, id, found) =>
    let rec0 := { contextCreate (st.heap ctx) with id := id }
    -- `id < 0`: no slot was free, or the number does not fit an `int`
    if found = false ∨ 2 ^ 31 ≤ id then { st.set ctx rec0 with next := st.next + 1, mgr := mgr }
    else
      let rec1 := { rec0 with name := snprintfName ("c_" ++ toString id).toList, cb := cb }
      if initOk then
        { st.set ctx rec1 with
          next := st.next + 1
          mgr := mgr
          launched := st.launched ++ [ctx] }
      else { st.set ctx rec1 with next := st.next + 1, mgr := ctxMgrRemoveContext mgr id }

/-- `contextNewsession`. -/
def contextNewsession (ctx : Context) : Context × Nat :=
  let id := ctx.sessionid
  let sessionid := u32 (id + 1)
  if sessionid = 0 then ({ ctx with sessionid := 1 }, 1)
  else ({ ctx with sessionid := sessionid }, id)

/-- `msg.session` in `workerPoolSend`; `none` for `contextNewsession(NULL)`. -/
def sendSession (st : Services) (ctx : Option Ptr) (session type : Nat) : Option (Services × Nat) :=
  if type &&& MSG_TYPE_NEWSESSION ≠ 0 then
    ctx.map fun p =>
      let r := contextNewsession (st.heap p)
      (st.set p r.1, r.2)
  else some (st, session)

/-- `workerPoolSend` from `messageQueuePush` on; `none` when `assert(0)` fails. -/
def sendPush (st : Services) (toctx : Ptr) (msg : Message) : Option Services :=
  if (st.heap toctx).queue.length < queueRoom then
    let st := st.set toctx ((st.heap toctx).push msg)
    -- `CAS(&toctx->inGlobal, 0, 1)`: a context that is scheduled keeps its reference
    if (st.heap toctx).inGlobal then some (ctxMgrReleaseContext st toctx)
    else some (st.set toctx { st.heap toctx with inGlobal := true })
  else none

/-- `workerPoolSend`, with its result. -/
def workerPoolSend (st : Services) (ctx : Option Ptr) (fromId toId session type : Nat)
    (data : Option Nat) (sz ud : Nat) : Option (Services × Int) :=
  let fromId := if fromId = 0 then (ctx.map fun p => (st.heap p).id).getD 0 else fromId
  if toId = 0 then some (st, -1)
  else
    match ctxMgrGetContext st toId with
    | (st, none) => some (st, -1)
    | (st, some toctx) =>
        (sendSession st ctx session type).bind fun (st, session) =>
          (sendPush st toctx ⟨fromId, session, type, ud, sz, data⟩).map fun st =>
            (st, intOf session)

/-- `contextDispatchMessage`, with its result; `none` when
    `assert(contextRelease(ctx) != NULL)` fails. -/
def contextDispatchMessage (ctx : Context) : Option (Context × Int) :=
  match ctx.queue with
  | [] => some (ctx, -1)
  | msg :: queue =>
      let ctx := { ctx with queue := queue, taken := ctx.taken + 1 }
      if ctx.cb = false then some (ctx, -1)
      else if msg.type = MSG_TYPE_EXIT_CONTEXT then
        let r := contextReleaseMgr ctx
        if r.2 then none else some (r.1, -2)
      else some ({ ctx with handled := ctx.handled ++ [ctx.taken - 1] }, 0)

/-- One round of the inner loop of `handle`, for a scheduled context. -/
def handleRound (st : Services) (ctx : Ptr) : Option Services :=
  if (st.heap ctx).inGlobal then
    (contextDispatchMessage (st.heap ctx)).map fun (c, result) =>
      if result = -1 ∨ result = -2 then
        ctxMgrReleaseContext (st.set ctx { c with inGlobal := false }) ctx
      else st.set ctx c
  else none

/-! ## Names -/

/-- `nameMgrGetId`. -/
def nameMgrGetId (st : Services) (name : List Char) : Nat := (st.nameDict.lookup name).getD 0

/-- `nameMgrRegist`, with its result. -/
def nameMgrRegist (st : Services) (name : List Char) (id : Nat) : Services × Int :=
  match ctxMgrGetContext st id with
  | (st, none) => (st, -2)
  | (st, some ctx) =>
      let st := st.set ctx { st.heap ctx with name := snprintfName name }
      -- `dictAdd` refuses a name that is there
      if (st.nameDict.lookup name).isNone then
        (ctxMgrReleaseContext { st with nameDict := (name, id) :: st.nameDict } ctx, 0)
      else (ctxMgrReleaseContext st ctx, -1)

/-- `nameMgrUnRegist`, with its result; it does not release what it got from
    `ctxMgrGetContext`. -/
def nameMgrUnRegist (st : Services) (name : List Char) : Services × Int :=
  let id := nameMgrGetId st name
  -- `id <= 0`
  if id = 0 ∨ 2 ^ 31 ≤ id then (st, -1)
  else if (st.nameDict.lookup name).isNone then (st, 1)
  else
    let st := { st with nameDict := st.nameDict.filter fun e => e.1 ≠ name }
    match ctxMgrGetContext st id with
    | (st, none) => (st, 0)
    | (st, some ctx) =>
        (st.set ctx { st.heap ctx with
          name := snprintfName ("c_" ++ toString (intOf (st.heap ctx).id)).toList }, 0)

/-! ## Runs -/

inductive ServicesOp where
  | create (initOk cb : Bool)
  | setCallback (ctx : Ptr) (cb : Bool)
  | send (ctx : Option Ptr) (fromId toId session type : Nat) (data : Option Nat) (sz ud : Nat)
  | sendName (ctx : Option Ptr) (fromId : Nat) (name : List Char) (session type : Nat)
      (data : Option Nat) (sz ud : Nat)
  | handle (ctx : Ptr)
  | regist (name : List Char) (id : Nat)
  | unregist (name : List Char)
  deriving DecidableEq, Repr

/-- The calls, each from beginning to end; a sender is a live context or `NULL`. -/
def servicesStep (st : Services) (op : ServicesOp) : Option Services :=
  match op with
  | .create initOk cb => ctxMgrCreateContext st initOk cb
  | .setCallback ctx cb =>
      if st.Live ctx then some (st.set ctx { st.heap ctx with cb := cb }) else none
  | .send ctx fromId toId session type data sz ud =>
      if ∀ p ∈ ctx, st.Live p then
        (workerPoolSend st ctx fromId toId session type data sz ud).map Prod.fst
      else none
  | .sendName ctx fromId name session type data sz ud =>
      if ∀ p ∈ ctx, st.Live p then
        (workerPoolSend st ctx fromId (nameMgrGetId st name) session type data sz ud).map Prod.fst
      else none
  | .handle ctx => handleRound st ctx
  | .regist name id => some (nameMgrRegist st name id).1
  | .unregist name => some (nameMgrUnRegist st name).1

/-- No contexts and no names. -/
def servicesInit (setsize : Nat) : Services where
  heap := fun _ => Context.blank
  next := 0
  mgr := ctxMgrCreate setsize
  nameDict := []
  launched := []

end ZServer
