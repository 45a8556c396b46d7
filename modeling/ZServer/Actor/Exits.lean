/-
  ZServer.Actor.Exits

  What becomes of a context that takes an EXIT out of its queue.  The dispatch of
  EXIT gives up the manager's reference, the release of the last reference frees
  the context, and whoever frees it takes it out of the table.

  `MgrMove` lists what a step does to the table.
-/

import ZServer.Actor.Payload

namespace ZServer

open Lib

-- ============================================================================
-- Records
-- ============================================================================

/-- A property of the records in use that no step of a thread spoils. -/
theorem PoolMove.record {P : Context → Prop} {pool pool' : Pool} {pc pc' : PoolPc}
    (h : PoolMove pool pool' pc pc')
    (hquiet : ∀ ctx cb sessionid, P ctx → P { ctx with cb := cb, sessionid := sessionid })
    (hmove : ∀ p ctx ctx', CtxMove p pc ctx pc' ctx' → P ctx → P ctx')
    (hnew : ∀ ctx id name, P { contextCreate ctx with id := id, name := name })
    (hall : ∀ p, p < pool.next → P (pool.heap p)) (p : Ptr) (hp : p < pool'.next) :
    P (pool'.heap p) := by
  cases h with
  | quiet h =>
      obtain ⟨cb, sessionid, hheap⟩ := h.heap p
      rw [h.next] at hp
      rw [hheap]
      exact hquiet _ cb sessionid (hall p hp)
  | ctx q h hother hqueue hlost hnext =>
      rw [hnext] at hp
      by_cases hq : p = q
      · subst hq
        exact hmove p _ _ h (hall p hp)
      · rw [hother p hq]
        exact hall p hp
  | runPush q hpc hheap hnext hqueue =>
      rw [hnext] at hp
      rw [hheap]
      exact hall p hp
  | runPop q hpc hheap hnext hqueue hlost =>
      rw [hnext] at hp
      rw [hheap]
      exact hall p hp
  | create caller caller' id name hpc hpc' hcaller hrunning hheap hnext hqueue hlost =>
      rw [hheap]
      by_cases hq : p = pool.next
      · rw [hq, Function.update_self]
        exact hnew _ id name
      · rw [hnext] at hp
        rw [Function.update_of_ne hq]
        exact hall p (Nat.lt_of_le_of_ne (Nat.lt_succ_iff.mp hp) hq)

/-- The manager has one reference at most, and a context without references has
    been freed. -/
structure Context.Held (ctx : Context) : Prop where
  mgr_le : ctx.mgrRef ≤ 1
  freed : ctx.ref ≤ 0 → ctx.freed = true

theorem Context.Held.release {ctx : Context} (h : ctx.Held) : (contextRelease ctx).1.Held := by
  refine ⟨?_, fun hlow => ?_⟩
  · rw [contextRelease_mgrRef]
    exact h.mgr_le
  · rw [contextRelease_ref] at hlow
    rw [contextRelease_freed]
    by_cases hone : ctx.ref = 1
    · exact Or.inr hone
    · exact Or.inl (h.freed (by omega))

theorem Context.Held.releaseMgr {ctx : Context} (h : ctx.Held) : (contextReleaseMgr ctx).1.Held := by
  have hmgr := h.mgr_le
  exact Context.Held.release ⟨by simp only; omega, h.freed⟩

theorem CtxMove.held {p : Ptr} {pc pc' : PoolPc} {ctx ctx' : Context}
    (h : CtxMove p pc ctx pc' ctx') (hheld : ctx.Held) : ctx'.Held := by
  cases h with
  | retain caller from? msg pc' ctx hpc' =>
      refine ⟨hheld.mgr_le, fun hlow => hheld.freed ?_⟩
      have href : ctx.ref + 1 ≤ 0 := hlow
      omega
  | release after pc' ctx hpc' => exact hheld.release
  | stop i ctx | exit msg ctx => exact hheld.releaseMgr
  | _ => exact ⟨hheld.mgr_le, hheld.freed⟩

/-- The manager gets no reference back. -/
theorem CtxMove.mgrRef_le {p : Ptr} {pc pc' : PoolPc} {ctx ctx' : Context}
    (h : CtxMove p pc ctx pc' ctx') : ctx'.mgrRef ≤ ctx.mgrRef := by
  cases h with
  | release after pc' ctx hpc' => rw [contextRelease_mgrRef]
  | stop i ctx | exit msg ctx =>
      rw [contextReleaseMgr, contextRelease_mgrRef]
      simp only
      omega
  | _ => exact Int.le_refl _

@[simp] theorem CtxMove.id_eq {p : Ptr} {pc pc' : PoolPc} {ctx ctx' : Context}
    (h : CtxMove p pc ctx pc' ctx') : ctx'.id = ctx.id := by
  cases h with
  | release after pc' ctx hpc' => exact contextRelease_id _
  | stop i ctx | exit msg ctx => exact contextRelease_id _
  | _ => rfl

/-- A message that is out of the queue after a step was so before, or has just been
    taken. -/
theorem CtxMove.taken {p : Ptr} {pc pc' : PoolPc} {ctx ctx' : Context}
    (h : CtxMove p pc ctx pc' ctx') (hlog : ctx.LogOk) {pos : Nat} {msg : Message}
    (hmsg : ctx'.accepted[pos]? = some msg) (hpos : pos < ctx'.taken) :
    (ctx.accepted[pos]? = some msg ∧ pos < ctx.taken ∧ ctx'.mgrRef ≤ ctx.mgrRef) ∨
      pc' = .dispatchMsg p msg pos := by
  have hmgr := h.mgrRef_le
  cases h with
  | push caller new ctx =>
      have hlt : pos < ctx.accepted.length := Nat.lt_of_lt_of_le hpos hlog.taken_le
      simp only [Context.push] at hmsg
      rw [List.getElem?_append_left hlt] at hmsg
      exact Or.inl ⟨hmsg, hpos, hmgr⟩
  | take new queue ctx hqueue =>
      by_cases hlast : pos = ctx.taken
      · -- the message taken is the head of the queue
        have hhead : ctx.accepted[ctx.taken]? = some new := by
          rw [← List.head?_drop, hlog.fifo, hqueue]
          rfl
        rw [hlast] at hmsg ⊢
        rw [Option.some.inj (hhead.symm.trans hmsg)]
        exact Or.inr rfl
      · have hlt : pos < ctx.taken + 1 := hpos
        exact Or.inl ⟨hmsg, by omega, hmgr⟩
  | release after pc' ctx hpc' =>
      rw [contextRelease_accepted] at hmsg
      rw [contextRelease_taken] at hpos
      exact Or.inl ⟨hmsg, hpos, hmgr⟩
  | stop i ctx | exit msg' ctx =>
      rw [contextReleaseMgr, contextRelease_accepted] at hmsg
      rw [contextReleaseMgr, contextRelease_taken] at hpos
      exact Or.inl ⟨hmsg, hpos, hmgr⟩
  | _ => exact Or.inl ⟨hmsg, hpos, hmgr⟩

-- ============================================================================
-- The table
-- ============================================================================

/-- What a step does to the table. -/
inductive MgrMove (pool pool' : Pool) (pc pc' : PoolPc) : Prop where
  | same (hmgr : pool'.mgr = pool.mgr) (hpc : ∀ after id, pc ≠ .remove after id)
      (hids : ∀ p, (pool'.heap p).id = (pool.heap p).id)
  | add (id : Nat) (found : Bool)
      (hadd : ctxMgrAddContext (fun p => (pool.heap p).id) pool.mgr pool.next =
        some (pool'.mgr, id, found))
      (hpc : ∀ after id, pc ≠ .remove after id)
      (hids : (fun p => (pool'.heap p).id) =
        Function.update (fun p => (pool.heap p).id) pool.next id)
  | remove (after : After) (id : Nat) (hpc : pc = .remove after id)
      (hmgr : pool'.mgr = ctxMgrRemoveContext pool.mgr id) (hheap : pool'.heap = pool.heap)
  | stop (i : Nat) (p : Ptr) (hpc : pc = .stopSlot i)
      (hslot : (pool.mgr.contexts[i]?).join = some p) (hmgr : pool'.mgr = pool.mgr.clear i)
      (hids : ∀ p, (pool'.heap p).id = (pool.heap p).id)

/-- A step that leaves the table alone, and creates no context. -/
theorem MgrMove.of_same {pool pool' : Pool} {pc pc' : PoolPc} (hmove : PoolMove pool pool' pc pc')
    (hnext : pool'.next = pool.next) (hmgr : pool'.mgr = pool.mgr)
    (hpc : ∀ after id, pc ≠ .remove after id) : MgrMove pool pool' pc pc' := by
  refine .same hmgr hpc fun p => ?_
  cases hmove with
  | quiet h =>
      obtain ⟨cb, sessionid, hheap⟩ := h.heap p
      rw [hheap]
  | ctx q h hother hqueue hlost hnext =>
      by_cases hq : p = q
      · subst hq
        exact h.id_eq
      · rw [hother p hq]
  | runPush q hpc hheap hnext hqueue => rw [hheap]
  | runPop q hpc hheap hnext hqueue hlost => rw [hheap]
  | create caller caller' id name hpc hpc' hcaller hrunning hheap hnext' hqueue hlost =>
      rw [hnext] at hnext'
      exact absurd hnext' (Nat.ne_of_lt (Nat.lt_succ_self _))

/-- Only a creation, a removal and `ctxMgrStop` touch the table. -/
def PoolPc.leavesTable : PoolPc → Bool
  | .user _ | .remove _ _ | .stopSlot _ => false
  | _ => true

theorem pool_table_same {pool pool' : Pool} {pc pc' : PoolPc} {e : PoolEvent}
    (hs : poolPcStep pool pc e = some (pool', pc')) (hpc : pc.leavesTable = true) :
    pool'.next = pool.next ∧ pool'.mgr = pool.mgr := by
  cases pc with
  | user _ | remove _ _ | stopSlot _ => cases hpc
  | sendGet caller ctx toId msg =>
      simp only [poolPcStep] at hs
      split at hs
      · cases hs
      · split at hs <;> (cases hs; exact ⟨rfl, rfl⟩)
  | sendSession caller ctx toctx msg => cases ctx <;> cases hs <;> exact ⟨rfl, rfl⟩
  | sendRun caller toctx | requeue ctx =>
      simp only [poolPcStep, Pool.runPush] at hs
      split at hs <;> (cases hs; exact ⟨rfl, rfl⟩)
  | sendSessionCas _ _ _ _ | sendPush _ _ _ | sendCas _ _ | runPop | dispatch _ | exitRelease _ _
  | giveUp _ | haveWork _ | num _ =>
      simp only [poolPcStep] at hs
      split at hs <;> (cases hs; exact ⟨rfl, rfl⟩)
  | dispatchMsg ctx msg pos =>
      simp only [poolPcStep] at hs
      split at hs
      · cases hs
        exact ⟨rfl, rfl⟩
      · split at hs <;> (cases hs; exact ⟨rfl, rfl⟩)
  | sleeping =>
      simp only [poolPcStep] at hs
      split at hs
      · cases hs
        exact ⟨rfl, rfl⟩
      · cases hs
  | done => cases hs
  | _ =>
      cases hs
      exact ⟨rfl, rfl⟩

theorem user_mgr {pool pool' : Pool} {caller : Caller} {pc' : PoolPc} {e : PoolEvent}
    (hs : userStep pool caller e = some (pool', pc')) : MgrMove pool pool' (.user caller) pc' := by
  have hmove := user_move hs
  cases e with
  | send own fromId toId session type data sz ud =>
      simp only [userStep] at hs
      split at hs <;> (cases hs; exact .of_same hmove rfl rfl (by rintro _ _ ⟨⟩))
  | create =>
      simp only [userStep] at hs
      split at hs
      · cases hs
      · simp only [createStep, Option.some.injEq] at hs
        split at hs
        · cases hs
          exact .same rfl (by rintro _ _ ⟨⟩) fun _ => rfl
        · rename_i mgr id found hadd
          have hids : ∀ ctx : Context, ctx.id = id →
              (fun p => (Function.update pool.heap pool.next ctx p).id) =
                Function.update (fun p => (pool.heap p).id) pool.next id := by
            intro ctx hid
            funext p
            by_cases hp : p = pool.next
            · rw [hp, Function.update_self, Function.update_self]
              exact hid
            · rw [Function.update_of_ne hp, Function.update_of_ne hp]
          split at hs <;> (cases hs; exact .add id found hadd (by rintro _ _ ⟨⟩) (hids _ rfl))
  | setCallback cb =>
      cases caller <;> cases hs <;> exact .of_same hmove rfl rfl (by rintro _ _ ⟨⟩)
  | stop | poolStop =>
      simp only [userStep] at hs
      split at hs
      · cases hs
        exact .of_same hmove rfl rfl (by rintro _ _ ⟨⟩)
      · cases hs
  | ret r =>
      cases caller with
      | outside => cases hs
      | callback ctx msg =>
          cases hs
          exact .of_same hmove rfl rfl (by rintro _ _ ⟨⟩)
      | init ctx id caller =>
          simp only [userStep] at hs
          split at hs <;> (cases hs; exact .of_same hmove rfl rfl (by rintro _ _ ⟨⟩))
  | _ => cases hs

theorem pool_mgr {pool pool' : Pool} {pc pc' : PoolPc} {e : PoolEvent}
    (hs : poolPcStep pool pc e = some (pool', pc')) : MgrMove pool pool' pc pc' := by
  have hmove := pool_move hs
  by_cases hleaves : pc.leavesTable = true
  · obtain ⟨hnext, hmgr⟩ := pool_table_same hs hleaves
    refine .of_same hmove hnext hmgr fun after id hpc => ?_
    rw [hpc] at hleaves
    cases hleaves
  · cases pc with
    | user caller => exact user_mgr hs
    | remove after id =>
        simp only [poolPcStep] at hs
        split at hs
        · cases hs
        · cases hs
          exact .remove after id rfl rfl rfl
    | stopSlot i =>
        simp only [poolPcStep] at hs
        split at hs
        · split at hs
          · cases hs
            exact .same rfl (by rintro _ _ ⟨⟩) fun _ => rfl
          · rename_i ctx hslot
            have hids : ∀ p, (Function.update pool.heap ctx
                (contextReleaseMgr (pool.heap ctx)).1 p).id = (pool.heap p).id := by
              intro p
              by_cases hp : p = ctx
              · rw [hp, Function.update_self]
                exact contextRelease_id _
              · rw [Function.update_of_ne hp]
            by_cases hnull : (contextReleaseMgr (pool.heap ctx)).2 = true
            · simp only [if_pos hnull, Option.some.injEq, Prod.mk.injEq] at hs
              obtain ⟨rfl, rfl⟩ := hs
              exact .stop i ctx rfl hslot rfl hids
            · simp only [if_neg hnull, Option.some.injEq, Prod.mk.injEq] at hs
              obtain ⟨rfl, rfl⟩ := hs
              exact .same rfl (by rintro _ _ ⟨⟩) hids
        · cases hs
          exact .same rfl (by rintro _ _ ⟨⟩) fun _ => rfl
    | _ => exact absurd rfl hleaves

-- ============================================================================
-- What holds in every reachable state
-- ============================================================================

section Reachable

variable {ι : Type} [DecidableEq ι] {workers : ι → Bool} {setsize : Nat}
  {c : Config ι Pool PoolThread}

theorem pool_held (h : Reachable (fire poolStep) (poolInit workers setsize) c) (p : Ptr)
    (hp : p < c.shared.next) : (c.shared.heap p).Held := by
  refine h.invariant (J := fun c : Config ι Pool PoolThread =>
    ∀ p, p < c.shared.next → (c.shared.heap p).Held)
    (fun p hp => absurd hp (Nat.not_lt_zero p)) (fun c a c' hc hf => ?_) p hp
  obtain ⟨pool', th', hs, rfl⟩ := fire_eq_some.mp hf
  exact (pool_move (pool_step hs).2.1).record (fun _ _ _ hheld => ⟨hheld.mgr_le, hheld.freed⟩)
    (fun _ _ _ hmove hheld => hmove.held hheld)
    (fun _ _ _ => ⟨Int.le_refl _, fun (hlow : (1 : Int) ≤ 0) => absurd hlow (by decide)⟩) hc

/-- Everyone is in their slot, and `contextNum` counts them. -/
theorem pool_table (hsize : 0 < setsize)
    (h : Reachable (fire poolStep) (poolInit workers setsize) c) :
    c.shared.mgr.Ok (fun p => (c.shared.heap p).id) ∧ c.shared.mgr.Counted := by
  have hboth := h.invariant (J := fun c : Config ι Pool PoolThread =>
    Reachable (fire poolStep) (poolInit workers setsize) c ∧
      c.shared.mgr.Ok (fun p => (c.shared.heap p).id) ∧ c.shared.mgr.Counted)
    ⟨Reachable.refl _, CtxMgr.Ok.create _ hsize, ?_⟩ fun c a c' hc hf => ⟨hc.1.tail hf, ?_⟩
  · exact hboth.2
  · have hnone : (ctxMgrCreate setsize).ptrs = [] := by
      refine List.eq_nil_iff_forall_not_mem.mpr fun p hp => ?_
      cases List.eq_of_mem_replicate (CtxMgr.mem_ptrs.mp hp)
    show (ctxMgrCreate setsize).contextNum = (ctxMgrCreate setsize).ptrs.toFinset.card
    rw [hnone]
    rfl
  · obtain ⟨pool', th', hs, rfl⟩ := fire_eq_some.mp hf
    obtain ⟨hr, hok, hnum⟩ := hc
    show pool'.mgr.Ok (fun p => (pool'.heap p).id) ∧ pool'.mgr.Counted
    cases pool_mgr (pool_step hs).2.1 with
    | same hmgr hpc hids =>
        rw [hmgr, funext hids]
        exact ⟨hok, hnum⟩
    | add id found hadd hpc hids =>
        have hnew : c.shared.next ∉ c.shared.mgr.ptrs :=
          fun hmem => Nat.lt_irrefl _ ((pool_bounded hr).1.table _ hmem)
        rw [hids]
        exact ⟨(ctxMgrAddContext_ok hok hnew hadd).1, hnum.add hok hnew hadd⟩
    | remove after id hpc hmgr hheap =>
        rw [hmgr, hheap]
        rcases ctxMgrRemoveContext_cases c.shared.mgr id with heq | ⟨q, hslot, heq⟩
        · rw [heq]
          exact ⟨hok, hnum⟩
        · rw [heq]
          exact ⟨(hok.clear hslot).1, hnum.clear hok hslot⟩
    | stop i p hpc hslot hmgr hids =>
        rw [hmgr, funext hids]
        exact ⟨(hok.clear hslot).1, hnum.clear hok hslot⟩

end Reachable

-- ============================================================================
-- EXIT
-- ============================================================================

section Exit

variable {ι : Type}

/-- An EXIT has been taken out of the queue of `p`. -/
def ExitTaken (pool : Pool) (p : Ptr) : Prop :=
  ∃ pos msg, (pool.heap p).accepted[pos]? = some msg ∧ msg.type = MSG_TYPE_EXIT_CONTEXT ∧
    pos < (pool.heap p).taken

/-- Nobody but the manager refers to `p`: neither the run queue nor a thread. -/
def Unreferenced (c : Config ι Pool PoolThread) (p : Ptr) : Prop :=
  p ∉ c.shared.queued ∧ ∀ i, p ∉ (c.pcs i).pc.tokens ++ (c.pcs i).pc.retained

/-- A removal from the table is under way. -/
def PoolPc.removing : PoolPc → Option Nat
  | .remove _ id => some id
  | _ => none

/-- An EXIT gets rid of the manager's reference, and a context that is freed of its
    place in the table. -/
structure ExitOk (c : Config ι Pool PoolThread) : Prop where
  /-- an EXIT out of the queue is being dispatched, or the manager's reference is gone -/
  dropped : ∀ p pos msg, (c.shared.heap p).accepted[pos]? = some msg →
    msg.type = MSG_TYPE_EXIT_CONTEXT → pos < (c.shared.heap p).taken →
    (c.shared.heap p).mgrRef ≤ 0 ∨
      ∃ i, (c.pcs i).pc = .dispatchMsg p msg pos ∨ (c.pcs i).pc = .exitRelease p msg
  /-- whoever has freed a context takes it out of the table -/
  removed : ∀ p ∈ c.shared.mgr.ptrs, (c.shared.heap p).freed = true →
    (c.shared.heap p).id < 2 ^ 31 ∧ ∃ i, (c.pcs i).pc.removing = some (c.shared.heap p).id

structure ExitWorks (c : Config ι Pool PoolThread) : Prop extends ExitOk c where
  /-- without the manager's reference, the context is freed with the last other one -/
  freed : ∀ p, p < c.shared.next → (c.shared.heap p).mgrRef ≤ 0 → Unreferenced c p →
    (c.shared.heap p).freed = true
  /-- `ctxMgrGetContextNum` comes down to 0 -/
  num : (∀ p ∈ c.shared.mgr.ptrs, ExitTaken c.shared p ∧ Unreferenced c p) →
    (∀ i, (c.pcs i).pc.removing = none) → c.shared.mgr.contextNum = 0

/-- The condition on a step: an EXIT is dispatched with a callback set, if the
    manager's reference is still there, and no context of the table with a number
    that is negative as an `int` is freed by a release. -/
def HonoursExit (c : Config ι Pool PoolThread) (a : ι × PoolEvent) : Prop :=
  match (c.pcs a.1).pc with
  | .dispatchMsg p msg _ => msg.type = MSG_TYPE_EXIT_CONTEXT →
      (c.shared.heap p).cb = true ∨ (c.shared.heap p).mgrRef ≤ 0
  | .release _ p => (c.shared.heap p).ref = 1 → p ∈ c.shared.mgr.ptrs → (c.shared.heap p).id < 2 ^ 31
  | _ => True

instance (c : Config ι Pool PoolThread) (a : ι × PoolEvent) : Decidable (HonoursExit c a) := by
  unfold HonoursExit
  split <;> infer_instance

variable [DecidableEq ι] [Fintype ι] {workers : ι → Bool} {setsize : Nat}
  {c : Config ι Pool PoolThread}

theorem ref_of_unreferenced (hr : Reachable (fire poolStep) (poolInit workers setsize) c) {p : Ptr}
    (h : Unreferenced c p) : (c.shared.heap p).ref = (c.shared.heap p).mgrRef := by
  have hrefs := pool_refs hr p
  have hzero : ∀ i, (c.pcs i).pc.refs p = 0 := by
    intro i
    obtain ⟨htokens, hretained⟩ := not_or.mp fun hmem => h.2 i (List.mem_append.mpr hmem)
    unfold PoolPc.refs
    rw [List.count_eq_zero.mpr htokens, List.count_eq_zero.mpr hretained]
    rfl
  rw [List.count_eq_zero.mpr h.1, Finset.sum_eq_zero fun i _ => hzero i] at hrefs
  omega

theorem ExitOk.works (hsize : 0 < setsize)
    (hr : Reachable (fire poolStep) (poolInit workers setsize) c) (h : ExitOk c) : ExitWorks c := by
  have hfreed : ∀ p, p < c.shared.next → (c.shared.heap p).mgrRef ≤ 0 → Unreferenced c p →
      (c.shared.heap p).freed = true := by
    intro p hp hmgr hnone
    refine (pool_held hr p hp).freed ?_
    rw [ref_of_unreferenced hr hnone]
    exact hmgr
  refine ⟨h, hfreed, fun hall hremoving => ?_⟩
  -- a context in the table would have been freed, and its removal would be under way
  have hempty : c.shared.mgr.ptrs = [] := by
    refine List.eq_nil_iff_forall_not_mem.mpr fun p hp => ?_
    obtain ⟨⟨pos, msg, hmsg, htype, hpos⟩, hnone⟩ := hall p hp
    have hmgr : (c.shared.heap p).mgrRef ≤ 0 := by
      rcases h.dropped p pos msg hmsg htype hpos with hmgr | ⟨i, hpc⟩
      · exact hmgr
      · refine absurd ?_ (hnone.2 i)
        rcases hpc with hpc | hpc <;> (rw [hpc]; simp [PoolPc.tokens])
    obtain ⟨-, i, hi⟩ := h.removed p hp (hfreed p ((pool_bounded hr).1.table p hp) hmgr hnone)
    rw [hremoving i] at hi
    cases hi
  rw [(pool_table hsize hr).2, hempty]
  rfl

-- ============================================================================
-- One step
-- ============================================================================

omit [DecidableEq ι] [Fintype ι] in
/-- An EXIT that is out of the queue after a step was so before, or the thread has
    just taken it. -/
theorem PoolMove.taken {pool pool' : Pool} {pc pc' : PoolPc} (h : PoolMove pool pool' pc pc')
    (hlogs : ∀ p, (pool.heap p).LogOk) (hunused : pool.Unused) {p : Ptr} {pos : Nat} {msg : Message}
    (hmsg : (pool'.heap p).accepted[pos]? = some msg) (hpos : pos < (pool'.heap p).taken) :
    ((pool.heap p).accepted[pos]? = some msg ∧ pos < (pool.heap p).taken ∧
      (pool'.heap p).mgrRef ≤ (pool.heap p).mgrRef) ∨ pc' = .dispatchMsg p msg pos := by
  have hsame : pool'.heap p = pool.heap p →
      (pool.heap p).accepted[pos]? = some msg ∧ pos < (pool.heap p).taken ∧
        (pool'.heap p).mgrRef ≤ (pool.heap p).mgrRef := by
    intro heq
    rw [heq] at hmsg hpos ⊢
    exact ⟨hmsg, hpos, Int.le_refl _⟩
  cases h with
  | quiet h =>
      obtain ⟨cb, sessionid, hheap⟩ := h.heap p
      rw [hheap] at hmsg hpos ⊢
      exact Or.inl ⟨hmsg, hpos, Int.le_refl _⟩
  | ctx q h hother hqueue hlost hnext =>
      by_cases hq : p = q
      · subst hq
        exact h.taken (hlogs p) hmsg hpos
      · exact Or.inl (hsame (hother p hq))
  | runPush q hpc hheap hnext hqueue => exact Or.inl (hsame (by rw [hheap]))
  | runPop q hpc hheap hnext hqueue hlost => exact Or.inl (hsame (by rw [hheap]))
  | create caller caller' id name hpc hpc' hcaller hrunning hheap hnext hqueue hlost =>
      by_cases hq : p = pool.next
      · have htaken := (hunused pool.next (Nat.le_refl _)).2.1
        rw [hheap, hq, Function.update_self] at hpos
        change pos < (pool.heap pool.next).taken at hpos
        rw [htaken] at hpos
        exact absurd hpos (Nat.not_lt_zero pos)
      · exact Or.inl (hsame (by rw [hheap, Function.update_of_ne hq]))

omit [DecidableEq ι] [Fintype ι] in
/-- A thread that is dispatching the EXIT goes on to give the reference up. -/
theorem HonoursExit.dispatching {a : ι × PoolEvent} {pool' : Pool} {pc' : PoolPc} {p : Ptr}
    {msg : Message} {pos : Nat} (hok : HonoursExit c a)
    (hstep : poolPcStep c.shared (c.pcs a.1).pc a.2 = some (pool', pc'))
    (habort : pool'.aborted = none) (hheld : (c.shared.heap p).mgrRef ≤ 1)
    (htype : msg.type = MSG_TYPE_EXIT_CONTEXT)
    (hpc : (c.pcs a.1).pc = .dispatchMsg p msg pos ∨ (c.pcs a.1).pc = .exitRelease p msg) :
    (pool'.heap p).mgrRef ≤ 0 ∨ pc' = .exitRelease p msg := by
  rcases hpc with hpc | hpc
  · simp only [HonoursExit, hpc] at hok
    rw [hpc] at hstep
    simp only [poolPcStep, if_pos htype] at hstep
    split at hstep
    · rename_i hcb
      cases hstep
      rcases hok htype with hset | hmgr
      · rw [hcb] at hset
        cases hset
      · exact Or.inl hmgr
    · cases hstep
      exact Or.inr rfl
  · rw [hpc] at hstep
    simp only [poolPcStep] at hstep
    split at hstep
    · cases hstep
      cases habort
    · simp only [Option.some.injEq, Prod.mk.injEq] at hstep
      obtain ⟨rfl, -⟩ := hstep
      refine Or.inl ?_
      show ((c.shared.set p (contextReleaseMgr (c.shared.heap p)).1).heap p).mgrRef ≤ 0
      rw [Pool.set_heap, contextReleaseMgr, contextRelease_mgrRef]
      simp only
      omega

omit [DecidableEq ι] [Fintype ι] in
/-- A context that a step has freed has left the table, or the thread goes on to
    remove it. -/
theorem CtxMove.freeing {pool pool' : Pool} {pc pc' : PoolPc} {e : PoolEvent} {p : Ptr}
    (h : CtxMove p pc (pool.heap p) pc' (pool'.heap p))
    (hstep : poolPcStep pool pc e = some (pool', pc')) (habort : pool'.aborted = none)
    (hfreed : (pool.heap p).freed = false) (hfreed' : (pool'.heap p).freed = true) :
    ((∃ after, pc = .release after p) ∧ (pool.heap p).ref = 1 ∧ pool'.mgr = pool.mgr ∧
      pc'.removing = some (pool.heap p).id) ∨
    ∃ i, (pool.mgr.contexts[i]?).join = some p ∧ pool'.mgr = pool.mgr.clear i := by
  have hcases : (∃ after, pc = .release after p) ∨ (∃ i, pc = .stopSlot i) ∨
      ∃ msg, pc = .exitRelease p msg := by
    generalize pool.heap p = ctx at h hfreed
    generalize pool'.heap p = ctx' at h hfreed'
    cases h with
    | release after pc' ctx hpc' => exact Or.inl ⟨after, rfl⟩
    | stop i ctx => exact Or.inr (Or.inl ⟨i, rfl⟩)
    | exit msg ctx => exact Or.inr (Or.inr ⟨msg, rfl⟩)
    | _ => exact absurd (hfreed.symm.trans hfreed') Bool.false_ne_true
  rcases hcases with ⟨after, rfl⟩ | ⟨i, rfl⟩ | ⟨msg, rfl⟩
  · simp only [poolPcStep, Option.some.injEq, Prod.mk.injEq] at hstep
    obtain ⟨rfl, rfl⟩ := hstep
    rw [Pool.set_heap, contextRelease_freed, hfreed] at hfreed'
    have hone : (pool.heap p).ref = 1 := hfreed'.resolve_left Bool.false_ne_true
    refine Or.inl ⟨⟨after, rfl⟩, hone, rfl, ?_⟩
    rw [if_pos ((contextRelease_null _).mpr hone)]
    rfl
  · have hne : pool'.heap p ≠ pool.heap p := by
      intro heq
      rw [heq, hfreed] at hfreed'
      cases hfreed'
    obtain ⟨hi, hslot⟩ := (pool_source hstep).stop i p rfl hne
    refine Or.inr ⟨i, hslot, ?_⟩
    simp only [poolPcStep, if_pos hi, hslot, Option.some.injEq, Prod.mk.injEq] at hstep
    obtain ⟨rfl, -⟩ := hstep
    change ((pool.set p (contextReleaseMgr (pool.heap p)).1).heap p).freed = true at hfreed'
    rw [Pool.set_heap, contextReleaseMgr, contextRelease_freed] at hfreed'
    have hnull : (contextReleaseMgr (pool.heap p)).2 = true := by
      refine (contextRelease_null _).mpr (hfreed'.resolve_left ?_)
      rw [hfreed]
      exact Bool.false_ne_true
    show (if _ then _ else _) = _
    rw [if_pos hnull]
    rfl
  · simp only [poolPcStep] at hstep
    split at hstep
    · cases hstep
      cases habort
    · rename_i hnull
      simp only [Option.some.injEq, Prod.mk.injEq] at hstep
      obtain ⟨rfl, -⟩ := hstep
      change ((pool.set p (contextReleaseMgr (pool.heap p)).1).heap p).freed = true at hfreed'
      rw [Pool.set_heap, contextReleaseMgr, contextRelease_freed] at hfreed'
      refine absurd ((contextRelease_null _).mpr (hfreed'.resolve_left ?_)) hnull
      rw [hfreed]
      exact Bool.false_ne_true

omit [Fintype ι] in
/-- What is in the table after a step was there before, or is new. -/
theorem mem_table_before {pool' : Pool} {pc' : PoolPc} {a : ι × PoolEvent}
    (hr : Reachable (fire poolStep) (poolInit workers setsize) c)
    (hstep : poolPcStep c.shared (c.pcs a.1).pc a.2 = some (pool', pc')) {p : Ptr}
    (hp : p ∈ pool'.mgr.ptrs) (hfreed : (pool'.heap p).freed = true) :
    p ∈ c.shared.mgr.ptrs ∧ (pool'.heap p).id = (c.shared.heap p).id := by
  have hsrc := pool_source hstep
  obtain ⟨hJ, hL⟩ := pool_bounded hr
  have hlt : p < c.shared.next → (pool'.heap p).id = (c.shared.heap p).id := by
    intro hlt
    cases pool_mgr hstep with
    | same hmgr hpc hids => exact hids p
    | add id found hadd hpc hids =>
        have hid := congrFun hids p
        rw [Function.update_of_ne (Nat.ne_of_lt hlt)] at hid
        exact hid
    | remove after id hpc hmgr hheap => rw [hheap]
    | stop i q hpc hslot hmgr hids => exact hids p
  rcases hsrc.table p hp with hold | ⟨rfl, hnext⟩
  · exact ⟨hold, hlt (hJ.table p hold)⟩
  · -- a context just created has not been freed
    have hfresh := ((pool_unused hr) _ (Nat.le_refl _)).2.2
    cases pool_move hstep with
    | create caller caller' id name hpc hpc' hcaller hrunning hheap hnext' hqueue hlost =>
        rw [hheap, Function.update_self] at hfreed
        exact absurd (hfresh.symm.trans hfreed) Bool.false_ne_true
    | quiet h => exact absurd (h.next ▸ hnext) (Nat.ne_of_lt (Nat.lt_succ_self _))
    | ctx q h hother hqueue hlost hnext' =>
        exact absurd (hnext' ▸ hnext) (Nat.ne_of_lt (Nat.lt_succ_self _))
    | runPush q hpc hheap hnext' hqueue =>
        exact absurd (hnext' ▸ hnext) (Nat.ne_of_lt (Nat.lt_succ_self _))
    | runPop q hpc hheap hnext' hqueue hlost =>
        exact absurd (hnext' ▸ hnext) (Nat.ne_of_lt (Nat.lt_succ_self _))

omit [Fintype ι] in
/-- A context of the table that is freed after a step was so before, or the thread
    has just released it and goes on to remove it. -/
theorem freed_before {pool' : Pool} {pc' : PoolPc} {a : ι × PoolEvent} (hsize : 0 < setsize)
    (hr : Reachable (fire poolStep) (poolInit workers setsize) c)
    (hstep : poolPcStep c.shared (c.pcs a.1).pc a.2 = some (pool', pc'))
    (habort : pool'.aborted = none) {p : Ptr} (hp : p ∈ pool'.mgr.ptrs)
    (hmem : p ∈ c.shared.mgr.ptrs) (hfreed : (pool'.heap p).freed = true) :
    (c.shared.heap p).freed = true ∨ ((∃ after, (c.pcs a.1).pc = .release after p) ∧
      (c.shared.heap p).ref = 1 ∧ pc'.removing = some (c.shared.heap p).id) := by
  by_cases hold : (c.shared.heap p).freed = true
  · exact Or.inl hold
  · have hctx : CtxMove p (c.pcs a.1).pc (c.shared.heap p) pc' (pool'.heap p) := by
      cases pool_move hstep with
      | quiet h =>
          obtain ⟨cb, sessionid, hheap⟩ := h.heap p
          rw [hheap] at hfreed
          exact absurd hfreed hold
      | ctx q h hother hqueue hlost hnext =>
          by_cases hq : p = q
          · subst hq
            exact h
          · rw [hother p hq] at hfreed
            exact absurd hfreed hold
      | runPush q hpc hheap hnext hqueue =>
          rw [hheap] at hfreed
          exact absurd hfreed hold
      | runPop q hpc hheap hnext hqueue hlost =>
          rw [hheap] at hfreed
          exact absurd hfreed hold
      | create caller caller' id name hpc hpc' hcaller hrunning hheap hnext hqueue hlost =>
          have hlt := (pool_bounded hr).1.table p hmem
          rw [hheap, Function.update_of_ne (Nat.ne_of_lt hlt)] at hfreed
          exact absurd hfreed hold
    rcases hctx.freeing hstep habort (Bool.eq_false_iff.mpr hold) hfreed with
      ⟨hpc, hone, -, hremoving⟩ | ⟨i, hslot, hmgr⟩
    · exact Or.inr ⟨hpc, hone, hremoving⟩
    · rw [hmgr] at hp
      exact absurd rfl (((pool_table hsize hr).1.clear hslot).2 p |>.mp hp).2

theorem ExitOk.step_dropped {c' : Config ι Pool PoolThread} {a : ι × PoolEvent}
    (hr : Reachable (fire poolStep) (poolInit workers setsize) c) (h : ExitOk c)
    (hf : fire poolStep c a = some c') (hok : HonoursExit c a)
    (habort : c'.shared.aborted = none) {p : Ptr} {pos : Nat} {msg : Message}
    (hmsg : (c'.shared.heap p).accepted[pos]? = some msg)
    (htype : msg.type = MSG_TYPE_EXIT_CONTEXT) (hpos : pos < (c'.shared.heap p).taken) :
    (c'.shared.heap p).mgrRef ≤ 0 ∨
      ∃ i, (c'.pcs i).pc = .dispatchMsg p msg pos ∨ (c'.pcs i).pc = .exitRelease p msg := by
  obtain ⟨pool', th', hs, rfl⟩ := fire_eq_some.mp hf
  have hstep := (pool_step hs).2.1
  have hself : (Function.update c.pcs a.1 th' a.1).pc = th'.pc := by rw [Function.update_self]
  rcases (pool_move hstep).taken (pool_logs hr).1 (pool_unused hr) hmsg hpos with
    ⟨hmsg, hpos, hmgr⟩ | hnew
  · rcases h.dropped p pos msg hmsg htype hpos with hdropped | ⟨i, hpc⟩
    · exact Or.inl (Int.le_trans hmgr hdropped)
    · by_cases hi : i = a.1
      · subst hi
        have hlt : p < c.shared.next := by
          refine (pool_bounded hr).2 a.1 p ?_
          rcases hpc with hpc | hpc <;> (rw [hpc]; simp [PoolPc.ptrs, PoolPc.tokens])
        rcases hok.dispatching hstep habort (pool_held hr p hlt).mgr_le htype hpc with hdone | hnext
        · exact Or.inl hdone
        · exact Or.inr ⟨a.1, Or.inr (hself.trans hnext)⟩
      · refine Or.inr ⟨i, ?_⟩
        show (Function.update c.pcs a.1 th' i).pc = _ ∨ (Function.update c.pcs a.1 th' i).pc = _
        rw [Function.update_of_ne hi]
        exact hpc
  · exact Or.inr ⟨a.1, Or.inl (hself.trans hnew)⟩

omit [Fintype ι] in
theorem ExitOk.step_removed {c' : Config ι Pool PoolThread} {a : ι × PoolEvent}
    (hsize : 0 < setsize) (hr : Reachable (fire poolStep) (poolInit workers setsize) c)
    (h : ExitOk c) (hf : fire poolStep c a = some c') (hok : HonoursExit c a)
    (habort : c'.shared.aborted = none) {p : Ptr} (hp : p ∈ c'.shared.mgr.ptrs)
    (hfreed : (c'.shared.heap p).freed = true) :
    (c'.shared.heap p).id < 2 ^ 31 ∧ ∃ i, (c'.pcs i).pc.removing = some (c'.shared.heap p).id := by
  obtain ⟨pool', th', hs, rfl⟩ := fire_eq_some.mp hf
  have hstep := (pool_step hs).2.1
  have hself : (Function.update c.pcs a.1 th' a.1).pc = th'.pc := by rw [Function.update_self]
  obtain ⟨hmem, hid⟩ := mem_table_before hr hstep hp hfreed
  show (pool'.heap p).id < 2 ^ 31 ∧ ∃ i, _ = some (pool'.heap p).id
  rw [hid]
  rcases freed_before hsize hr hstep habort hp hmem hfreed with hold | ⟨⟨after, hpc⟩, hone, hnext⟩
  · obtain ⟨hsmall, i, hi⟩ := h.removed p hmem hold
    refine ⟨hsmall, i, ?_⟩
    by_cases hia : i = a.1
    · -- the removal has taken `p` out of the table
      subst hia
      exfalso
      cases hpc : (c.pcs a.1).pc with
      | remove after id =>
          rw [hpc] at hi hstep
          obtain rfl : id = (c.shared.heap p).id := Option.some.inj hi
          have hgone := (ctxMgrRemoveContext_ok (pool_table hsize hr).1 hmem hsmall).2 p
          cases pool_mgr hstep with
          | same _ hne _ => exact hne _ _ rfl
          | add _ _ _ hne _ => exact hne _ _ rfl
          | stop i q hne _ _ _ => cases hne
          | remove after' id' hpc' hmgr hheap =>
              cases hpc'
              exact (hgone.mp (hmgr ▸ hp)).2 rfl
      | _ =>
          rw [hpc] at hi
          cases hi
    · show (Function.update c.pcs a.1 th' i).pc.removing = _
      rw [Function.update_of_ne hia]
      exact hi
  · simp only [HonoursExit, hpc] at hok
    exact ⟨hok hone hmem, a.1, (congrArg PoolPc.removing hself).trans hnext⟩

/-- A step that does not meet the condition breaks one of the two promises at once. -/
theorem honoursExit_of_exitOk {c' : Config ι Pool PoolThread} {a : ι × PoolEvent}
    (hr : Reachable (fire poolStep) (poolInit workers setsize) c)
    (hf : fire poolStep c a = some c') (hP : c'.shared.aborted = none → ExitOk c') :
    HonoursExit c a := by
  obtain ⟨pool', th', hs, rfl⟩ := fire_eq_some.mp hf
  obtain ⟨hrunning, hstep, -⟩ := pool_step hs
  have hself : (Function.update c.pcs a.1 th' a.1).pc = th'.pc := by rw [Function.update_self]
  unfold HonoursExit
  cases hpc : (c.pcs a.1).pc with
  | dispatchMsg p msg pos =>
      intro htype
      by_contra hnot
      obtain ⟨hcb, hmgr⟩ := not_or.mp hnot
      have hpopped := ((pool_logs hr).2 a.1).popped p msg pos (by rw [hpc]; rfl)
      rw [hpc] at hstep
      simp only [poolPcStep, if_pos (Bool.eq_false_iff.mpr hcb), Option.some.injEq,
        Prod.mk.injEq] at hstep
      obtain ⟨rfl, hpc'⟩ := hstep
      have htoken : p ∈ (c.pcs a.1).pc.tokens := by
        rw [hpc]
        exact List.mem_singleton_self p
      rcases (hP hrunning).dropped p pos msg hpopped.2.1 htype (by
        show pos < (c.shared.heap p).taken
        omega) with hdropped | ⟨i, hi⟩
      · exact hmgr hdropped
      · -- nobody else dispatches a message of `p`
        by_cases hia : i = a.1
        · subst hia
          simp only [hself, ← hpc'] at hi
          rcases hi with hi | hi <;> cases hi
        · refine pool_tokens_apart hr hia ?_ htoken
          simp only [Function.update_of_ne hia] at hi
          rcases hi with hi | hi <;> (rw [hi]; exact List.mem_singleton_self p)
  | release after p =>
      intro hone hmem
      rw [hpc] at hstep
      simp only [poolPcStep, Option.some.injEq, Prod.mk.injEq] at hstep
      obtain ⟨rfl, -⟩ := hstep
      have hfreed : ((c.shared.set p (contextRelease (c.shared.heap p)).1).heap p).freed = true := by
        rw [Pool.set_heap, contextRelease_freed]
        exact Or.inr hone
      have hsmall := ((hP hrunning).removed p hmem hfreed).1
      simp only [Pool.set_heap, contextRelease_id] at hsmall
      exact hsmall
  | _ => trivial

-- ============================================================================
-- Runs
-- ============================================================================

/-- EXIT works in every state of a run exactly when every step meets the condition. -/
theorem exit_works_iff (workers : ι → Bool) {setsize : Nat} (hsize : 0 < setsize)
    (as : List (ι × PoolEvent)) :
    Always (fire poolStep) (fun c => c.shared.aborted = none → ExitWorks c)
        (poolInit workers setsize) as ↔
      AllSteps (fire poolStep) HonoursExit (poolInit workers setsize) as := by
  refine always_iff_allSteps (J := fun c : Config ι Pool PoolThread =>
    Reachable (fire poolStep) (poolInit workers setsize) c ∧
      (c.shared.aborted = none → ExitOk c))
    (fun c h habort => (h.2 habort).works hsize h.1) (fun c a c' h hf hok => ⟨h.1.tail hf,
      fun habort => ?_⟩)
    (fun c a c' h hf hP => honoursExit_of_exitOk h.1 hf fun habort => (hP habort).toExitOk)
    ⟨Reachable.refl _, fun _ => ⟨fun p pos msg hmsg => ?_, fun p hp => ?_⟩⟩
  · obtain ⟨pool', th', hs, -⟩ := fire_eq_some.mp hf
    have hbefore := h.2 (pool_step hs).1
    exact ⟨fun p pos msg hmsg htype hpos => hbefore.step_dropped h.1 hf hok habort hmsg htype hpos,
      fun p hp hfreed => hbefore.step_removed hsize h.1 hf hok habort hp hfreed⟩
  · cases hmsg
  · cases List.eq_of_mem_replicate (CtxMgr.mem_ptrs.mp hp)

/-- Thread 1 creates a service, whose callback (on worker 0) takes itself off and sends
    EXIT to its own context, as `_launch` does when the loader fails. -/
def failedLaunch : List (Fin 2 × PoolEvent) :=
  [(1, .create), (1, .setCallback true), (1, .send true 0 1 0 0 (some 9) 5 0)] ++
    List.replicate 5 (1, .go) ++ [(1, .ret 0)] ++ List.replicate 3 (0, .go) ++
    [(0, .setCallback false), (0, .send true 0 1 0 MSG_TYPE_EXIT_CONTEXT none 0 0)] ++
    List.replicate 7 (0, .go) ++ [(0, .ret 0)] ++ List.replicate 5 (0, .go)

/-- The same with the callback left alone. -/
def plainLaunch : List (Fin 2 × PoolEvent) :=
  failedLaunch.filter (fun a => a ≠ (0, .setCallback false)) ++ [(0, .go), (0, .go)]

theorem exit_works_plainLaunch :
    Always (fire poolStep) (fun c => c.shared.aborted = none → ExitWorks c)
      (poolInit (fun i => i = 0) 4) plainLaunch ∧
    ∃ c, runFrom (fire poolStep) (poolInit (fun i : Fin 2 => i = 0) 4) plainLaunch = some c ∧
      (c.shared.heap 0).freed = true ∧ c.shared.mgr.contextNum = 0 := by
  have hsize : 0 < 4 := by decide
  exact ⟨(exit_works_iff (fun i => i = 0) hsize plainLaunch).mpr (by decide +kernel),
    _, rfl, rfl, rfl⟩

/-- The EXIT is dropped, and the manager keeps its reference. -/
theorem exit_dropped :
    ¬ ∀ (ι : Type) [DecidableEq ι] [Fintype ι] (workers : ι → Bool) (setsize : Nat),
      0 < setsize → ∀ as : List (ι × PoolEvent),
      Always (fire poolStep) (fun c => c.shared.aborted = none → ExitWorks c)
        (poolInit workers setsize) as := by
  intro h
  have hrun : ∃ c, runFrom (fire poolStep) (poolInit (fun i => i = 0) 4) failedLaunch = some c ∧
      c.shared.aborted = none ∧ (∃ msg, (c.shared.heap 0).accepted[1]? = some msg ∧
        msg.type = MSG_TYPE_EXIT_CONTEXT) ∧ (c.shared.heap 0).taken = 2 ∧
      (c.shared.heap 0).mgrRef = 1 ∧ (c.pcs 0).pc = .num true ∧ (c.pcs 1).pc = .user .outside :=
    ⟨_, rfl, rfl, ⟨_, rfl, rfl⟩, rfl, rfl, rfl, rfl⟩
  obtain ⟨c, hc, habort, ⟨msg, hmsg, htype⟩, htaken, hmgr, hworker, hsender⟩ := hrun
  have hworks := (h (Fin 2) (fun i => i = 0) 4 (by decide) failedLaunch).last hc habort
  rcases hworks.dropped 0 1 msg hmsg htype (by rw [htaken]; decide) with hdropped | ⟨i, hi⟩
  · rw [hmgr] at hdropped
    exact absurd hdropped (by decide)
  · match i with
    | 0 => rw [hworker] at hi; rcases hi with hi | hi <;> cases hi
    | 1 => rw [hsender] at hi; rcases hi with hi | hi <;> cases hi

end Exit

end ZServer
