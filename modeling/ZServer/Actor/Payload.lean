/-
  ZServer.Actor.Payload

  Who owns the payloads.  A payload that has been handed to `workerPoolSend` is in
  the hands of a thread, or in the queue of a context that has not been freed, or
  has been freed; `ledgerStep` is the pool with the list of what has been handed.

  What the steps do to the payloads is an account: `PoolPc.forgotten` is the only
  one that no step frees and nobody holds.  The account of a queue ends with the
  context, as `messageQueueRelease` frees the array and not what the messages in
  it point to.
-/

import Mathlib.Algebra.BigOperators.Ring.Finset
import ZServer.Actor.RefCount

namespace ZServer

open Lib

-- ============================================================================
-- The ledger
-- ============================================================================

/-- The pool, with the payloads handed to `workerPoolSend` so far. -/
structure Ledger where
  pool : Pool
  handed : List Nat

/-- The payload that a call of `workerPoolSend` hands over. -/
def PoolPc.handed (pc : PoolPc) (e : PoolEvent) : List Nat :=
  match pc, e with
  | .user _, .send _ _ _ _ _ data _ _ => data.toList
  | _, _ => []

def ledgerStep (ledger : Ledger) (th : PoolThread) (e : PoolEvent) : Option (Ledger × PoolThread) :=
  (poolStep ledger.pool th e).map fun r => (⟨r.1, ledger.handed ++ th.pc.handed e⟩, r.2)

def ledgerInit {ι : Type} (workers : ι → Bool) (setsize : Nat) : Config ι Ledger PoolThread where
  shared := ⟨(poolInit workers setsize).shared, []⟩
  pcs := (poolInit workers setsize).pcs

-- ============================================================================
-- Where a payload can be
-- ============================================================================

def Message.payload (msg : Message) : List Nat := msg.data.toList

/-- The payload of the message whose callback a piece of user code belongs to. -/
def Caller.inHand : Caller → List Nat
  | .outside => []
  | .callback _ msg => msg.payload
  | .init _ _ caller => caller.inHand

def After.inHand : After → List Nat
  | .user caller => caller.inHand
  | .worker => []

/-- The payloads in the hands of a thread: what it is sending, and what it is
    dispatching. -/
def PoolPc.inHand : PoolPc → List Nat
  | .user caller | .sendCas caller _ | .sendRun caller _ => caller.inHand
  | .sendGet caller _ _ msg | .sendRetain caller _ _ msg | .sendSession caller _ _ msg
  | .sendSessionCas caller _ _ msg | .sendSessionRead caller _ _ msg | .sendPush caller _ msg =>
      msg.payload ++ caller.inHand
  | .release after _ | .remove after _ => after.inHand
  | .dispatchMsg _ msg _ | .exitRelease _ msg => msg.payload
  | _ => []

/-- The payloads in the queue of a context. -/
def Context.cargo (ctx : Context) : List Nat := ctx.queue.flatMap Message.payload

/-- How often `d` is in the queues of the contexts that have not been freed. -/
def Pool.stored (pool : Pool) (d : Nat) : ℕ :=
  ∑ p ∈ Finset.range pool.next,
    if (pool.heap p).freed = true then 0 else (pool.heap p).cargo.count d

/-- Each payload has been freed once, or is in the hands of a thread, or in the
    queue of a context that has not been freed. -/
def PayloadsOwned {ι : Type} [Fintype ι] (c : Config ι Ledger PoolThread) : Prop :=
  c.shared.pool.aborted = none → ∀ d, c.shared.handed.count d =
    c.shared.pool.zfreed.count d + ∑ i, (c.pcs i).pc.inHand.count d + c.shared.pool.stored d

/-- The condition on a step: a payload is not sent to 0, nor pushed to a context
    that has been freed already, and no context is freed with a payload in its
    queue. -/
def KeepsPayloads {ι : Type} (c : Config ι Ledger PoolThread) (a : ι × PoolEvent) : Prop :=
  match (c.pcs a.1).pc with
  | .user _ =>
      match a.2 with
      | .send _ _ toId _ _ data _ _ => toId = 0 → data = none
      | _ => True
  | .sendPush _ toctx msg =>
      (c.shared.pool.heap toctx).queue.length < queueRoom ∧ a.2 ≠ .full →
        (c.shared.pool.heap toctx).freed = true → msg.data = none
  | .release _ ctx => (c.shared.pool.heap ctx).ref = 1 → (c.shared.pool.heap ctx).cargo = []
  | .stopSlot i => ∀ ctx, i < c.shared.pool.mgr.setsize →
      (c.shared.pool.mgr.contexts[i]?).join = some ctx →
      (c.shared.pool.heap ctx).ref = 1 → (c.shared.pool.heap ctx).cargo = []
  | _ => True

-- ============================================================================
-- The hands of one thread
-- ============================================================================

/-- The payload that a step puts into a queue. -/
def PoolPc.put (pc pc' : PoolPc) : List Nat :=
  match pc, pc' with
  | .sendPush _ _ msg, .sendCas _ _ => msg.payload
  | _, _ => []

/-- The payload that a step has taken out of a queue. -/
def PoolPc.took : PoolPc → List Nat
  | .dispatchMsg _ msg _ => msg.payload
  | _ => []

/-- The payload that `workerPoolSend` returns without having freed. -/
def PoolPc.forgotten (pc : PoolPc) (e : PoolEvent) : List Nat :=
  match pc, e with
  | .user _, .send _ _ toId _ _ data _ _ => if toId = 0 then data.toList else []
  | _, _ => []

@[simp] theorem Pool.set_zfreed (pool : Pool) (p : Ptr) (ctx : Context) :
    (pool.set p ctx).zfreed = pool.zfreed := rfl

@[simp] theorem Pool.zfree_zfreed (pool : Pool) (data : Option Nat) :
    (pool.zfree data).zfreed = pool.zfreed ++ data.toList := rfl

@[simp] theorem Pool.runPush_zfreed (pool : Pool) (p : Ptr) (e : PoolEvent) :
    (pool.runPush p e).zfreed = pool.zfreed := by
  unfold Pool.runPush
  split <;> rfl

@[simp] theorem After.pc_inHand (after : After) : after.pc.inHand = after.inHand := by
  cases after <;> rfl

/-- Payloads come into the hands of a thread with a call of `workerPoolSend` or out
    of a queue, and leave them into a queue or to `zfree`. -/
def Handles (pool pool' : Pool) (pc pc' : PoolPc) (e : PoolEvent) : Prop :=
  pool'.aborted = none → ∀ d,
    pool'.zfreed.count d + pc'.inHand.count d + (pc.put pc').count d + (pc.forgotten e).count d =
      pool.zfreed.count d + pc.inHand.count d + pc'.took.count d + (pc.handed e).count d

/-- A step that hands nothing on. -/
theorem Handles.of_same {pool pool' : Pool} {pc pc' : PoolPc} {e : PoolEvent}
    (hzfreed : pool'.zfreed = pool.zfreed) (hhand : pc'.inHand = pc.inHand)
    (hput : pc.put pc' = []) (htook : pc'.took = [])
    (hforgotten : pc.forgotten e = []) (hhanded : pc.handed e = []) :
    Handles pool pool' pc pc' e := by
  intro _ d
  rw [hzfreed, hhand, hput, htook, hforgotten, hhanded]

theorem user_handles {pool pool' : Pool} {caller : Caller} {pc' : PoolPc} {e : PoolEvent}
    (hs : userStep pool caller e = some (pool', pc')) : Handles pool pool' (.user caller) pc' e := by
  cases e with
  | send own fromId toId session type data sz ud =>
      simp only [userStep] at hs
      intro _ d
      split at hs
      · rename_i hzero
        cases hs
        simp only [PoolPc.inHand, PoolPc.put, PoolPc.forgotten, if_pos hzero, PoolPc.took,
          PoolPc.handed, List.count_nil]
      · rename_i hzero
        cases hs
        simp only [PoolPc.inHand, PoolPc.put, PoolPc.forgotten, if_neg hzero, PoolPc.took,
          PoolPc.handed, Message.payload, List.count_nil, List.count_append]
        omega
  | create =>
      simp only [userStep] at hs
      split at hs
      · cases hs
      · simp only [createStep, Option.some.injEq] at hs
        split at hs
        · cases hs
          exact .of_same rfl rfl rfl rfl rfl rfl
        · split at hs <;> (cases hs; exact .of_same rfl rfl rfl rfl rfl rfl)
  | setCallback cb => cases caller <;> cases hs <;> exact .of_same rfl rfl rfl rfl rfl rfl
  | stop =>
      simp only [userStep] at hs
      split at hs
      · rename_i h
        cases hs
        exact .of_same rfl (by rw [h.1]; rfl) rfl rfl rfl rfl
      · cases hs
  | poolStop =>
      simp only [userStep] at hs
      split at hs
      · cases hs
        exact .of_same rfl rfl rfl rfl rfl rfl
      · cases hs
  | ret r =>
      cases caller with
      | outside => cases hs
      | callback ctx msg =>
          cases hs
          intro _ d
          simp only [Pool.zfree_zfreed, PoolPc.inHand, Caller.inHand, PoolPc.put, PoolPc.forgotten,
            PoolPc.took, PoolPc.handed, Message.payload, List.count_nil, List.count_append]
      | init ctx id caller =>
          simp only [userStep] at hs
          split at hs <;> (cases hs; exact .of_same rfl rfl rfl rfl rfl rfl)
  | _ => cases hs

theorem pool_handles {pool pool' : Pool} {pc pc' : PoolPc} {e : PoolEvent}
    (hs : poolPcStep pool pc e = some (pool', pc')) : Handles pool pool' pc pc' e := by
  have hfree : ∀ (pool : Pool) (msg : Message) (caller : List Nat) (d : Nat),
      (pool.zfree msg.data).zfreed.count d + caller.count d =
        pool.zfreed.count d + (msg.payload ++ caller).count d := by
    intro pool msg caller d
    simp only [Pool.zfree_zfreed, Message.payload, List.count_append]
    omega
  cases pc with
  | user caller => exact user_handles hs
  | sendGet caller ctx toId msg =>
      simp only [poolPcStep] at hs
      split at hs
      · cases hs
      · split at hs
        · cases hs
          exact fun _ d => hfree _ _ _ d
        · cases hs
          exact .of_same rfl rfl rfl rfl rfl rfl
  | sendRetain caller ctx toctx msg =>
      cases hs
      split <;> exact .of_same rfl rfl rfl rfl rfl rfl
  | sendSession caller ctx toctx msg =>
      cases ctx <;> cases hs <;> exact .of_same rfl rfl rfl rfl rfl rfl
  | sendSessionCas caller ctx toctx msg =>
      simp only [poolPcStep] at hs
      split at hs <;> (cases hs; exact .of_same rfl rfl rfl rfl rfl rfl)
  | sendSessionRead caller ctx toctx msg =>
      cases hs
      exact .of_same rfl rfl rfl rfl rfl rfl
  | sendPush caller toctx msg =>
      simp only [poolPcStep] at hs
      split at hs
      · cases hs
        intro _ d
        simp only [Pool.set_zfreed, PoolPc.inHand, PoolPc.put, PoolPc.forgotten, PoolPc.took,
          PoolPc.handed, List.count_nil, List.count_append]
        omega
      · cases hs
        exact .of_same rfl rfl rfl rfl rfl rfl
  | sendCas caller toctx =>
      simp only [poolPcStep] at hs
      split at hs <;> (cases hs; exact .of_same rfl rfl rfl rfl rfl rfl)
  | sendRun caller toctx =>
      cases hs
      exact .of_same (by rw [Pool.runPush_zfreed]) rfl rfl rfl rfl rfl
  | release after ctx =>
      simp only [poolPcStep, Option.some.injEq] at hs
      cases hs
      split
      · exact .of_same rfl rfl rfl rfl rfl rfl
      · exact .of_same rfl after.pc_inHand (by cases after <;> rfl) (by cases after <;> rfl) rfl rfl
  | remove after id =>
      simp only [poolPcStep] at hs
      split at hs
      · cases hs
      · cases hs
        exact .of_same rfl after.pc_inHand (by cases after <;> rfl) (by cases after <;> rfl) rfl rfl
  | stopSlot i =>
      simp only [poolPcStep] at hs
      split at hs
      · split at hs <;> (cases hs; exact .of_same rfl rfl rfl rfl rfl rfl)
      · cases hs
        exact .of_same rfl rfl rfl rfl rfl rfl
  | runPop =>
      simp only [poolPcStep] at hs
      split at hs <;> (cases hs; exact .of_same rfl rfl rfl rfl rfl rfl)
  | dispatch ctx =>
      simp only [poolPcStep] at hs
      split at hs
      · cases hs
        exact .of_same rfl rfl rfl rfl rfl rfl
      · cases hs
        intro _ d
        simp only [Pool.set_zfreed, PoolPc.inHand, PoolPc.put, PoolPc.forgotten, PoolPc.took,
          PoolPc.handed, List.count_nil]
        omega
  | dispatchMsg ctx msg pos =>
      simp only [poolPcStep] at hs
      split at hs
      · cases hs
        intro _ d
        have hd := hfree pool msg [] d
        rw [List.append_nil] at hd
        exact hd
      · split at hs <;> (cases hs; exact .of_same rfl rfl rfl rfl rfl rfl)
  | exitRelease ctx msg =>
      simp only [poolPcStep] at hs
      split at hs
      · cases hs
        rintro ⟨⟩
      · cases hs
        intro _ d
        have hd := hfree pool msg [] d
        rw [List.append_nil] at hd
        exact hd
  | giveUp ctx =>
      simp only [poolPcStep] at hs
      split at hs <;> (cases hs; exact .of_same rfl rfl rfl rfl rfl rfl)
  | haveWork ctx =>
      simp only [poolPcStep] at hs
      split at hs <;> (cases hs; exact .of_same rfl rfl rfl rfl rfl rfl)
  | requeue ctx =>
      cases hs
      exact .of_same (by rw [Pool.runPush_zfreed]) rfl rfl rfl rfl rfl
  | num sleep =>
      simp only [poolPcStep] at hs
      split at hs
      · cases hs
        exact .of_same rfl rfl rfl rfl rfl rfl
      · cases sleep <;> cases hs <;> exact .of_same rfl rfl rfl rfl rfl rfl
  | sleeping =>
      simp only [poolPcStep] at hs
      split at hs
      · cases hs
        exact .of_same rfl rfl rfl rfl rfl rfl
      · cases hs
  | done => cases hs

-- ============================================================================
-- The queues
-- ============================================================================

/-- How often `d` is in the queues of all contexts. -/
def Pool.queuedCargo (pool : Pool) (d : Nat) : ℕ :=
  ∑ p ∈ Finset.range pool.next, (pool.heap p).cargo.count d

/-- The queues of the contexts that have been freed hold no payload. -/
def FreedEmpty (pool : Pool) : Prop :=
  ∀ p, p < pool.next → (pool.heap p).freed = true → (pool.heap p).cargo = []

theorem Pool.stored_le (pool : Pool) (d : Nat) : pool.stored d ≤ pool.queuedCargo d := by
  refine Finset.sum_le_sum fun p _ => ?_
  split
  · exact Nat.zero_le _
  · exact Nat.le_refl _

theorem FreedEmpty.stored {pool : Pool} (h : FreedEmpty pool) (d : Nat) :
    pool.stored d = pool.queuedCargo d := by
  refine Finset.sum_congr rfl fun p hp => ?_
  split
  · rename_i hfreed
    rw [h p (Finset.mem_range.mp hp) hfreed]
    rfl
  · rfl

/-- Nothing is missing from the queues only if nothing was left in a queue that has
    been freed. -/
theorem freedEmpty_of_stored {pool : Pool} (h : ∀ d, pool.stored d = pool.queuedCargo d) :
    FreedEmpty pool := by
  intro p hp hfreed
  by_contra hne
  obtain ⟨d, hd⟩ := List.exists_mem_of_ne_nil _ hne
  have hlt : pool.stored d < pool.queuedCargo d := by
    refine Finset.sum_lt_sum (fun q _ => ?_) ⟨p, Finset.mem_range.mpr hp, ?_⟩
    · split
      · exact Nat.zero_le _
      · exact Nat.le_refl _
    · rw [if_pos hfreed]
      exact List.count_pos_iff.mpr hd
  exact Nat.lt_irrefl _ (h d ▸ hlt)

/-- One term of a sum changes. -/
theorem sum_range_change {f g : ℕ → ℕ} {n p a b : ℕ} (hp : p < n) (hother : ∀ q, q ≠ p → g q = f q)
    (hchange : g p + a = f p + b) :
    ∑ q ∈ Finset.range n, g q + a = ∑ q ∈ Finset.range n, f q + b := by
  have hmem := Finset.mem_range.mpr hp
  have hrest : ∑ q ∈ (Finset.range n).erase p, g q = ∑ q ∈ (Finset.range n).erase p, f q :=
    Finset.sum_congr rfl fun q hq => hother q (Finset.ne_of_mem_erase hq)
  rw [← Finset.add_sum_erase _ _ hmem, ← Finset.add_sum_erase _ f hmem, hrest]
  omega

/-- The addresses from `next` on have no messages, and are not marked as freed. -/
def Pool.Unused (pool : Pool) : Prop :=
  ∀ p, pool.next ≤ p → (pool.heap p).queue = [] ∧ (pool.heap p).taken = 0 ∧
    (pool.heap p).freed = false

/-- What a step puts into a queue or takes out of one. -/
theorem CtxMove.cargo {p : Ptr} {pc pc' : PoolPc} {ctx ctx' : Context}
    (h : CtxMove p pc ctx pc' ctx') (d : Nat) :
    ctx'.cargo.count d + pc'.took.count d = ctx.cargo.count d + (pc.put pc').count d := by
  unfold Context.cargo
  cases h with
  | retain caller from? msg pc' ctx hpc' => rcases hpc' with rfl | rfl <;> rfl
  | push caller msg ctx =>
      simp only [Context.push, PoolPc.took, PoolPc.put, List.flatMap_append, List.flatMap_cons,
        List.flatMap_nil, List.append_nil, List.count_append, List.count_nil]
      omega
  | release after pc' ctx hpc' =>
      rw [contextRelease_queue]
      rcases hpc' with rfl | rfl
      · rfl
      · cases after <;> rfl
  | stop i ctx | exit msg ctx =>
      simp only [contextReleaseMgr, contextRelease_queue, PoolPc.took, PoolPc.put, List.count_nil]
  | take msg queue ctx hqueue =>
      simp only [hqueue, PoolPc.took, PoolPc.put, List.flatMap_cons, List.count_append,
        List.count_nil]
      omega
  | _ => rfl

/-- Only a push and a pop change a queue. -/
theorem CtxMove.queue {p : Ptr} {pc pc' : PoolPc} {ctx ctx' : Context}
    (h : CtxMove p pc ctx pc' ctx') : ctx'.queue = ctx.queue ∨ p ∈ pc.ptrs := by
  cases h with
  | push caller msg ctx =>
      exact Or.inr (by simp [PoolPc.ptrs, PoolPc.retained, PoolPc.held])
  | take msg queue ctx hqueue => exact Or.inr (by simp [PoolPc.ptrs, PoolPc.tokens])
  | release after pc' ctx hpc' => exact Or.inl (contextRelease_queue _)
  | stop i ctx | exit msg ctx => exact Or.inl (contextRelease_queue _)
  | _ => exact Or.inl rfl

/-- The record that a step changes is one that the thread can get at, or one in the
    table. -/
theorem CtxMove.known {p : Ptr} {pc pc' : PoolPc} {ctx ctx' : Context}
    (h : CtxMove p pc ctx pc' ctx') : p ∈ pc.ptrs ∨ ∃ i, pc = .stopSlot i ∧ ctx' ≠ ctx := by
  cases h with
  | stop i ctx => exact Or.inr ⟨i, rfl, (CtxMove.stop (p := p) i ctx).stop_ne⟩
  | release after pc' ctx hpc' =>
      refine Or.inl ?_
      cases after <;> simp [PoolPc.ptrs, PoolPc.retained, PoolPc.held, PoolPc.leaving]
  | _ =>
      exact Or.inl (by simp [PoolPc.ptrs, PoolPc.tokens, PoolPc.retained, PoolPc.held,
        PoolPc.target])

theorem CtxMove.lt_next {pool pool' : Pool} {p : Ptr} {pc pc' : PoolPc}
    (h : CtxMove p pc (pool.heap p) pc' (pool'.heap p)) (hsrc : PoolSource pool pool' pc pc')
    (hJ : pool.Bounded) (hptrs : ∀ p ∈ pc.ptrs, p < pool.next) : p < pool.next := by
  rcases h.known with hmem | ⟨i, hpc, hne⟩
  · exact hptrs p hmem
  · exact hJ.table p (CtxMgr.mem_ptrs_of_slot (hsrc.stop i p hpc hne).2)

theorem PoolMove.unused {pool pool' : Pool} {pc pc' : PoolPc} (h : PoolMove pool pool' pc pc')
    (hunused : pool.Unused) (hsrc : PoolSource pool pool' pc pc') (hJ : pool.Bounded)
    (hptrs : ∀ p ∈ pc.ptrs, p < pool.next) : pool'.Unused := by
  intro p hp
  have hold := hunused p (Nat.le_trans h.next_le hp)
  cases h with
  | quiet h =>
      obtain ⟨cb, sessionid, hheap⟩ := h.heap p
      rw [hheap]
      exact hold
  | ctx q h hother hqueue hlost hnext =>
      rw [hnext] at hp
      have hq : p ≠ q := by
        rintro rfl
        exact absurd (h.lt_next hsrc hJ hptrs) (Nat.not_lt.mpr hp)
      rw [hother p hq]
      exact hold
  | runPush q hpc hheap hnext hqueue =>
      rw [hheap]
      exact hold
  | runPop q hpc hheap hnext hqueue hlost =>
      rw [hheap]
      exact hold
  | create caller caller' id name hpc hpc' hcaller hrunning hheap hnext hqueue hlost =>
      rw [hnext] at hp
      rw [hheap, Function.update_of_ne (Nat.ne_of_gt hp)]
      exact hold

theorem PoolMove.cargo {pool pool' : Pool} {pc pc' : PoolPc} (h : PoolMove pool pool' pc pc')
    (hunused : pool.Unused) (hptrs : ∀ p ∈ pc.ptrs, p < pool.next) (d : Nat) :
    pool'.queuedCargo d + pc'.took.count d = pool.queuedCargo d + (pc.put pc').count d := by
  unfold Pool.queuedCargo
  have hnone : pc'.popped = none → pc'.casing = none →
      pc'.took.count d = (pc.put pc').count d := by
    intro hpopped hcasing
    cases pc' with
    | dispatchMsg ctx msg pos => cases hpopped
    | sendCas caller toctx => cases hcasing
    | _ => cases pc <;> rfl
  have hsame : pool'.next = pool.next → pool'.heap = pool.heap → pc'.popped = none →
      pc'.casing = none → ∑ p ∈ Finset.range pool'.next, (pool'.heap p).cargo.count d +
        pc'.took.count d =
      ∑ p ∈ Finset.range pool.next, (pool.heap p).cargo.count d + (pc.put pc').count d := by
    intro hnext hheap hpopped hcasing
    rw [hnext, hheap, hnone hpopped hcasing]
  cases h with
  | quiet h =>
      rw [h.next, hnone h.popped h.casing.2]
      congr 1
      refine Finset.sum_congr rfl fun p _ => ?_
      obtain ⟨cb, sessionid, hheap⟩ := h.heap p
      rw [hheap]
      rfl
  | ctx p h hother hqueue hlost hnext =>
      rw [hnext]
      have hcargo := h.cargo d
      by_cases hp : p < pool.next
      · exact sum_range_change hp (fun q hq => by rw [hother q hq]) hcargo
      · -- beyond the contexts nothing is pushed or popped
        have hq : (pool'.heap p).queue = (pool.heap p).queue :=
          h.queue.resolve_right fun hmem => hp (hptrs p hmem)
        unfold Context.cargo at hcargo
        rw [hq] at hcargo
        have hcounts : pc'.took.count d = (pc.put pc').count d := by omega
        rw [hcounts]
        congr 1
        refine Finset.sum_congr rfl fun q hmem => ?_
        rw [hother q (by rintro rfl; exact hp (Finset.mem_range.mp hmem))]
  | runPush p hpc hheap hnext hqueue =>
      rcases hpc with ⟨caller, -, rfl⟩ | ⟨-, rfl⟩
      · exact hsame hnext hheap rfl rfl
      · exact hsame hnext hheap rfl rfl
  | runPop p hpc hheap hnext hqueue hlost =>
      obtain ⟨-, rfl⟩ := hpc
      exact hsame hnext hheap rfl rfl
  | create caller caller' id name hpc hpc' hcaller hrunning hheap hnext hqueue hlost =>
      have hnew : (pool'.heap pool.next).cargo = [] := by
        rw [hheap, Function.update_self]
        show (pool.heap pool.next).cargo = []
        unfold Context.cargo
        rw [(hunused _ (Nat.le_refl _)).1]
        rfl
      rw [hnext, Finset.sum_range_succ, hnew, hnone (by rw [hpc']; rfl) (by rw [hpc']; rfl)]
      congr 1
      rw [List.count_nil, Nat.add_zero]
      refine Finset.sum_congr rfl fun p hp => ?_
      rw [hheap, Function.update_of_ne (Nat.ne_of_lt (Finset.mem_range.mp hp))]

-- ============================================================================
-- One step of the ledger
-- ============================================================================

theorem ledger_step {ledger ledger' : Ledger} {th th' : PoolThread} {e : PoolEvent}
    (hs : ledgerStep ledger th e = some (ledger', th')) :
    poolStep ledger.pool th e = some (ledger'.pool, th') ∧
      ledger'.handed = ledger.handed ++ th.pc.handed e := by
  obtain ⟨r, hr, hpair⟩ := Option.map_eq_some_iff.mp hs
  cases hpair
  exact ⟨hr, rfl⟩

section Ledger

variable {ι : Type} [DecidableEq ι] {workers : ι → Bool} {setsize : Nat}
  {c c' : Config ι Ledger PoolThread} {a : ι × PoolEvent}

/-- The pool under the ledger. -/
def poolOf (c : Config ι Ledger PoolThread) : Config ι Pool PoolThread := ⟨c.shared.pool, c.pcs⟩

theorem ledger_pool_reachable (h : Reachable (fire ledgerStep) (ledgerInit workers setsize) c) :
    Reachable (fire poolStep) (poolInit workers setsize) (poolOf c) :=
  h.simulate poolStep Ledger.pool id fun _ _ e _ _ hs => Or.inr ⟨e, (ledger_step hs).1⟩

theorem pool_unused {c : Config ι Pool PoolThread}
    (h : Reachable (fire poolStep) (poolInit workers setsize) c) : c.shared.Unused := by
  have hboth := h.invariant (J := fun c =>
    Reachable (fire poolStep) (poolInit workers setsize) c ∧ c.shared.Unused)
    ⟨Reachable.refl _, fun _ _ => ⟨rfl, rfl, rfl⟩⟩ fun c a c' hc hf => ⟨hc.1.tail hf, ?_⟩
  · exact hboth.2
  · obtain ⟨pool', th', hs, rfl⟩ := fire_eq_some.mp hf
    obtain ⟨hJ, hL⟩ := pool_bounded hc.1
    have hstep := (pool_step hs).2.1
    exact (pool_move hstep).unused hc.2 (pool_source hstep) hJ (hL a.1)

theorem ledger_unused (h : Reachable (fire ledgerStep) (ledgerInit workers setsize) c) :
    c.shared.pool.Unused :=
  pool_unused (ledger_pool_reachable h)

variable [Fintype ι]

/-- How often `d` has been freed, or can still be. -/
def ledgerTotal (c : Config ι Ledger PoolThread) (d : Nat) : ℕ :=
  c.shared.pool.zfreed.count d + ∑ i, (c.pcs i).pc.inHand.count d + c.shared.pool.queuedCargo d

theorem sum_update_inHand (pcs : ι → PoolThread) (i : ι) (th : PoolThread) (d : Nat) :
    ∑ j, (Function.update pcs i th j).pc.inHand.count d + (pcs i).pc.inHand.count d =
      ∑ j, (pcs j).pc.inHand.count d + th.pc.inHand.count d := by
  have hsum := sum_update (fun th : PoolThread => (th.pc.inHand.count d : ℤ)) pcs i th
  have hcast : ∀ pcs : ι → PoolThread, ((∑ j, (pcs j).pc.inHand.count d : ℕ) : ℤ) =
      ∑ j, ((pcs j).pc.inHand.count d : ℤ) := fun _ => Nat.cast_sum _ _
  have hnew := hcast (Function.update pcs i th)
  have hold := hcast pcs
  omega

/-- What a step hands over is accounted for, up to what it forgets. -/
theorem ledger_total (hr : Reachable (fire ledgerStep) (ledgerInit workers setsize) c)
    (hf : fire ledgerStep c a = some c') (habort : c'.shared.pool.aborted = none) (d : Nat) :
    ledgerTotal c' d + ((c.pcs a.1).pc.forgotten a.2).count d =
      ledgerTotal c d + ((c.pcs a.1).pc.handed a.2).count d := by
  obtain ⟨ledger', th', hs, rfl⟩ := fire_eq_some.mp hf
  have hstep := (pool_step (ledger_step hs).1).2.1
  have hcargo := (pool_move hstep).cargo (ledger_unused hr)
    ((pool_bounded (ledger_pool_reachable hr)).2 a.1) d
  have hhands := pool_handles hstep habort d
  have hsum := sum_update_inHand c.pcs a.1 th' d
  unfold ledgerTotal
  simp only
  omega

omit [DecidableEq ι] [Fintype ι] in
/-- The record that a step changes. -/
theorem KeepsPayloads.cargo_eq_nil {pool' : Pool} {pc' : PoolPc} {p : Ptr} (hok : KeepsPayloads c a)
    (hstep : poolPcStep c.shared.pool (c.pcs a.1).pc a.2 = some (pool', pc'))
    (hsrc : PoolSource c.shared.pool pool' (c.pcs a.1).pc pc')
    (h : CtxMove p (c.pcs a.1).pc (c.shared.pool.heap p) pc' (pool'.heap p))
    (habort : pool'.aborted = none)
    (hempty : (c.shared.pool.heap p).freed = true → (c.shared.pool.heap p).cargo = [])
    (hfreed : (pool'.heap p).freed = true) : (pool'.heap p).cargo = [] := by
  have hstop := hsrc.stop
  unfold KeepsPayloads at hok
  generalize (c.pcs a.1).pc = pc at *
  generalize hctx : c.shared.pool.heap p = ctx at h hempty
  generalize hctx' : pool'.heap p = ctx' at h hfreed
  unfold Context.cargo at hempty ⊢
  cases h with
  | push caller msg =>
      simp only [poolPcStep] at hstep
      split at hstep
      · rename_i hfits
        have hnone := hok hfits (by rw [hctx]; exact hfreed)
        simp only [Context.push, List.flatMap_append, hempty hfreed,
          List.flatMap_cons, List.flatMap_nil, List.append_nil, Message.payload, hnone,
          Option.toList_none]
      · cases hstep
  | release after _ _ hpc' =>
      rw [contextRelease_queue]
      rcases (contextRelease_freed _).mp hfreed with hold | hone
      · exact hempty hold
      · have hnil := hok (by rw [hctx]; exact hone)
        rw [hctx] at hnil
        exact hnil
  | stop i =>
      rw [contextReleaseMgr, contextRelease_queue]
      rcases (contextRelease_freed _).mp hfreed with hold | hone
      · exact hempty hold
      · have hne : pool'.heap p ≠ c.shared.pool.heap p := by
          rw [hctx, hctx']
          exact (CtxMove.stop (p := p) i ctx).stop_ne
        obtain ⟨hi, hslot⟩ := hstop i p rfl hne
        have hnil := hok p hi hslot (by rw [hctx]; exact hone)
        rw [hctx] at hnil
        exact hnil
  | take msg queue _ hqueue =>
      have hnil := hempty hfreed
      rw [hqueue, List.flatMap_cons] at hnil
      exact (List.append_eq_nil_iff.mp hnil).2
  | exit msg =>
      rw [contextReleaseMgr, contextRelease_queue]
      rcases (contextRelease_freed _).mp hfreed with hold | hone
      · exact hempty hold
      · -- the assertion fails instead
        have hnull : (contextReleaseMgr (c.shared.pool.heap p)).2 = true :=
          (contextRelease_null _).mpr (by rw [hctx]; exact hone)
        simp only [poolPcStep, if_pos hnull, Option.some.injEq, Prod.mk.injEq] at hstep
        rw [← hstep.1] at habort
        cases habort
  | retain caller from? msg _ _ hpc' => exact hempty hfreed
  | _ => exact hempty hfreed

omit [Fintype ι] in
/-- A step that meets the condition leaves no payload in the queue of a context
    that has been freed. -/
theorem KeepsPayloads.freedEmpty (hr : Reachable (fire ledgerStep) (ledgerInit workers setsize) c)
    (hempty : FreedEmpty c.shared.pool) (hf : fire ledgerStep c a = some c')
    (hok : KeepsPayloads c a) (habort : c'.shared.pool.aborted = none) :
    FreedEmpty c'.shared.pool := by
  obtain ⟨ledger', th', hs, rfl⟩ := fire_eq_some.mp hf
  have hstep := (pool_step (ledger_step hs).1).2.1
  have hsrc := pool_source hstep
  have hbounded := (pool_bounded (ledger_pool_reachable hr)).2 a.1
  simp only at habort
  intro p hp hfreed
  simp only at hp hfreed ⊢
  cases pool_move hstep with
  | quiet h =>
      obtain ⟨cb, sessionid, hheap⟩ := h.heap p
      rw [h.next] at hp
      rw [hheap] at hfreed ⊢
      exact hempty p hp hfreed
  | ctx q h hother hqueue hlost hnext =>
      rw [hnext] at hp
      by_cases hq : p = q
      · subst hq
        exact hok.cargo_eq_nil hstep hsrc h habort (hempty p hp) hfreed
      · rw [hother p hq] at hfreed ⊢
        exact hempty p hp hfreed
  | runPush q hpc hheap hnext hqueue =>
      rw [hnext] at hp
      rw [hheap] at hfreed ⊢
      exact hempty p hp hfreed
  | runPop q hpc hheap hnext hqueue hlost =>
      rw [hnext] at hp
      rw [hheap] at hfreed ⊢
      exact hempty p hp hfreed
  | create caller caller' id name hpc hpc' hcaller hrunning hheap hnext hqueue hlost =>
      by_cases hnew : p = c.shared.pool.next
      · have hnone := (ledger_unused hr p hnew.ge).1
        rw [hheap, hnew, Function.update_self]
        rw [hnew] at hnone
        show (c.shared.pool.heap c.shared.pool.next).cargo = []
        unfold Context.cargo
        rw [hnone]
        rfl
      · rw [hnext] at hp
        rw [hheap, Function.update_of_ne hnew] at hfreed ⊢
        exact hempty p (Nat.lt_of_le_of_ne (Nat.lt_succ_iff.mp hp) hnew) hfreed

omit [Fintype ι] in
/-- A step that leaves none there, and forgets none, meets the condition. -/
theorem keepsPayloads_of_freedEmpty
    (hr : Reachable (fire ledgerStep) (ledgerInit workers setsize) c)
    (hf : fire ledgerStep c a = some c')
    (hafter : c'.shared.pool.aborted = none → FreedEmpty c'.shared.pool ∧
      (c.pcs a.1).pc.forgotten a.2 = []) : KeepsPayloads c a := by
  obtain ⟨ledger', th', hs, rfl⟩ := fire_eq_some.mp hf
  obtain ⟨hrunning, hstep, -⟩ := pool_step (ledger_step hs).1
  have hnext := (pool_move hstep).next_le
  obtain ⟨htable, hbounded⟩ := pool_bounded (ledger_pool_reachable hr)
  have hbounded := hbounded a.1
  simp only [poolOf] at hafter hbounded
  unfold KeepsPayloads
  generalize (c.pcs a.1).pc = pc at hstep hafter hbounded ⊢
  -- a record that is freed after the step has no payload in its queue
  have hcargo : ∀ {p : Ptr} {ctx : Context}, p < c.shared.pool.next →
      ledger'.pool.aborted = none → ledger'.pool.heap p = ctx → ctx.freed = true →
      ctx.cargo = [] := by
    intro p ctx hp habort hheap hfreed
    have hnil := (hafter habort).1 p (Nat.lt_of_lt_of_le hp hnext)
    rw [hheap] at hnil
    exact hnil hfreed
  cases pc with
  | user caller =>
      cases he : a.2 with
      | send own fromId toId session type data sz ud =>
          intro hzero
          rw [he] at hstep hafter
          simp only [poolPcStep, userStep, if_pos hzero, Option.some.injEq, Prod.mk.injEq] at hstep
          have hnone := (hafter (hstep.1 ▸ hrunning)).2
          simp only [PoolPc.forgotten, if_pos hzero, Option.toList_eq_nil_iff] at hnone
          exact hnone
      | _ => trivial
  | sendPush caller toctx msg =>
      intro hfits hfreed
      simp only [poolPcStep, if_pos hfits, Option.some.injEq, Prod.mk.injEq] at hstep
      have hheap : ledger'.pool.heap toctx = (c.shared.pool.heap toctx).push msg := by
        rw [← hstep.1]
        exact Pool.set_heap ..
      have hmem : toctx ∈ (PoolPc.sendPush caller toctx msg).ptrs := by
        simp [PoolPc.ptrs, PoolPc.retained, PoolPc.held]
      have hnil := hcargo (hbounded toctx hmem) (hstep.1 ▸ hrunning) hheap hfreed
      simp only [Context.cargo, Context.push, List.flatMap_append, List.append_eq_nil_iff,
        List.flatMap_cons, Message.payload, Option.toList_eq_nil_iff] at hnil
      exact hnil.2.1
  | release after p =>
      intro hone
      simp only [poolPcStep, Option.some.injEq, Prod.mk.injEq] at hstep
      have hheap : ledger'.pool.heap p = (contextRelease (c.shared.pool.heap p)).1 := by
        rw [← hstep.1]
        exact Pool.set_heap ..
      have hmem : p ∈ (PoolPc.release after p).ptrs := by
        cases after <;> simp [PoolPc.ptrs, PoolPc.retained, PoolPc.held, PoolPc.leaving]
      have hnil := hcargo (hbounded p hmem) (hstep.1 ▸ hrunning) hheap
        ((contextRelease_freed _).mpr (Or.inr hone))
      unfold Context.cargo at hnil ⊢
      rw [contextRelease_queue] at hnil
      exact hnil
  | stopSlot i =>
      intro p hi hslot hone
      simp only [poolPcStep, if_pos hi, hslot, Option.some.injEq, Prod.mk.injEq] at hstep
      have hheap : ledger'.pool.heap p = (contextReleaseMgr (c.shared.pool.heap p)).1 := by
        rw [← hstep.1]
        exact Pool.set_heap ..
      have hnil := hcargo (htable.table p (CtxMgr.mem_ptrs_of_slot hslot)) (hstep.1 ▸ hrunning) hheap
        ((contextRelease_freed _).mpr (Or.inr hone))
      unfold Context.cargo at hnil ⊢
      rw [contextReleaseMgr, contextRelease_queue] at hnil
      exact hnil
  | _ => trivial

omit [DecidableEq ι] [Fintype ι] in
theorem KeepsPayloads.forgotten_eq_nil (hok : KeepsPayloads c a) :
    (c.pcs a.1).pc.forgotten a.2 = [] := by
  unfold KeepsPayloads at hok
  generalize (c.pcs a.1).pc = pc at hok ⊢
  generalize a.2 = e at hok ⊢
  cases pc with
  | user caller =>
      cases e with
      | send own fromId toId session type data sz ud =>
          show (if toId = 0 then data.toList else []) = []
          split
          · rename_i hzero
            rw [hok hzero]
            rfl
          · rfl
      | _ => rfl
  | _ => rfl

omit [Fintype ι] in
theorem ledger_running (hf : fire ledgerStep c a = some c') : c.shared.pool.aborted = none := by
  obtain ⟨ledger', th', hs, -⟩ := fire_eq_some.mp hf
  exact (pool_step (ledger_step hs).1).1

/-- Where the payloads are as they should be before and after a step, the step has
    lost none. -/
theorem ledger_kept (hr : Reachable (fire ledgerStep) (ledgerInit workers setsize) c)
    (hf : fire ledgerStep c a = some c') (habort : c'.shared.pool.aborted = none)
    (hbefore : ∀ d, c.shared.handed.count d = ledgerTotal c d)
    (hafter : ∀ d, c'.shared.handed.count d = c'.shared.pool.zfreed.count d +
      ∑ i, (c'.pcs i).pc.inHand.count d + c'.shared.pool.stored d) (d : Nat) :
    c'.shared.pool.stored d = c'.shared.pool.queuedCargo d ∧
      ((c.pcs a.1).pc.forgotten a.2).count d = 0 := by
  have hhanded : c'.shared.handed = c.shared.handed ++ (c.pcs a.1).pc.handed a.2 := by
    obtain ⟨ledger', th', hs, rfl⟩ := fire_eq_some.mp hf
    exact (ledger_step hs).2
  have htotal := ledger_total hr hf habort d
  have hold := hbefore d
  have hnew := hafter d
  have hle := c'.shared.pool.stored_le d
  rw [hhanded, List.count_append] at hnew
  unfold ledgerTotal at htotal hold
  omega

-- ============================================================================
-- Runs
-- ============================================================================

/-- Every payload handed to `workerPoolSend` is freed exactly once, right after its
    dispatch at the latest or with the queue that it is in, in a run exactly when
    every step meets the condition. -/
theorem payloads_owned_iff (workers : ι → Bool) (setsize : Nat) (as : List (ι × PoolEvent)) :
    Always (fire ledgerStep) PayloadsOwned (ledgerInit workers setsize) as ↔
      AllSteps (fire ledgerStep) KeepsPayloads (ledgerInit workers setsize) as := by
  refine always_iff_allSteps (J := fun c : Config ι Ledger PoolThread =>
    Reachable (fire ledgerStep) (ledgerInit workers setsize) c ∧
      (c.shared.pool.aborted = none → FreedEmpty c.shared.pool ∧
        ∀ d, c.shared.handed.count d = ledgerTotal c d)) (fun c h habort d => ?_)
    (fun c a c' h hf hok => ⟨h.1.tail hf, fun habort => ?_⟩) (fun c a c' h hf hP => ?_)
    ⟨Reachable.refl _, fun _ => ⟨fun p hp => absurd hp (Nat.not_lt_zero p), fun d => ?_⟩⟩
  · obtain ⟨hempty, htotal⟩ := h.2 habort
    rw [hempty.stored]
    exact htotal d
  · obtain ⟨ledger', th', hs, rfl⟩ := fire_eq_some.mp hf
    obtain ⟨hempty, htotal⟩ := h.2 (pool_step (ledger_step hs).1).1
    refine ⟨hok.freedEmpty h.1 hempty hf habort, fun d => ?_⟩
    have hstep := ledger_total h.1 hf habort d
    rw [hok.forgotten_eq_nil, List.count_nil, Nat.add_zero] at hstep
    rw [hstep, ← htotal]
    show ledger'.handed.count d = _
    rw [(ledger_step hs).2, List.count_append]
  · refine keepsPayloads_of_freedEmpty h.1 hf fun habort => ?_
    have hnone := fun d => ledger_kept h.1 hf habort (h.2 (ledger_running hf)).2 (hP habort) d
    refine ⟨freedEmpty_of_stored fun d => (hnone d).1, List.eq_nil_iff_forall_not_mem.mpr ?_⟩
    exact fun d hd => absurd (hnone d).2 (List.count_pos_iff.mpr hd).ne'
  · show 0 = ledgerTotal (ledgerInit workers setsize) d
    have hzero : ∀ i, ((ledgerInit workers setsize).pcs i).pc.inHand.count d = 0 := by
      intro i
      rcases pool_init_pc workers setsize i with hpc | hpc <;>
        (show ((poolInit workers setsize).pcs i).pc.inHand.count d = 0; rw [hpc]; rfl)
    unfold ledgerTotal
    rw [Finset.sum_eq_zero fun i _ => hzero i]
    rfl

/-- A payload that is sent to 0. -/
theorem payload_sent_to_zero :
    ¬ ∀ (ι : Type) [DecidableEq ι] [Fintype ι] (workers : ι → Bool) (setsize : Nat)
      (as : List (ι × PoolEvent)),
      Always (fire ledgerStep) PayloadsOwned (ledgerInit workers setsize) as := by
  intro h
  have hrun : ∃ c, runFrom (fire ledgerStep) (ledgerInit (fun _ : Fin 1 => false) 4)
      [(0, .send false 5 0 7 0 (some 1) 4 0)] = some c ∧ c.shared.pool.aborted = none ∧
      c.shared.handed.count 1 ≠ c.shared.pool.zfreed.count 1 +
        ∑ i, (c.pcs i).pc.inHand.count 1 + c.shared.pool.stored 1 :=
    ⟨_, rfl, rfl, by decide⟩
  obtain ⟨c, hc, habort, hne⟩ := hrun
  exact hne ((h (Fin 1) (fun _ => false) 4 _).last hc habort 1)

end Ledger

end ZServer
