/-
  ZServer.Actor.RefCount

  Who holds references to a context: the manager since the creation, whoever
  carries its token, and the senders and workers that retain it.  `RefOk.step`
  keeps the account; `pool_counted_iff` says under which steps it stays as it
  is meant to be, with the manager's reference given up once at most and the
  context freed exactly when nobody holds it any more.
-/

import ZServer.Actor.Isolation

namespace ZServer

open Lib

/-! ## Where addresses come from -/

/-- The context that a sender has found in the table and not retained yet. -/
def PoolPc.target : PoolPc → List Ptr
  | .sendRetain _ _ toctx _ => [toctx]
  | _ => []

/-- Where the entries of the table, the targets of the senders and a failed
    assertion come from, and what `ctxMgrStop` touches. -/
structure PoolSource (pool pool' : Pool) (pc pc' : PoolPc) : Prop where
  table : ∀ p ∈ pool'.mgr.ptrs, p ∈ pool.mgr.ptrs ∨ (p = pool.next ∧ pool'.next = pool.next + 1)
  target : ∀ p ∈ pc'.target, p ∈ pool.mgr.ptrs
  exitReleased : pool'.aborted = some .exitReleased → pool.aborted = some .exitReleased ∨
    ∃ p msg, pc = .exitRelease p msg ∧ (pool.heap p).ref = 1
  stop : ∀ i p, pc = .stopSlot i → pool'.heap p ≠ pool.heap p →
    i < pool.mgr.setsize ∧ (pool.mgr.contexts[i]?).join = some p

/-- A step that leaves the table alone. -/
theorem PoolSource.of_mgr {pool pool' : Pool} {pc pc' : PoolPc}
    (habort : pool'.aborted = pool.aborted ∨ pool'.aborted ≠ some .exitReleased)
    (hmgr : pool'.mgr = pool.mgr := by rfl) (htarget : pc'.target = [] := by rfl)
    (hstop : ∀ i, pc ≠ .stopSlot i := by rintro _ ⟨⟩) : PoolSource pool pool' pc pc' where
  table := fun p hp => Or.inl (by rw [← hmgr]; exact hp)
  target := fun p hp => by
    rw [htarget] at hp
    cases hp
  exitReleased := fun h => by
    rcases habort with heq | hne
    · exact Or.inl (heq ▸ h)
    · exact absurd h hne
  stop := fun i _ h => absurd h (hstop i)

theorem After.pc_target (after : After) : after.pc.target = [] := by
  cases after <;> rfl

theorem user_source {pool pool' : Pool} {caller : Caller} {pc' : PoolPc} {e : PoolEvent}
    (hs : userStep pool caller e = some (pool', pc')) :
    PoolSource pool pool' (.user caller) pc' := by
  cases e with
  | send own fromId toId session type data sz ud =>
      simp only [userStep] at hs
      split at hs <;> (cases hs; exact .of_mgr (Or.inl rfl))
  | create =>
      simp only [userStep] at hs
      split at hs
      · cases hs
      · simp only [createStep, Option.some.injEq] at hs
        split at hs
        · cases hs
          exact .of_mgr (Or.inr (by rintro ⟨⟩))
        · rename_i mgr id found hadd
          have htable : ∀ p ∈ mgr.ptrs, p ∈ pool.mgr.ptrs ∨ p = pool.next :=
            fun p hp => mem_of_mem_ctxMgrAddContext hadd hp
          split at hs <;>
            (cases hs
             exact {
               table := fun p hp => (htable p hp).imp_right fun heq => ⟨heq, rfl⟩
               target := by rintro _ ⟨⟩
               exitReleased := Or.inl
               stop := by rintro _ _ ⟨⟩ })
  | setCallback cb => cases caller <;> cases hs <;> exact .of_mgr (Or.inl rfl)
  | stop | poolStop =>
      simp only [userStep] at hs
      split at hs
      · cases hs
        exact .of_mgr (Or.inl rfl)
      · cases hs
  | ret r =>
      cases caller with
      | outside => cases hs
      | callback ctx msg =>
          cases hs
          exact .of_mgr (Or.inl rfl)
      | init ctx id caller =>
          simp only [userStep] at hs
          split at hs <;> (cases hs; exact .of_mgr (Or.inl rfl))
  | _ => cases hs

theorem pool_source {pool pool' : Pool} {pc pc' : PoolPc} {e : PoolEvent}
    (hs : poolPcStep pool pc e = some (pool', pc')) : PoolSource pool pool' pc pc' := by
  cases pc with
  | user caller => exact user_source hs
  | sendGet caller ctx toId msg =>
      simp only [poolPcStep] at hs
      split at hs
      · cases hs
      · split at hs
        · cases hs
          exact .of_mgr (Or.inl rfl)
        · rename_i toctx hslot
          cases hs
          exact {
            table := fun p hp => Or.inl hp
            target := fun p hp => (List.mem_singleton.mp hp) ▸ CtxMgr.mem_ptrs_of_slot hslot
            exitReleased := Or.inl
            stop := by rintro _ _ ⟨⟩ }
  | sendRetain caller ctx toctx msg =>
      cases hs
      refine .of_mgr (Or.inl rfl) rfl ?_
      split <;> rfl
  | release after ctx =>
      simp only [poolPcStep, Option.some.injEq] at hs
      cases hs
      refine .of_mgr (Or.inl rfl) rfl ?_
      split
      · rfl
      · exact after.pc_target
  | remove after id =>
      simp only [poolPcStep] at hs
      split at hs
      · cases hs
      · cases hs
        exact {
          table := fun p hp => Or.inl (mem_of_mem_ctxMgrRemoveContext hp)
          target := fun p hp => by
            rw [after.pc_target] at hp
            cases hp
          exitReleased := Or.inl
          stop := by rintro _ _ ⟨⟩ }
  | stopSlot i =>
      simp only [poolPcStep] at hs
      split at hs
      · rename_i hi
        split at hs
        · cases hs
          exact ⟨fun p hp => Or.inl hp, (by rintro _ ⟨⟩), Or.inl, fun j p _ hne => absurd rfl hne⟩
        · rename_i ctx hslot
          cases hs
          refine ⟨fun p hp => Or.inl ?_, (by rintro _ ⟨⟩), Or.inl, fun j p hj hne => ?_⟩
          · simp only at hp
            split at hp
            · rw [CtxMgr.mem_ptrs] at hp ⊢
              rcases List.mem_or_eq_of_mem_set hp with hold | hnew
              · exact hold
              · cases hnew
            · exact hp
          · cases hj
            -- the record that changes is the one in the slot
            by_cases hp : p = ctx
            · exact ⟨hi, hp ▸ hslot⟩
            · exact absurd (Function.update_of_ne hp ..) hne
      · cases hs
        exact ⟨fun p hp => Or.inl hp, (by rintro _ ⟨⟩), Or.inl, fun j p _ hne => absurd rfl hne⟩
  | exitRelease ctx msg =>
      simp only [poolPcStep] at hs
      split at hs
      · rename_i hnull
        cases hs
        refine ⟨fun p hp => Or.inl hp, (by rintro _ ⟨⟩), fun _ => Or.inr ⟨ctx, msg, rfl, ?_⟩,
          by rintro _ _ ⟨⟩⟩
        exact (contextRelease_null
          { pool.heap ctx with mgrRef := (pool.heap ctx).mgrRef - 1 }).mp hnull
      · cases hs
        exact .of_mgr (Or.inl rfl)
  | sendSession caller ctx toctx msg =>
      cases ctx <;> cases hs
      · exact .of_mgr (Or.inr (by rintro ⟨⟩))
      · exact .of_mgr (Or.inl rfl)
  | num sleep =>
      simp only [poolPcStep] at hs
      split at hs
      · cases hs
        exact .of_mgr (Or.inl rfl)
      · cases sleep <;> cases hs <;> exact .of_mgr (Or.inl rfl)
  | sendPush caller toctx msg =>
      simp only [poolPcStep] at hs
      split at hs <;> cases hs
      · exact .of_mgr (Or.inl rfl)
      · exact .of_mgr (Or.inr (by rintro ⟨⟩))
  | giveUp ctx =>
      simp only [poolPcStep] at hs
      split at hs <;> cases hs
      · exact .of_mgr (Or.inl rfl)
      · exact .of_mgr (Or.inr (by rintro ⟨⟩))
  | dispatchMsg ctx msg pos =>
      simp only [poolPcStep] at hs
      split at hs
      · cases hs
        exact .of_mgr (Or.inl rfl)
      · split at hs <;> (cases hs; exact .of_mgr (Or.inl rfl))
  | sendSessionRead caller ctx toctx msg =>
      cases hs
      exact .of_mgr (Or.inl rfl)
  | sleeping =>
      simp only [poolPcStep] at hs
      split at hs
      · cases hs
        exact .of_mgr (Or.inl rfl)
      · cases hs
  | done => cases hs
  | _ =>
      simp only [poolPcStep, Pool.runPush] at hs
      split at hs <;> (cases hs; exact .of_mgr (Or.inl rfl))

/-! ## Addresses in use -/

/-- The contexts a thread can get at. -/
def PoolPc.ptrs (pc : PoolPc) : List Ptr := pc.tokens ++ pc.retained ++ pc.target

/-- The contexts that are in the run queue, or were to be put there. -/
def Pool.queued (pool : Pool) : List Ptr := pool.queue ++ pool.lost

/-- All addresses in the table and in the run queue belong to contexts. -/
structure Pool.Bounded (pool : Pool) : Prop where
  table : ∀ p ∈ pool.mgr.ptrs, p < pool.next
  queued : ∀ p ∈ pool.queued, p < pool.next

theorem PoolMove.next_le {pool pool' : Pool} {pc pc' : PoolPc} (h : PoolMove pool pool' pc pc') :
    pool.next ≤ pool'.next := by
  cases h with
  | quiet h => exact h.next.ge
  | ctx p h hother hqueue hlost hnext => exact hnext.ge
  | runPush p hpc hheap hnext hqueue => exact hnext.ge
  | runPop p hpc hheap hnext hqueue hlost => exact hnext.ge
  | create caller caller' id name hpc hpc' hcaller hrunning hheap hnext hqueue hlost =>
      rw [hnext]
      exact Nat.le_succ _

/-- What a step lets a thread get at, it could get at before, or found in the
    run queue. -/
theorem PoolMove.ptrs {pool pool' : Pool} {pc pc' : PoolPc} (h : PoolMove pool pool' pc pc')
    {p : Ptr} (hp : p ∈ pc'.tokens ++ pc'.retained) : p ∈ pc.ptrs ∨ p ∈ pool.queued := by
  unfold PoolPc.ptrs
  cases h with
  | quiet h =>
      have hret : pc'.retained = pc.retained := by
        unfold PoolPc.retained
        rw [h.held, h.leaving.1, h.leaving.2]
      rw [h.tokens, hret] at hp
      exact Or.inl (List.mem_append_left _ hp)
  | ctx q h hother hqueue hlost hnext =>
      refine Or.inl ?_
      generalize pool.heap q = ctx at h
      generalize pool'.heap q = ctx' at h
      cases h with
      | retain caller from? msg pc' ctx hpc' =>
          rcases hpc' with rfl | rfl <;>
            simpa [PoolPc.tokens, PoolPc.retained, PoolPc.held, PoolPc.leaving, PoolPc.target]
              using hp
      | release after pc' ctx hpc' =>
          obtain ⟨htokens, hheld, hleaving⟩ := after.released hpc'
          unfold PoolPc.retained at hp
          rw [htokens, hheld, hleaving, List.append_nil, List.append_nil] at hp
          exact List.mem_append_left _ (List.mem_append_left _ hp)
      | _ =>
          simp only [PoolPc.tokens, After.tokens, PoolPc.retained, PoolPc.held, PoolPc.leaving,
            Caller.tokens, List.mem_append, List.mem_cons, List.not_mem_nil] at hp ⊢
          tauto
  | runPush q hpc hheap hnext hqueue =>
      rcases hpc with ⟨caller, rfl, rfl⟩ | ⟨rfl, rfl⟩
      · simp only [PoolPc.tokens, PoolPc.retained, PoolPc.held, PoolPc.leaving, List.mem_append,
          List.mem_cons, List.not_mem_nil] at hp ⊢
        tauto
      · cases hp
  | runPop q hpc hheap hnext hqueue hlost =>
      obtain ⟨rfl, rfl⟩ := hpc
      refine Or.inr (List.mem_append_left _ ?_)
      rw [hqueue]
      exact List.mem_cons.mpr (Or.inl (List.mem_singleton.mp hp))
  | create caller caller' id name hpc hpc' hcaller hrunning hheap hnext hqueue hlost =>
      rw [hpc'] at hp
      rw [hpc]
      refine Or.inl (List.mem_append_left _ ?_)
      show p ∈ caller.tokens ++ []
      rw [← hcaller]
      exact hp

/-- What comes into the run queue was carried by the thread. -/
theorem PoolMove.queued {pool pool' : Pool} {pc pc' : PoolPc} (h : PoolMove pool pool' pc pc')
    {p : Ptr} (hp : p ∈ pool'.queued) : p ∈ pool.queued ∨ p ∈ pc.ptrs := by
  unfold Pool.queued at hp ⊢
  cases h with
  | quiet h =>
      rw [h.queue, h.lost] at hp
      exact Or.inl hp
  | ctx q h hother hqueue hlost hnext =>
      rw [hqueue, hlost] at hp
      exact Or.inl hp
  | runPush q hpc hheap hnext hqueue =>
      have hq : q ∈ pc.ptrs := by
        rcases hpc with ⟨caller, rfl, -⟩ | ⟨rfl, -⟩ <;> simp [PoolPc.ptrs, PoolPc.tokens]
      have hcases : p ∈ pool.queue ++ pool.lost ∨ p = q := by
        rcases hqueue with ⟨hqueue, hlost⟩ | ⟨hqueue, hlost⟩ <;>
          (rw [hqueue, hlost] at hp
           simp only [List.mem_append, List.mem_singleton] at hp ⊢
           tauto)
      rcases hcases with hold | heq
      · exact Or.inl hold
      · rw [heq]
        exact Or.inr hq
  | runPop q hpc hheap hnext hqueue hlost =>
      rw [hlost] at hp
      refine Or.inl ?_
      rw [hqueue]
      exact List.mem_cons_of_mem _ hp
  | create caller caller' id name hpc hpc' hcaller hrunning hheap hnext hqueue hlost =>
      rw [hqueue, hlost] at hp
      exact Or.inl hp

theorem PoolMove.bounded {pool pool' : Pool} {pc pc' : PoolPc} (h : PoolMove pool pool' pc pc')
    (hsrc : PoolSource pool pool' pc pc') (hJ : pool.Bounded) (hL : ∀ p ∈ pc.ptrs, p < pool.next) :
    pool'.Bounded ∧ ∀ p ∈ pc'.ptrs, p < pool'.next := by
  have hle := h.next_le
  refine ⟨⟨fun p hp => ?_, fun p hp => ?_⟩, fun p hp => ?_⟩
  · rcases hsrc.table p hp with hold | ⟨heq, hnext⟩
    · exact Nat.lt_of_lt_of_le (hJ.table p hold) hle
    · rw [heq, hnext]
      exact Nat.lt_succ_self _
  · rcases h.queued hp with hold | hcarried
    · exact Nat.lt_of_lt_of_le (hJ.queued p hold) hle
    · exact Nat.lt_of_lt_of_le (hL p hcarried) hle
  · rcases List.mem_append.mp hp with hcarried | htarget
    · rcases h.ptrs hcarried with hold | hqueued
      · exact Nat.lt_of_lt_of_le (hL p hold) hle
      · exact Nat.lt_of_lt_of_le (hJ.queued p hqueued) hle
    · exact Nat.lt_of_lt_of_le (hJ.table p (hsrc.target p htarget)) hle

section Bounded

variable {ι : Type} [DecidableEq ι]

theorem pool_bounded {workers : ι → Bool} {setsize : Nat} {c : Config ι Pool PoolThread}
    (h : Reachable (fire poolStep) (poolInit workers setsize) c) :
    c.shared.Bounded ∧ ∀ i, ∀ p ∈ (c.pcs i).pc.ptrs, p < c.shared.next := by
  refine h.invariant (J := fun c : Config ι Pool PoolThread =>
    c.shared.Bounded ∧ ∀ i, ∀ p ∈ (c.pcs i).pc.ptrs, p < c.shared.next) ⟨⟨?_, by rintro _ ⟨⟩⟩, ?_⟩
    fun c a c' hc hf => ?_
  · intro p hp
    rw [CtxMgr.mem_ptrs] at hp
    cases List.eq_of_mem_replicate hp
  · intro i p hp
    rcases pool_init_pc workers setsize i with hpc | hpc <;>
      (rw [hpc] at hp; cases hp)
  · exact fire_loc (J := Pool.Bounded) (L := fun pool th => ∀ p ∈ th.pc.ptrs, p < pool.next)
      (C := fun _ _ => True)
      (fun _ _ _ _ _ hJ hL hs =>
        (pool_move (pool_step hs).2.1).bounded (pool_source (pool_step hs).2.1) hJ hL)
      (fun _ _ _ _ _ _ _ _ hq _ hs p hp =>
        Nat.lt_of_lt_of_le (hq p hp) (pool_move (pool_step hs).2.1).next_le)
      hc.1 hc.2 (fun _ _ _ => trivial) hf

end Bounded

/-! ## Counting references -/

/-- The references to `p` that a thread answers for. -/
def PoolPc.refs (pc : PoolPc) (p : Ptr) : ℤ := pc.tokens.count p + pc.retained.count p

/-- The references to `p` outside the threads that the count does not explain. -/
def Pool.refAccount (pool : Pool) (p : Ptr) : ℤ :=
  pool.queued.count p - ((pool.heap p).ref - (pool.heap p).mgrRef)

theorem CtxMove.refs {p q : Ptr} {pc pc' : PoolPc} {ctx ctx' : Context}
    (h : CtxMove p pc ctx pc' ctx') :
    pc'.refs q - (if q = p then ctx'.ref - ctx'.mgrRef else 0) =
      pc.refs q - (if q = p then ctx.ref - ctx.mgrRef else 0) := by
  unfold PoolPc.refs PoolPc.retained
  by_cases hq : q = p
  · subst hq
    rw [if_pos rfl, if_pos rfl]
    cases h with
    | retain caller from? msg pc' ctx hpc' =>
        rcases hpc' with rfl | rfl <;>
          (simp [PoolPc.tokens, PoolPc.held, PoolPc.leaving, contextRetain]; omega)
    | release after pc' ctx hpc' =>
        obtain ⟨htokens, hheld, hleaving⟩ := after.released hpc'
        rw [htokens, hheld, hleaving]
        cases after <;> (simp [PoolPc.tokens, PoolPc.held, PoolPc.leaving]; omega)
    | _ =>
        simp [PoolPc.tokens, PoolPc.held, PoolPc.leaving, After.tokens, Caller.tokens,
          Context.push, contextReleaseMgr]
  · have hcons : ∀ l : List Ptr, (p :: l).count q = l.count q :=
      fun l => List.count_cons_of_ne (Ne.symm hq)
    rw [if_neg hq, if_neg hq]
    cases h with
    | retain caller from? msg pc' ctx hpc' =>
        rcases hpc' with rfl | rfl <;>
          simp [PoolPc.tokens, PoolPc.held, PoolPc.leaving, hcons]
    | release after pc' ctx hpc' =>
        obtain ⟨htokens, hheld, hleaving⟩ := after.released hpc'
        rw [htokens, hheld, hleaving]
        cases after <;> simp [PoolPc.tokens, PoolPc.held, PoolPc.leaving, hcons]
    | _ =>
        simp [PoolPc.tokens, PoolPc.held, PoolPc.leaving, After.tokens, Caller.tokens, hcons]

/-- Every step but the creation of `q` keeps the account of `q`. -/
theorem PoolMove.refs {pool pool' : Pool} {pc pc' : PoolPc} (h : PoolMove pool pool' pc pc')
    (hnew : (pool.heap pool.next).ref = (pool.heap pool.next).mgrRef) (q : Ptr) :
    pool'.refAccount q + pc'.refs q = pool.refAccount q + pc.refs q := by
  unfold Pool.refAccount Pool.queued
  cases h with
  | quiet h =>
      obtain ⟨cb, sessionid, hq⟩ := h.heap q
      have hrefs : pc'.refs q = pc.refs q := by
        unfold PoolPc.refs PoolPc.retained
        rw [h.tokens, h.held, h.leaving.1, h.leaving.2]
      rw [hq, h.queue, h.lost, hrefs]
  | ctx p h hother hqueue hlost hnext =>
      have hrefs := h.refs (q := q)
      rw [hqueue, hlost]
      by_cases hq : q = p
      · rw [if_pos hq, if_pos hq] at hrefs
        subst hq
        omega
      · rw [if_neg hq, if_neg hq] at hrefs
        rw [hother q hq]
        omega
  | runPush p hpc hheap hnext hqueue =>
      have hrefs : pc.refs q = [p].count q + pc'.refs q := by
        rcases hpc with ⟨caller, rfl, rfl⟩ | ⟨rfl, rfl⟩
        · have hcount := @List.count_append _ _ q [p] caller.tokens
          simp only [PoolPc.refs, PoolPc.tokens, PoolPc.retained, PoolPc.held, PoolPc.leaving,
            List.append_nil, List.count_nil]
          rw [List.singleton_append] at hcount
          omega
        · simp [PoolPc.refs, PoolPc.tokens, PoolPc.retained, PoolPc.held, PoolPc.leaving]
      have hcount : (pool'.queue ++ pool'.lost).count q =
          (pool.queue ++ pool.lost).count q + [p].count q := by
        rcases hqueue with ⟨hqueue, hlost⟩ | ⟨hqueue, hlost⟩ <;>
          (rw [hqueue, hlost]
           simp only [List.count_append]
           omega)
      rw [hheap, hrefs, hcount]
      push_cast
      omega
  | runPop p hpc hheap hnext hqueue hlost =>
      obtain ⟨rfl, rfl⟩ := hpc
      have hcount : (pool.queue ++ pool.lost).count q =
          [p].count q + (pool'.queue ++ pool'.lost).count q := by
        rw [hqueue, hlost]
        exact @List.count_append _ _ q [p] _
      rw [hheap, hcount]
      simp only [PoolPc.refs, PoolPc.tokens, PoolPc.retained, PoolPc.held, PoolPc.leaving,
        List.append_nil, List.count_nil]
      push_cast
      omega
  | create caller caller' id name hpc hpc' hcaller hrunning hheap hnext hqueue hlost =>
      have hrefs : pc'.refs q = pc.refs q := by
        rw [hpc, hpc']
        simp only [PoolPc.refs, PoolPc.tokens, PoolPc.retained, PoolPc.held, PoolPc.leaving, hcaller]
      have hheap' : (pool'.heap q).ref - (pool'.heap q).mgrRef =
          (pool.heap q).ref - (pool.heap q).mgrRef := by
        rw [hheap]
        by_cases hq : q = pool.next
        · rw [hq, Function.update_self, hnew]
          simp [contextCreate]
        · rw [Function.update_of_ne hq]
      rw [hheap', hqueue, hlost, hrefs]

section Refs

variable {ι : Type} [DecidableEq ι] [Fintype ι]

/-- The count of a context is the manager's part and one for every token and
    every retained reference. -/
theorem pool_refs {workers : ι → Bool} {setsize : Nat} {c : Config ι Pool PoolThread}
    (h : Reachable (fire poolStep) (poolInit workers setsize) c) (p : Ptr) :
    (c.shared.heap p).ref =
      (c.shared.heap p).mgrRef + c.shared.queued.count p + ∑ i, (c.pcs i).pc.refs p := by
  have hacc : Reachable (fire poolStep) (poolInit workers setsize) c ∧
      ∀ p, c.shared.refAccount p + ∑ i, (c.pcs i).pc.refs p = 0 := by
    refine h.invariant (J := fun c : Config ι Pool PoolThread =>
      Reachable (fire poolStep) (poolInit workers setsize) c ∧
        ∀ p, c.shared.refAccount p + ∑ i, (c.pcs i).pc.refs p = 0)
      ⟨Reachable.refl _, fun p => ?_⟩ fun c a c' hc hf => ⟨hc.1.tail hf, fun p => ?_⟩
    · have hzero : ∀ i, ((poolInit workers setsize).pcs i).pc.refs p = 0 := by
        intro i
        rcases pool_init_pc workers setsize i with hpc | hpc <;>
          (rw [hpc]; rfl)
      rw [Finset.sum_eq_zero fun i _ => hzero i]
      rfl
    · -- nobody refers to the address that the next context will get
      have hnew : (c.shared.heap c.shared.next).ref = (c.shared.heap c.shared.next).mgrRef := by
        obtain ⟨hJ, hL⟩ := pool_bounded hc.1
        have hqueued : c.shared.queued.count c.shared.next = 0 :=
          List.count_eq_zero.mpr fun hmem => Nat.lt_irrefl _ (hJ.queued _ hmem)
        have hzero : ∀ i, (c.pcs i).pc.refs c.shared.next = 0 := by
          intro i
          have hnot : ∀ l : List Ptr, (∀ q ∈ l, q ∈ (c.pcs i).pc.ptrs) →
              l.count c.shared.next = 0 :=
            fun l hl => List.count_eq_zero.mpr fun hmem => Nat.lt_irrefl _ (hL i _ (hl _ hmem))
          unfold PoolPc.refs
          rw [hnot _ fun q hq => List.mem_append_left _ (List.mem_append_left _ hq),
            hnot _ fun q hq => List.mem_append_left _ (List.mem_append_right _ hq)]
          rfl
        have hzacc := hc.2 c.shared.next
        rw [Finset.sum_eq_zero fun i _ => hzero i] at hzacc
        unfold Pool.refAccount at hzacc
        omega
      rw [← hc.2 p]
      exact fire_sum (F := fun pool : Pool => pool.refAccount p)
        (f := fun th : PoolThread => th.pc.refs p)
        (fun _ _ _ _ hs => (pool_move (pool_step hs).2.1).refs hnew p) hf
  have hzero := hacc.2 p
  unfold Pool.refAccount at hzero
  omega

/-! ## The references as they are meant to be -/

/-- The count of every context is 1 for the manager until it gives its
    reference up, 1 for each scheduling whose holder has not released, and 1 for
    each caller that holds the context from `ctxMgrGetContext`. -/
structure PoolCounted (c : Config ι Pool PoolThread) : Prop where
  count : ∀ p, p < c.shared.next → (c.shared.heap p).ref = (c.shared.heap p).mgrRef +
    ((c.shared.heap p).inGlobal.toNat + ∑ i, ((c.pcs i).pc.leaving.count p : ℤ)) +
    ∑ i, ((c.pcs i).pc.held.count p : ℤ)
  /-- the manager's reference is given up once at most -/
  mgr_once : ∀ p, p < c.shared.next → (c.shared.heap p).mgrRef = 0 ∨ (c.shared.heap p).mgrRef = 1
  /-- `assert(contextRelease(ctx) != NULL)` has not failed -/
  exit_ok : c.shared.aborted ≠ some .exitReleased
  /-- freed exactly when the last of the references is gone -/
  freed_iff : ∀ p, p < c.shared.next → ((c.shared.heap p).freed = true ↔
    (c.shared.heap p).mgrRef = 0 ∧ (c.shared.heap p).inGlobal = false ∧
      ∀ i, p ∉ (c.pcs i).pc.retained)

/-- The condition on a step: EXIT is dispatched, and `ctxMgrStop` comes to a
    slot, only while the manager holds its reference, and `ctxMgrGetContext`
    retains only what is not freed. -/
def DropsOnce (c : Config ι Pool PoolThread) (a : ι × PoolEvent) : Prop :=
  match (c.pcs a.1).pc with
  | .exitRelease p _ => (c.shared.heap p).mgrRef = 1
  | .stopSlot i => ∀ p, i < c.shared.mgr.setsize →
      (c.shared.mgr.contexts[i]?).join = some p → (c.shared.heap p).mgrRef = 1
  | .sendRetain _ _ p _ => (c.shared.heap p).freed = false
  | _ => True

/-- The same in terms of the count alone, with the memory not yet in use. -/
structure RefOk (c : Config ι Pool PoolThread) : Prop where
  mgr_once : ∀ p, p < c.shared.next → (c.shared.heap p).mgrRef = 0 ∨ (c.shared.heap p).mgrRef = 1
  exit_ok : c.shared.aborted ≠ some .exitReleased
  freed_iff : ∀ p, p < c.shared.next → ((c.shared.heap p).freed = true ↔ (c.shared.heap p).ref = 0)
  fresh : ∀ p, c.shared.next ≤ p → (c.shared.heap p).freed = false

omit [Fintype ι] [DecidableEq ι] in
theorem PoolPc.refs_nonneg (pc : PoolPc) (p : Ptr) : 0 ≤ pc.refs p := by
  unfold PoolPc.refs
  omega

/-- The manager's reference and those of one thread are part of the count. -/
theorem pool_refs_le {workers : ι → Bool} {setsize : Nat} {c : Config ι Pool PoolThread}
    (h : Reachable (fire poolStep) (poolInit workers setsize) c) (p : Ptr) (i : ι) :
    (c.shared.heap p).mgrRef + (c.pcs i).pc.refs p ≤ (c.shared.heap p).ref := by
  have hrefs := pool_refs h p
  have hle := le_sum (fun th : PoolThread => th.pc.refs p) c.pcs i
    fun th => th.pc.refs_nonneg p
  omega

theorem pool_count {workers : ι → Bool} {setsize : Nat} {c : Config ι Pool PoolThread}
    (h : Reachable (fire poolStep) (poolInit workers setsize) c) (p : Ptr) :
    (c.shared.heap p).ref = (c.shared.heap p).mgrRef +
      ((c.shared.heap p).inGlobal.toNat + ∑ i, ((c.pcs i).pc.leaving.count p : ℤ)) +
      ∑ i, ((c.pcs i).pc.held.count p : ℤ) := by
  have hrefs := pool_refs h p
  have htokens := pool_tokens h p
  have hsplit : ∑ i, (c.pcs i).pc.refs p = ∑ i, ((c.pcs i).pc.tokens.count p : ℤ) +
      (∑ i, ((c.pcs i).pc.held.count p : ℤ) + ∑ i, ((c.pcs i).pc.leaving.count p : ℤ)) := by
    rw [← Finset.sum_add_distrib, ← Finset.sum_add_distrib]
    refine Finset.sum_congr rfl fun i _ => ?_
    unfold PoolPc.refs PoolPc.retained
    rw [List.count_append]
    push_cast
    rfl
  have hqueued : (c.shared.queued.count p : ℤ) =
      c.shared.queue.count p + c.shared.lost.count p := by
    unfold Pool.queued
    rw [List.count_append]
    push_cast
    rfl
  omega

theorem RefOk.counted {workers : ι → Bool} {setsize : Nat} {c : Config ι Pool PoolThread}
    (hr : Reachable (fire poolStep) (poolInit workers setsize) c) (h : RefOk c) : PoolCounted c := by
  refine ⟨fun p _ => pool_count hr p, h.mgr_once, h.exit_ok, fun p hp => ?_⟩
  have hcount := pool_count hr p
  have hleaving : 0 ≤ ∑ i, ((c.pcs i).pc.leaving.count p : ℤ) :=
    Finset.sum_nonneg fun _ _ => Int.natCast_nonneg _
  have hheld : 0 ≤ ∑ i, ((c.pcs i).pc.held.count p : ℤ) :=
    Finset.sum_nonneg fun _ _ => Int.natCast_nonneg _
  rw [h.freed_iff p hp]
  constructor
  · intro hzero
    have hmgr := h.mgr_once p hp
    refine ⟨by omega, ?_, fun i hi => ?_⟩
    · cases hglobal : (c.shared.heap p).inGlobal with
      | false => rfl
      | true =>
          rw [hglobal] at hcount
          simp only [Bool.toNat_true] at hcount
          omega
    · -- a retained reference is in one of the two sums
      have hle := pool_refs_le hr p i
      have hpos : 0 < (c.pcs i).pc.retained.count p := List.count_pos_iff.mpr hi
      unfold PoolPc.refs at hle
      omega
  · rintro ⟨hmgr, hglobal, hnone⟩
    have hzero : ∀ i, (c.pcs i).pc.held.count p = 0 ∧ (c.pcs i).pc.leaving.count p = 0 := by
      intro i
      have hcount0 := List.count_eq_zero.mpr (hnone i)
      unfold PoolPc.retained at hcount0
      rw [List.count_append] at hcount0
      omega
    rw [hcount, hmgr, hglobal, Finset.sum_eq_zero fun i _ => by rw [(hzero i).2]; rfl,
      Finset.sum_eq_zero fun i _ => by rw [(hzero i).1]; rfl]
    rfl

/-! ## One step -/

omit [DecidableEq ι] [Fintype ι] in
/-- The record that a step changes. -/
theorem CtxMove.refOk {p : Ptr} {pc pc' : PoolPc} {ctx ctx' : Context}
    (h : CtxMove p pc ctx pc' ctx') (hmgr : ctx.mgrRef = 0 ∨ ctx.mgrRef = 1)
    (hfreed : ctx.freed = true ↔ ctx.ref = 0) (hrefs : ctx.mgrRef + pc.refs p ≤ ctx.ref)
    (hdrop : (∃ msg, pc = .exitRelease p msg) ∨ (∃ i, pc = .stopSlot i) → ctx.mgrRef = 1)
    (hretain : ∀ caller from? msg, pc = .sendRetain caller from? p msg → ctx.freed = false) :
    (ctx'.mgrRef = 0 ∨ ctx'.mgrRef = 1) ∧ (ctx'.freed = true ↔ ctx'.ref = 0) := by
  have hnonneg := pc.refs_nonneg p
  have hrelease : ∀ ctx : Context, 1 ≤ ctx.ref → (ctx.freed = true ↔ ctx.ref = 0) →
      ((contextRelease ctx).1.freed = true ↔ (contextRelease ctx).1.ref = 0) := by
    intro ctx hpos hfreed
    rw [contextRelease_freed, contextRelease_ref, hfreed]
    omega
  cases h with
  | retain caller from? msg pc' ctx hpc' =>
      refine ⟨hmgr, ?_⟩
      show ctx.freed = true ↔ ctx.ref + 1 = 0
      rw [hretain caller from? msg rfl]
      constructor
      · intro h
        cases h
      · omega
  | release after pc' ctx hpc' =>
      have hone : 1 ≤ (PoolPc.release after p).refs p := by
        cases after <;> simp [PoolPc.refs, PoolPc.retained, PoolPc.held, PoolPc.leaving]
      rw [contextRelease_mgrRef]
      exact ⟨hmgr, hrelease ctx (by omega) hfreed⟩
  | stop i ctx =>
      have hone := hdrop (Or.inr ⟨i, rfl⟩)
      refine ⟨Or.inl ?_, hrelease { ctx with mgrRef := ctx.mgrRef - 1 } (by simp only; omega) hfreed⟩
      simp only [contextReleaseMgr, contextRelease_mgrRef]
      omega
  | exit msg ctx =>
      have hone := hdrop (Or.inl ⟨msg, rfl⟩)
      refine ⟨Or.inl ?_, hrelease { ctx with mgrRef := ctx.mgrRef - 1 } (by simp only; omega) hfreed⟩
      simp only [contextReleaseMgr, contextRelease_mgrRef]
      omega
  | _ => exact ⟨hmgr, hfreed⟩

omit [DecidableEq ι] [Fintype ι] in
/-- Only a release frees, and only what the thread can get at. -/
theorem CtxMove.freed {p : Ptr} {pc pc' : PoolPc} {ctx ctx' : Context}
    (h : CtxMove p pc ctx pc' ctx') (hfreed : ctx.freed = false) (hfreed' : ctx'.freed = true) :
    p ∈ pc.ptrs ∨ ∃ i, pc = .stopSlot i := by
  cases h with
  | release after pc' ctx hpc' =>
      refine Or.inl ?_
      cases after <;> simp [PoolPc.ptrs, PoolPc.retained, PoolPc.held, PoolPc.leaving]
  | stop i ctx => exact Or.inr ⟨i, rfl⟩
  | exit msg ctx => exact Or.inl (by simp [PoolPc.ptrs, PoolPc.tokens])
  | _ => exact absurd (hfreed.symm.trans hfreed') Bool.false_ne_true

omit [DecidableEq ι] [Fintype ι] in
theorem CtxMove.stop_ne {p : Ptr} {i : Nat} {pc' : PoolPc} {ctx ctx' : Context}
    (h : CtxMove p (.stopSlot i) ctx pc' ctx') : ctx' ≠ ctx := by
  cases h with
  | stop i ctx =>
      intro heq
      have href := congrArg Context.ref heq
      simp only [contextReleaseMgr, contextRelease_ref] at href
      omega

omit [Fintype ι] in
/-- What `DropsOnce` says of a slot that `ctxMgrStop` changes. -/
theorem DropsOnce.slot {workers : ι → Bool} {setsize : Nat} {c : Config ι Pool PoolThread}
    {a : ι × PoolEvent} {pool' : Pool} {pc' : PoolPc}
    (hr : Reachable (fire poolStep) (poolInit workers setsize) c) (hok : DropsOnce c a)
    (hsrc : PoolSource c.shared pool' (c.pcs a.1).pc pc') {i : Nat} {p : Ptr}
    (hpc : (c.pcs a.1).pc = .stopSlot i) (hne : pool'.heap p ≠ c.shared.heap p) :
    p < c.shared.next ∧ (c.shared.heap p).mgrRef = 1 := by
  obtain ⟨hi, hp⟩ := hsrc.stop i p hpc hne
  simp only [DropsOnce, hpc] at hok
  exact ⟨(pool_bounded hr).1.table p (CtxMgr.mem_ptrs_of_slot hp), hok p hi hp⟩

/-- A context that is in use before the step. -/
theorem RefOk.step_old {workers : ι → Bool} {setsize : Nat} {c : Config ι Pool PoolThread}
    {a : ι × PoolEvent} {pool' : Pool} {pc' : PoolPc}
    (hr : Reachable (fire poolStep) (poolInit workers setsize) c) (h : RefOk c)
    (hmove : PoolMove c.shared pool' (c.pcs a.1).pc pc')
    (hsrc : PoolSource c.shared pool' (c.pcs a.1).pc pc') (hok : DropsOnce c a) {p : Ptr}
    (hp : p < c.shared.next) :
    ((pool'.heap p).mgrRef = 0 ∨ (pool'.heap p).mgrRef = 1) ∧
      ((pool'.heap p).freed = true ↔ (pool'.heap p).ref = 0) := by
  have hmgr := h.mgr_once p hp
  have hfreed := h.freed_iff p hp
  cases hmove with
  | quiet hquiet =>
      obtain ⟨cb, sessionid, hheap⟩ := hquiet.heap p
      rw [hheap]
      exact ⟨hmgr, hfreed⟩
  | ctx q hctx hother hqueue hlost hnext =>
      by_cases hq : p = q
      · subst hq
        refine hctx.refOk hmgr hfreed (pool_refs_le hr p a.1) ?_ fun caller from? msg hpc => ?_
        · rintro (⟨msg, hpc⟩ | ⟨i, hpc⟩)
          · simp only [DropsOnce, hpc] at hok
            exact hok
          · rw [hpc] at hctx
            exact (hok.slot hr hsrc hpc hctx.stop_ne).2
        · simp only [DropsOnce, hpc] at hok
          exact hok
      · rw [hother p hq]
        exact ⟨hmgr, hfreed⟩
  | runPush q hpc hheap hnext hqueue =>
      rw [hheap]
      exact ⟨hmgr, hfreed⟩
  | runPop q hpc hheap hnext hqueue hlost =>
      rw [hheap]
      exact ⟨hmgr, hfreed⟩
  | create caller caller' id name hpc hpc' hcaller hrunning hheap hnext hqueue hlost =>
      rw [hheap, Function.update_of_ne (Nat.ne_of_lt hp)]
      exact ⟨hmgr, hfreed⟩

omit [Fintype ι] in
/-- Memory that is not in use is not marked as freed. -/
theorem RefOk.step_fresh {workers : ι → Bool} {setsize : Nat} {c : Config ι Pool PoolThread}
    {a : ι × PoolEvent} {pool' : Pool} {pc' : PoolPc}
    (hr : Reachable (fire poolStep) (poolInit workers setsize) c) (h : RefOk c)
    (hmove : PoolMove c.shared pool' (c.pcs a.1).pc pc')
    (hsrc : PoolSource c.shared pool' (c.pcs a.1).pc pc') (hok : DropsOnce c a) {p : Ptr}
    (hp : c.shared.next ≤ p) : (pool'.heap p).freed = false := by
  have hfresh := h.fresh p hp
  cases hmove with
  | quiet hquiet =>
      obtain ⟨cb, sessionid, hheap⟩ := hquiet.heap p
      rw [hheap]
      exact hfresh
  | ctx q hctx hother hqueue hlost hnext =>
      by_cases hq : p = q
      · subst hq
        apply Bool.eq_false_iff.mpr
        intro hfreed
        rcases hctx.freed hfresh hfreed with hmem | ⟨i, hpc⟩
        · exact absurd ((pool_bounded hr).2 a.1 p hmem) (Nat.not_lt.mpr hp)
        · rw [hpc] at hctx
          exact absurd (hok.slot hr hsrc hpc hctx.stop_ne).1 (Nat.not_lt.mpr hp)
      · rw [hother p hq]
        exact hfresh
  | runPush q hpc hheap hnext hqueue =>
      rw [hheap]
      exact hfresh
  | runPop q hpc hheap hnext hqueue hlost =>
      rw [hheap]
      exact hfresh
  | create caller caller' id name hpc hpc' hcaller hrunning hheap hnext hqueue hlost =>
      rw [hheap]
      by_cases hnew : p = c.shared.next
      · rw [hnew] at hfresh ⊢
        rw [Function.update_self]
        exact hfresh
      · rw [Function.update_of_ne hnew]
        exact hfresh

theorem RefOk.step {workers : ι → Bool} {setsize : Nat} {c c' : Config ι Pool PoolThread}
    {a : ι × PoolEvent} (hr : Reachable (fire poolStep) (poolInit workers setsize) c)
    (h : RefOk c) (hf : fire poolStep c a = some c') (hok : DropsOnce c a) : RefOk c' := by
  obtain ⟨pool', th', hs, rfl⟩ := fire_eq_some.mp hf
  obtain ⟨-, hstep, -⟩ := pool_step hs
  have hmove := pool_move hstep
  have hsrc := pool_source hstep
  -- a context in use after the step was in use before, or is the new one
  have hall : ∀ p, p < pool'.next →
      ((pool'.heap p).mgrRef = 0 ∨ (pool'.heap p).mgrRef = 1) ∧
        ((pool'.heap p).freed = true ↔ (pool'.heap p).ref = 0) := by
    intro p hp
    by_cases hlt : p < c.shared.next
    · exact h.step_old hr hmove hsrc hok hlt
    · have hfresh := h.step_fresh hr hmove hsrc hok (Nat.not_lt.mp hlt)
      cases hmove with
      | create caller caller' id name hpc hpc' hcaller hrunning hheap hnext hqueue hlost =>
          rw [hnext] at hp
          have hnew : p = c.shared.next :=
            Nat.le_antisymm (Nat.lt_succ_iff.mp hp) (Nat.not_lt.mp hlt)
          subst hnew
          have hone : (pool'.heap c.shared.next).mgrRef = 1 ∧
              (pool'.heap c.shared.next).ref = 1 := by
            rw [hheap, Function.update_self]
            exact ⟨rfl, rfl⟩
          rw [hfresh, hone.1, hone.2]
          exact ⟨Or.inr rfl, by decide⟩
      | quiet hquiet => exact absurd (hquiet.next ▸ hp) hlt
      | ctx q hctx hother hqueue hlost hnext => exact absurd (hnext ▸ hp) hlt
      | runPush q hpc hheap hnext hqueue => exact absurd (hnext ▸ hp) hlt
      | runPop q hpc hheap hnext hqueue hlost => exact absurd (hnext ▸ hp) hlt
  refine ⟨fun p hp => (hall p hp).1, fun habort => ?_, fun p hp => (hall p hp).2, fun p hp => ?_⟩
  · rcases hsrc.exitReleased habort with hbefore | ⟨p, msg, hpc, href⟩
    · exact h.exit_ok hbefore
    · -- the worker's own reference keeps the count above the manager's
      simp only [DropsOnce, hpc] at hok
      have hle := pool_refs_le hr p a.1
      have hone : 1 ≤ (PoolPc.exitRelease p msg).refs p := by
        simp [PoolPc.refs, PoolPc.tokens]
      rw [hpc] at hle
      omega
  · exact h.step_fresh hr hmove hsrc hok (Nat.le_trans hmove.next_le hp)

/-- A step that does not meet the condition spoils the count at once. -/
theorem dropsOnce_of_counted {workers : ι → Bool} {setsize : Nat} {c c' : Config ι Pool PoolThread}
    {a : ι × PoolEvent} (hr : Reachable (fire poolStep) (poolInit workers setsize) c)
    (h : RefOk c) (hf : fire poolStep c a = some c') (hc' : PoolCounted c') : DropsOnce c a := by
  obtain ⟨pool', th', hs, rfl⟩ := fire_eq_some.mp hf
  obtain ⟨-, hstep, -⟩ := pool_step hs
  obtain ⟨hJ, hL⟩ := pool_bounded hr
  have hle := (pool_move hstep).next_le
  have hmgr : ∀ p, p < c.shared.next → (pool'.heap p).mgrRef = (c.shared.heap p).mgrRef - 1 →
      (c.shared.heap p).mgrRef = 1 := by
    intro p hp hdrop
    have hbefore := h.mgr_once p hp
    have hafter := hc'.mgr_once p (Nat.lt_of_lt_of_le hp hle)
    simp only at hafter
    omega
  unfold DropsOnce
  split
  · rename_i p msg hpc
    have hp : p < c.shared.next := by
      apply hL a.1
      rw [hpc]
      simp [PoolPc.ptrs, PoolPc.tokens]
    apply hmgr p hp
    rw [hpc] at hstep
    simp only [poolPcStep] at hstep
    split at hstep <;>
      (simp only [Option.some.injEq, Prod.mk.injEq] at hstep
       obtain ⟨rfl, -⟩ := hstep
       simp [Pool.zfree, contextReleaseMgr])
  · rename_i i hpc
    intro p hi hslot
    apply hmgr p (hJ.table p (CtxMgr.mem_ptrs_of_slot hslot))
    rw [hpc] at hstep
    simp only [poolPcStep, if_pos hi, hslot, Option.some.injEq, Prod.mk.injEq] at hstep
    obtain ⟨rfl, -⟩ := hstep
    simp [contextReleaseMgr]
  · rename_i caller from? p msg hpc
    have hp : p < c.shared.next := by
      apply hL a.1
      rw [hpc]
      simp [PoolPc.ptrs, PoolPc.target]
    by_contra hfreed
    -- a freed context that is retained again
    rw [hpc] at hstep
    simp only [poolPcStep, Option.some.injEq, Prod.mk.injEq] at hstep
    obtain ⟨rfl, hpc'⟩ := hstep
    have hfreed' : ((c.shared.set p (contextRetain (c.shared.heap p))).heap p).freed = true := by
      rw [Pool.set_heap]
      exact Bool.eq_true_of_not_eq_false hfreed
    obtain ⟨-, -, hnone⟩ := (hc'.freed_iff p hp).mp hfreed'
    refine hnone a.1 ?_
    show p ∈ (Function.update c.pcs a.1 th' a.1).pc.retained
    rw [Function.update_self, ← hpc']
    split <;> simp [PoolPc.retained, PoolPc.held]
  · trivial

/-! ## Runs -/

/-- References are counted as they are meant to be in a run exactly when the
    manager's reference is asked for once only and no freed context is
    retained. -/
theorem pool_counted_iff (workers : ι → Bool) (setsize : Nat) (as : List (ι × PoolEvent)) :
    Always (fire poolStep) PoolCounted (poolInit workers setsize) as ↔
      AllSteps (fire poolStep) DropsOnce (poolInit workers setsize) as := by
  refine always_iff_allSteps
    (J := fun c => Reachable (fire poolStep) (poolInit workers setsize) c ∧ RefOk c)
    (fun _ h => h.2.counted h.1)
    (fun _ _ _ h hs hok => ⟨h.1.tail hs, h.2.step h.1 hs hok⟩)
    (fun _ _ _ h hs hc' => dropsOnce_of_counted h.1 h.2 hs hc') ⟨Reachable.refl _, ?_⟩
  exact ⟨fun p hp => absurd hp (Nat.not_lt_zero p), (by rintro ⟨⟩),
    fun p hp => absurd hp (Nat.not_lt_zero p), fun _ _ => rfl⟩

/-- EXIT is queued, `ctxMgrStop` gives the manager's reference up, and the
    dispatch of EXIT gives it up again: the assertion fails. -/
theorem exit_after_stop :
    let run : List (Fin 2 × PoolEvent) :=
      [(1, .create), (1, .setCallback true), (1, .send true 0 1 0 MSG_TYPE_EXIT_CONTEXT none 0 0)] ++
        List.replicate 7 (1, .go) ++ [(1, .ret 0), (1, .stop), (1, .go), (1, .go)] ++
        List.replicate 4 (0, .go)
    ¬ Always (fire poolStep) PoolCounted (poolInit (fun i => i = 0) 1) run := by
  intro run h
  have hrun : ∃ c, runFrom (fire poolStep) (poolInit (fun i => i = 0) 1) run = some c ∧
      c.shared.aborted = some .exitReleased := ⟨_, rfl, rfl⟩
  obtain ⟨c, hc, habort⟩ := hrun
  exact (h.last hc).exit_ok habort

end Refs

end ZServer
