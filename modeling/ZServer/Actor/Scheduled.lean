/-
  ZServer.Actor.Scheduled

  Contexts that are scheduled and that nobody will ever look at.

  Both callers of `contextQueuePush` ignore its answer.  A context whose push is
  answered "full" keeps `inGlobal = 1`, so that no sender schedules it again.
  `scheduled_iff` says that nothing else drops a context.
-/

import ZServer.Actor.Isolation

namespace ZServer

open Lib

variable {ι : Type}

/-- A sender stands between its winning CAS on `inGlobal` and the end of its push. -/
def PoolPc.scheduling : PoolPc → Option Ptr
  | .sendRun _ toctx => some toctx
  | _ => none

/-- Every scheduled context is in the run queue, or held by a worker, or by a
    sender that is about to push it. -/
def Scheduled (c : Config ι Pool PoolThread) : Prop :=
  ∀ p, (c.shared.heap p).inGlobal = true → p ∈ c.shared.queue ∨
    (∃ i, (c.pcs i).pc.holding = some p) ∨ ∃ i, (c.pcs i).pc.scheduling = some p

/-- The condition on a step: a push into the run queue is not answered "full". -/
def RunQueueFits (c : Config ι Pool PoolThread) (a : ι × PoolEvent) : Prop :=
  match (c.pcs a.1).pc with
  | .sendRun _ _ | .requeue _ => c.shared.queue.length < queueRoom ∧ a.2 ≠ .full
  | _ => True

/-! ## Who carries a token -/

theorem Caller.running_of_mem {caller : Caller} {p : Ptr} (hp : p ∈ caller.tokens) :
    caller.running.map Prod.fst = some p := by
  induction caller with
  | outside => cases hp
  | callback ctx msg =>
      rw [List.mem_singleton.mp hp]
      rfl
  | init ctx id caller ih => exact ih hp

/-- A thread carries the token of the context that it holds, or schedules. -/
theorem PoolPc.of_mem_tokens {pc : PoolPc} {p : Ptr} (hp : p ∈ pc.tokens) :
    pc.holding = some p ∨ pc.scheduling = some p := by
  cases pc with
  | sendRun caller toctx =>
      rcases List.mem_cons.mp hp with rfl | hp
      · exact Or.inr rfl
      · exact Or.inl (Caller.running_of_mem hp)
  | release after ctx | remove after ctx =>
      cases after with
      | user caller => exact Or.inl (Caller.running_of_mem hp)
      | worker => cases hp
  | user caller | sendGet caller _ _ _ | sendRetain caller _ _ _ | sendSession caller _ _ _
  | sendSessionCas caller _ _ _ | sendSessionRead caller _ _ _ | sendPush caller _ _
  | sendCas caller _ => exact Or.inl (Caller.running_of_mem hp)
  | dispatch ctx | dispatchMsg ctx _ _ | exitRelease ctx _ | giveUp ctx | haveWork ctx
  | requeue ctx =>
      rw [List.mem_singleton.mp hp]
      exact Or.inl rfl
  | _ => cases hp

theorem PoolPc.scheduling_mem_tokens {pc : PoolPc} {p : Ptr} (h : pc.scheduling = some p) :
    p ∈ pc.tokens := by
  cases pc with
  | sendRun caller toctx =>
      cases h
      exact List.mem_cons_self
  | _ => cases h

/-! ## The contexts that were lost -/

section

variable [DecidableEq ι] [Fintype ι] {workers : ι → Bool} {setsize : Nat}
  {c : Config ι Pool PoolThread}

/-- A scheduled context has its one token somewhere, unless it was lost. -/
theorem scheduled_of_not_lost (h : Reachable (fire poolStep) (poolInit workers setsize) c)
    (hlost : c.shared.lost = []) : Scheduled c := by
  intro p hp
  have htokens := pool_tokens h p
  rw [hp, hlost, List.count_nil] at htokens
  by_cases hqueue : p ∈ c.shared.queue
  · exact Or.inl hqueue
  · rw [List.count_eq_zero_of_not_mem hqueue] at htokens
    have hsum : ∑ i, ((c.pcs i).pc.tokens.count p : ℤ) ≠ 0 := by
      rw [Bool.toNat_true] at htokens
      omega
    obtain ⟨i, -, hi⟩ := Finset.exists_ne_zero_of_sum_ne_zero hsum
    have hmem : p ∈ (c.pcs i).pc.tokens := by
      refine List.count_pos_iff.mp (Nat.pos_of_ne_zero fun hzero => hi ?_)
      rw [hzero]
      rfl
    exact Or.inr ((PoolPc.of_mem_tokens hmem).imp (fun hi => ⟨i, hi⟩) fun hi => ⟨i, hi⟩)

/-- A context that was lost is scheduled, and nobody has it. -/
theorem not_scheduled_of_lost (h : Reachable (fire poolStep) (poolInit workers setsize) c)
    {p : Ptr} (hp : p ∈ c.shared.lost) : ¬ Scheduled c := by
  intro hscheduled
  have htokens := pool_tokens h p
  have hbool := Bool.toNat_le (c.shared.heap p).inGlobal
  have hcount := List.count_pos_iff.mpr hp
  have hnonneg : ∀ i, (0 : ℤ) ≤ ((c.pcs i).pc.tokens.count p : ℤ) := fun _ => Int.natCast_nonneg _
  have hsum := Finset.sum_nonneg fun i (_ : i ∈ Finset.univ) => hnonneg i
  have hglobal : (c.shared.heap p).inGlobal = true := by
    cases hg : (c.shared.heap p).inGlobal with
    | true => rfl
    | false =>
        rw [hg, Bool.toNat_false] at htokens
        omega
  -- its one token is the lost one
  have hnobody : ∀ i, p ∉ (c.pcs i).pc.tokens := fun i hi => by
    have hle := le_sum (fun th : PoolThread => (th.pc.tokens.count p : ℤ)) c.pcs i
      fun _ => Int.natCast_nonneg _
    have hpos := List.count_pos_iff.mpr hi
    omega
  rcases hscheduled p hglobal with hqueue | ⟨i, hi⟩ | ⟨i, hi⟩
  · have hpos := List.count_pos_iff.mpr hqueue
    omega
  · exact hnobody i (PoolPc.holding_mem_tokens hi)
  · exact hnobody i (PoolPc.scheduling_mem_tokens hi)

end

/-! ## Runs -/

theorem Pool.runPush_lost (pool : Pool) (p : Ptr) (e : PoolEvent) :
    (pool.runPush p e).lost = pool.lost ++
      if pool.queue.length < queueRoom ∧ e ≠ .full then [] else [p] := by
  unfold Pool.runPush
  split
  · exact (List.append_nil _).symm
  · rfl

/-- Only a push into the run queue can lose a context. -/
theorem PoolMove.lost_eq {pool pool' : Pool} {pc pc' : PoolPc} (h : PoolMove pool pool' pc pc')
    (hsender : pc.scheduling = none) (hworker : ∀ p, pc ≠ .requeue p) : pool'.lost = pool.lost := by
  cases h with
  | quiet h => exact h.lost
  | ctx p h hother hqueue hlost hnext => exact hlost
  | runPush p hpc hheap hnext hqueue =>
      rcases hpc with ⟨caller, rfl, -⟩ | ⟨rfl, -⟩
      · cases hsender
      · exact absurd rfl (hworker p)
  | runPop p hpc hheap hnext hqueue hlost => exact hlost
  | create caller caller' id name hpc hpc' hcaller hrunning hheap hnext hqueue hlost => exact hlost

theorem fire_lost [DecidableEq ι] {c c' : Config ι Pool PoolThread} {a : ι × PoolEvent}
    (hlost : c.shared.lost = []) (hf : fire poolStep c a = some c') :
    c'.shared.lost = [] ↔ RunQueueFits c a := by
  obtain ⟨pool', th', hs, rfl⟩ := fire_eq_some.mp hf
  have hstep := (pool_step hs).2.1
  have hpush : ∀ p, (c.shared.runPush p a.2).lost = [] ↔
      c.shared.queue.length < queueRoom ∧ a.2 ≠ .full := fun p => by
    rw [Pool.runPush_lost, hlost, List.nil_append]
    split <;> simp_all
  have hother : (c.pcs a.1).pc.scheduling = none → (∀ p, (c.pcs a.1).pc ≠ .requeue p) →
      pool'.lost = [] := fun hsender hworker =>
    ((pool_move hstep).lost_eq hsender hworker).trans hlost
  unfold RunQueueFits
  cases hpc : (c.pcs a.1).pc with
  | sendRun caller toctx | requeue ctx =>
      rw [hpc] at hstep
      have hpool : c.shared.runPush _ a.2 = pool' := congrArg Prod.fst (Option.some.inj hstep)
      rw [← hpool]
      exact hpush _
  | _ =>
      rw [hpc] at hother
      exact iff_of_true (hother rfl (by rintro _ ⟨⟩)) trivial

/-- No scheduled context is dropped in a run exactly when no push into the run
    queue is answered "full". -/
theorem scheduled_iff [DecidableEq ι] [Fintype ι] (workers : ι → Bool) (setsize : Nat)
    (as : List (ι × PoolEvent)) :
    Always (fire poolStep) Scheduled (poolInit workers setsize) as ↔
      AllSteps (fire poolStep) RunQueueFits (poolInit workers setsize) as := by
  refine always_iff_allSteps (J := fun c => c.shared.lost = [] ∧
    Reachable (fire poolStep) (poolInit workers setsize) c)
    (fun c h => scheduled_of_not_lost h.2 h.1) (fun c a c' h hf hok => ?_) (fun c a c' h hf hP => ?_)
    ⟨rfl, Reachable.refl _⟩
  · exact ⟨(fire_lost h.1 hf).mpr hok, h.2.tail hf⟩
  · refine (fire_lost h.1 hf).mp (List.eq_nil_iff_forall_not_mem.mpr fun p hp => ?_)
    exact not_scheduled_of_lost (h.2.tail hf) hp hP

/-- Thread 1 wins the CAS of context 1 and has read the write index of the run
    queue; thread 2 schedules context 2, which a worker takes.  With that the read
    index has moved, and the push of thread 1 takes the queue for full. -/
theorem scheduled_context_dropped :
    ¬ ∀ (ι : Type) [DecidableEq ι] [Fintype ι] (workers : ι → Bool) (setsize : Nat)
      (as : List (ι × PoolEvent)),
      Always (fire poolStep) Scheduled (poolInit workers setsize) as := by
  intro h
  let send (i : Fin 3) (toId : Nat) : List (Fin 3 × PoolEvent) :=
    (i, .send false 5 toId 7 2 none 0 0) :: List.replicate 4 (i, .go)
  let create : List (Fin 3 × PoolEvent) := [(1, .create), (1, .ret 0)]
  let run := create ++ create ++ send 1 1 ++ send 2 2 ++ [(2, .go), (0, .go), (1, .full)]
  have hrun : ∃ c, runFrom (fire poolStep) (poolInit (fun i : Fin 3 => i = 0) 4) run = some c ∧
      (c.shared.heap 0).inGlobal = true ∧ 0 ∉ c.shared.queue ∧
      (∀ i, (c.pcs i).pc.holding ≠ some 0) ∧ ∀ i, (c.pcs i).pc.scheduling ≠ some 0 :=
    ⟨_, rfl, rfl, by decide, by decide, by decide⟩
  obtain ⟨c, hc, hglobal, hqueue, hholding, hscheduling⟩ := hrun
  rcases (h (Fin 3) (fun i => i = 0) 4 run).last hc 0 hglobal with hq | ⟨i, hi⟩ | ⟨i, hi⟩
  · exact hqueue hq
  · exact hholding i hi
  · exact hscheduling i hi

end ZServer
