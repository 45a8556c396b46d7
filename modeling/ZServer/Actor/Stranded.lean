/-
  ZServer.Actor.Stranded

  Messages that nobody is scheduled to take.

  A worker that gives a context up has looked into its queue before.  When a
  sender pushes after that look and loses its CAS before the worker's CAS back
  to 0, the message stays in a queue that nobody is scheduled to drain; so do
  the messages behind one that was dropped for want of a callback, or behind
  EXIT.  `no_stranded_iff` says that there is no other way.
-/

import ZServer.Actor.Moves

namespace ZServer

open Lib

variable {ι : Type}

/-- A sender stands between its push to `p` and its CAS. -/
def AboutToSchedule (c : Config ι Pool PoolThread) (p : Ptr) : Prop :=
  ∃ i, (c.pcs i).pc.casing = some p

/-- A context that is not freed and has messages is scheduled, or a sender is
    about to schedule it. -/
def NoStranded (c : Config ι Pool PoolThread) : Prop :=
  ∀ p, (c.shared.heap p).freed = false → (c.shared.heap p).queue ≠ [] →
    (c.shared.heap p).inGlobal = true ∨ AboutToSchedule c p

/-- The condition on a step: a worker that gives up a context that is not freed
    leaves no message behind, or a sender that is about to schedule it. -/
def GivesUpEmpty (c : Config ι Pool PoolThread) (a : ι × PoolEvent) : Prop :=
  match (c.pcs a.1).pc with
  | .giveUp p => (c.shared.heap p).freed = false →
      (c.shared.heap p).queue = [] ∨ AboutToSchedule c p
  | _ => True

/-! ## One step -/

section Step

variable [DecidableEq ι] {c : Config ι Pool PoolThread} {i : ι} {pool' : Pool} {th' : PoolThread}

/-- The other senders stay where they are. -/
theorem AboutToSchedule.frame {p : Ptr} (h : AboutToSchedule c p)
    (hi : (c.pcs i).pc.casing ≠ some p) :
    AboutToSchedule ⟨pool', Function.update c.pcs i th'⟩ p := by
  obtain ⟨j, hj⟩ := h
  have hji : j ≠ i := by
    intro hji
    rw [hji] at hj
    exact hi hj
  refine ⟨j, ?_⟩
  show (Function.update c.pcs i th' j).pc.casing = some p
  rw [Function.update_of_ne hji]
  exact hj

/-- Only a step to the CAS makes a thread about to schedule. -/
theorem AboutToSchedule.of_frame {p : Ptr}
    (h : AboutToSchedule ⟨pool', Function.update c.pcs i th'⟩ p) (hi : th'.pc.casing ≠ some p) :
    AboutToSchedule c p := by
  obtain ⟨j, hj⟩ := h
  refine ⟨j, ?_⟩
  by_cases hji : j = i
  · subst hji
    simp only [Function.update_self] at hj
    exact absurd hj hi
  · simp only [Function.update_of_ne hji] at hj
    exact hj

theorem CtxMove.casing {p q : Ptr} {pc pc' : PoolPc} {ctx ctx' : Context}
    (h : CtxMove p pc ctx pc' ctx') (hq : pc.casing = some q) : q = p := by
  cases h <;> cases hq <;> rfl

theorem PoolPc.casing_giveUp (p q : Ptr) : (PoolPc.giveUp p).casing ≠ some q := by
  rintro ⟨⟩

/-- The context `p` whose record the step changes. -/
theorem no_stranded_ctx {p : Ptr} (h : NoStranded c)
    (hmove : CtxMove p (c.pcs i).pc (c.shared.heap p) th'.pc (pool'.heap p))
    (hgive : (c.pcs i).pc = .giveUp p → (c.shared.heap p).freed = false →
      (c.shared.heap p).queue = [] ∨ AboutToSchedule c p)
    (hfreed : (pool'.heap p).freed = false) (hqueue : (pool'.heap p).queue ≠ []) :
    (pool'.heap p).inGlobal = true ∨
      AboutToSchedule ⟨pool', Function.update c.pcs i th'⟩ p := by
  have hsame : (c.pcs i).pc.casing ≠ some p → (c.shared.heap p).freed = false →
      (c.shared.heap p).queue ≠ [] → (c.shared.heap p).inGlobal = true ∨
        AboutToSchedule ⟨pool', Function.update c.pcs i th'⟩ p := by
    intro hi hf hq
    rcases h p hf hq with hglobal | hsender
    · exact Or.inl hglobal
    · exact Or.inr (hsender.frame hi)
  generalize hpc : (c.pcs i).pc = pc at *
  generalize hctx : c.shared.heap p = ctx at *
  generalize hpc' : th'.pc = pc' at *
  generalize hctx' : pool'.heap p = ctx' at *
  have hrelease : ∀ ctx : Context, (contextRelease ctx).1.freed = false → ctx.freed = false := by
    intro ctx hf
    apply Bool.eq_false_iff.mpr
    intro htrue
    rw [(contextRelease_freed ctx).mpr (Or.inl htrue)] at hf
    cases hf
  cases hmove with
  | retain caller from? msg pc' ctx hpc' => exact hsame (by rintro ⟨⟩) hfreed hqueue
  | push caller msg ctx =>
      refine Or.inr ⟨i, ?_⟩
      show (Function.update c.pcs i th' i).pc.casing = some p
      rw [Function.update_self, hpc']
      rfl
  | casWin caller ctx hglobal => exact Or.inl rfl
  | casLose caller ctx hglobal => exact Or.inl hglobal
  | release after pc' ctx hpc' =>
      rw [contextRelease_queue] at hqueue
      rw [contextRelease_inGlobal]
      exact hsame (by rintro ⟨⟩) (hrelease ctx hfreed) hqueue
  | stop n ctx | exit msg ctx =>
      simp only [contextReleaseMgr, contextRelease_queue] at hqueue
      simp only [contextReleaseMgr, contextRelease_inGlobal]
      exact hsame (by rintro ⟨⟩) (hrelease { ctx with mgrRef := ctx.mgrRef - 1 } hfreed) hqueue
  | take msg queue ctx hq =>
      refine hsame (by rintro ⟨⟩) hfreed ?_
      rw [hq]
      exact List.cons_ne_nil _ _
  | handle msg pos ctx => exact hsame (by rintro ⟨⟩) hfreed hqueue
  | giveUp ctx hglobal =>
      rcases hgive rfl hfreed with hempty | hsender
      · exact absurd hempty hqueue
      · refine Or.inr (hsender.frame ?_)
        rw [hpc]
        exact PoolPc.casing_giveUp p p

theorem no_stranded_step {c' : Config ι Pool PoolThread} {a : ι × PoolEvent} (h : NoStranded c)
    (hf : fire poolStep c a = some c') (hok : GivesUpEmpty c a) : NoStranded c' := by
  obtain ⟨pool', th', hs, rfl⟩ := fire_eq_some.mp hf
  intro p hfreed hqueue
  -- a context whose record stays as it is, seen by a thread not at its CAS
  have hsame : (c.pcs a.1).pc.casing ≠ some p →
      (pool'.heap p).freed = (c.shared.heap p).freed →
      (pool'.heap p).queue = (c.shared.heap p).queue →
      (pool'.heap p).inGlobal = (c.shared.heap p).inGlobal →
      (pool'.heap p).inGlobal = true ∨
        AboutToSchedule ⟨pool', Function.update c.pcs a.1 th'⟩ p := by
    intro hi hf hq hg
    rcases h p (hf.symm.trans hfreed) (fun hnil => hqueue (hq.trans hnil)) with hglobal | hsender
    · exact Or.inl (hg.trans hglobal)
    · exact Or.inr (hsender.frame hi)
  cases pool_move (pool_step hs).2.1 with
  | quiet hquiet =>
      obtain ⟨cb, sessionid, hp⟩ := hquiet.heap p
      apply hsame
      · rw [hquiet.casing.1]
        rintro ⟨⟩
      · rw [hp]
      · rw [hp]
      · rw [hp]
  | ctx q hmove hother _ _ _ =>
      by_cases hpq : p = q
      · subst hpq
        refine no_stranded_ctx h hmove (fun hpc => ?_) hfreed hqueue
        simp only [GivesUpEmpty, hpc] at hok
        exact hok
      · apply hsame
        · exact fun hi => hpq (hmove.casing hi)
        · rw [hother p hpq]
        · rw [hother p hpq]
        · rw [hother p hpq]
  | runPush q hpc hheap _ _ =>
      have hi : (c.pcs a.1).pc.casing = none := by
        rcases hpc with ⟨caller, hpc, -⟩ | ⟨hpc, -⟩ <;> (rw [hpc]; rfl)
      apply hsame
      · rw [hi]
        rintro ⟨⟩
      · rw [hheap]
      · rw [hheap]
      · rw [hheap]
  | runPop q hpc hheap _ _ _ =>
      apply hsame
      · rw [hpc.1]
        rintro ⟨⟩
      · rw [hheap]
      · rw [hheap]
      · rw [hheap]
  | create caller caller' id name hpc _ _ _ hheap _ _ _ =>
      have hnew : (pool'.heap p).freed = (c.shared.heap p).freed ∧
          (pool'.heap p).queue = (c.shared.heap p).queue ∧
          (pool'.heap p).inGlobal = (c.shared.heap p).inGlobal := by
        rw [hheap]
        by_cases hp : p = c.shared.next
        · rw [hp, Function.update_self]
          exact ⟨rfl, rfl, rfl⟩
        · rw [Function.update_of_ne hp]
          exact ⟨rfl, rfl, rfl⟩
      refine hsame ?_ hnew.1 hnew.2.1 hnew.2.2
      rw [hpc]
      rintro ⟨⟩

/-- A worker that gives up a context with messages strands them. -/
theorem givesUpEmpty_of_no_stranded {c' : Config ι Pool PoolThread} {a : ι × PoolEvent}
    (hf : fire poolStep c a = some c') (h : NoStranded c') : GivesUpEmpty c a := by
  obtain ⟨pool', th', hs, rfl⟩ := fire_eq_some.mp hf
  unfold GivesUpEmpty
  split
  · rename_i p hpc
    intro hfreed
    have hstep := (pool_step hs).2.1
    rw [hpc] at hstep
    have hafter : (pool'.heap p).freed = false ∧
        (pool'.heap p).queue = (c.shared.heap p).queue ∧ (pool'.heap p).inGlobal = false ∧
        th'.pc.casing = none := by
      simp only [poolPcStep] at hstep
      split at hstep
      · simp only [Option.some.injEq, Prod.mk.injEq] at hstep
        obtain ⟨rfl, hpc'⟩ := hstep
        rw [← hpc', Pool.set_heap]
        exact ⟨hfreed, rfl, rfl, rfl⟩
      · rename_i hglobal
        simp only [Option.some.injEq, Prod.mk.injEq] at hstep
        obtain ⟨rfl, hpc'⟩ := hstep
        rw [← hpc']
        exact ⟨hfreed, rfl, Bool.eq_false_iff.mpr hglobal, rfl⟩
    obtain ⟨hfreed', hqueue', hglobal', hcasing'⟩ := hafter
    by_cases hempty : (c.shared.heap p).queue = []
    · exact Or.inl hempty
    · rcases h p hfreed' (fun hnil => hempty (hqueue'.symm.trans hnil)) with hglobal | hsender
      · simp only [hglobal'] at hglobal
        cases hglobal
      · refine Or.inr (hsender.of_frame ?_)
        rw [hcasing']
        rintro ⟨⟩
  · trivial

end Step

/-! ## Runs -/

/-- No message is stranded in a run exactly when every context that is given up
    is left with an empty queue or with a sender about to schedule it. -/
theorem no_stranded_iff [DecidableEq ι] (workers : ι → Bool) (setsize : Nat)
    (as : List (ι × PoolEvent)) :
    Always (fire poolStep) NoStranded (poolInit workers setsize) as ↔
      AllSteps (fire poolStep) GivesUpEmpty (poolInit workers setsize) as :=
  always_iff_allSteps (J := NoStranded) (fun _ h => h)
    (fun _ _ _ h hs hok => no_stranded_step h hs hok)
    (fun _ _ _ _ hs h => givesUpEmpty_of_no_stranded hs h)
    fun _ _ hqueue => absurd rfl hqueue

/-- Two ways to strand a message.  A worker finds the queue empty, a sender
    pushes and loses the CAS, the worker gives the context up.  And a context
    without a callback is given up after one of its two messages. -/
theorem stranded_messages :
    let create : List (Fin 2 × PoolEvent) := [(1, .create)]
    let setCallback : List (Fin 2 × PoolEvent) := [(1, .setCallback true)]
    let send : List (Fin 2 × PoolEvent) :=
      [(1, .ret 0), (1, .send false 5 1 7 2 none 0 0)] ++ List.replicate 5 (1, .go)
    let again : List (Fin 2 × PoolEvent) :=
      (1, .send false 5 1 8 2 none 0 0) :: List.replicate 4 (1, .go)
    let lateRun := create ++ setCallback ++ send ++ List.replicate 3 (0, .go) ++
      [(0, .ret 0), (0, .go), (0, .go)] ++ again ++ [(0, .go)]
    let dropRun := create ++ send ++ again ++ [(1, .go)] ++ List.replicate 4 (0, .go)
    ¬ Always (fire poolStep) NoStranded (poolInit (fun i => i = 0) 1) lateRun ∧
      ¬ Always (fire poolStep) NoStranded (poolInit (fun i => i = 0) 1) dropRun := by
  intro create setCallback send again lateRun dropRun
  have hstranded : ∀ run : List (Fin 2 × PoolEvent),
      (∃ c, runFrom (fire poolStep) (poolInit (fun i => i = 0) 1) run = some c ∧
        (c.shared.heap 0).freed = false ∧ (c.shared.heap 0).queue ≠ [] ∧
        (c.shared.heap 0).inGlobal = false ∧ ∀ i, (c.pcs i).pc.casing ≠ some 0) →
      ¬ Always (fire poolStep) NoStranded (poolInit (fun i => i = 0) 1) run := by
    rintro run ⟨c, hc, hfreed, hqueue, hglobal, hsender⟩ h
    rcases h.last hc 0 hfreed hqueue with hscheduled | ⟨i, hi⟩
    · rw [hglobal] at hscheduled
      cases hscheduled
    · exact hsender i hi
  constructor
  · exact hstranded lateRun ⟨_, rfl, rfl, by decide, rfl, by decide⟩
  · exact hstranded dropRun ⟨_, rfl, rfl, by decide, rfl, by decide⟩

end ZServer
