/-
  ZServer.Actor.Isolation

  Ownership of a context is a token.  It is created by a winning CAS on
  `inGlobal`, travels through the run queue to a worker and back, and is
  destroyed by the CAS that gives the context up.  `pool_tokens` counts it:
  wherever the token is, there is only one.

  What follows is the isolation of the services: their callbacks do not overlap
  and run in the order in which the messages were pushed.
-/

import ZServer.Actor.Moves

namespace ZServer

open Lib

/-! ## Counting tokens -/

/-- The tokens of `p` outside the threads, less the one that `inGlobal` stands
    for. -/
def Pool.account (pool : Pool) (p : Ptr) : ℤ :=
  pool.queue.count p + pool.lost.count p - (pool.heap p).inGlobal.toNat

/-- A step on the record at `p` moves its token along with `inGlobal`. -/
theorem CtxMove.tokens {p q : Ptr} {pc pc' : PoolPc} {ctx ctx' : Context}
    (h : CtxMove p pc ctx pc' ctx') :
    (pc'.tokens.count q : ℤ) - (if q = p then (ctx'.inGlobal.toNat : ℤ) else 0) =
      pc.tokens.count q - (if q = p then (ctx.inGlobal.toNat : ℤ) else 0) := by
  cases h with
  | retain caller from? msg pc' ctx hpc' =>
      rcases hpc' with rfl | rfl <;> rfl
  | casWin caller ctx h =>
      by_cases hq : q = p
      · subst hq
        simp [PoolPc.tokens, h]
      · simp [PoolPc.tokens, hq, List.count_cons_of_ne (Ne.symm hq)]
  | release after pc' ctx hpc' =>
      rw [(after.released hpc').1, contextRelease_inGlobal]
      rfl
  | giveUp ctx h =>
      by_cases hq : q = p
      · subst hq
        simp [PoolPc.tokens, After.tokens, h]
      · simp [PoolPc.tokens, After.tokens, hq, List.count_cons_of_ne (Ne.symm hq)]
  | stop i ctx => simp [contextReleaseMgr, PoolPc.tokens]
  | exit msg ctx => simp [contextReleaseMgr, PoolPc.tokens]
  | _ => rfl

theorem PoolMove.tokens {pool pool' : Pool} {pc pc' : PoolPc} (h : PoolMove pool pool' pc pc')
    (q : Ptr) : pool'.account q + pc'.tokens.count q = pool.account q + pc.tokens.count q := by
  unfold Pool.account
  cases h with
  | quiet h =>
      obtain ⟨cb, sessionid, hq⟩ := h.heap q
      rw [hq, h.queue, h.lost, h.tokens]
  | ctx p h hother hqueue hlost hnext =>
      have htokens := h.tokens (q := q)
      rw [hqueue, hlost]
      by_cases hq : q = p
      · rw [if_pos hq, if_pos hq] at htokens
        subst hq
        omega
      · rw [if_neg hq, if_neg hq] at htokens
        rw [hother q hq]
        omega
  | runPush p hpc hheap hnext hqueue =>
      have htokens : pc.tokens.count q = [p].count q + pc'.tokens.count q := by
        rcases hpc with ⟨caller, rfl, rfl⟩ | ⟨rfl, rfl⟩
        · exact @List.count_append _ _ q [p] _
        · simp [PoolPc.tokens]
      rw [hheap]
      rcases hqueue with ⟨hqueue, hlost⟩ | ⟨hqueue, hlost⟩ <;>
        (rw [hqueue, hlost, List.count_append]
         push_cast
         omega)
  | runPop p hpc hheap hnext hqueue hlost =>
      obtain ⟨rfl, rfl⟩ := hpc
      have hcount : pool.queue.count q = [p].count q + pool'.queue.count q := by
        rw [hqueue]
        exact @List.count_append _ _ q [p] _
      rw [hheap, hlost]
      simp only [PoolPc.tokens, List.count_nil]
      omega
  | create caller caller' id name hpc hpc' hcaller hrunning hheap hnext hqueue hlost =>
      have hglobal : (pool'.heap q).inGlobal = (pool.heap q).inGlobal := by
        rw [hheap]
        by_cases hq : q = pool.next
        · subst hq
          rw [Function.update_self]
          rfl
        · rw [Function.update_of_ne hq]
      rw [hglobal, hqueue, hlost, hpc, hpc']
      simp only [PoolPc.tokens, hcaller]

section Tokens

variable {ι : Type} [DecidableEq ι] [Fintype ι]

/-- There are as many tokens of `p` as `inGlobal` says: one or none. -/
theorem pool_tokens {workers : ι → Bool} {setsize : Nat} {c : Config ι Pool PoolThread}
    (h : Reachable (fire poolStep) (poolInit workers setsize) c) (p : Ptr) :
    (c.shared.queue.count p : ℤ) + c.shared.lost.count p + ∑ i, ((c.pcs i).pc.tokens.count p : ℤ) =
      (c.shared.heap p).inGlobal.toNat := by
  have hacc : c.shared.account p + ∑ i, ((c.pcs i).pc.tokens.count p : ℤ) = 0 := by
    refine h.invariant (J := fun c : Config ι Pool PoolThread =>
      c.shared.account p + ∑ i, ((c.pcs i).pc.tokens.count p : ℤ) = 0) ?_ fun c a c' hc hf => ?_
    · have hzero : ∀ i, (((poolInit workers setsize).pcs i).pc.tokens.count p : ℤ) = 0 := by
        intro i
        show (((if workers i then PoolPc.runPop else PoolPc.user .outside).tokens.count p : ℕ) : ℤ) = 0
        split <;> rfl
      rw [Finset.sum_eq_zero fun i _ => hzero i]
      rfl
    · rw [← hc]
      exact fire_sum (F := fun pool : Pool => pool.account p)
        (f := fun th : PoolThread => (th.pc.tokens.count p : ℤ))
        (fun _ _ _ _ hs => (pool_move (pool_step hs).2.1).tokens p) hf
  unfold Pool.account at hacc
  omega

/-- The tokens of `p` in the run queue and in the threads are at most one. -/
theorem pool_tokens_le {workers : ι → Bool} {setsize : Nat} {c : Config ι Pool PoolThread}
    (h : Reachable (fire poolStep) (poolInit workers setsize) c) (p : Ptr) :
    (c.shared.queue.count p : ℤ) + ∑ i, ((c.pcs i).pc.tokens.count p : ℤ) ≤ 1 := by
  have htokens := pool_tokens h p
  have hbool : (c.shared.heap p).inGlobal.toNat ≤ 1 := Bool.toNat_le _
  omega

/-- No two threads carry a token of the same context. -/
theorem pool_tokens_apart {workers : ι → Bool} {setsize : Nat} {c : Config ι Pool PoolThread}
    (h : Reachable (fire poolStep) (poolInit workers setsize) c) {i j : ι} (hij : i ≠ j) {p : Ptr}
    (hi : p ∈ (c.pcs i).pc.tokens) : p ∉ (c.pcs j).pc.tokens := by
  intro hj
  have hsum := add_le_sum (fun th : PoolThread => (th.pc.tokens.count p : ℤ)) c.pcs hij
    fun _ => Int.natCast_nonneg _
  have hle := pool_tokens_le h p
  have hi' := List.count_pos_iff.mpr hi
  have hj' := List.count_pos_iff.mpr hj
  omega

/-- A context whose token a thread carries is not in the run queue. -/
theorem pool_token_not_queued {workers : ι → Bool} {setsize : Nat} {c : Config ι Pool PoolThread}
    (h : Reachable (fire poolStep) (poolInit workers setsize) c) {i : ι} {p : Ptr}
    (hi : p ∈ (c.pcs i).pc.tokens) : p ∉ c.shared.queue := by
  intro hq
  have hsum := le_sum (fun th : PoolThread => (th.pc.tokens.count p : ℤ)) c.pcs i
    fun _ => Int.natCast_nonneg _
  have hle := pool_tokens_le h p
  have hi' := List.count_pos_iff.mpr hi
  have hq' := List.count_pos_iff.mpr hq
  omega

end Tokens

/-! ## Who runs which callback -/

/-- The context that a worker holds, from the pop of the run queue to the CAS
    that gives it up or to the push that requeues it. -/
def PoolPc.holding : PoolPc → Option Ptr
  | .dispatch ctx | .dispatchMsg ctx _ _ | .exitRelease ctx _ | .giveUp ctx | .haveWork ctx
  | .requeue ctx => some ctx
  | pc => pc.running.map Prod.fst

theorem Caller.mem_tokens (caller : Caller) {p : Ptr} {msg : Message}
    (h : caller.running = some (p, msg)) : p ∈ caller.tokens := by
  induction caller with
  | outside => cases h
  | callback ctx m =>
      cases h
      exact List.mem_singleton_self _
  | init ctx id caller ih => exact ih h

theorem PoolPc.running_mem_tokens {pc : PoolPc} {p : Ptr} {msg : Message}
    (h : pc.running = some (p, msg)) : p ∈ pc.tokens := by
  cases pc with
  | sendRun caller toctx => exact List.mem_cons_of_mem _ (caller.mem_tokens h)
  | release after ctx | remove after ctx =>
      cases after with
      | user caller => exact caller.mem_tokens h
      | worker => cases h
  | user caller | sendGet caller _ _ _ | sendRetain caller _ _ _ | sendSession caller _ _ _
  | sendSessionCas caller _ _ _ | sendSessionRead caller _ _ _ | sendPush caller _ _
  | sendCas caller _ => exact caller.mem_tokens h
  | _ => cases h

theorem PoolPc.holding_mem_tokens {pc : PoolPc} {p : Ptr} (h : pc.holding = some p) :
    p ∈ pc.tokens := by
  have hrunning : pc.running.map Prod.fst = some p → p ∈ pc.tokens := by
    intro hr
    obtain ⟨⟨q, msg⟩, hq, rfl⟩ := Option.map_eq_some_iff.mp hr
    exact PoolPc.running_mem_tokens hq
  cases pc with
  | dispatch ctx | dispatchMsg ctx _ _ | exitRelease ctx _ | giveUp ctx | haveWork ctx
  | requeue ctx =>
      cases h
      exact List.mem_singleton_self _
  | _ => exact hrunning h

theorem PoolPc.popped_mem_tokens {pc : PoolPc} {p : Ptr} {msg : Message} {pos : Nat}
    (h : pc.popped = some (p, msg, pos)) : p ∈ pc.tokens := by
  cases pc with
  | dispatchMsg ctx m n =>
      cases h
      exact List.mem_singleton_self _
  | _ => cases h

/-! ## The order of the messages -/

/-- The history of a context's messages. -/
structure Context.LogOk (ctx : Context) : Prop where
  fifo : ctx.accepted.drop ctx.taken = ctx.queue
  taken_le : ctx.taken ≤ ctx.accepted.length
  sorted : ctx.handled.Pairwise (· < ·)
  handled_lt : ∀ n ∈ ctx.handled, n < ctx.taken

/-- What a thread knows of the histories. -/
structure PoolThread.LogOk (pool : Pool) (th : PoolThread) : Prop where
  /-- a popped message is the last one taken, later than all handled ones -/
  popped : ∀ p msg pos, th.pc.popped = some (p, msg, pos) → (pool.heap p).taken = pos + 1 ∧
    (pool.heap p).accepted[pos]? = some msg ∧ ∀ n ∈ (pool.heap p).handled, n < pos
  /-- a callback runs on the message handled last -/
  running : ∀ p msg, th.pc.running = some (p, msg) →
    ∃ pos, (pool.heap p).handled.getLast? = some pos ∧ (pool.heap p).accepted[pos]? = some msg
  sent : th.sent.Pairwise fun a b => a.1 = b.1 → a.2 < b.2
  sent_lt : ∀ p n, (p, n) ∈ th.sent → n < (pool.heap p).accepted.length

/-- How a step changes the history of a context: messages are only appended,
    and only the owner of the token takes them out or handles them. -/
structure Context.Grows (pc : PoolPc) (p : Ptr) (ctx ctx' : Context) : Prop where
  accepted : ctx.accepted <+: ctx'.accepted
  taken : p ∉ pc.tokens → ctx'.taken = ctx.taken
  handled : p ∉ pc.tokens → ctx'.handled = ctx.handled

theorem CtxMove.grows {p : Ptr} {pc pc' : PoolPc} {ctx ctx' : Context}
    (h : CtxMove p pc ctx pc' ctx') : Context.Grows pc p ctx ctx' := by
  have hmem : ∀ {q : Ptr} {tokens : List Ptr}, q ∉ q :: tokens → False :=
    fun h => h List.mem_cons_self
  cases h with
  | push caller msg ctx => exact ⟨List.prefix_append _ _, fun _ => rfl, fun _ => rfl⟩
  | take msg queue ctx h => exact ⟨List.prefix_rfl, fun h => (hmem h).elim, fun _ => rfl⟩
  | handle msg pos ctx => exact ⟨List.prefix_rfl, fun _ => rfl, fun h => (hmem h).elim⟩
  | release after pc' ctx hpc' => exact ⟨by simp, by simp, by simp⟩
  | stop i ctx | exit msg ctx => exact ⟨by simp [contextReleaseMgr], by simp [contextReleaseMgr],
      by simp [contextReleaseMgr]⟩
  | _ => exact ⟨List.prefix_rfl, fun _ => rfl, fun _ => rfl⟩

theorem PoolMove.grows {pool pool' : Pool} {pc pc' : PoolPc} (h : PoolMove pool pool' pc pc')
    (q : Ptr) : Context.Grows pc q (pool.heap q) (pool'.heap q) := by
  have hsame : pool'.heap q = pool.heap q → Context.Grows pc q (pool.heap q) (pool'.heap q) := by
    intro heq
    rw [heq]
    exact ⟨List.prefix_rfl, fun _ => rfl, fun _ => rfl⟩
  cases h with
  | quiet h =>
      obtain ⟨cb, sessionid, hq⟩ := h.heap q
      rw [hq]
      exact ⟨List.prefix_rfl, fun _ => rfl, fun _ => rfl⟩
  | ctx p h hother hqueue hlost hnext =>
      by_cases hq : q = p
      · rw [hq]
        exact h.grows
      · exact hsame (hother q hq)
  | runPush p hpc hheap hnext hqueue => exact hsame (by rw [hheap])
  | runPop p hpc hheap hnext hqueue hlost => exact hsame (by rw [hheap])
  | create caller caller' id name hpc hpc' hcaller hrunning hheap hnext hqueue hlost =>
      by_cases hq : q = pool.next
      · rw [hheap, hq, Function.update_self]
        exact ⟨List.prefix_rfl, fun _ => rfl, fun _ => rfl⟩
      · exact hsame (by rw [hheap, Function.update_of_ne hq])

/-- What is in a history stays where it is. -/
theorem getElem?_of_prefix {α : Type} {l l' : List α} (h : l <+: l') {n : Nat} {x : α}
    (hx : l[n]? = some x) : l'[n]? = some x := by
  obtain ⟨t, rfl⟩ := h
  rw [List.getElem?_append_left (List.getElem?_eq_some_iff.mp hx).1]
  exact hx

theorem CtxMove.logOk {p : Ptr} {pc pc' : PoolPc} {ctx ctx' : Context}
    (h : CtxMove p pc ctx pc' ctx') (hJ : ctx.LogOk)
    (hpopped : ∀ msg pos, pc.popped = some (p, msg, pos) →
      ctx.taken = pos + 1 ∧ ∀ n ∈ ctx.handled, n < pos) : ctx'.LogOk := by
  obtain ⟨hfifo, htaken, hsorted, hlt⟩ := hJ
  cases h with
  | push caller msg ctx =>
      refine ⟨?_, ?_, hsorted, hlt⟩
      · show (ctx.accepted ++ [msg]).drop ctx.taken = ctx.queue ++ [msg]
        rw [List.drop_append_of_le_length htaken, hfifo]
      · show ctx.taken ≤ (ctx.accepted ++ [msg]).length
        rw [List.length_append]
        omega
  | take msg queue ctx h =>
      rw [h] at hfifo
      have hlen : ctx.taken < ctx.accepted.length := by
        apply Nat.lt_of_not_le
        intro hge
        rw [List.drop_eq_nil_of_le hge] at hfifo
        cases hfifo
      refine ⟨?_, hlen, hsorted, fun n hn => Nat.lt_succ_of_lt (hlt n hn)⟩
      show ctx.accepted.drop (ctx.taken + 1) = queue
      rw [← List.tail_drop, hfifo]
      rfl
  | handle msg pos ctx =>
      obtain ⟨hpos, hbefore⟩ := hpopped msg pos rfl
      refine ⟨hfifo, htaken, ?_, fun n hn => ?_⟩
      · show (ctx.handled ++ [pos]).Pairwise (· < ·)
        rw [List.pairwise_append]
        refine ⟨hsorted, List.pairwise_singleton _ _, fun n hn m hm => ?_⟩
        rw [List.mem_singleton.mp hm]
        exact hbefore n hn
      · show n < ctx.taken
        rcases List.mem_append.mp hn with hold | hnew
        · exact hlt n hold
        · rw [List.mem_singleton.mp hnew]
          omega
  | release after pc' ctx hpc' => exact ⟨by simpa using hfifo, by simpa using htaken,
      by simpa using hsorted, by simpa using hlt⟩
  | stop i ctx | exit msg ctx => exact ⟨by simpa [contextReleaseMgr] using hfifo,
      by simpa [contextReleaseMgr] using htaken, by simpa [contextReleaseMgr] using hsorted,
      by simpa [contextReleaseMgr] using hlt⟩
  | _ => exact ⟨hfifo, htaken, hsorted, hlt⟩

/-- The histories stay in order. -/
theorem PoolMove.logOk {pool pool' : Pool} {th : PoolThread} {pc' : PoolPc}
    (h : PoolMove pool pool' th.pc pc') (hJ : ∀ p, (pool.heap p).LogOk) (hL : th.LogOk pool)
    (q : Ptr) : (pool'.heap q).LogOk := by
  cases h with
  | quiet h =>
      obtain ⟨cb, sessionid, hq⟩ := h.heap q
      obtain ⟨hfifo, htaken, hsorted, hlt⟩ := hJ q
      rw [hq]
      exact ⟨hfifo, htaken, hsorted, hlt⟩
  | ctx p h hother hqueue hlost hnext =>
      by_cases hq : q = p
      · rw [hq]
        refine h.logOk (hJ p) fun msg pos hpop => ?_
        obtain ⟨htaken, -, hbefore⟩ := hL.popped p msg pos hpop
        exact ⟨htaken, hbefore⟩
      · rw [hother q hq]
        exact hJ q
  | runPush p hpc hheap hnext hqueue =>
      rw [hheap]
      exact hJ q
  | runPop p hpc hheap hnext hqueue hlost =>
      rw [hheap]
      exact hJ q
  | create caller caller' id name hpc hpc' hcaller hrunning hheap hnext hqueue hlost =>
      rw [hheap]
      by_cases hq : q = pool.next
      · obtain ⟨hfifo, htaken, hsorted, hlt⟩ := hJ pool.next
        rw [hq, Function.update_self]
        exact ⟨hfifo, htaken, hsorted, hlt⟩
      · rw [Function.update_of_ne hq]
        exact hJ q

/-- A thread that does not carry the token of `p` leaves what others know of
    its history alone. -/
theorem PoolThread.LogOk.frame {pool pool' : Pool} {th other : PoolThread} {pc' : PoolPc}
    (h : PoolMove pool pool' th.pc pc') (hapart : ∀ p ∈ other.pc.tokens, p ∉ th.pc.tokens)
    (hL : other.LogOk pool) : other.LogOk pool' := by
  refine ⟨fun p msg pos hpop => ?_, fun p msg hrun => ?_, hL.sent, fun p n hn => ?_⟩
  · obtain ⟨htaken, hmsg, hbefore⟩ := hL.popped p msg pos hpop
    have hgrows := h.grows p
    have hp := hapart p (PoolPc.popped_mem_tokens hpop)
    rw [hgrows.taken hp, hgrows.handled hp]
    exact ⟨htaken, getElem?_of_prefix hgrows.accepted hmsg, hbefore⟩
  · obtain ⟨pos, hlast, hmsg⟩ := hL.running p msg hrun
    have hgrows := h.grows p
    rw [hgrows.handled (hapart p (PoolPc.running_mem_tokens hrun))]
    exact ⟨pos, hlast, getElem?_of_prefix hgrows.accepted hmsg⟩
  · exact Nat.lt_of_lt_of_le (hL.sent_lt p n hn) (h.grows p).accepted.length_le

/-- Where the callbacks that a thread is in come from. -/
theorem CtxMove.running {p q : Ptr} {pc pc' : PoolPc} {ctx ctx' : Context} {msg : Message}
    (h : CtxMove p pc ctx pc' ctx') (hr : pc'.running = some (q, msg)) :
    (pc.running = some (q, msg) ∧ ctx'.handled = ctx.handled) ∨
      (q = p ∧ ∃ pos, pc.popped = some (p, msg, pos) ∧ ctx'.handled = ctx.handled ++ [pos]) := by
  cases h with
  | retain caller from? msg pc' ctx hpc' =>
      rcases hpc' with rfl | rfl <;> exact Or.inl ⟨hr, rfl⟩
  | release after pc' ctx hpc' =>
      refine Or.inl ⟨?_, contextRelease_handled ctx⟩
      rcases hpc' with rfl | rfl
      · exact hr
      · cases after with
        | user caller => exact hr
        | worker => cases hr
  | handle m pos ctx =>
      cases hr
      exact Or.inr ⟨rfl, pos, rfl, rfl⟩
  | push caller m ctx | casWin caller ctx h | casLose caller ctx h => exact Or.inl ⟨hr, rfl⟩
  | _ => cases hr

/-- A message is popped by the step that takes it out of its queue. -/
theorem CtxMove.popped {p q : Ptr} {pc pc' : PoolPc} {ctx ctx' : Context} {msg : Message} {pos : Nat}
    (h : CtxMove p pc ctx pc' ctx') (hpop : pc'.popped = some (q, msg, pos)) :
    q = p ∧ pos = ctx.taken ∧ ctx.queue.head? = some msg ∧ ctx'.taken = ctx.taken + 1 ∧
      ctx'.handled = ctx.handled ∧ ctx'.accepted = ctx.accepted := by
  cases h with
  | take m queue ctx h =>
      cases hpop
      exact ⟨rfl, rfl, by rw [h]; rfl, rfl, rfl, rfl⟩
  | retain caller from? m pc' ctx hpc' => rcases hpc' with rfl | rfl <;> cases hpop
  | release after pc' ctx hpc' =>
      rcases hpc' with rfl | rfl
      · cases hpop
      · cases after <;> cases hpop
  | _ => cases hpop

/-- A push is the only step that extends the sender's history. -/
theorem PoolMove.pushed {pool pool' : Pool} {pc pc' : PoolPc} (h : PoolMove pool pool' pc pc')
    {x : Ptr × Nat} (hx : x ∈ pushed pool pc pc') :
    x.2 = (pool.heap x.1).accepted.length ∧
      (pool'.heap x.1).accepted.length = (pool.heap x.1).accepted.length + 1 := by
  have hpcs : ∃ caller toctx msg, pc = .sendPush caller toctx msg ∧
      (∃ caller' toctx', pc' = .sendCas caller' toctx') ∧
      x = (toctx, (pool.heap toctx).accepted.length) := by
    unfold ZServer.pushed at hx
    split at hx
    · exact ⟨_, _, _, rfl, ⟨_, _, rfl⟩, List.mem_singleton.mp hx⟩
    · cases hx
  obtain ⟨caller, toctx, msg, rfl, ⟨caller', toctx', rfl⟩, rfl⟩ := hpcs
  refine ⟨rfl, ?_⟩
  cases h with
  | quiet h => cases h.casing.2
  | ctx p h hother hqueue hlost hnext =>
      generalize hctx : pool.heap p = ctx at h
      generalize hctx' : pool'.heap p = ctx' at h
      cases h with
      | push caller msg ctx =>
          show (pool'.heap toctx).accepted.length = _
          rw [hctx', hctx]
          exact List.length_append
  | runPush p hpc hheap hnext hqueue =>
      rcases hpc with ⟨_, hpc, -⟩ | ⟨hpc, -⟩ <;> cases hpc
  | runPop p hpc hheap hnext hqueue hlost => cases hpc.1
  | create caller caller' id name hpc hpc' hcaller hrunning hheap hnext hqueue hlost => cases hpc

/-- The stepping thread's own facts. -/
theorem PoolThread.LogOk.own {pool pool' : Pool} {th th' : PoolThread} {e : PoolEvent}
    (hs : poolStep pool th e = some (pool', th')) (hJ : ∀ p, (pool.heap p).LogOk)
    (hL : th.LogOk pool) : th'.LogOk pool' := by
  obtain ⟨-, hstep, hsent⟩ := pool_step hs
  have hmove := pool_move hstep
  have hlen : ∀ p, (pool.heap p).accepted.length ≤ (pool'.heap p).accepted.length :=
    fun p => (hmove.grows p).accepted.length_le
  refine ⟨fun p msg pos hpop => ?_, fun p msg hrun => ?_, ?_, fun p n hn => ?_⟩
  · cases hmove with
    | quiet h =>
        rw [h.popped] at hpop
        cases hpop
    | ctx q h hother hqueue hlost hnext =>
        obtain ⟨rfl, rfl, hhead, htaken, hhandled, haccepted⟩ := h.popped hpop
        obtain ⟨hfifo, -, -, hlt⟩ := hJ p
        refine ⟨htaken, ?_, ?_⟩
        · rw [haccepted, ← List.head?_drop, hfifo]
          exact hhead
        · rw [hhandled]
          exact hlt
    | runPush q hpc hheap hnext hqueue =>
        rcases hpc with ⟨caller, -, hpc⟩ | ⟨-, hpc⟩ <;> (rw [hpc] at hpop; cases hpop)
    | runPop q hpc hheap hnext hqueue hlost =>
        rw [hpc.2] at hpop
        cases hpop
    | create caller caller' id name hpc hpc' hcaller hrunning hheap hnext hqueue hlost =>
        rw [hpc'] at hpop
        cases hpop
  · -- the callback was running before, and its history is as it was
    have hkeep : th.pc.running = some (p, msg) →
        (pool'.heap p).handled = (pool.heap p).handled →
        ∃ pos, (pool'.heap p).handled.getLast? = some pos ∧
          (pool'.heap p).accepted[pos]? = some msg := by
      intro hold hhandled
      obtain ⟨pos, hlast, hmsg⟩ := hL.running p msg hold
      rw [hhandled]
      exact ⟨pos, hlast, getElem?_of_prefix (hmove.grows p).accepted hmsg⟩
    have hgrows := (hmove.grows p).accepted
    cases hmove with
    | quiet h =>
        obtain ⟨cb, sessionid, hq⟩ := h.heap p
        exact hkeep (h.running _ hrun) (by rw [hq])
    | ctx q h hother hqueue hlost hnext =>
        rcases h.running hrun with ⟨hold, hhandled⟩ | ⟨rfl, pos, hpop, hhandled⟩
        · apply hkeep hold
          by_cases hp : p = q
          · rw [hp, hhandled]
          · rw [hother p hp]
        · obtain ⟨-, hmsg, -⟩ := hL.popped p msg pos hpop
          refine ⟨pos, ?_, getElem?_of_prefix hgrows hmsg⟩
          rw [hhandled, List.getLast?_append]
          rfl
    | runPush q hpc hheap hnext hqueue =>
        rcases hpc with ⟨caller, hpc, hpc'⟩ | ⟨hpc, hpc'⟩
        · rw [hpc'] at hrun
          exact hkeep (by rw [hpc]; exact hrun) (by rw [hheap])
        · rw [hpc'] at hrun
          cases hrun
    | runPop q hpc hheap hnext hqueue hlost =>
        rw [hpc.2] at hrun
        cases hrun
    | create caller caller' id name hpc hpc' hcaller hrunning hheap hnext hqueue hlost =>
        rw [hpc'] at hrun
        apply hkeep
        · rw [hpc]
          exact hrunning.symm.trans hrun
        · rw [hheap]
          by_cases hp : p = pool.next
          · rw [hp, Function.update_self]
            rfl
          · rw [Function.update_of_ne hp]
  · rw [hsent, List.pairwise_append]
    refine ⟨hL.sent, ?_, ?_⟩
    · unfold pushed
      split
      · exact List.pairwise_singleton _ _
      · exact List.Pairwise.nil
    · rintro ⟨p, n⟩ hp ⟨q, m⟩ hq (rfl : p = q)
      have hm : m = (pool.heap p).accepted.length := (hmove.pushed hq).1
      have hn := hL.sent_lt p n hp
      show n < m
      omega
  · rw [hsent] at hn
    rcases List.mem_append.mp hn with hold | hnew
    · exact Nat.lt_of_lt_of_le (hL.sent_lt p n hold) (hlen p)
    · have hpushed := hmove.pushed hnew
      simp only at hpushed
      omega

/-! ## Isolation -/

/-- What isolates the services from each other, in one configuration. -/
structure PoolIsolated {ι : Type} (c : Config ι Pool PoolThread) : Prop where
  queued_once : ∀ p, c.shared.queue.count p ≤ 1
  one_worker : ∀ p i j, (c.pcs i).pc.holding = some p → (c.pcs j).pc.holding = some p → i = j
  not_both : ∀ p i, (c.pcs i).pc.holding = some p → p ∉ c.shared.queue
  /-- no two callbacks of one context run at the same time -/
  no_overlap : ∀ p i j m n, (c.pcs i).pc.running = some (p, m) →
    (c.pcs j).pc.running = some (p, n) → i = j ∧ m = n
  /-- the queue holds the pushed messages that have not been popped, in order -/
  fifo : ∀ p, (c.shared.heap p).accepted.drop (c.shared.heap p).taken = (c.shared.heap p).queue
  /-- callbacks run in the order of the pushes, each message once at most -/
  handled_in_order : ∀ p, (c.shared.heap p).handled.Pairwise (· < ·)
  /-- and a running callback works on the message handled last -/
  running_last : ∀ p i msg, (c.pcs i).pc.running = some (p, msg) →
    ∃ pos, (c.shared.heap p).handled.getLast? = some pos ∧
      (c.shared.heap p).accepted[pos]? = some msg
  /-- of two messages that a thread sent to `p`, the later one is not handled
      before the earlier one -/
  sender_order : ∀ p i m n, List.Sublist [(p, m), (p, n)] (c.pcs i).sent →
    ¬ List.Sublist [n, m] (c.shared.heap p).handled

/-- The histories of all contexts, and what the threads know of them. -/
theorem pool_logs {ι : Type} [DecidableEq ι] [Fintype ι] {workers : ι → Bool} {setsize : Nat}
    {c : Config ι Pool PoolThread}
    (h : Reachable (fire poolStep) (poolInit workers setsize) c) :
    (∀ p, (c.shared.heap p).LogOk) ∧ ∀ i, (c.pcs i).LogOk c.shared := by
  have hlogs : Reachable (fire poolStep) (poolInit workers setsize) c ∧
      (∀ p, (c.shared.heap p).LogOk) ∧ ∀ i, (c.pcs i).LogOk c.shared := by
    refine h.invariant (J := fun c : Config ι Pool PoolThread =>
      Reachable (fire poolStep) (poolInit workers setsize) c ∧
      (∀ p, (c.shared.heap p).LogOk) ∧ ∀ i, (c.pcs i).LogOk c.shared)
      ⟨Reachable.refl _, ?_, ?_⟩ fun c a c' hc hf => ⟨hc.1.tail hf, ?_⟩
    · exact fun p => ⟨rfl, Nat.le_refl _, List.Pairwise.nil, fun n hn => by cases hn⟩
    · intro i
      have hpc := pool_init_pc workers setsize i
      refine ⟨fun p msg pos hpop => ?_, fun p msg hrun => ?_, List.Pairwise.nil,
        fun p n hn => by cases hn⟩
      · rcases hpc with hpc | hpc <;> (rw [hpc] at hpop; cases hpop)
      · rcases hpc with hpc | hpc <;> (rw [hpc] at hrun; cases hrun)
    · exact fire_loc (J := fun pool : Pool => ∀ p, (pool.heap p).LogOk)
        (L := fun pool th => th.LogOk pool)
        (C := fun th other => ∀ p ∈ other.pc.tokens, p ∉ th.pc.tokens)
        (fun _ _ _ _ _ hJ hL hs =>
          ⟨(pool_move (pool_step hs).2.1).logOk hJ hL, PoolThread.LogOk.own hs hJ hL⟩)
        (fun _ _ _ _ _ _ _ _ hq hC hs => hq.frame (pool_move (pool_step hs).2.1) hC)
        hc.2.1 hc.2.2 (fun i j hij p hj => pool_tokens_apart hc.1 (Ne.symm hij) hj) hf
  exact hlogs.2

theorem pool_isolated {ι : Type} [DecidableEq ι] [Fintype ι] {workers : ι → Bool} {setsize : Nat}
    {c : Config ι Pool PoolThread}
    (h : Reachable (fire poolStep) (poolInit workers setsize) c) : PoolIsolated c := by
  obtain ⟨hheap, hthreads⟩ := pool_logs h
  have hone : ∀ p i j, p ∈ (c.pcs i).pc.tokens → p ∈ (c.pcs j).pc.tokens → i = j := by
    intro p i j hi hj
    by_contra hij
    exact pool_tokens_apart h hij hi hj
  refine ⟨fun p => ?_, fun p i j hi hj => ?_, fun p i hi => ?_, fun p i j m n hi hj => ?_,
    fun p => (hheap p).fifo, fun p => (hheap p).sorted, fun p i msg hi => ?_, fun p i m n hmn hnm => ?_⟩
  · have hle := pool_tokens_le h p
    have hpos : 0 ≤ ∑ i, ((c.pcs i).pc.tokens.count p : ℤ) :=
      Finset.sum_nonneg fun _ _ => Int.natCast_nonneg _
    omega
  · exact hone p i j (PoolPc.holding_mem_tokens hi) (PoolPc.holding_mem_tokens hj)
  · exact pool_token_not_queued h (PoolPc.holding_mem_tokens hi)
  · have hij := hone p i j (PoolPc.running_mem_tokens hi) (PoolPc.running_mem_tokens hj)
    subst hij
    rw [hi] at hj
    cases hj
    exact ⟨rfl, rfl⟩
  · exact (hthreads i).running p msg hi
  · have hlt : m < n := List.rel_of_pairwise_cons ((hthreads i).sent.sublist hmn)
      (List.mem_singleton_self _) rfl
    have hgt : n < m := List.rel_of_pairwise_cons ((hheap p).sorted.sublist hnm)
      (List.mem_singleton_self _)
    omega

/-- A thread creates a context and sends it two messages; a worker handles them
    in this order. -/
theorem pool_isolated_two_messages :
    let send (session : Nat) : List (Fin 2 × PoolEvent) :=
      (1, .send false 5 1 session 2 none 0 0) :: List.replicate 5 (1, .go)
    let run : List (Fin 2 × PoolEvent) :=
      [(1, .create), (1, .setCallback true), (1, .ret 0)] ++ send 7 ++ send 8 ++
        List.replicate 3 (0, .go) ++ [(0, .ret 0)] ++ List.replicate 3 (0, .go)
    ∃ c, runFrom (fire poolStep) (poolInit (fun i => i = 0) 1) run = some c ∧
      (c.pcs 1).sent = [(0, 0), (0, 1)] ∧ (c.shared.heap 0).handled = [0, 1] ∧ PoolIsolated c := by
  intro send run
  have hrun : ∃ c, runFrom (fire poolStep) (poolInit (fun i => i = 0) 1) run = some c ∧
      (c.pcs 1).sent = [(0, 0), (0, 1)] ∧ (c.shared.heap 0).handled = [0, 1] :=
    ⟨_, rfl, rfl, rfl⟩
  obtain ⟨c, hc, hsent, hhandled⟩ := hrun
  exact ⟨c, hc, hsent, hhandled, pool_isolated ⟨run, hc⟩⟩

end ZServer
