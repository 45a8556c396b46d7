/-
  ZServer.Actor.Network

  What the scheduler of `src/worker_pool.c` is for: a network of actors with mailboxes.

  The threads with their CAS on `inGlobal`, the run queue and the references are left out
  of that network.  Every run of the pool is one of it (`pool_refines_network`): the pushes
  to the message queues are its deliveries, and what the workers do with a message that
  they have popped are the stages of one actor.
-/

import ZServer.Actor.Isolation
import ZServer.Lib.Mailbox

namespace ZServer

open Lib

-- ============================================================================
-- What is seen of a step
-- ============================================================================

/-- The message that a thread has popped, for which context, and whether the callback has
    been called with it. -/
def PoolPc.work (pc : PoolPc) : Option (Ptr × Message × Bool) :=
  match pc.popped, pc.running with
  | some (p, msg, _), _ => some (p, msg, false)
  | none, some (p, msg) => some (p, msg, true)
  | none, none => none

def workEvents : Option (Ptr × Message × Bool) → Option (Ptr × Message × Bool) →
    List (NetEvent Ptr Message)
  | none, some (p, msg, _) => [.take p msg]
  | some (p, _, _), none => [.finish p]
  | some (p, msg, false), some (_, _, true) => [.call p msg]
  | _, _ => []

def sendEvents : PoolPc → PoolPc → List (NetEvent Ptr Message)
  | .sendPush _ toctx msg, .sendCas _ _ => [.deliver toctx msg]
  | _, _ => []

/-- What a step of a thread is in the network. -/
def observe (pc pc' : PoolPc) : List (NetEvent Ptr Message) :=
  sendEvents pc pc' ++ workEvents pc.work pc'.work

/-- What a run is. -/
def poolTrace {ι : Type} [DecidableEq ι] :
    Config ι Pool PoolThread → List (ι × PoolEvent) → List (NetEvent Ptr Message)
  | _, [] => []
  | c, a :: as =>
      match fire poolStep c a with
      | none => []
      | some c' => observe (c.pcs a.1).pc (c'.pcs a.1).pc ++ poolTrace c' as

/-- The stage of `p`, for a thread with that work. -/
def stageOf (work : Option (Ptr × Message × Bool)) (p : Ptr) : Stage Message :=
  match work with
  | some (q, msg, called) =>
      if q = p then if called then .called msg else .taken msg else .idle
  | none => .idle

/-- The pool is in this state of the network. -/
structure Models {ι : Type} (c : Config ι Pool PoolThread) (net : Network Ptr Message) : Prop where
  mailbox : ∀ p, net.mailbox p = (c.shared.heap p).queue
  busy : ∀ i p, stageOf (c.pcs i).pc.work p ≠ .idle → net.stage p = stageOf (c.pcs i).pc.work p
  idle : ∀ p, (∀ i, stageOf (c.pcs i).pc.work p = .idle) → net.stage p = .idle

-- ============================================================================
-- Steps
-- ============================================================================

/-- The steps of the pool, as the network sees them. -/
inductive NetMove (pool pool' : Pool) (pc pc' : PoolPc) : Prop where
  | same (hobserve : observe pc pc' = []) (hwork : pc'.work = pc.work)
      (hqueue : ∀ q, (pool'.heap q).queue = (pool.heap q).queue)
  | deliver (p : Ptr) (msg : Message) (hobserve : observe pc pc' = [.deliver p msg])
      (hwork : pc'.work = pc.work) (hp : (pool'.heap p).queue = (pool.heap p).queue ++ [msg])
      (hqueue : ∀ q, q ≠ p → (pool'.heap q).queue = (pool.heap q).queue)
  | take (p : Ptr) (msg : Message) (hobserve : observe pc pc' = [.take p msg])
      (htoken : p ∈ pc.tokens) (hwork : pc.work = none) (hwork' : pc'.work = some (p, msg, false))
      (hp : (pool.heap p).queue = msg :: (pool'.heap p).queue)
      (hqueue : ∀ q, q ≠ p → (pool'.heap q).queue = (pool.heap q).queue)
  | call (p : Ptr) (msg : Message) (hobserve : observe pc pc' = [.call p msg])
      (hwork : pc.work = some (p, msg, false)) (hwork' : pc'.work = some (p, msg, true))
      (hqueue : ∀ q, (pool'.heap q).queue = (pool.heap q).queue)
  | finish (p : Ptr) (msg : Message) (called : Bool) (hobserve : observe pc pc' = [.finish p])
      (hwork : pc.work = some (p, msg, called)) (hwork' : pc'.work = none)
      (hqueue : ∀ q, (pool'.heap q).queue = (pool.heap q).queue)

theorem PoolPc.popped_of_running {pc : PoolPc} {r : Ptr × Message} (h : pc.running = some r) :
    pc.popped = none := by
  cases pc with
  | dispatchMsg ctx msg pos => simp [PoolPc.running] at h
  | _ => rfl

theorem sendEvents_of_casing {pc pc' : PoolPc} (h : pc'.casing = none) :
    sendEvents pc pc' = [] := by
  unfold sendEvents
  split
  · simp [PoolPc.casing] at h
  · rfl

@[simp] theorem workEvents_self (work : Option (Ptr × Message × Bool)) :
    workEvents work work = [] := by
  rcases work with _ | ⟨p, msg, _ | _⟩ <;> rfl

/-- A thread works for a context that it has the token of. -/
theorem PoolPc.work_mem_tokens {pc : PoolPc} {p : Ptr} {msg : Message} {called : Bool}
    (h : pc.work = some (p, msg, called)) : p ∈ pc.tokens := by
  unfold PoolPc.work at h
  split at h
  case h_1 hpopped =>
    simp only [Option.some.injEq, Prod.mk.injEq] at h
    obtain ⟨rfl, -, -⟩ := h
    exact PoolPc.popped_mem_tokens hpopped
  case h_2 hrunning =>
    simp only [Option.some.injEq, Prod.mk.injEq] at h
    obtain ⟨rfl, -, -⟩ := h
    exact PoolPc.running_mem_tokens hrunning
  case h_3 => cases h

theorem PoolQuiet.netMove {pool pool' : Pool} {pc pc' : PoolPc} (h : PoolQuiet pool pool' pc pc') :
    NetMove pool pool' pc pc' := by
  have hqueue : ∀ q, (pool'.heap q).queue = (pool.heap q).queue := by
    intro q
    obtain ⟨cb, sessionid, hq⟩ := h.heap q
    rw [hq]
  have hsend : sendEvents pc pc' = [] := sendEvents_of_casing h.casing.2
  cases hrunning : pc'.running with
  | some r =>
      have hbefore := h.running r hrunning
      have hwork : pc'.work = pc.work := by
        simp only [PoolPc.work, h.popped, hrunning, hbefore, PoolPc.popped_of_running hbefore]
      exact .same (by simp [observe, hsend, hwork]) hwork hqueue
  | none =>
      have hwork' : pc'.work = none := by
        simp only [PoolPc.work, h.popped, hrunning]
      cases hwork : pc.work with
      | none => exact .same (by simp [observe, hsend, hwork, hwork']) (by rw [hwork, hwork']) hqueue
      | some w =>
          obtain ⟨p, msg, called⟩ := w
          exact .finish p msg called (by simp [observe, hsend, hwork, hwork', workEvents]) hwork
            hwork' hqueue

theorem CtxMove.netMove {pool pool' : Pool} {p : Ptr} {pc pc' : PoolPc}
    (h : CtxMove p pc (pool.heap p) pc' (pool'.heap p))
    (hother : ∀ q, q ≠ p → pool'.heap q = pool.heap q) : NetMove pool pool' pc pc' := by
  have hsame : (pool'.heap p).queue = (pool.heap p).queue →
      ∀ q, (pool'.heap q).queue = (pool.heap q).queue := by
    intro hp q
    by_cases hq : q = p
    · rw [hq, hp]
    · rw [hother q hq]
  have hrest : ∀ q, q ≠ p → (pool'.heap q).queue = (pool.heap q).queue := by
    intro q hq
    rw [hother q hq]
  generalize hctx : pool.heap p = ctx at h
  generalize hctx' : pool'.heap p = ctx' at h
  rw [hctx, hctx'] at hsame
  cases h with
  | retain caller from? msg pc' ctx hpc' =>
      rcases hpc' with rfl | rfl
      · exact .same (by simp [observe, sendEvents, PoolPc.work, PoolPc.popped, PoolPc.running]) rfl
          (hsame rfl)
      · exact .same (by simp [observe, sendEvents, PoolPc.work, PoolPc.popped, PoolPc.running]) rfl
          (hsame rfl)
  | push caller msg ctx =>
      refine .deliver p msg ?_ rfl ?_ hrest
      · simp [observe, sendEvents, PoolPc.work, PoolPc.popped, PoolPc.running]
      · rw [hctx, hctx']
        rfl
  | casWin caller ctx h =>
      exact .same (by simp [observe, sendEvents, PoolPc.work, PoolPc.popped, PoolPc.running]) rfl
        (hsame rfl)
  | casLose caller ctx h =>
      exact .same (by simp [observe, sendEvents, PoolPc.work, PoolPc.popped, PoolPc.running,
        After.running]) rfl (hsame rfl)
  | release after pc' ctx hpc' =>
      have hwork : pc'.work = (PoolPc.release after p).work := by
        rcases hpc' with rfl | rfl
        · rfl
        · cases after <;> rfl
      exact .same (by simp [observe, sendEvents, hwork]) hwork (hsame (contextRelease_queue ctx))
  | stop i ctx => exact .same rfl rfl (hsame (contextRelease_queue _))
  | take msg queue ctx h =>
      refine .take p msg rfl (by simp [PoolPc.tokens]) rfl rfl ?_ hrest
      rw [hctx, hctx', h]
  | handle msg pos ctx => exact .call p msg rfl rfl rfl (hsame rfl)
  | exit msg ctx => exact .same rfl rfl (hsame (contextRelease_queue _))
  | giveUp ctx h => exact .same rfl rfl (hsame rfl)

theorem PoolMove.netMove {pool pool' : Pool} {pc pc' : PoolPc} (h : PoolMove pool pool' pc pc') :
    NetMove pool pool' pc pc' := by
  cases h with
  | quiet h => exact h.netMove
  | ctx p h hother hqueue hlost hnext => exact h.netMove hother
  | runPush p hpc hheap hnext hqueue =>
      rcases hpc with ⟨caller, rfl, rfl⟩ | ⟨rfl, rfl⟩
      · exact .same (by simp [observe, sendEvents, PoolPc.work, PoolPc.popped, PoolPc.running]) rfl
          fun q => by rw [hheap]
      · exact .same rfl rfl fun q => by rw [hheap]
  | runPop p hpc hheap hnext hqueue hlost =>
      obtain ⟨rfl, rfl⟩ := hpc
      exact .same rfl rfl fun q => by rw [hheap]
  | create caller caller' id name hpc hpc' hcaller hrunning hheap hnext hqueue hlost =>
      subst hpc hpc'
      have hwork : (PoolPc.user caller').work = (PoolPc.user caller).work := by
        simp only [PoolPc.work, PoolPc.popped, PoolPc.running, hrunning]
      refine .same (by simp [observe, sendEvents, hwork]) hwork fun q => ?_
      rw [hheap]
      by_cases hq : q = pool.next
      · rw [hq, Function.update_self]
        rfl
      · rw [Function.update_of_ne hq]

-- ============================================================================
-- Runs
-- ============================================================================

section Runs

variable {ι : Type} [DecidableEq ι] [Fintype ι] {workers : ι → Bool} {setsize : Nat}
  {c c' : Config ι Pool PoolThread} {a : ι × PoolEvent} {net net' : Network Ptr Message}

/-- What the owner of a token does for its context is what is done for it. -/
theorem Models.stage_eq (h : Models c net)
    (hr : Reachable (fire poolStep) (poolInit workers setsize) c) {i : ι} {p : Ptr}
    (hp : p ∈ (c.pcs i).pc.tokens) :
    (∀ j, j ≠ i → stageOf (c.pcs j).pc.work p = .idle) ∧
      net.stage p = stageOf (c.pcs i).pc.work p := by
  have hothers : ∀ j, j ≠ i → stageOf (c.pcs j).pc.work p = .idle := by
    intro j hj
    by_contra hbusy
    unfold stageOf at hbusy
    split at hbusy
    case h_1 q msg called hwork =>
      split at hbusy
      case isTrue hq =>
        subst hq
        exact pool_tokens_apart hr hj (PoolPc.work_mem_tokens hwork) hp
      case isFalse => exact hbusy rfl
    case h_2 => exact hbusy rfl
  refine ⟨hothers, ?_⟩
  by_cases hidle : stageOf (c.pcs i).pc.work p = .idle
  · rw [hidle]
    apply h.idle
    intro j
    by_cases hj : j = i
    · rw [hj, hidle]
    · exact hothers j hj
  · exact h.busy i p hidle

/-- Only the stages of contexts that the thread has the token of have changed. -/
theorem Models.update {pool : Pool} {th : PoolThread} {i : ι} (h : Models c net)
    (hr : Reachable (fire poolStep) (poolInit workers setsize) c)
    (hmailbox : ∀ p, net'.mailbox p = (pool.heap p).queue)
    (hown : ∀ p ∈ (c.pcs i).pc.tokens, net'.stage p = stageOf th.pc.work p)
    (hother : ∀ p, p ∉ (c.pcs i).pc.tokens → net'.stage p = net.stage p ∧
      stageOf th.pc.work p = stageOf (c.pcs i).pc.work p) :
    Models ⟨pool, Function.update c.pcs i th⟩ net' := by
  refine ⟨hmailbox, ?_, ?_⟩
  · intro j p hbusy
    by_cases hp : p ∈ (c.pcs i).pc.tokens
    · by_cases hj : j = i
      · subst hj
        simpa using hown p hp
      · simp only [Function.update_of_ne hj] at hbusy ⊢
        exact absurd ((h.stage_eq hr hp).1 j hj) hbusy
    · obtain ⟨hstage, hwork⟩ := hother p hp
      rw [hstage]
      by_cases hj : j = i
      · subst hj
        simp only [Function.update_self] at hbusy ⊢
        rw [hwork] at hbusy ⊢
        exact h.busy j p hbusy
      · simp only [Function.update_of_ne hj] at hbusy ⊢
        exact h.busy j p hbusy
  · intro p hidle
    have hself : stageOf th.pc.work p = .idle := by simpa using hidle i
    by_cases hp : p ∈ (c.pcs i).pc.tokens
    · rw [hown p hp, hself]
    · obtain ⟨hstage, hwork⟩ := hother p hp
      rw [hstage]
      apply h.idle
      intro j
      by_cases hj : j = i
      · rw [hj, ← hwork, hself]
      · simpa [hj] using hidle j

/-- Only the stage of `p` has changed. -/
theorem Models.update_one {pool : Pool} {th : PoolThread} {i : ι} {p : Ptr} (h : Models c net)
    (hr : Reachable (fire poolStep) (poolInit workers setsize) c)
    (hp : p ∈ (c.pcs i).pc.tokens) (hmailbox : ∀ q, net'.mailbox q = (pool.heap q).queue)
    (hstage : net'.stage = Function.update net.stage p (stageOf th.pc.work p))
    (hother : ∀ q, q ≠ p → stageOf (c.pcs i).pc.work q = .idle ∧ stageOf th.pc.work q = .idle) :
    Models ⟨pool, Function.update c.pcs i th⟩ net' := by
  apply h.update hr hmailbox
  · intro q hq
    rw [hstage]
    by_cases hqp : q = p
    · rw [hqp, Function.update_self]
    · obtain ⟨hbefore, hafter⟩ := hother q hqp
      rw [Function.update_of_ne hqp, (h.stage_eq hr hq).2, hbefore, hafter]
  · intro q hq
    have hqp : q ≠ p := by
      rintro rfl
      exact hq hp
    obtain ⟨hbefore, hafter⟩ := hother q hqp
    rw [hstage, Function.update_of_ne hqp, hbefore, hafter]
    exact ⟨rfl, rfl⟩

theorem stageOf_some {p q : Ptr} (msg : Message) (called : Bool) (hq : q ≠ p) :
    stageOf (some (p, msg, called)) q = .idle := by
  simp [stageOf, Ne.symm hq]

omit [DecidableEq ι] [Fintype ι] in
theorem Models.init : Models (poolInit workers setsize) Network.empty := by
  have hwork : ∀ i, ((poolInit workers setsize).pcs i).pc.work = none := by
    intro i
    rcases pool_init_pc workers setsize i with hpc | hpc
    · rw [hpc]
      rfl
    · rw [hpc]
      rfl
  refine ⟨fun p => rfl, ?_, fun p _ => rfl⟩
  intro i p hbusy
  rw [hwork] at hbusy
  exact absurd rfl hbusy

/-- A step of the pool is an event of the network, or none. -/
theorem Models.next (h : Models c net)
    (hr : Reachable (fire poolStep) (poolInit workers setsize) c)
    (hf : fire poolStep c a = some c') :
    ∃ net', runFrom Network.step net (observe (c.pcs a.1).pc (c'.pcs a.1).pc) = some net' ∧
      Models c' net' := by
  obtain ⟨pool, th, hs, rfl⟩ := fire_eq_some.mp hf
  have hmove := (pool_move (pool_step hs).2.1).netMove
  have hown : ∀ p ∈ (c.pcs a.1).pc.tokens, net.stage p = stageOf (c.pcs a.1).pc.work p :=
    fun p hp => (h.stage_eq hr hp).2
  have hpc : Function.update c.pcs a.1 th a.1 = th := Function.update_self ..
  dsimp only
  rw [hpc]
  cases hmove with
  | same hobserve hwork hqueue =>
      refine ⟨net, by rw [hobserve, runFrom_nil], h.update hr ?_ ?_ ?_⟩
      · intro p
        rw [hqueue, h.mailbox]
      · intro p hp
        rw [hwork, hown p hp]
      · intro p _
        exact ⟨rfl, by rw [hwork]⟩
  | deliver p msg hobserve hwork hp hqueue =>
      refine ⟨_, by rw [hobserve, runFrom_cons]; rfl, h.update hr ?_ ?_ ?_⟩
      · intro q
        by_cases hq : q = p
        · subst hq
          simp [hp, h.mailbox]
        · simp [hq, hqueue q hq, h.mailbox]
      · intro q hq
        rw [hwork]
        exact hown q hq
      · intro q _
        exact ⟨rfl, by rw [hwork]⟩
  | take p msg hobserve htoken hwork hwork' hp hqueue =>
      -- nobody works for the context, as this thread does not
      have hidle : net.stage p = .idle := by
        rw [hown p htoken, hwork]
        rfl
      have hhead : net.mailbox p = msg :: (pool.heap p).queue := by
        rw [h.mailbox, hp]
      refine ⟨_, by simp [hobserve, Network.step, hidle, hhead]; rfl,
        h.update_one hr htoken ?_ ?_ ?_⟩
      · intro q
        by_cases hq : q = p
        · subst hq
          simp
        · simp [hq, hqueue q hq, h.mailbox]
      · simp [hwork', stageOf]
      · intro q hq
        rw [hwork, hwork']
        exact ⟨rfl, stageOf_some msg false hq⟩
  | call p msg hobserve hwork hwork' hqueue =>
      have htoken := PoolPc.work_mem_tokens hwork
      have htaken : net.stage p = .taken msg := by
        rw [hown p htoken, hwork]
        simp [stageOf]
      refine ⟨_, by simp [hobserve, Network.step, htaken]; rfl, h.update_one hr htoken ?_ ?_ ?_⟩
      · intro q
        rw [hqueue, ← h.mailbox]
      · simp [hwork', stageOf]
      · intro q hq
        rw [hwork, hwork']
        exact ⟨stageOf_some msg false hq, stageOf_some msg true hq⟩
  | finish p msg called hobserve hwork hwork' hqueue =>
      have htoken := PoolPc.work_mem_tokens hwork
      have hbusy : net.stage p ≠ .idle := by
        rw [hown p htoken, hwork]
        cases called <;> simp [stageOf]
      refine ⟨_, by simp [hobserve, Network.step, hbusy]; rfl, h.update_one hr htoken ?_ ?_ ?_⟩
      · intro q
        rw [hqueue, ← h.mailbox]
      · simp [hwork', stageOf]
      · intro q hq
        rw [hwork, hwork']
        exact ⟨stageOf_some msg called hq, rfl⟩

omit [Fintype ι] in
theorem poolTrace_cons {as : List (ι × PoolEvent)} (hf : fire poolStep c a = some c') :
    poolTrace c (a :: as) = observe (c.pcs a.1).pc (c'.pcs a.1).pc ++ poolTrace c' as := by
  simp [poolTrace, hf]

theorem Models.run {as : List (ι × PoolEvent)} (h : Models c net)
    (hr : Reachable (fire poolStep) (poolInit workers setsize) c)
    (hrun : runFrom (fire poolStep) c as = some c') :
    ∃ net', runFrom Network.step net (poolTrace c as) = some net' ∧ Models c' net' := by
  induction as generalizing c net with
  | nil =>
      simp only [runFrom_nil, Option.some.injEq] at hrun
      subst hrun
      exact ⟨net, rfl, h⟩
  | cons a as ih =>
      rw [runFrom_cons] at hrun
      obtain ⟨mid, hf, hrest⟩ := Option.bind_eq_some_iff.mp hrun
      obtain ⟨net₁, hnet₁, hmid⟩ := h.next hr hf
      obtain ⟨net', hnet', hlast⟩ := ih hmid (hr.tail hf) hrest
      refine ⟨net', ?_, hlast⟩
      rw [poolTrace_cons hf, runFrom_append, hnet₁]
      exact hnet'

/-- Every run of the pool, with any threads, is a run of the network of actors: so the
    messages of a context are popped once and in the order in which they were pushed, those
    that were not are in its queue, and its callbacks are called with popped messages, one
    after another. -/
theorem pool_refines_network {as : List (ι × PoolEvent)}
    (hrun : runFrom (fire poolStep) (poolInit workers setsize) as = some c) :
    ∃ net, runFrom Network.step Network.empty (poolTrace (poolInit workers setsize) as) = some net ∧
      Models c net ∧ ∀ p,
        Network.delivered p (poolTrace (poolInit workers setsize) as) =
          Network.fetched p (poolTrace (poolInit workers setsize) as) ++ (c.shared.heap p).queue ∧
        (Network.called p (poolTrace (poolInit workers setsize) as)).Sublist
          (Network.fetched p (poolTrace (poolInit workers setsize) as)) := by
  obtain ⟨net, hnet, hmodels⟩ := Models.init.run (Reachable.refl _) hrun
  refine ⟨net, hnet, hmodels, ?_⟩
  intro p
  have hexact := Network.run_exact hnet p
  rwa [hmodels.mailbox] at hexact

/-- A thread creates a context and sends it two messages, and a worker takes them. -/
theorem pool_refines_network_two_messages :
    let send (session : Nat) : List (Fin 2 × PoolEvent) :=
      (1, .send false 5 1 session 2 none 0 0) :: List.replicate 5 (1, .go)
    let run : List (Fin 2 × PoolEvent) :=
      [(1, .create), (1, .setCallback true), (1, .ret 0)] ++ send 7 ++ send 8 ++
        List.replicate 3 (0, .go) ++ [(0, .ret 0)] ++ List.replicate 3 (0, .go)
    let trace := poolTrace (poolInit (fun i => i = 0) 1) run
    ∃ c net, runFrom (fire poolStep) (poolInit (fun i => i = 0) 1) run = some c ∧
      runFrom Network.step Network.empty trace = some net ∧ Models c net ∧ ∀ p,
        Network.delivered p trace = Network.fetched p trace ++ (c.shared.heap p).queue ∧
        (Network.called p trace).Sublist (Network.fetched p trace) := by
  intro send run trace
  have hrun : ∃ c, runFrom (fire poolStep) (poolInit (fun i => i = 0) 1) run = some c :=
    ⟨_, rfl⟩
  obtain ⟨c, hc⟩ := hrun
  obtain ⟨net, hnet⟩ := pool_refines_network hc
  exact ⟨c, net, hc, hnet⟩

end Runs

end ZServer
