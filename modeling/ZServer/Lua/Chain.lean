/-
  ZServer.Lua.Chain

  How far an error travels along a chain of services in which each handler waits in
  `z.call` or `z.kcall` for the next.

  The handler that raises it sends an error message to the one before, unless
  `dispatch_error_queue` runs it.  There the coroutine that waits in `z.call` is resumed
  with failure and dies in turn; but what it yields goes to a `suspend` that is nil, so
  nobody hears of its death, and its request stays in the tables.  A coroutine in
  `z.kcall` is not resumed at all.
-/

import Mathlib.Data.List.Chain
import ZServer.Lua.Soundness

namespace ZServer
namespace Lua

open Lib

-- ============================================================================
-- Chains
-- ============================================================================

/-- A coroutine of a service. -/
abbrev Link := Addr × Co

section Chains

variable (S : System)

def System.pcOf (k : Link) : CoPc := ((S.services k.1).coroutines k.2).pc

/-- The request that the tables have for a coroutine: its sender and its session. -/
def System.requestFor (k : Link) : Option (Addr × Nat) :=
  match (S.services k.1).sessionCoroutineAddress k.2, (S.services k.1).sessionCoroutineId k.2 with
  | some source, some session => some (source, session)
  | _, _ => none

/-- `k` waits in `z.call` or `z.kcall` for the handler `l`. -/
def System.WaitsOn (k l : Link) : Prop :=
  ∃ form session, 0 < session ∧ S.pcOf k = .yieldCall form session ∧
    S.requestFor l = some (k.1, session)

/-- Each of the coroutines waits for the next one, and the last one, a handler, runs. -/
structure Chain (links : List Link) (last : Link) : Prop where
  waits : (links ++ [last]).IsChain S.WaitsOn
  running : ∀ k ∈ links ++ [last], S.status k.1 = .running
  serves : ∃ r, S.requestFor last = some r
  runs : ∃ queued, (S.services last.1).current = .run last.2 queued

end Chains

-- ============================================================================
-- The error messages
-- ============================================================================

/-- One of the error messages from the `n`-th message on is dispatched; the coroutine
    that it resumes does not catch the failure. -/
def System.cascade (n : Nat) (S : System) (act : Nat × List Nat) : Option System :=
  if n ≤ act.1 then
    match S.net[act.1]? with
    | none => none
    | some msg =>
        if msg.prototype = MSG_TYPE_PROTO_ERROR then
          match S.step (.deliver act.1 true act.2) with
          | none => none
          | some S₁ =>
              match (S₁.services msg.dest).current with
              | .run _ _ => S₁.step (.run msg.dest .raise)
              | _ => some S₁
        else none
  else none

/-- Those error messages have all been dispatched. -/
def System.Settled (n : Nat) (S : System) : Prop :=
  ∀ msg ∈ S.net.drop n, msg.prototype ≠ MSG_TYPE_PROTO_ERROR

/-- How often a coroutine has been resumed with failure. -/
def System.failures (S : System) (k : Link) : Nat :=
  (S.services k.1).log.count (.resumed k.2 .failure)

def Event.notifies (co : Co) (r : Addr × Nat) : Event → Bool
  | .notified co' msg => co' = co ∧ (msg.dest, msg.session) = r
  | _ => false

/-- How many error messages a coroutine has sent to that sender and session. -/
def System.notices (S : System) (k : Link) (r : Addr × Nat) : Nat :=
  (S.services k.1).log.countP (Event.notifies k.2 r)

/-- What has become of a coroutine of the chain from `S` to `S'`: if it waited it has
    been resumed with failure once; if it is dead, its requester has been told once, and
    the tables do not have it. -/
structure PassedOn (S S' : System) (k : Link) : Prop where
  resumed : ∀ form session, S.pcOf k = .yieldCall form session → S'.failures k = S.failures k + 1
  told : S'.pcOf k = .dead → ∀ r, S.requestFor k = some r → S'.notices k r = S.notices k r + 1
  cleared : S'.pcOf k = .dead → (S'.services k.1).sessionCoroutineId k.2 = none ∧
    ∀ session, (S'.services k.1).sessionIdCoroutine session ≠ some k.2

/-- The first session in the error queue of a service, once an error message for
    `session` has come. -/
def Service.firstFailed (L : Service) (session : Nat) : Option Nat :=
  (L.errorQueue ++ if (L.watchingSession session).isSome then [session] else []).head?

/-- The condition: the coroutine that raises the error is not run by
    `dispatch_error_queue`; and no other one waits, or only one, which serves no request,
    is registered for the session, and next in the error queue. -/
def Reaches (S : System) (links : List Link) (last : Link) : Prop :=
  (S.services last.1).current = .run last.2 false ∧
    (links = [] ∨ ∃ k form session, links = [k] ∧ S.pcOf k = .yieldCall form session ∧
      (S.services k.1).sessionCoroutineId k.2 = none ∧
      (S.services k.1).sessionIdCoroutine session = some k.2 ∧
      (S.services k.1).firstFailed session = some session)

-- ============================================================================
-- Coroutines that are not concerned
-- ============================================================================

/-- What the service has of the coroutine `k` is the same in `L'`. -/
structure Untouched (L L' : Service) (k : Co) : Prop where
  coroutine : L'.coroutines k = L.coroutines k
  id : L'.sessionCoroutineId k = L.sessionCoroutineId k
  resumed : L'.log.count (.resumed k .failure) = L.log.count (.resumed k .failure)
  notified : ∀ r, L'.log.countP (Event.notifies k r) = L.log.countP (Event.notifies k r)
  table : ∀ session, L'.sessionIdCoroutine session = some k → L.sessionIdCoroutine session = some k

section Untouched

variable {L L₁ L₂ : Service} {k co : Co}

theorem Untouched.trans (h₁ : Untouched L L₁ k) (h₂ : Untouched L₁ L₂ k) : Untouched L L₂ k :=
  ⟨h₂.1.trans h₁.1, h₂.2.trans h₁.2, h₂.3.trans h₁.3, fun r => (h₂.4 r).trans (h₁.4 r),
    fun session hs => h₁.5 session (h₂.5 session hs)⟩

/-- Only these fields matter. -/
theorem Untouched.same (hcoroutine : L₁.coroutines k = L.coroutines k)
    (hid : L₁.sessionCoroutineId k = L.sessionCoroutineId k) (hlog : L₁.log = L.log)
    (htable : L₁.sessionIdCoroutine = L.sessionIdCoroutine) : Untouched L L₁ k :=
  ⟨hcoroutine, hid, by rw [hlog], fun r => by rw [hlog], fun session hs => by rwa [htable] at hs⟩

theorem Untouched.refl (L : Service) (k : Co) : Untouched L L k := .same rfl rfl rfl rfl

theorem Untouched.note {e : Event} (hresumed : e ≠ .resumed k .failure)
    (hnotifies : ∀ r, e.notifies k r = false) : Untouched L (L.note e) k where
  coroutine := rfl
  id := rfl
  resumed := by
    show (L.log ++ [e]).count _ = _
    rw [List.count_append, List.count_singleton, if_neg (by simpa using hresumed)]
    rfl
  notified := fun r => by
    show (L.log ++ [e]).countP _ = _
    rw [List.countP_append, List.countP_singleton, hnotifies r]
    rfl
  table := fun _ hs => hs

theorem Untouched.goto (hne : k ≠ co) (pc : CoPc) : Untouched L (L.goto co pc) k :=
  .same (goto_other hne pc) rfl rfl rfl

theorem Untouched.unserve (hne : k ≠ co) : Untouched L (L.unserve co) k :=
  .same rfl (Function.update_of_ne hne _ _) rfl rfl

theorem Untouched.serve (hne : k ≠ co) (msg : Message) : Untouched L (L.serve co msg) k :=
  .same rfl (Function.update_of_ne hne _ _) rfl rfl

theorem Untouched.exit (hne : k ≠ co) : Untouched L (L.exit co) k :=
  .same (goto_other hne .yieldExit) rfl rfl rfl

theorem Untouched.created {body : Body} (hc : Created L body L₁ co) (hne : k ≠ co) :
    Untouched L L₁ k := by
  have hnote : Untouched L (L.note (.given co body)) k := .note (by rintro ⟨⟩) fun _ => rfl
  refine hnote.trans (.same (hc.other hne) ?_ hc.log ?_) <;> rw [hc.rest] <;> rfl

/-- What another coroutine does when it goes on. -/
theorem Untouched.goOn (hne : k ≠ co) : Untouched L (L.goOn co).1 k := by
  rcases goOn_cases L co with ⟨watching, heq⟩ | ⟨-, heq⟩
  · rw [heq]
    exact .same (goto_other hne .user) rfl rfl rfl
  · rw [heq]
    exact .exit hne

/-- What becomes of the coroutine itself when it is resumed with failure and dies. -/
structure Felled (L L' : Service) (k : Co) : Prop where
  dead : (L'.coroutines k).pc = .dead
  id : L'.sessionCoroutineId k = L.sessionCoroutineId k
  resumed : L'.log.count (.resumed k .failure) = L.log.count (.resumed k .failure) + 1
  table : ∀ session, L'.sessionIdCoroutine session ≠ some k

theorem Felled.since (h : Felled L₁ L₂ k) (h₁ : Untouched L L₁ k) : Felled L L₂ k :=
  ⟨h.1, h.2.trans h₁.2, by rw [h.3, h₁.3], h.4⟩

/-- An error that `dispatch_error_queue` gets: only the coroutine changes. -/
theorem raise_queued (L : Service) (co : Co) :
    ((L.raise co true).coroutines co).pc = .dead ∧ (L.raise co true).outbox = L.outbox ∧
      (L.raise co true).sessionCoroutineId = L.sessionCoroutineId ∧
      (L.raise co true).sessionIdCoroutine = L.sessionIdCoroutine ∧
      (L.raise co true).log = L.log ++ [.died co] :=
  ⟨congrArg Coroutine.pc (goto_self L co .dead), rfl, rfl, rfl, rfl⟩

theorem raise_queued_untouched (hne : k ≠ co) : Untouched L (L.raise co true) k := by
  have hgoto : Untouched L (L.goto co .dead) k := .goto hne .dead
  have hnote : Untouched (L.goto co .dead) ((L.goto co .dead).note (.died co)) k :=
    .note (by rintro ⟨⟩) fun _ => rfl
  exact (hgoto.trans hnote).trans (.same rfl rfl rfl rfl)

/-- The coroutine that is next in the error queue. -/
def Service.nextFailed (L : Service) (k : Co) : Prop :=
  ∃ session, L.errorQueue.head? = some session ∧ L.sessionIdCoroutine session = some k

/-- What `dispatch_error_queue` does, if the coroutine that it resumes does not catch
    the failure. -/
theorem dispatchErrorQueue_uncaught (h : Sound L none) :
    L.dispatchErrorQueue.outbox = L.outbox ∧
      ((L.dispatchErrorQueue.current = .idle ∧ ∀ k, ¬L.nextFailed k → Untouched L L.dispatchErrorQueue k) ∧
          (∀ k, L.nextFailed k → ∀ form session, (L.coroutines k).pc ≠ .yieldCall form session) ∨
        ∃ co, L.nextFailed co ∧ L.dispatchErrorQueue.current = .run co true ∧
          (∀ k, k ≠ co → Untouched L L.dispatchErrorQueue k) ∧
          L.dispatchErrorQueue.sessionCoroutineId co = L.sessionCoroutineId co ∧
          L.dispatchErrorQueue.log = L.log ++ [.resumed co .failure] ∧
          ∀ session, L.dispatchErrorQueue.sessionIdCoroutine session ≠ some co) := by
  unfold Service.dispatchErrorQueue
  split
  · rename_i hqueue
    have hnone : ∀ k, ¬L.nextFailed k := by
      rintro k ⟨session, hhead, -⟩
      rw [hqueue] at hhead
      cases hhead
    exact ⟨rfl, Or.inl ⟨⟨rfl, fun k _ => .same rfl rfl rfl rfl⟩, fun k hk => absurd hk (hnone k)⟩⟩
  · rename_i session errorQueue hqueue
    have hforget : ∀ k, Untouched L (({ L with errorQueue := errorQueue } : Service).register session
        none) k := fun k => ⟨rfl, rfl, rfl, fun _ => rfl, fun _ hs => (register_none hs).2⟩
    have hnext : ∀ {k}, L.nextFailed k → L.sessionIdCoroutine session = some k := by
      rintro k ⟨session', hhead, hs⟩
      rw [hqueue] at hhead
      rw [Option.some.inj hhead]
      exact hs
    simp only
    split
    · rename_i hs
      have hnone : ∀ k, ¬L.nextFailed k := fun k hk => by
        have hk := hnext hk
        rw [show L.sessionIdCoroutine session = none from hs] at hk
        cases hk
      exact ⟨rfl, Or.inl ⟨⟨rfl, fun k _ => (hforget k).trans (.same rfl rfl rfl rfl)⟩,
        fun k hk => absurd hk (hnone k)⟩⟩
    · rename_i co hs
      have hs : L.sessionIdCoroutine session = some co := hs
      have hco : L.nextFailed co := ⟨session, by rw [hqueue]; rfl, hs⟩
      have htake := h.take hs
      have hother : ∀ k, k ≠ co → Untouched L (((({ L with errorQueue := errorQueue } :
          Service).register session none).note (.resumed co .failure)).goOn co).1 k := by
        intro k hne
        refine ((hforget k).trans (.note ?_ fun _ => rfl)).trans (.goOn hne)
        rintro ⟨⟩
        exact hne rfl
      rcases goOn_cases ((({ L with errorQueue := errorQueue } : Service).register session none).note
        (.resumed co .failure)) co with ⟨watching, heq⟩ | ⟨hpc', heq⟩
      · rw [heq] at hother ⊢
        refine ⟨rfl, Or.inr ⟨co, hco, rfl, fun k hne => (hother k hne).trans (.same rfl rfl rfl rfl), rfl,
          rfl, fun session' hs' => ?_⟩⟩
        exact htake.hole_waits session' co rfl hs'
      · rw [heq] at hother ⊢
        refine ⟨rfl, Or.inl ⟨⟨rfl, fun k hk => ?_⟩, fun k hk form session' hpc => ?_⟩⟩
        · refine (hother k ?_).trans (.same rfl rfl rfl rfl)
          rintro rfl
          exact hk hco
        · have hpc' : (L.coroutines co).pc = .yieldTimeout := hpc'
          rw [Option.some.inj ((hnext hk).symm.trans hs), hpc'] at hpc
          cases hpc

/-- An error message up to `dispatch_error_queue`, which the coroutine of the message
    comes to when it yields "EXIT". -/
theorem rawDispatchMessage_error (h : Sound L none) {msg : Message}
    (hproto : msg.prototype = MSG_TYPE_PROTO_ERROR) (order : List Nat) :
    ∃ L₁, L.rawDispatchMessage msg true order = L₁.dispatchErrorQueue ∧ Sound L₁ none ∧
      L₁.outbox = L.outbox ∧ L₁.sessionIdCoroutine = L.sessionIdCoroutine ∧
      L₁.errorQueue = (L.errorDispatch msg.source msg.session order).errorQueue ∧
      ∀ k, (L.coroutines k).pc ≠ .yieldExit → k < L.next → Untouched L L₁ k := by
  have hc := h.coCreate (.handler msg.source msg.session)
  have hraw : L.rawDispatchMessage msg true order =
      L.dispatchRequest ⟨false, .error⟩ msg true order := by
    unfold Service.rawDispatchMessage
    rw [hproto]
    rfl
  rw [hraw]
  unfold Service.dispatchRequest
  simp only
  generalize (L.coCreate (.handler msg.source msg.session)).1 = L₂ at hc ⊢
  generalize (L.coCreate (.handler msg.source msg.session)).2 = co at hc ⊢
  -- `_error_dispatch` changes the queue and `watching_service` at most
  have herror : ∀ L' : Service, (L'.errorDispatch msg.source msg.session order).coroutines =
      L'.coroutines ∧ (L'.errorDispatch msg.source msg.session order).coroutinePool =
      L'.coroutinePool ∧ (L'.errorDispatch msg.source msg.session order).next = L'.next ∧
      (L'.errorDispatch msg.source msg.session order).sessionIdCoroutine = L'.sessionIdCoroutine ∧
      (L'.errorDispatch msg.source msg.session order).sessionCoroutineId = L'.sessionCoroutineId ∧
      (L'.errorDispatch msg.source msg.session order).log = L'.log ∧
      (L'.errorDispatch msg.source msg.session order).outbox = L'.outbox := by
    intro L'
    unfold Service.errorDispatch
    split
    · exact ⟨rfl, rfl, rfl, rfl, rfl, rfl, rfl⟩
    · split <;> exact ⟨rfl, rfl, rfl, rfl, rfl, rfl, rfl⟩
  obtain ⟨hcoroutines, hpool, hnext, htable, hid, hlog, hout⟩ := herror (L₂.serve co msg)
  have hsound : Sound ((L₂.serve co msg).errorDispatch msg.source msg.session order) (some co) :=
    hc.sound.same hcoroutines hpool hnext htable
  refine ⟨_, rfl, hsound.exit.same rfl rfl rfl rfl, ?_, ?_, ?_, fun k hpc hlt => ?_⟩
  · show ((L₂.serve co msg).errorDispatch msg.source msg.session order).outbox = L.outbox
    rw [hout]
    show L₂.outbox = L.outbox
    rw [hc.rest]
  · show ((L₂.serve co msg).errorDispatch msg.source msg.session order).sessionIdCoroutine = _
    rw [htable]
    show L₂.sessionIdCoroutine = _
    rw [hc.rest]
  · show ((L₂.serve co msg).errorDispatch msg.source msg.session order).errorQueue = _
    have hqueue : L₂.errorQueue = L.errorQueue ∧ L₂.watchingSession = L.watchingSession := by
      rw [hc.rest]
      exact ⟨rfl, rfl⟩
    unfold Service.errorDispatch
    split
    · exact congrArg (· ++ order) hqueue.1
    · rw [show (L₂.serve co msg).watchingSession = L.watchingSession from hqueue.2]
      split
      · exact congrArg (· ++ [msg.session]) hqueue.1
      · exact hqueue.1
  · have hne : k ≠ co := by
      rintro rfl
      rcases hc.idle with hidle | ⟨-, heq⟩
      · exact hpc hidle
      · exact absurd heq (Nat.ne_of_lt hlt)
    have hserve := (Untouched.created hc hne).trans (.serve hne msg)
    have hdispatch := hserve.trans (.same (congrFun hcoroutines k) (congrFun hid k) hlog htable)
    exact (hdispatch.trans (.exit hne)).trans (.unserve hne)

/-- The failure is not caught. -/
def Service.uncaught (L : Service) : Service :=
  match L.current with
  | .run co queued => L.raise co queued
  | _ => L

/-- The coroutine that an error message makes `dispatch_error_queue` resume. -/
def Service.failedBy (L : Service) (msg : Message) (order : List Nat) (k : Co) : Prop :=
  ∃ session, (L.errorDispatch msg.source msg.session order).errorQueue.head? = some session ∧
    L.sessionIdCoroutine session = some k

/-- What an error message does to a service: nothing, or one coroutine dies. -/
theorem takeError (h : Sound L none) {msg : Message} (hproto : msg.prototype = MSG_TYPE_PROTO_ERROR)
    (order : List Nat) {k : Co} (hexit : (L.coroutines k).pc ≠ .yieldExit) (hlt : k < L.next) :
    (¬L.failedBy msg order k → Untouched L (L.rawDispatchMessage msg true order).uncaught k) ∧
      (L.failedBy msg order k → (∃ form session, (L.coroutines k).pc = .yieldCall form session) →
        Felled L (L.rawDispatchMessage msg true order).uncaught k) := by
  obtain ⟨L₁, heq, hsound, hout, htable, hqueue, huntouched⟩ := rawDispatchMessage_error h hproto order
  have hk := huntouched k hexit hlt
  have hnext : L.failedBy msg order k ↔ L₁.nextFailed k := by
    unfold Service.failedBy Service.nextFailed
    rw [hqueue, htable]
  rw [heq, hnext]
  obtain ⟨-, ⟨⟨hidle, hsame⟩, hnot⟩ | ⟨co, hco, hrun, hother, hid, hlog, hgone⟩⟩ :=
    dispatchErrorQueue_uncaught hsound
  · have hstay : L₁.dispatchErrorQueue.uncaught = L₁.dispatchErrorQueue := by
      unfold Service.uncaught
      rw [hidle]
    rw [hstay]
    refine ⟨fun hnone => hk.trans (hsame k hnone), ?_⟩
    rintro hsome ⟨form, session, hpc⟩
    rw [← hk.coroutine] at hpc
    exact absurd hpc (hnot k hsome form session)
  · have hraise : L₁.dispatchErrorQueue.uncaught = L₁.dispatchErrorQueue.raise co true := by
      unfold Service.uncaught
      rw [hrun]
    obtain ⟨hdead, -, hraiseid, hraisetable, hraiselog⟩ := raise_queued L₁.dispatchErrorQueue co
    rw [hraise]
    refine ⟨fun hnone => ?_, fun hsome _ => ?_⟩
    · have hne : k ≠ co := by
        rintro rfl
        exact hnone hco
      exact (hk.trans (hother k hne)).trans (raise_queued_untouched hne)
    · have hsame : k = co := by
        obtain ⟨session, hhead, hs⟩ := hsome
        obtain ⟨session', hhead', hs'⟩ := hco
        rw [Option.some.inj (hhead.symm.trans hhead')] at hs
        exact Option.some.inj (hs.symm.trans hs')
      refine Felled.since ⟨?_, ?_, ?_, fun session hs => ?_⟩ hk
      · rw [hsame]
        exact hdead
      · rw [hraiseid, hsame]
        exact hid
      · rw [hraiselog, hlog, hsame, List.count_append, List.count_append, List.count_singleton,
          List.count_singleton, if_pos (beq_self_eq_true _), if_neg (by simp)]
      · rw [hraisetable, hsame] at hs
        exact hgone session hs

theorem sendError_told {source : Addr} {session : Nat}
    (hsource : L.sessionCoroutineAddress co = some source)
    (hid : L.sessionCoroutineId co = some session) :
    L.sendError co = (L.cSend ⟨L.handle, source, session, MSG_TYPE_PROTO_ERROR, []⟩).note
      (.notified co ⟨L.handle, source, session, MSG_TYPE_PROTO_ERROR, []⟩) := by
  unfold Service.sendError
  rw [hid, hsource]
  rfl

/-- An error that `suspend` gets: the requester is told, and the tables of the request
    are cleared. -/
theorem raise_told {source : Addr} {session : Nat}
    (hsource : L.sessionCoroutineAddress co = some source)
    (hid : L.sessionCoroutineId co = some session) {msg : Message}
    (hmsg : msg = ⟨L.handle, source, session, MSG_TYPE_PROTO_ERROR, []⟩) :
    ((L.raise co false).coroutines co).pc = .dead ∧ (L.raise co false).sessionCoroutineId co = none ∧
      (L.raise co false).outbox = L.outbox ++ [msg] ∧
      (L.raise co false).log = L.log ++ [.died co] ++ [.notified co msg] ∧
      (L.raise co false).sessionIdCoroutine = L.sessionIdCoroutine ∧
      (L.raise co false).watchingSession = L.watchingSession ∧
      (L.raise co false).errorQueue = L.errorQueue ∧ (L.raise co false).next = L.next ∧
      ∀ k, k ≠ co → Untouched L (L.raise co false) k := by
  have hraise : L.raise co false =
      (((((L.goto co .dead).note (.died co)).cSend msg).note (.notified co msg)).unserve co).rest := by
    show ((((L.goto co .dead).note (.died co)).sendError co).unserve co).rest = _
    rw [sendError_told (L := (L.goto co .dead).note (.died co)) hsource hid, hmsg]
    rfl
  rw [hraise]
  refine ⟨congrArg Coroutine.pc (goto_self L co .dead), Function.update_self _ _ _, rfl, rfl, rfl, rfl,
    rfl, rfl, fun k hne => ?_⟩
  have hgoto : Untouched L (L.goto co .dead) k := .goto hne .dead
  have hdied : Untouched (L.goto co .dead) ((L.goto co .dead).note (.died co)) k :=
    .note (by rintro ⟨⟩) fun _ => rfl
  have hsend : Untouched ((L.goto co .dead).note (.died co))
      (((L.goto co .dead).note (.died co)).cSend msg) k := .same rfl rfl rfl rfl
  have htold : Untouched (((L.goto co .dead).note (.died co)).cSend msg)
      ((((L.goto co .dead).note (.died co)).cSend msg).note (.notified co msg)) k := by
    refine .note (by rintro ⟨⟩) fun r => ?_
    exact decide_eq_false fun h => hne h.1.symm
  exact ((((hgoto.trans hdied).trans hsend).trans htold).trans (.unserve hne)).trans
    (.same rfl rfl rfl rfl)

end Untouched

-- ============================================================================
-- What the error messages do
-- ============================================================================

section Cascades

variable {S S' S₁ : System} {n : Nat} {act : Nat × List Nat}

theorem userStep_message (L : Service) (msg : Message) (unpacked : Bool) (order : List Nat) :
    L.userStep (.message msg unpacked order) = none := by
  unfold Service.userStep
  split <;> first | rfl | contradiction

theorem step_raise {L : Service} {co : Co} {queued : Bool} (hrun : L.current = .run co queued) :
    L.step .raise = some (L.raise co queued) := by
  unfold Service.step Service.userStep
  rw [if_pos (show Act.raise.possible from trivial), hrun]

/-- A service that has sent nothing. -/
theorem post_quiet {addr : Addr} {L : Service} (hL : L.outbox = []) :
    S.post addr L = { S with services := Function.update S.services addr L } := by
  have hsame : ({ L with outbox := [] } : Service) = L := by rw [← hL]
  unfold System.post
  rw [hsame, hL]
  show System.mk _ _ (S.net ++ []) = _
  rw [List.append_nil]

/-- An error message makes the service send nothing, and run no coroutine but from its
    error queue. -/
theorem rawDispatchMessage_quiet {L : Service} (h : Sound L none) {msg : Message}
    (hproto : msg.prototype = MSG_TYPE_PROTO_ERROR) (order : List Nat) :
    (L.rawDispatchMessage msg true order).outbox = L.outbox ∧
      ((L.rawDispatchMessage msg true order).current = .idle ∨
        ∃ co, (L.rawDispatchMessage msg true order).current = .run co true) := by
  obtain ⟨L₁, heq, hsound, hout, -⟩ := rawDispatchMessage_error h hproto order
  obtain ⟨hquiet, ⟨⟨hidle, -⟩, -⟩ | ⟨co, -, hrun, -⟩⟩ := dispatchErrorQueue_uncaught hsound
  · rw [heq]
    exact ⟨hquiet.trans hout, Or.inl hidle⟩
  · rw [heq]
    exact ⟨hquiet.trans hout, Or.inr ⟨co, hrun⟩⟩

/-- An error message that is dispatched is the only change outside its destination. -/
theorem cascade_cases (h : AllFit S) (hs : S.cascade n act = some S') :
    ∃ msg, n ≤ act.1 ∧ S.net[act.1]? = some msg ∧ msg.prototype = MSG_TYPE_PROTO_ERROR ∧
      S'.net = S.net.eraseIdx act.1 ∧
      S'.services = Function.update S.services msg.dest
        ((S.services msg.dest).rawDispatchMessage msg true act.2).uncaught := by
  unfold System.cascade at hs
  split at hs
  · rename_i hle
    split at hs
    · cases hs
    · rename_i msg hget
      split at hs
      · rename_i hproto
        refine ⟨msg, hle, hget, hproto, ?_⟩
        split at hs
        · cases hs
        · rename_i S₁ hdeliver
          simp only [System.step, hget] at hdeliver
          split at hdeliver
          · rename_i hstatus
            obtain ⟨L, hL, rfl⟩ := Option.map_eq_some_iff.mp hdeliver
            rcases Service.step_eq hL with ⟨_, _, _, heq, hL⟩ | hL
            · cases heq
              obtain ⟨hquiet, hcurrent⟩ := rawDispatchMessage_quiet (h msg.dest).1.sound hproto act.2
              rw [← hL, (h msg.dest).2] at hquiet
              rw [← hL] at hcurrent ⊢
              rw [post_quiet hquiet] at hs
              simp only [Function.update_self] at hs
              rcases hcurrent with hidle | ⟨co, hrun⟩
              · simp only [hidle] at hs
                cases hs
                unfold Service.uncaught
                rw [hidle]
                exact ⟨rfl, rfl⟩
              · simp only [hrun, System.step, Function.update_self, step_raise hrun] at hs
                rw [if_pos ⟨hstatus, trivial⟩] at hs
                cases hs
                rw [post_quiet ((raise_queued L co).2.1.trans hquiet)]
                unfold Service.uncaught
                rw [hrun]
                exact ⟨rfl, Function.update_idem _ _ _⟩
            · rw [userStep_message] at hL
              cases hL
          · cases hdeliver
      · cases hs
  · cases hs

theorem cascade_message (hs : S.cascade n act = some S') :
    ∃ msg, n ≤ act.1 ∧ S.net[act.1]? = some msg := by
  unfold System.cascade at hs
  split at hs
  · rename_i hle
    split at hs
    · cases hs
    · rename_i msg hget
      exact ⟨msg, hle, hget⟩
  · cases hs

/-- What it does to a coroutine that waits, or is dead. -/
theorem cascade_coroutine (h : AllFit S) (hs : S.cascade n act = some S') {msg : Message}
    (hget : S.net[act.1]? = some msg) {k : Link} (hexit : S.pcOf k ≠ .yieldExit)
    (hlt : k.2 < (S.services k.1).next) :
    (¬(msg.dest = k.1 ∧ (S.services k.1).failedBy msg act.2 k.2) →
        Untouched (S.services k.1) (S'.services k.1) k.2) ∧
      (msg.dest = k.1 → (S.services k.1).failedBy msg act.2 k.2 →
        (∃ form session, S.pcOf k = .yieldCall form session) →
        Felled (S.services k.1) (S'.services k.1) k.2) := by
  obtain ⟨msg', -, hget', hproto, -, hservices⟩ := cascade_cases h hs
  cases hget.symm.trans hget'
  have htake := takeError (h k.1).1.sound hproto act.2 hexit hlt
  rw [hservices]
  by_cases hdest : msg.dest = k.1
  · rw [hdest, Function.update_self]
    exact ⟨fun hnot => htake.1 fun hfailed => hnot ⟨rfl, hfailed⟩, fun _ => htake.2⟩
  · rw [Function.update_of_ne (Ne.symm hdest)]
    exact ⟨fun _ => .refl _ _, fun heq => absurd heq hdest⟩

/-- One message at most is dispatched, if there is no more than one. -/
theorem cascade_once {base sent : List Message} {acts : List (Nat × List Nat)} (h : AllFit S)
    (hnet : S.net = base ++ sent) (hsent : sent.length ≤ 1)
    (hrun : runFrom (System.cascade base.length) S acts = some S') :
    S' = S ∨ ∃ msg order, sent = [msg] ∧ S.cascade base.length (base.length, order) = some S' := by
  cases acts with
  | nil =>
      cases hrun
      exact Or.inl rfl
  | cons act acts =>
      rw [runFrom_cons] at hrun
      obtain ⟨S₁, hs, hrest⟩ := Option.bind_eq_some_iff.mp hrun
      obtain ⟨msg, hle, hget, -, hnet₁, -⟩ := cascade_cases h hs
      obtain ⟨i, order⟩ := act
      have hlt : i < base.length + sent.length := by
        rw [← List.length_append, ← hnet]
        exact (List.getElem?_eq_some_iff.mp hget).1
      have hone : sent.length = 1 := by omega
      have hi : i = base.length := by omega
      obtain ⟨msg, rfl⟩ := List.length_eq_one_iff.mp hone
      have hbase : S₁.net = base := by
        rw [hnet₁, hnet, hi, List.eraseIdx_append_of_length_le (Nat.le_refl _), Nat.sub_self]
        exact List.append_nil base
      refine Or.inr ⟨msg, order, rfl, ?_⟩
      rw [← hi]
      cases acts with
      | nil =>
          cases hrest
          rw [hi] at hs ⊢
          exact hs
      | cons act' acts =>
          -- there is no further message
          rw [runFrom_cons] at hrest
          obtain ⟨S₂, hs', -⟩ := Option.bind_eq_some_iff.mp hrest
          obtain ⟨msg', hle', hget'⟩ := cascade_message hs'
          rw [hbase, List.getElem?_eq_none hle'] at hget'
          cases hget'

-- ============================================================================
-- The error
-- ============================================================================

theorem step_run_raise {k : Link} {queued : Bool} (hcurrent : (S.services k.1).current = .run k.2 queued)
    (hs : S.step (.run k.1 .raise) = some S₁) :
    S₁ = S.post k.1 ((S.services k.1).raise k.2 queued) := by
  simp only [System.step, step_raise hcurrent] at hs
  split at hs
  · cases hs
    rfl
  · cases hs

theorem PassedOn.mono {k : Link} (h : PassedOn S S₁ k)
    (hsame : Untouched (S₁.services k.1) (S'.services k.1) k.2) : PassedOn S S' k := by
  have hpc : S'.pcOf k = S₁.pcOf k := congrArg Coroutine.pc hsame.coroutine
  refine ⟨fun form session hwaits => ?_, fun hdead r hr => ?_, fun hdead => ?_⟩
  · unfold System.failures
    rw [hsame.resumed]
    exact h.resumed form session hwaits
  · unfold System.notices
    rw [hsame.notified r]
    exact h.told (hpc ▸ hdead) r hr
  · obtain ⟨hid, htable⟩ := h.cleared (hpc ▸ hdead)
    exact ⟨hsame.id.trans hid, fun session hs => htable session (hsame.table session hs)⟩

theorem requestFor_eq {k : Link} {source : Addr} {session : Nat} :
    S.requestFor k = some (source, session) ↔
      (S.services k.1).sessionCoroutineAddress k.2 = some source ∧
        (S.services k.1).sessionCoroutineId k.2 = some session := by
  unfold System.requestFor
  split
  · rename_i haddress hid
    rw [haddress, hid, Option.some.injEq, Prod.mk.injEq, Option.some.injEq, Option.some.injEq]
  · rename_i hnone
    refine ⟨by rintro ⟨⟩, fun h => absurd h.2 (hnone source session h.1)⟩

/-- A handler that raises an error which `suspend` gets passes it on. -/
theorem raise_step (h : AllFit S) {last : Link}
    (hcurrent : (S.services last.1).current = .run last.2 false) {source : Addr} {session : Nat}
    (hrequest : S.requestFor last = some (source, session))
    (hs : S.step (.run last.1 .raise) = some S₁) :
    ∃ msg : Message, msg.dest = source ∧ msg.session = session ∧
      msg.prototype = MSG_TYPE_PROTO_ERROR ∧
      S₁.net = S.net ++ [msg].filter (fun msg => S.status msg.dest = .running) ∧
      PassedOn S S₁ last ∧ S₁.pcOf last = .dead ∧
      (∀ k : Link, k ≠ last → Untouched (S.services k.1) (S₁.services k.1) k.2) ∧
      ∀ A, (S₁.services A).sessionIdCoroutine = (S.services A).sessionIdCoroutine ∧
        (S₁.services A).watchingSession = (S.services A).watchingSession ∧
        (S₁.services A).errorQueue = (S.services A).errorQueue ∧
        (S₁.services A).next = (S.services A).next := by
  obtain ⟨haddress, hid⟩ := requestFor_eq.mp hrequest
  obtain ⟨hdead, hnone, hout, hlog, htable, hwatching, hqueue, hnext, hother⟩ :=
    raise_told haddress hid rfl
  have hfree := (h last.1).1.sound.user_free ((h last.1).1.user _ _ hcurrent)
  have hpost := step_run_raise hcurrent hs
  have hservice : S₁.services last.1 = { (S.services last.1).raise last.2 false with outbox := [] } := by
    rw [hpost]
    exact Function.update_self _ _ _
  have hsame : ∀ A, A ≠ last.1 → S₁.services A = S.services A := by
    intro A hne
    rw [hpost]
    exact Function.update_of_ne hne _ _
  refine ⟨⟨(S.services last.1).handle, source, session, MSG_TYPE_PROTO_ERROR, []⟩, rfl, rfl, rfl, ?_,
    ⟨fun form s hwaits => ?_, fun _ r hr => ?_, fun _ => ?_⟩, ?_, fun k hne => ?_, fun A => ?_⟩
  · rw [hpost]
    show S.net ++ List.filter _ ((S.services last.1).raise last.2 false).outbox = _
    rw [hout, (h last.1).2]
    rfl
  · rw [show S.pcOf last = .user from (h last.1).1.user _ _ hcurrent] at hwaits
    cases hwaits
  · cases hr.symm.trans hrequest
    unfold System.notices
    rw [hservice]
    show ((S.services last.1).raise last.2 false).log.countP _ = _
    have hcounts : Event.notifies last.2 (source, session) (.notified last.2
        ⟨(S.services last.1).handle, source, session, MSG_TYPE_PROTO_ERROR, []⟩) = true :=
      decide_eq_true ⟨rfl, rfl⟩
    rw [hlog, List.countP_append, List.countP_append, List.countP_singleton, List.countP_singleton,
      if_neg (by rintro ⟨⟩), if_pos hcounts]
  · rw [hservice]
    refine ⟨hnone, fun s hs => hfree.2 s ?_⟩
    rw [← htable]
    exact hs
  · unfold System.pcOf
    rw [hservice]
    exact hdead
  · by_cases haddr : k.1 = last.1
    · have hco : k.2 ≠ last.2 := fun heq => hne (Prod.ext haddr heq)
      rw [haddr, hservice]
      exact (hother k.2 hco).trans (.same rfl rfl rfl rfl)
    · rw [hsame k.1 haddr]
      exact .refl _ _
  · by_cases haddr : A = last.1
    · rw [haddr, hservice]
      exact ⟨htable, hwatching, hqueue, hnext⟩
    · rw [hsame A haddr]
      exact ⟨rfl, rfl, rfl, rfl⟩

/-- The session that an error message for a call makes the first of the queue. -/
theorem errorDispatch_first (L : Service) {msg : Message} (hsession : msg.session ≠ 0)
    (order : List Nat) :
    (L.errorDispatch msg.source msg.session order).errorQueue.head? = L.firstFailed msg.session := by
  unfold Service.errorDispatch Service.firstFailed
  rw [if_neg hsession]
  split
  · rfl
  · exact congrArg List.head? (List.append_nil _).symm

/-- For a coroutine that waits in `z.call` or `z.kcall` it is its own. -/
theorem failedBy_iff {L : Service} (h : Sound L none) {msg : Message} (hsession : msg.session ≠ 0)
    (order : List Nat) {k : Co} {form : CallForm}
    (hpc : (L.coroutines k).pc = .yieldCall form msg.session) :
    L.failedBy msg order k ↔ L.sessionIdCoroutine msg.session = some k ∧
      L.firstFailed msg.session = some msg.session := by
  unfold Service.failedBy
  rw [errorDispatch_first L hsession]
  constructor
  · rintro ⟨session, hfirst, hs⟩
    have heq : session = msg.session := (h.waits session k hs).unique (Or.inl ⟨form, hpc⟩)
    rw [heq] at hfirst hs
    exact ⟨hs, hfirst⟩
  · rintro ⟨hs, hfirst⟩
    exact ⟨msg.session, hfirst, hs⟩

/-- The error message for the last coroutine but one, which waits for `last`: it makes it
    die if it is registered, and next. -/
theorem cascade_waiting (h₁ : AllFit S₁) (hs : S₁.cascade n act = some S')
    {msg : Message} (hget : S₁.net[act.1]? = some msg) {k : Link} (hdest : msg.dest = k.1)
    (hsession : msg.session ≠ 0) {form : CallForm}
    (hpc : S.pcOf k = .yieldCall form msg.session)
    (hsame : Untouched (S.services k.1) (S₁.services k.1) k.2)
    (htables : (S₁.services k.1).sessionIdCoroutine = (S.services k.1).sessionIdCoroutine ∧
      (S₁.services k.1).watchingSession = (S.services k.1).watchingSession ∧
      (S₁.services k.1).errorQueue = (S.services k.1).errorQueue ∧
      (S₁.services k.1).next = (S.services k.1).next) :
    ((S.services k.1).sessionIdCoroutine msg.session = some k.2 ∧
        (S.services k.1).firstFailed msg.session = some msg.session ∧
        Felled (S.services k.1) (S'.services k.1) k.2) ∨
      (¬((S.services k.1).sessionIdCoroutine msg.session = some k.2 ∧
          (S.services k.1).firstFailed msg.session = some msg.session) ∧
        Untouched (S.services k.1) (S'.services k.1) k.2) := by
  have hpc₁ : S₁.pcOf k = .yieldCall form msg.session := by
    rw [← hpc]
    exact congrArg Coroutine.pc hsame.coroutine
  have hlt : k.2 < (S₁.services k.1).next := by
    refine (h₁ k.1).1.sound.lt_next fun hdead => ?_
    rw [show S₁.pcOf k = .dead from hdead] at hpc₁
    cases hpc₁
  have hfailed := failedBy_iff (h₁ k.1).1.sound hsession act.2 hpc₁
  have hfirst : (S₁.services k.1).firstFailed msg.session =
      (S.services k.1).firstFailed msg.session := by
    unfold Service.firstFailed
    rw [htables.2.1, htables.2.2.1]
  rw [htables.1, hfirst] at hfailed
  obtain ⟨hnot, hfelled⟩ := cascade_coroutine h₁ hs hget (k := k)
    (by rw [hpc₁]; rintro ⟨⟩) hlt
  by_cases hnext : (S₁.services k.1).failedBy msg act.2 k.2
  · obtain ⟨hregistered, hhead⟩ := hfailed.mp hnext
    exact Or.inl ⟨hregistered, hhead, (hfelled hdest hnext ⟨form, msg.session, hpc₁⟩).since hsame⟩
  · exact Or.inr ⟨fun hboth => hnext (hfailed.mpr hboth),
      hsame.trans (hnot fun hboth => hnext hboth.2)⟩

/-- A handler that `dispatch_error_queue` runs dies unnoticed. -/
theorem raise_step_queued (h : AllFit S) {last : Link}
    (hcurrent : (S.services last.1).current = .run last.2 true)
    (hs : S.step (.run last.1 .raise) = some S₁) :
    S₁.net = S.net ∧ S₁.pcOf last = .dead ∧
      (S₁.services last.1).sessionCoroutineId last.2 =
        (S.services last.1).sessionCoroutineId last.2 := by
  obtain ⟨hdead, hquiet, hid, -, -⟩ := raise_queued (S.services last.1) last.2
  have hpost := step_run_raise hcurrent hs
  rw [post_quiet (hquiet.trans (h last.1).2)] at hpost
  have hservice : S₁.services last.1 = (S.services last.1).raise last.2 true := by
    rw [hpost]
    exact Function.update_self _ _ _
  refine ⟨by rw [hpost], ?_, by rw [hservice, hid]⟩
  unfold System.pcOf
  rw [hservice]
  exact hdead

/-- One that is dead stays as it is. -/
theorem cascade_dead (h₁ : AllFit S₁) (hs : S₁.cascade n act = some S') {k : Link}
    (hdead : S₁.pcOf k = .dead) (hlt : k.2 < (S₁.services k.1).next) :
    Untouched (S₁.services k.1) (S'.services k.1) k.2 := by
  obtain ⟨msg, -, hget⟩ := cascade_message hs
  refine (cascade_coroutine h₁ hs hget (by rw [hdead]; rintro ⟨⟩) hlt).1 ?_
  rintro ⟨-, s, -, hregistered⟩
  exact ((h₁ k.1).1.sound.waits s k.2 hregistered).pc_ne.2.2 hdead

/-- Nobody waits for a coroutine that serves no request. -/
theorem Chain.unwaited {links : List Link} {p last : Link} (hchain : Chain S (links ++ [p]) last)
    (hid : (S.services p.1).sessionCoroutineId p.2 = none) : links = [] := by
  obtain ⟨hwaits, -, -⟩ := List.isChain_append.mp hchain.waits
  rcases links.eq_nil_or_concat' with rfl | ⟨links, q, rfl⟩
  · rfl
  · obtain ⟨-, -, hwait⟩ := List.isChain_append.mp hwaits
    obtain ⟨_, _, -, -, hrequest⟩ := hwait q (by simp) p (by simp)
    rw [(requestFor_eq.mp hrequest).2] at hid
    cases hid

/-- The condition, for a chain with a coroutine that waits. -/
theorem reaches_concat {links : List Link} {p last : Link} {form : CallForm} {session : Nat}
    (hpc : S.pcOf p = .yieldCall form session) :
    Reaches S (links ++ [p]) last ↔ (S.services last.1).current = .run last.2 false ∧ links = [] ∧
      (S.services p.1).sessionCoroutineId p.2 = none ∧
      (S.services p.1).sessionIdCoroutine session = some p.2 ∧
      (S.services p.1).firstFailed session = some session := by
  constructor
  · rintro ⟨hcurrent, hnil | ⟨k, form', session', heq, hpc', hrest⟩⟩
    · exact absurd hnil (by simp)
    · obtain ⟨rfl, hk⟩ := List.append_inj' (heq.trans (List.nil_append [k]).symm) rfl
      cases hk
      cases hpc.symm.trans hpc'
      exact ⟨hcurrent, rfl, hrest⟩
  · rintro ⟨hcurrent, rfl, hrest⟩
    exact ⟨hcurrent, Or.inr ⟨p, form, session, rfl, hpc, hrest⟩⟩

/-- The error message of the last handler of a chain, if there is one, makes the
    coroutine before it die, and goes no further; what has happened to the last one
    stays. -/
theorem errors_propagate_iff {links : List Link} {last : Link} {acts : List (Nat × List Nat)}
    (hreach : Reachable System.step systemInit S) (hchain : Chain S links last)
    (hraise : S.step (.run last.1 .raise) = some S₁)
    (hrun : runFrom (System.cascade S.net.length) S₁ acts = some S')
    (hsettled : S'.Settled S.net.length) :
    (∀ k ∈ links ++ [last], PassedOn S S' k) ↔ Reaches S links last := by
  have h := reachable_fit hreach
  have h₁ := h.step hraise
  obtain ⟨queued, hcurrent⟩ := hchain.runs
  obtain ⟨⟨source, session⟩, hrequest⟩ := hchain.serves
  have huser : S.pcOf last = .user := (h last.1).1.user _ _ hcurrent
  cases queued with
  | true =>
      obtain ⟨hnet, hdead, hid⟩ := raise_step_queued h hcurrent hraise
      rw [← List.append_nil S.net] at hnet
      rcases cascade_once h₁ hnet (Nat.zero_le 1) hrun with rfl | ⟨_, _, ⟨⟩, _⟩
      -- the request of the last one stays in the tables
      refine ⟨fun hall => ?_, fun hreaches => ?_⟩
      · have hlast := hall last (List.mem_append_right links (List.mem_singleton_self last))
        have hcleared := (hlast.cleared hdead).1
        rw [hid, (requestFor_eq.mp hrequest).2] at hcleared
        cases hcleared
      · have heq := hcurrent.symm.trans hreaches.1
        cases heq
  | false =>
      obtain ⟨msg, hdest, hsession, hproto, hnet, hlast, hdead, hother, htables⟩ :=
        raise_step h hcurrent hrequest hraise
      have hsent := cascade_once h₁ hnet (List.length_filter_le _ _) hrun
      have hlast' : PassedOn S S' last := by
        rcases hsent with rfl | ⟨msg', order, -, hs⟩
        · exact hlast
        · refine hlast.mono (cascade_dead h₁ hs hdead ?_)
          rw [(htables last.1).2.2.2]
          refine (h last.1).1.sound.lt_next fun hnot => ?_
          rw [show S.pcOf last = .dead from hnot] at huser
          cases huser
      rcases links.eq_nil_or_concat' with rfl | ⟨links, p, rfl⟩
      · refine ⟨fun _ => ⟨hcurrent, Or.inl rfl⟩, fun _ k hk => ?_⟩
        rw [List.mem_singleton.mp hk]
        exact hlast'
      · obtain ⟨-, -, hwait⟩ := List.isChain_append.mp hchain.waits
        obtain ⟨form, s, hpos, hpc, hreq⟩ := hwait p (by simp) last (by simp)
        cases hrequest.symm.trans hreq
        have hp : p ≠ last := by
          rintro rfl
          rw [huser] at hpc
          cases hpc
        have hmem : p ∈ links ++ [p] ++ [last] := by simp
        have hfilter : [msg].filter (fun msg => S.status msg.dest = .running) = [msg] := by
          have hstatus : S.status msg.dest = .running := hdest ▸ hchain.running p hmem
          refine List.filter_eq_self.mpr fun m hm => ?_
          rw [List.mem_singleton.mp hm]
          exact decide_eq_true hstatus
        rw [hfilter] at hnet hsent
        rw [← hsession] at hpc hpos
        rw [reaches_concat hpc]
        rcases hsent with rfl | ⟨_, order, ⟨⟩, hs⟩
        · refine absurd hproto (hsettled msg ?_)
          rw [hnet, List.drop_left]
          exact List.mem_singleton_self msg
        · have hget : S₁.net[S.net.length]? = some msg := by
            rw [hnet, List.getElem?_append_right (Nat.le_refl _), Nat.sub_self]
            rfl
          rcases cascade_waiting h₁ hs hget hdest (Nat.ne_of_gt hpos) hpc (hother p hp)
            (htables p.1) with ⟨hregistered, hfirst, hfelled⟩ | ⟨hnot, hsame⟩
          · refine ⟨fun hall => ?_, ?_⟩
            · -- nothing of its request is cleared
              have hcleared := ((hall p hmem).cleared hfelled.dead).1
              rw [hfelled.id] at hcleared
              exact ⟨hcurrent, hchain.unwaited hcleared, hcleared, hregistered, hfirst⟩
            · rintro ⟨-, rfl, hid, -⟩ k hk
              rcases List.mem_cons.mp hk with rfl | hk
              · refine ⟨fun _ _ _ => hfelled.resumed, fun _ r hr => ?_, fun _ => ?_⟩
                · obtain ⟨source', s'⟩ := r
                  have hrequested := requestFor_eq.mp hr
                  rw [hrequested.2] at hid
                  cases hid
                · exact ⟨hfelled.id.trans hid, hfelled.table⟩
              · rw [List.mem_singleton.mp hk]
                exact hlast'
          · -- it is not resumed
            refine ⟨fun hall => ?_, fun hreaches => absurd hreaches.2.2.2 hnot⟩
            have hresumed := (hall p hmem).resumed form msg.session hpc
            unfold System.failures at hresumed
            rw [hsame.resumed] at hresumed
            exact absurd hresumed (Nat.ne_of_lt (Nat.lt_succ_self _))

/-- The coroutine of a timer of service 1 calls service 2, whose handler raises an error:
    it is resumed with failure, and nothing is left. -/
theorem errors_propagate_timer : ∃ S S₁ S' acts, Reachable System.step systemInit S ∧
    Chain S [(1, 0)] (2, 0) ∧ S.step (.run 2 .raise) = some S₁ ∧
    runFrom (System.cascade S.net.length) S₁ acts = some S' ∧ S'.failures (1, 0) = 1 ∧
    ∀ k ∈ [(1, 0), (2, 0)], PassedOn S S' k := by
  have hrun : ∃ S S₁ S', runFrom System.step systemInit
      [.launch 1, .launch 2, .run 1 (.timeout 0 0 1 (some 0)), .run 1 (.done false),
        .run 2 (.done false), .inject ⟨0, 1, 1, MSG_TYPE_RESPONSE, []⟩, .deliver 0 true [],
        .run 1 (.call .call 2 MSG_TYPE_PROTO_LUA (some [5]) (some 2)), .deliver 0 true []] =
        some S ∧
      S.step (.run 2 .raise) = some S₁ ∧
      runFrom (System.cascade S.net.length) S₁ [(0, [2])] = some S' ∧ S'.net = [] ∧
      S'.failures (1, 0) = 1 ∧ Chain S [(1, 0)] (2, 0) ∧ Reaches S [(1, 0)] (2, 0) := by
    refine ⟨_, _, _, rfl, rfl, rfl, rfl, rfl, ⟨?_, ?_, ⟨(1, 2), rfl⟩, ⟨false, rfl⟩⟩, rfl,
      Or.inr ⟨(1, 0), .call, 2, rfl, rfl, rfl, rfl, rfl⟩⟩
    · exact List.isChain_pair.mpr ⟨.call, 2, by decide, rfl, rfl⟩
    · rintro k hk
      rcases List.mem_cons.mp hk with rfl | hk
      · rfl
      · rw [List.mem_singleton.mp hk]
        rfl
  obtain ⟨S, S₁, S', hS, hraise, hcascade, hnet, hfailures, hchain, hreaches⟩ := hrun
  refine ⟨S, S₁, S', _, .of_runFrom hS, hchain, hraise, hcascade, hfailures, ?_⟩
  refine (errors_propagate_iff (.of_runFrom hS) hchain hraise hcascade ?_).mpr hreaches
  intro msg hmsg
  rw [hnet, List.drop_nil] at hmsg
  cases hmsg

/-- Service 3 calls service 1, whose handler calls service 2, whose handler raises an
    error: the handler of service 1 dies, service 3 is not told, and its coroutine waits
    for ever. -/
theorem error_not_passed_on : ∃ S S₁ S' acts, Reachable System.step systemInit S ∧
    Chain S [(3, 0), (1, 0)] (2, 0) ∧ S.step (.run 2 .raise) = some S₁ ∧
    runFrom (System.cascade S.net.length) S₁ acts = some S' ∧ S'.Settled S.net.length ∧
    ¬PassedOn S S' (3, 0) ∧ ¬PassedOn S S' (1, 0) ∧ S'.net = [] ∧
    S'.pcOf (3, 0) = .yieldCall .call 3 ∧ S'.pcOf (1, 0) = .dead := by
  have hrun : ∃ S S₁ S', runFrom System.step systemInit
      [.launch 1, .launch 2, .launch 3, .run 1 (.done false), .run 2 (.done false),
        .run 3 (.timeout 0 0 1 (some 0)), .run 3 (.done false),
        .inject ⟨0, 3, 1, MSG_TYPE_RESPONSE, []⟩, .deliver 0 true [],
        .run 3 (.call .call 1 MSG_TYPE_PROTO_LUA (some [5]) (some 3)), .deliver 0 true [],
        .run 1 (.call .call 2 MSG_TYPE_PROTO_LUA (some [6]) (some 2)), .deliver 0 true []] =
        some S ∧
      S.step (.run 2 .raise) = some S₁ ∧
      runFrom (System.cascade S.net.length) S₁ [(0, [2])] = some S' ∧ S'.net = [] ∧
      S.failures (3, 0) = 0 ∧ S'.failures (3, 0) = 0 ∧
      S.pcOf (3, 0) = .yieldCall .call 3 ∧ S'.pcOf (3, 0) = .yieldCall .call 3 ∧
      S'.pcOf (1, 0) = .dead ∧ (S'.services 1).sessionCoroutineId 0 = some 3 ∧
      Chain S [(3, 0), (1, 0)] (2, 0) := by
    refine ⟨_, _, _, rfl, rfl, rfl, rfl, rfl, rfl, rfl, rfl, rfl, rfl, ?_, ?_, ⟨(1, 2), rfl⟩,
      ⟨false, rfl⟩⟩
    · refine List.isChain_cons_cons.mpr ⟨⟨.call, 3, by decide, rfl, rfl⟩, ?_⟩
      exact List.isChain_pair.mpr ⟨.call, 2, by decide, rfl, rfl⟩
    · intro k hk
      simp only [List.cons_append, List.nil_append, List.mem_cons, List.not_mem_nil, or_false] at hk
      rcases hk with rfl | rfl | rfl <;> rfl
  obtain ⟨S, S₁, S', hS, hraise, hcascade, hnet, hnone, hnone', hpc, hpc', hdead, hid, hchain⟩ := hrun
  refine ⟨S, S₁, S', _, .of_runFrom hS, hchain, hraise, hcascade, fun msg hmsg => ?_, fun h => ?_,
    fun h => ?_, hnet, hpc', hdead⟩
  · rw [hnet, List.drop_nil] at hmsg
    cases hmsg
  · have hresumed := h.resumed .call 3 hpc
    rw [hnone, hnone'] at hresumed
    cases hresumed
  · have hcleared := (h.cleared hdead).1
    rw [hid] at hcleared
    cases hcleared

end Cascades

end Lua
end ZServer
