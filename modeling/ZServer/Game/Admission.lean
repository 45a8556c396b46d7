/-
  ZServer.Game.Admission

  What the agent lets through to the hall.  A connection is admitted for a user from the
  answer `true` to a login that it sent for that user until it is closed.

  `hall_hears_admitted`: over every interleaving of client data, closes and answers of the
  login service, the hall hears of a connection while it is admitted and at no other
  time: every message then, under the user of the login, and its close.
-/

import ZServer.Game.Agent

namespace ZServer
namespace Game

open Lib

-- ============================================================================
-- The log
-- ============================================================================

/-- What has been dispatched, and what the agent sent meanwhile. -/
abbrev AgentLog := List (AgentEvent × List AgentMsg)

def loggedStep (s : Agent × AgentLog) (e : AgentEvent) : Option (Agent × AgentLog) :=
  (agentStep s.1 e).map fun A => (A, s.2 ++ [(e, A.sent.drop s.1.sent.length)])

/-- The connection has sent `msg` to log in as `uid`; neither has the call been answered
    nor the connection been closed since. -/
def Checking (log : AgentLog) (sockfd : Sockfd) (session : Nat) (msg : ClientMsg) (uid : Uid) :
    Prop :=
  msg.uid = some uid ∧ ∃ before since,
    log = before ++
      (.data sockfd (some msg) (some session), [.login session uid msg.password]) :: since ∧
    ∀ x ∈ since, (∀ ret, x.1 ≠ .reply session ret) ∧ ∀ order, x.1 ≠ .close sockfd order

/-- The login service has answered `true` to a login of the connection as `uid`, which was
    handed to the hall, and the connection has not been closed since. -/
def Admitted (log : AgentLog) (sockfd : Sockfd) (uid : Uid) : Prop :=
  ∃ before session msg since,
    log = before ++ (.reply session true, [.data sockfd (some uid) msg]) :: since ∧
    Checking before sockfd session msg uid ∧ ∀ x ∈ since, ∀ order, x.1 ≠ .close sockfd order

/-- What is sent during the dispatch of `e`, after `log`. -/
structure GatedEntry (log : AgentLog) (e : AgentEvent) (outs : List AgentMsg) : Prop where
  data : ∀ sockfd uid msg, .data sockfd uid msg ∈ outs →
    ∃ u, uid = some u ∧ Admitted (log ++ [(e, outs)]) sockfd u
  close : ∀ sockfd uid, .close sockfd uid ∈ outs →
    (∃ order, e = .close sockfd order) ∧ ∃ u, uid = some u ∧ Admitted log sockfd u
  forwards : ∀ sockfd msg session u, e = .data sockfd (some msg) session →
    Admitted log sockfd u → outs = [.data sockfd (some u) msg]
  ends : ∀ sockfd order u, e = .close sockfd order → Admitted log sockfd u →
    outs = [.close sockfd (some u)]

/-- Every dispatch was like that. -/
def Gated (log : AgentLog) : Prop :=
  ∀ before x after, log = before ++ x :: after → GatedEntry before x.1 x.2

section Logs

variable {log : AgentLog} {e : AgentEvent} {outs : List AgentMsg} {sockfd s : Sockfd}
  {session : Nat} {msg : ClientMsg} {uid u : Uid}

theorem Checking.snoc (h : Checking log sockfd session msg uid)
    (hreply : ∀ ret, e ≠ .reply session ret) (hclose : ∀ order, e ≠ .close sockfd order) :
    Checking (log ++ [(e, outs)]) sockfd session msg uid := by
  obtain ⟨huid, before, since, rfl, hsince⟩ := h
  refine ⟨huid, before, since ++ [(e, outs)], by simp, ?_⟩
  intro x hx
  rcases List.mem_append.mp hx with hold | hnew
  · exact hsince x hold
  · rw [List.mem_singleton.mp hnew]
    exact ⟨hreply, hclose⟩

theorem Admitted.snoc (h : Admitted log sockfd uid) (hclose : ∀ order, e ≠ .close sockfd order) :
    Admitted (log ++ [(e, outs)]) sockfd uid := by
  obtain ⟨before, session, msg, since, rfl, hchecking, hsince⟩ := h
  refine ⟨before, session, msg, since ++ [(e, outs)], by simp, hchecking, ?_⟩
  intro x hx
  rcases List.mem_append.mp hx with hold | hnew
  · exact hsince x hold
  · rw [List.mem_singleton.mp hnew]
    exact hclose

theorem Checking.admits (h : Checking log sockfd session msg uid) :
    Admitted (log ++ [(.reply session true, [.data sockfd (some uid) msg])]) sockfd uid :=
  ⟨log, session, msg, [], rfl, h, by simp⟩

/-- A connection is admitted by the last dispatch, or was so before. -/
theorem Admitted.snoc_cases (h : Admitted (log ++ [(e, outs)]) sockfd uid) :
    (Admitted log sockfd uid ∧ ∀ order, e ≠ .close sockfd order) ∨
      ∃ session msg, e = .reply session true ∧ outs = [.data sockfd (some uid) msg] := by
  obtain ⟨before, session, msg, since, heq, hchecking, hsince⟩ := h
  rcases since.eq_nil_or_concat with rfl | ⟨since, x, rfl⟩
  · obtain ⟨-, hlast⟩ := List.append_inj' heq rfl
    simp only [List.cons.injEq, Prod.mk.injEq, and_true] at hlast
    exact Or.inr ⟨session, msg, hlast⟩
  · rw [List.concat_eq_append, ← List.cons_append, ← List.append_assoc] at heq
    obtain ⟨hlog, hlast⟩ := List.append_inj' heq rfl
    simp only [List.cons.injEq, and_true] at hlast
    refine Or.inl ⟨⟨before, session, msg, since, hlog, hchecking, ?_⟩, ?_⟩
    · intro x hx
      exact hsince x (by simp [hx])
    · have hx := hsince x (by simp)
      rw [← hlast] at hx
      exact hx

/-- The last dispatch neither closes nor admits. -/
theorem admitted_same (hclose : ∀ s order, e ≠ .close s order)
    (hreply : ∀ session s u msg, e = .reply session true → outs ≠ [.data s (some u) msg]) :
    Admitted (log ++ [(e, outs)]) sockfd uid ↔ Admitted log sockfd uid := by
  constructor
  · intro h
    rcases h.snoc_cases with ⟨hold, -⟩ | ⟨session, msg, he, houts⟩
    · exact hold
    · exact absurd houts (hreply session sockfd uid msg he)
  · intro h
    exact h.snoc (hclose sockfd)

theorem admitted_close {order : List (Nat × Nat)} :
    Admitted (log ++ [(.close sockfd order, outs)]) s u ↔ s ≠ sockfd ∧ Admitted log s u := by
  constructor
  · intro h
    rcases h.snoc_cases with ⟨hold, hne⟩ | ⟨_, _, he, -⟩
    · refine ⟨?_, hold⟩
      rintro rfl
      exact hne order rfl
    · simp at he
  · rintro ⟨hne, h⟩
    refine h.snoc ?_
    intro order' he
    simp only [AgentEvent.close.injEq] at he
    exact hne he.1.symm

theorem admitted_reply (h : Checking log sockfd session msg uid) :
    Admitted (log ++ [(.reply session true, [.data sockfd (some uid) msg])]) s u ↔
      s = sockfd ∧ u = uid ∨ Admitted log s u := by
  constructor
  · intro hlast
    rcases hlast.snoc_cases with ⟨hold, -⟩ | ⟨_, _, -, houts⟩
    · exact Or.inr hold
    · simp only [List.cons.injEq, AgentMsg.data.injEq, Option.some.injEq, and_true] at houts
      exact Or.inl ⟨houts.1.symm, houts.2.1.symm⟩
  · rintro (⟨rfl, rfl⟩ | hold)
    · exact h.admits
    · exact hold.snoc (by simp)

theorem Gated.snoc (h : Gated log) (he : GatedEntry log e outs) : Gated (log ++ [(e, outs)]) := by
  intro before x after heq
  rcases after.eq_nil_or_concat with rfl | ⟨after, y, rfl⟩
  · obtain ⟨rfl, hlast⟩ := List.append_inj' heq rfl
    simp only [List.cons.injEq, and_true] at hlast
    rw [← hlast]
    exact he
  · rw [List.concat_eq_append, ← List.cons_append, ← List.append_assoc] at heq
    obtain ⟨hlog, -⟩ := List.append_inj' heq rfl
    exact h before x after hlog

end Logs

-- ============================================================================
-- The connections
-- ============================================================================

/-- What the agent knows of a connection. -/
def Agent.entry (A : Agent) (sockfd : Sockfd) : Option AgentSocket :=
  (A.socketManager sockfd).map A.sockets

/-- Every connection has a table of its own. -/
structure Agent.Apart (A : Agent) : Prop where
  allocated : ∀ sockfd socket, A.socketManager sockfd = some socket → socket < A.nextSocket
  apart : ∀ s s' socket, A.socketManager s = some socket → A.socketManager s' = some socket → s = s'

section Entries

variable {A : Agent} {sockfd : Sockfd} {socket : Nat}

theorem Agent.Apart.entry_set (h : A.Apart) (hs : A.socketManager sockfd = some socket)
    (v : AgentSocket) : (A.setSocket socket v).entry = Function.update A.entry sockfd (some v) := by
  funext s
  by_cases hself : s = sockfd
  · subst hself
    simp [Agent.entry, Agent.setSocket, hs]
  · rw [Function.update_of_ne hself]
    unfold Agent.entry Agent.setSocket
    cases hother : A.socketManager s with
    | none => simp
    | some socket' =>
        have hne : socket' ≠ socket := by
          rintro rfl
          exact hself (h.apart _ _ _ hother hs)
        simp [Function.update_of_ne hne]

theorem Agent.Apart.open (h : A.Apart) (sockfd : Sockfd) :
    (A.openSocket sockfd).1.Apart ∧ (A.openSocket sockfd).1.entry = Function.update A.entry sockfd
      (some ((A.openSocket sockfd).1.sockets (A.openSocket sockfd).2)) := by
  unfold Agent.openSocket
  cases hs : A.socketManager sockfd with
  | some socket =>
      refine ⟨h, ?_⟩
      have hentry : A.entry sockfd = some (A.sockets socket) := by simp [Agent.entry, hs]
      rw [← hentry, Function.update_eq_self]
  | none =>
      dsimp only
      have hold : ∀ s socket, s ≠ sockfd →
          Function.update A.socketManager sockfd (some A.nextSocket) s = some socket →
          A.socketManager s = some socket := by
        intro s socket hne hsocket
        rwa [Function.update_of_ne hne] at hsocket
      refine ⟨⟨?_, ?_⟩, ?_⟩
      · intro s socket hsocket
        show socket < A.nextSocket + 1
        by_cases hself : s = sockfd
        · subst hself
          simp only [Function.update_self, Option.some.injEq] at hsocket
          omega
        · have hlt := h.allocated _ _ (hold _ _ hself hsocket)
          omega
      · intro s s' socket hsocket hsocket'
        by_cases hself : s = sockfd <;> by_cases hself' : s' = sockfd
        · rw [hself, hself']
        · subst hself
          simp only [Function.update_self, Option.some.injEq] at hsocket
          have hlt := h.allocated _ _ (hold _ _ hself' hsocket')
          omega
        · subst hself'
          simp only [Function.update_self, Option.some.injEq] at hsocket'
          have hlt := h.allocated _ _ (hold _ _ hself hsocket)
          omega
        · exact h.apart _ _ _ (hold _ _ hself hsocket) (hold _ _ hself' hsocket')
      · funext s
        by_cases hself : s = sockfd
        · subst hself
          simp [Agent.entry]
        · rw [Function.update_of_ne hself]
          unfold Agent.entry
          dsimp only
          rw [Function.update_of_ne hself]
          cases hother : A.socketManager s with
          | none => rfl
          | some socket =>
              have hlt := h.allocated _ _ hother
              simp [Function.update_of_ne (Nat.ne_of_lt hlt)]

theorem Agent.Apart.forget (h : A.Apart) (sockfd : Sockfd) :
    Agent.Apart { A with socketManager := Function.update A.socketManager sockfd none } ∧
      Agent.entry { A with socketManager := Function.update A.socketManager sockfd none } =
        Function.update A.entry sockfd none := by
  have hold : ∀ s socket, Function.update A.socketManager sockfd none s = some socket →
      A.socketManager s = some socket := by
    intro s socket hsocket
    by_cases hself : s = sockfd
    · subst hself
      simp at hsocket
    · rwa [Function.update_of_ne hself] at hsocket
  refine ⟨⟨?_, ?_⟩, ?_⟩
  · intro s socket hsocket
    exact h.allocated _ _ (hold _ _ hsocket)
  · intro s s' socket hsocket hsocket'
    exact h.apart _ _ _ (hold _ _ hsocket) (hold _ _ hsocket')
  · funext s
    by_cases hself : s = sockfd
    · subst hself
      simp [Agent.entry]
    · simp [Agent.entry, Function.update_of_ne hself]

end Entries

-- ============================================================================
-- What the log says of the agent
-- ============================================================================

structure Agent.Traced (A : Agent) (log : AgentLog) : Prop where
  ok : A.Ok
  apart : A.Apart
  /-- a blocked coroutine is checking its connection -/
  checking : ∀ co session frame, A.kcalls.coroutines co = .blocked session frame →
    (∃ v, A.entry frame.sockfd = some v ∧ v.check = some false) ∧
      ∃ uid, Checking log frame.sockfd session frame.msg uid
  once : ∀ co session frame co' session' frame', A.kcalls.coroutines co = .blocked session frame →
    A.kcalls.coroutines co' = .blocked session' frame' → frame.sockfd = frame'.sockfd → co = co'
  admitted : ∀ sockfd uid,
    Admitted log sockfd uid ↔ A.entry sockfd = some ⟨some true, some uid⟩
  known : ∀ sockfd v, A.entry sockfd = some v → v.check = some true → v.uid ≠ none

/-- A dispatch changes at most what is known of `sockfd`. -/
theorem Agent.Traced.next {A A' : Agent} {log : AgentLog} {e : AgentEvent}
    {outs : List AgentMsg} (h : A.Traced log) (sockfd : Sockfd) (v : Option AgentSocket)
    (hok : A'.Ok) (hapart : A'.Apart) (hentry : A'.entry = Function.update A.entry sockfd v)
    (hblocked : ∀ co session frame, A'.kcalls.coroutines co = .blocked session frame →
      (A.kcalls.coroutines co = .blocked session frame ∧
        (frame.sockfd ≠ sockfd ∨ v = A.entry sockfd) ∧ (∀ ret, e ≠ .reply session ret) ∧
        ∀ order, e ≠ .close frame.sockfd order) ∨
      co = A.kcalls.next ∧ frame.sockfd = sockfd ∧ (∃ w, v = some w ∧ w.check = some false) ∧
        (∀ w, A.entry sockfd = some w → w.check ≠ some false) ∧
        ∃ uid, Checking (log ++ [(e, outs)]) sockfd session frame.msg uid)
    (hothers : ∀ s uid, s ≠ sockfd → (Admitted (log ++ [(e, outs)]) s uid ↔ Admitted log s uid))
    (hself : ∀ uid, Admitted (log ++ [(e, outs)]) sockfd uid ↔ v = some ⟨some true, some uid⟩)
    (hknown : ∀ w, v = some w → w.check = some true → w.uid ≠ none) :
    A'.Traced (log ++ [(e, outs)]) := by
  constructor
  · exact hok
  · exact hapart
  · intro co session frame hco
    rw [hentry]
    rcases hblocked _ _ _ hco with ⟨hold, hv, hreply, hclose⟩ | ⟨-, hframe, hv, -, huid⟩
    · obtain ⟨hcheck, uid, hchecking⟩ := h.checking _ _ _ hold
      refine ⟨?_, uid, hchecking.snoc hreply hclose⟩
      by_cases heq : frame.sockfd = sockfd
      · have hsame := hv.resolve_left (not_not.mpr heq)
        rw [heq, Function.update_self, hsame, ← heq]
        exact hcheck
      · rw [Function.update_of_ne heq]
        exact hcheck
    · rw [hframe, Function.update_self]
      exact ⟨hv, huid⟩
  · intro co session frame co' session' frame' hco hco' heq
    rcases hblocked _ _ _ hco with ⟨hold, -⟩ | ⟨hnew, hframe, -, hnone, -⟩ <;>
      rcases hblocked _ _ _ hco' with ⟨hold', -⟩ | ⟨hnew', hframe', -, hnone', -⟩
    · exact h.once _ _ _ _ _ _ hold hold' heq
    · obtain ⟨⟨w, hw, hcheck⟩, -⟩ := h.checking _ _ _ hold
      rw [heq, hframe'] at hw
      exact absurd hcheck (hnone' w hw)
    · obtain ⟨⟨w, hw, hcheck⟩, -⟩ := h.checking _ _ _ hold'
      rw [← heq, hframe] at hw
      exact absurd hcheck (hnone w hw)
    · rw [hnew, hnew']
  · intro s uid
    rw [hentry]
    by_cases heq : s = sockfd
    · subst heq
      rw [Function.update_self]
      exact hself uid
    · rw [Function.update_of_ne heq, hothers s uid heq]
      exact h.admitted s uid
  · intro s w hw hcheck
    rw [hentry] at hw
    by_cases heq : s = sockfd
    · subst heq
      rw [Function.update_self] at hw
      exact hknown w hw hcheck
    · rw [Function.update_of_ne heq] at hw
      exact h.known s w hw hcheck

section Steps

variable {A A' : Agent} {log : AgentLog} {e : AgentEvent} {outs : List AgentMsg}
  {sockfd : Sockfd}

theorem Agent.entry_eq {socket : Nat} (hs : A.socketManager sockfd = some socket) :
    A.entry sockfd = some (A.sockets socket) := by
  simp [Agent.entry, hs]

/-- No login of the connection is being checked, unless its table says so. -/
theorem Agent.Traced.not_checking (h : A.Traced log) (sockfd : Sockfd)
    (hcheck : ∀ v, A.entry sockfd = some v → v.check ≠ some false) {co : CoId} {session : Nat}
    {frame : LoginFrame} (hco : A.kcalls.coroutines co = .blocked session frame) :
    frame.sockfd ≠ sockfd := by
  rintro rfl
  obtain ⟨⟨v, hv, hfalse⟩, -⟩ := h.checking _ _ _ hco
  exact hcheck v hv hfalse

/-- Nothing changes that the log speaks of. -/
theorem Agent.Traced.quiet (h : A.Traced log) (hok : A'.Ok) (hapart : A'.Apart)
    (hentry : A'.entry = A.entry)
    (hblocked : ∀ co session frame, A'.kcalls.coroutines co = .blocked session frame →
      A.kcalls.coroutines co = .blocked session frame ∧ ∀ ret, e ≠ .reply session ret)
    (hclose : ∀ s order, e ≠ .close s order)
    (hreply : ∀ session s u msg, e = .reply session true → outs ≠ [.data s (some u) msg]) :
    A'.Traced (log ++ [(e, outs)]) := by
  have hsame : ∀ s uid, Admitted (log ++ [(e, outs)]) s uid ↔ Admitted log s uid :=
    fun s uid => admitted_same hclose hreply
  refine h.next 0 (A.entry 0) hok hapart ?_ ?_ ?_ ?_ ?_
  · rw [Function.update_eq_self, hentry]
  · intro co session frame hco
    obtain ⟨hold, hne⟩ := hblocked _ _ _ hco
    exact Or.inl ⟨hold, Or.inr rfl, hne, hclose _⟩
  · intro s uid _
    exact hsame s uid
  · intro uid
    exact (hsame 0 uid).trans (h.admitted 0 uid)
  · exact h.known 0

-- ============================================================================
-- Client data
-- ============================================================================

theorem openSocket_sent (A : Agent) (sockfd : Sockfd) :
    (A.openSocket sockfd).1.sent = A.sent := by
  unfold Agent.openSocket
  split <;> rfl

/-- The table of a connection is made, if there is none. -/
theorem Agent.Traced.open (h : A.Traced log) (sockfd : Sockfd) :
    (A.openSocket sockfd).1.Traced log := by
  obtain ⟨hsocket, hextends, hkcalls, -⟩ := openSocket_eq A sockfd
  obtain ⟨hapart, hentry⟩ := h.apart.open sockfd
  cases hs : A.socketManager sockfd with
  | some socket =>
      have hsame : (A.openSocket sockfd).1 = A := by
        unfold Agent.openSocket
        rw [hs]
      rw [hsame]
      exact h
  | none =>
      have hnone : A.entry sockfd = none := by simp [Agent.entry, hs]
      have hblank : (A.openSocket sockfd).1.entry sockfd = some ⟨none, none⟩ := by
        unfold Agent.entry
        rw [hsocket]
        unfold Agent.openSocket
        simp [hs]
      have hother : ∀ s, s ≠ sockfd → (A.openSocket sockfd).1.entry s = A.entry s := by
        intro s hne
        rw [hentry, Function.update_of_ne hne]
      constructor
      · refine ⟨hkcalls ▸ h.ok.kcalls, ?_⟩
        intro co session frame hco
        rw [hkcalls] at hco ⊢
        obtain ⟨hmem, hmanager⟩ := h.ok.login _ _ _ hco
        exact ⟨hmem, hextends _ _ hmanager⟩
      · exact hapart
      · intro co session frame hco
        rw [hkcalls] at hco
        have hne := h.not_checking sockfd (by simp [hnone]) hco
        rw [hother _ hne]
        exact h.checking _ _ _ hco
      · rw [hkcalls]
        exact h.once
      · intro s uid
        by_cases heq : s = sockfd
        · subst heq
          rw [h.admitted, hnone, hblank]
          simp
        · rw [hother s heq]
          exact h.admitted s uid
      · intro s v hv hcheck
        by_cases heq : s = sockfd
        · subst heq
          rw [hblank, Option.some.injEq] at hv
          simp [← hv] at hcheck
        · rw [hother s heq] at hv
          exact h.known s v hv hcheck

/-- `on_message` for a connection that has a table. -/
theorem Agent.Traced.onMessage (h : A.Traced log) {socket : Nat} {msg : ClientMsg}
    {session : Option Nat} (hsocket : A.socketManager sockfd = some socket)
    (hA' : A' = A.onMessage sockfd socket msg session) (hok : A'.Ok) :
    ∃ outs, A'.sent = A.sent ++ outs ∧
      A'.Traced (log ++ [(.data sockfd (some msg) session, outs)]) ∧
      GatedEntry log (.data sockfd (some msg) session) outs := by
  have hentry := Agent.entry_eq hsocket
  have hset := h.apart.entry_set hsocket
  -- a connection whose check is not `true` has not been admitted
  have hgated : ∀ outs, (∀ s u m, AgentMsg.data s u m ∉ outs) → (∀ s u, AgentMsg.close s u ∉ outs) →
      (A.sockets socket).check ≠ some true →
      GatedEntry log (.data sockfd (some msg) session) outs := by
    intro outs hdata hclose hcheck
    refine ⟨?_, ?_, ?_, ?_⟩
    · intro s u m hmem
      exact absurd hmem (hdata s u m)
    · intro s u hmem
      exact absurd hmem (hclose s u)
    · rintro s m session' u he hadmitted
      simp only [AgentEvent.data.injEq] at he
      rw [← he.1, h.admitted, hentry, Option.some.injEq] at hadmitted
      rw [hadmitted] at hcheck
      exact absurd rfl hcheck
    · simp
  have hquiet : ∀ outs, A'.kcalls = A.kcalls → A'.entry = A.entry → A'.Apart →
      A'.Traced (log ++ [(.data sockfd (some msg) session, outs)]) := by
    intro outs hkcalls hsame hapart
    apply h.quiet hok hapart hsame
    · intro co session' frame hco
      rw [hkcalls] at hco
      exact ⟨hco, by simp⟩
    · simp
    · simp
  unfold Agent.onMessage at hA'
  cases hcheck : (A.sockets socket).check with
  | some check =>
      cases check with
      | false =>
          simp only [hcheck] at hA'
          subst hA'
          exact ⟨[], by simp, hquiet _ rfl rfl h.apart, hgated _ (by simp) (by simp) (by simp [hcheck])⟩
      | true =>
          simp only [hcheck] at hA'
          obtain ⟨u, hu⟩ := Option.ne_none_iff_exists'.mp (h.known _ _ hentry hcheck)
          have hadmitted : Admitted log sockfd u := by
            rw [h.admitted, hentry, ← hcheck, ← hu]
          rw [hu] at hA'
          refine ⟨[.data sockfd (some u) msg], by rw [hA']; rfl, ?_, ?_, ?_, ?_, ?_⟩
          · apply hquiet <;> rw [hA']
            · rfl
            · rfl
            · exact ⟨h.apart.allocated, h.apart.apart⟩
          · intro s uid m hmem
            simp only [List.mem_singleton, AgentMsg.data.injEq] at hmem
            rw [hmem.1, hmem.2.1]
            exact ⟨u, rfl, hadmitted.snoc (by simp)⟩
          · simp
          · rintro s m session' u' he hadmitted'
            simp only [AgentEvent.data.injEq, Option.some.injEq] at he
            rw [← he.1, h.admitted, hentry, Option.some.injEq] at hadmitted'
            rw [hadmitted', Option.some.injEq] at hu
            rw [he.1, he.2.1, hu]
          · simp
  | none =>
      have hnone : ∀ v, A.entry sockfd = some v → v.check ≠ some false := by
        intro v hv
        rw [hentry, Option.some.injEq] at hv
        simp [← hv, hcheck]
      have hunadmitted : ∀ uid, ¬Admitted log sockfd uid := by
        intro uid hadmitted
        rw [h.admitted, hentry, Option.some.injEq] at hadmitted
        simp [hadmitted] at hcheck
      cases huid : msg.uid with
      | none =>
          simp only [hcheck, huid] at hA'
          subst hA'
          exact ⟨[], by simp, hquiet _ rfl rfl h.apart, hgated _ (by simp) (by simp) (by simp [hcheck])⟩
      | some uid =>
          cases session with
          | none =>
              simp only [hcheck, huid] at hA'
              refine ⟨[], by simp [hA', Agent.setSocket], ?_,
                hgated _ (by simp) (by simp) (by simp [hcheck])⟩
              apply h.next sockfd _ hok ?_ (by rw [hA']; exact hset _)
              · intro co session' frame hco
                rw [hA'] at hco
                exact Or.inl ⟨hco, Or.inl (h.not_checking sockfd hnone hco), by simp, by simp⟩
              · intro s u _
                exact admitted_same (by simp) (by simp)
              · intro u
                rw [admitted_same (by simp) (by simp)]
                simpa using hunadmitted u
              · simp
              · rw [hA']
                exact ⟨h.apart.allocated, h.apart.apart⟩
          | some session =>
              simp only [hcheck, huid] at hA'
              refine ⟨[.login session uid msg.password], by rw [hA']; rfl, ?_,
                hgated _ (by simp) (by simp) (by simp [hcheck])⟩
              apply h.next sockfd _ hok ?_ (by rw [hA']; exact hset _)
              · intro co session' frame hco
                rw [hA'] at hco
                have hco : Function.update A.kcalls.coroutines A.kcalls.next
                    (CoState.blocked session ⟨sockfd, socket, msg⟩) co = .blocked session' frame := hco
                by_cases hself : co = A.kcalls.next
                · subst hself
                  simp only [Function.update_self, CoState.blocked.injEq] at hco
                  refine Or.inr ⟨rfl, ?_, ⟨_, rfl, rfl⟩, hnone, uid, ?_⟩
                  · rw [← hco.2]
                  · rw [← hco.2, ← hco.1]
                    exact ⟨huid, log, [], rfl, by simp⟩
                · rw [Function.update_of_ne hself] at hco
                  exact Or.inl ⟨hco, Or.inl (h.not_checking sockfd hnone hco), by simp, by simp⟩
              · intro s u _
                exact admitted_same (by simp) (by simp)
              · intro u
                rw [admitted_same (by simp) (by simp)]
                simpa using hunadmitted u
              · simp
              · rw [hA']
                exact ⟨h.apart.allocated, h.apart.apart⟩

-- ============================================================================
-- Closes
-- ============================================================================

theorem closeSocket_cases (h : A.Ok) (sockfd : Sockfd) {order : List (Nat × Nat)}
    (horder : order.Perm A.kcalls.watchingKey) :
    A.socketManager sockfd = none ∧ A.closeSocket sockfd order = A ∨
      (∃ co, A.kcalls.BlockedUnder sockfd co ∧
        A.closeSocket sockfd order = { A with kcalls := (A.kcalls.resume (.co co) false).1 }) ∨
      ∃ socket, A.socketManager sockfd = some socket ∧
        (∀ co, ¬A.kcalls.BlockedUnder sockfd co) ∧
        A.closeSocket sockfd order = { A with
          sent := A.sent ++ if (A.sockets socket).check = some true then
            [.close sockfd (A.sockets socket).uid] else []
          socketManager := Function.update A.socketManager sockfd none } := by
  unfold Agent.closeSocket
  cases hsocket : A.socketManager sockfd with
  | none => exact Or.inl ⟨rfl, rfl⟩
  | some socket =>
      refine Or.inr ?_
      by_cases hnone : ∀ co, ¬A.kcalls.BlockedUnder sockfd co
      · have hwatched := h.kcalls.none_watched hnone
        have hresume : resumeKcall sockfd order A.kcalls = (A.kcalls, true) :=
          resumeKcall_none fun e he => hwatched e (horder.mem_iff.mp he)
        refine Or.inr ⟨socket, rfl, hnone, ?_⟩
        simp only [hresume]
        split
        · rfl
        · rw [List.append_nil]
      · obtain ⟨co, hco⟩ := not_forall.mp hnone
        obtain ⟨session, frame, -, hmem⟩ := not_not.mp hco
        obtain ⟨co', hco', hresume⟩ := resumeKcall_some h.kcalls
          (fun e he => horder.mem_iff.mp he) ⟨_, horder.mem_iff.mpr hmem, rfl⟩
        refine Or.inl ⟨co', hco', ?_⟩
        simp only [hresume]

theorem Agent.Traced.closeSocket (h : A.Traced log) {order : List (Nat × Nat)}
    (horder : order.Perm A.kcalls.watchingKey) (hA' : A' = A.closeSocket sockfd order)
    (hok : A'.Ok) :
    ∃ outs, A'.sent = A.sent ++ outs ∧ A'.Traced (log ++ [(.close sockfd order, outs)]) ∧
      GatedEntry log (.close sockfd order) outs := by
  -- a connection that has not been admitted is closed without a word
  have hgated : (∀ u, ¬Admitted log sockfd u) → GatedEntry log (.close sockfd order) [] := by
    intro hnone
    refine ⟨by simp, by simp, by simp, ?_⟩
    intro s order' u he hadmitted
    simp only [AgentEvent.close.injEq] at he
    rw [← he.1] at hadmitted
    exact absurd hadmitted (hnone u)
  have hothers : ∀ outs s u, s ≠ sockfd →
      (Admitted (log ++ [(.close sockfd order, outs)]) s u ↔ Admitted log s u) := by
    intro outs s u hne
    simp [admitted_close, hne]
  have hself : ∀ outs u, ¬Admitted (log ++ [(.close sockfd order, outs)]) sockfd u := by
    simp [admitted_close]
  have hother : ∀ s : Sockfd, s ≠ sockfd → ∀ order', AgentEvent.close sockfd order ≠
      .close s order' := by
    intro s hne order' he
    simp only [AgentEvent.close.injEq] at he
    exact hne he.1.symm
  rcases closeSocket_cases h.ok sockfd horder with ⟨hnone, heq⟩ | ⟨co, hco, heq⟩ |
    ⟨socket, hsocket, hnone, heq⟩
  · have hentry : A.entry sockfd = none := by simp [Agent.entry, hnone]
    rw [heq] at hA'
    subst hA'
    refine ⟨[], by simp, ?_, hgated ?_⟩
    · apply h.next sockfd _ hok h.apart (Function.update_eq_self sockfd _).symm
      · intro co session frame hco
        have hne := h.not_checking sockfd (by simp [hentry]) hco
        exact Or.inl ⟨hco, Or.inr rfl, by simp, hother _ hne⟩
      · exact hothers []
      · simp [hself, hentry]
      · simp [hentry]
    · simp [h.admitted, hentry]
  · obtain ⟨session, frame, hblocked, hframe⟩ := h.ok.blockedUnder_iff.mp hco
    obtain ⟨hunblocked, -, -⟩ := h.ok.kcalls.resume hblocked
    obtain ⟨⟨v, hv, hcheck⟩, -⟩ := h.checking _ _ _ hblocked
    rw [hframe] at hv
    rw [heq] at hA'
    subst hA'
    refine ⟨[], by simp, ?_, hgated ?_⟩
    · apply h.next sockfd (A.entry sockfd) hok ⟨h.apart.allocated, h.apart.apart⟩
        (Function.update_eq_self sockfd _).symm
      · intro co' session' frame' hco'
        obtain ⟨hold, hsession⟩ := hunblocked.blocked _ _ _ hco'
        have hne : frame'.sockfd ≠ sockfd := by
          intro heq'
          have hsame := h.once _ _ _ _ _ _ hold hblocked (heq'.trans hframe.symm)
          rw [hsame, hblocked, CoState.blocked.injEq] at hold
          exact hsession hold.1.symm
        exact Or.inl ⟨hold, Or.inr rfl, by simp, hother _ hne⟩
      · exact hothers []
      · intro u
        rw [hv, Option.some.injEq]
        refine iff_of_false (hself [] u) ?_
        rintro rfl
        simp at hcheck
      · intro w hw htrue
        rw [hv, Option.some.injEq] at hw
        rw [← hw, hcheck] at htrue
        simp at htrue
    · intro u hadmitted
      rw [h.admitted, hv, Option.some.injEq] at hadmitted
      rw [hadmitted] at hcheck
      simp at hcheck
  · have hentry := Agent.entry_eq hsocket
    obtain ⟨hapart, hforget⟩ := h.apart.forget sockfd
    rw [heq] at hA'
    refine ⟨_, by rw [hA'], ?_, ?_⟩
    · apply h.next sockfd none hok
      · rw [hA']
        exact ⟨hapart.allocated, hapart.apart⟩
      · rw [hA']
        exact hforget
      · intro co session frame hco
        rw [hA'] at hco
        have hne : frame.sockfd ≠ sockfd := fun heq' =>
          hnone co (h.ok.blockedUnder_iff.mpr ⟨session, frame, hco, heq'⟩)
        exact Or.inl ⟨hco, Or.inl hne, by simp, hother _ hne⟩
      · exact hothers _
      · simp [hself]
      · simp
    · split
      · rename_i hcheck
        obtain ⟨u, hu⟩ := Option.ne_none_iff_exists'.mp (h.known _ _ hentry hcheck)
        have hadmitted : Admitted log sockfd u := by
          rw [h.admitted, hentry, ← hcheck, ← hu]
        refine ⟨by simp, ?_, by simp, ?_⟩
        · intro s uid hmem
          simp only [List.mem_singleton, AgentMsg.close.injEq] at hmem
          rw [hmem.1, hmem.2]
          exact ⟨⟨order, rfl⟩, u, hu, hadmitted⟩
        · intro s order' u' he hadmitted'
          simp only [AgentEvent.close.injEq] at he
          rw [← he.1, h.admitted, hentry, Option.some.injEq] at hadmitted'
          rw [← he.1, hadmitted']
      · rename_i hcheck
        apply hgated
        intro u hadmitted
        rw [h.admitted, hentry, Option.some.injEq] at hadmitted
        rw [hadmitted] at hcheck
        simp at hcheck

-- ============================================================================
-- Answers
-- ============================================================================

theorem reply_cases (h : A.Ok) {session : Nat} {ret : Bool}
    (hs : agentStep A (.reply session ret) = some A') :
    (∃ co frame Z', A.kcalls.coroutines co = .blocked session frame ∧
      Unblocked A.kcalls co session Z' ∧
      A' = { A with requests := A.requests.erase session, kcalls := Z' }.checked frame ret) ∨
      ∃ Z', (∀ co frame, A.kcalls.coroutines co ≠ .blocked session frame) ∧
        Stray A.kcalls Z' ∧ A' = { A with requests := A.requests.erase session, kcalls := Z' } := by
  simp only [agentStep] at hs
  split at hs
  · by_cases hblocked : ∃ co frame, A.kcalls.coroutines co = .blocked session frame
    · obtain ⟨co, frame, hco⟩ := hblocked
      obtain ⟨-, hresponse, hunblocked⟩ := h.kcalls.resume hco
      simp only [hresponse, Option.some.injEq] at hs
      exact Or.inl ⟨co, frame, _, hco, hunblocked, hs.symm⟩
    · have hnone : ∀ co frame, A.kcalls.coroutines co ≠ .blocked session frame :=
        fun co frame hco => hblocked ⟨co, frame, hco⟩
      obtain ⟨Z', d, hresponse, hd, hstray⟩ := h.kcalls.stray hnone
      simp only [hresponse] at hs
      cases d with
      | resumes frame => exact absurd rfl (hd frame)
      | swallowed => exact Or.inr ⟨Z', hnone, hstray, (Option.some.inj hs).symm⟩
      | error => exact Or.inr ⟨Z', hnone, hstray, (Option.some.inj hs).symm⟩
  · cases hs

theorem Agent.Traced.reply (h : A.Traced log) {session : Nat} {ret : Bool}
    (hs : agentStep A (.reply session ret) = some A') (hok : A'.Ok) :
    ∃ outs, A'.sent = A.sent ++ outs ∧ A'.Traced (log ++ [(.reply session ret, outs)]) ∧
      GatedEntry log (.reply session ret) outs := by
  rcases reply_cases h.ok hs with ⟨co, frame, Z', hco, hunblocked, hA'⟩ | ⟨Z', hnone, hstray, hA'⟩
  · obtain ⟨-, hsocket⟩ := h.ok.login _ _ _ hco
    obtain ⟨⟨v, hv, hcheck⟩, uid, hchecking⟩ := h.checking _ _ _ hco
    have hset := fun w => h.apart.entry_set hsocket w
    have hunadmitted : ∀ u, ¬Admitted log frame.sockfd u := by
      intro u hadmitted
      rw [h.admitted, hv, Option.some.injEq] at hadmitted
      simp [hadmitted] at hcheck
    have hblocked : ∀ co' session' frame', Z'.coroutines co' = .blocked session' frame' →
        A.kcalls.coroutines co' = .blocked session' frame' ∧ frame'.sockfd ≠ frame.sockfd ∧
          ∀ ret', AgentEvent.reply session ret ≠ .reply session' ret' := by
      intro co' session' frame' hco'
      obtain ⟨hold, hsession⟩ := hunblocked.blocked _ _ _ hco'
      refine ⟨hold, ?_, ?_⟩
      · intro heq
        have hsame := h.once _ _ _ _ _ _ hold hco heq
        rw [hsame, hco, CoState.blocked.injEq] at hold
        exact hsession hold.1.symm
      · intro ret' he
        simp only [AgentEvent.reply.injEq] at he
        exact hsession he.1.symm
    unfold Agent.checked at hA'
    cases ret with
    | true =>
        have hadmits := fun s u => admitted_reply (s := s) (u := u) hchecking
        simp only [if_true, hchecking.1] at hA'
        refine ⟨[.data frame.sockfd (some uid) frame.msg], by rw [hA']; rfl, ?_, ?_, by simp,
          by simp, by simp⟩
        · apply h.next frame.sockfd (some ⟨some true, some uid⟩) hok
          · rw [hA']
            exact ⟨h.apart.allocated, h.apart.apart⟩
          · rw [hA']
            exact hset _
          · intro co' session' frame' hco'
            rw [hA'] at hco'
            obtain ⟨hold, hne, hreply⟩ := hblocked _ _ _ hco'
            exact Or.inl ⟨hold, Or.inl hne, hreply, by simp⟩
          · intro s u hne
            simp [hadmits, hne]
          · intro u
            simp [hadmits, hunadmitted, eq_comm]
          · simp
        · intro s u m hmem
          simp only [List.mem_singleton, AgentMsg.data.injEq] at hmem
          rw [hmem.1, hmem.2.1]
          exact ⟨uid, rfl, hchecking.admits⟩
    | false =>
        simp only [Bool.false_eq_true, if_false] at hA'
        refine ⟨[.client frame.sockfd frame.msg (-1)], by rw [hA']; rfl, ?_, by simp, by simp,
          by simp, by simp⟩
        apply h.next frame.sockfd (some { A.sockets frame.socket with check := none }) hok
        · rw [hA']
          exact ⟨h.apart.allocated, h.apart.apart⟩
        · rw [hA']
          exact hset _
        · intro co' session' frame' hco'
          rw [hA'] at hco'
          obtain ⟨hold, hne, hreply⟩ := hblocked _ _ _ hco'
          exact Or.inl ⟨hold, Or.inl hne, hreply, by simp⟩
        · intro s u _
          exact admitted_same (by simp) (by simp)
        · intro u
          rw [admitted_same (by simp) (by simp)]
          simpa using hunadmitted u
        · simp
  · refine ⟨[], by simp [hA'], ?_, by simp, by simp, by simp, by simp⟩
    apply h.quiet hok
    · rw [hA']
      exact ⟨h.apart.allocated, h.apart.apart⟩
    · rw [hA']
      rfl
    · intro co session' frame hco
      rw [hA'] at hco
      rw [hstray.coroutines] at hco
      refine ⟨hco, ?_⟩
      intro ret' he
      simp only [AgentEvent.reply.injEq] at he
      exact hnone co frame (he.1 ▸ hco)
    · simp
    · simp

-- ============================================================================
-- Runs
-- ============================================================================

theorem Agent.Traced.step (h : A.Traced log) (hs : agentStep A e = some A') :
    ∃ outs, A'.sent = A.sent ++ outs ∧ A'.Traced (log ++ [(e, outs)]) ∧ GatedEntry log e outs := by
  have hok : A'.Ok := (agent_move hs h.ok.kcalls).ok h.ok
  cases e with
  | data sockfd msg session =>
      cases msg with
      | none =>
          simp only [agentStep, Option.some.injEq] at hs
          subst hs
          refine ⟨[], by simp, ?_, by simp, by simp, by simp, by simp⟩
          apply h.quiet hok h.apart rfl
          · intro co session' frame hco
            exact ⟨hco, by simp⟩
          · simp
          · simp
      | some msg =>
          simp only [agentStep] at hs
          split at hs
          · have hopen := h.open sockfd
            obtain ⟨hsocket, -, -, -⟩ := openSocket_eq A sockfd
            obtain ⟨outs, hsent, htraced, hgated⟩ :=
              hopen.onMessage hsocket (Option.some.inj hs).symm hok
            rw [openSocket_sent] at hsent
            exact ⟨outs, hsent, htraced, hgated⟩
          · cases hs
  | close sockfd order =>
      simp only [agentStep] at hs
      split at hs
      · rename_i horder
        exact h.closeSocket horder (Option.some.inj hs).symm hok
      · cases hs
  | reply session ret => exact h.reply hs hok

end Steps

theorem agentInit_traced : agentInit.Traced [] := by
  refine ⟨agentInit_ok, ⟨?_, ?_⟩, ?_, ?_, ?_, ?_⟩
  · simp [agentInit]
  · simp [agentInit]
  · simp [agentInit]
  · simp [agentInit]
  · intro sockfd uid
    refine iff_of_false ?_ (by simp [Agent.entry, agentInit])
    rintro ⟨before, session, msg, since, heq, -⟩
    simp at heq
  · simp [Agent.entry, agentInit]

/-- The hall hears of a connection while it is admitted, and then of every message and of
    its close: whatever is handed to the hall is of a connection that is admitted as that
    user, and what an admitted connection sends is handed over at once. -/
theorem hall_hears_admitted (es : List AgentEvent) :
    Always loggedStep (fun s => Gated s.2) (agentInit, []) es := by
  refine always_of_invariant (J := fun s => s.1.Traced s.2 ∧ Gated s.2) (fun _ h => h.2) ?_
    ⟨agentInit_traced, by simp [Gated]⟩
  rintro ⟨A, log⟩ e s' ⟨htraced, hgated⟩ hs
  obtain ⟨A', hstep, rfl⟩ := Option.map_eq_some_iff.mp hs
  obtain ⟨outs, hsent, htraced', hentry⟩ := htraced.step hstep
  have hnew : A'.sent.drop A.sent.length = outs := by rw [hsent, List.drop_left]
  dsimp only
  rw [hnew]
  exact ⟨htraced', hgated.snoc hentry⟩

end Game
end ZServer
