/-
  ZServer.Game.Agent

  `game/agent_srv.lua`: the agent checks the first message of a connection with a
  login service, in a call that is keyed by the connection, and hands the messages of a
  connection that has been checked to the hall.

  `agentStep` is the dispatch of one message to the agent: client data, the close of a
  connection, or the answer of the login service.  Which session a call gets is up to
  the context; it is not one that is still waited for.
-/

import ZServer.Game.Kcall
import ZServer.Lib.Transition

namespace ZServer
namespace Game

open Lib

-- ============================================================================
-- The agent
-- ============================================================================

abbrev Sockfd := Nat

abbrev Uid := Nat

/-- A message of a client, decoded. -/
structure ClientMsg where
  seq : Nat
  cmd : String
  uid : Option Uid
  password : String
  deriving DecidableEq, Repr

/-- What `socket_manager` has for a connection. -/
structure AgentSocket where
  check : Option Bool
  uid : Option Uid
  deriving DecidableEq, Repr

/-- What the agent sends. -/
inductive AgentMsg where
  /-- to the login service, with `z.kcall` -/
  | login (session : Nat) (uid : Uid) (password : String)
  /-- to the hall -/
  | data (sockfd : Sockfd) (uid : Option Uid) (msg : ClientMsg)
  | close (sockfd : Sockfd) (uid : Option Uid)
  /-- to the client -/
  | client (sockfd : Sockfd) (msg : ClientMsg) (errno : Int)
  deriving DecidableEq, Repr

/-- The variables of `on_message` in `z.kcall`. -/
structure LoginFrame where
  sockfd : Sockfd
  /-- the address of the table `socket` -/
  socket : Nat
  msg : ClientMsg
  deriving DecidableEq, Repr

structure Agent where
  kcalls : Kcalls LoginFrame
  /-- the tables that have been in `socket_manager`, by their addresses -/
  sockets : Nat → AgentSocket
  nextSocket : Nat
  socketManager : Sockfd → Option Nat
  /-- the sessions that the login service has not answered -/
  requests : List Nat
  sent : List AgentMsg

def agentInit : Agent where
  kcalls := ⟨[], fun _ => none, fun _ => .done, 0, []⟩
  sockets := fun _ => ⟨none, none⟩
  nextSocket := 0
  socketManager := fun _ => none
  requests := []
  sent := []

inductive AgentEvent where
  /-- client data, which is decoded unless `msg` is `none`; `session` is what `c.send`
      returns in `z.kcall` -/
  | data (sockfd : Sockfd) (msg : Option ClientMsg) (session : Option Nat)
  /-- the close of a connection; `order` is the one of `pairs(watching_key)` -/
  | close (sockfd : Sockfd) (order : List (Nat × Nat))
  /-- the login service answers -/
  | reply (session : Nat) (ret : Bool)
  deriving DecidableEq, Repr

section Handlers

variable (A : Agent)

def Agent.send (msg : AgentMsg) : Agent := { A with sent := A.sent ++ [msg] }

def Agent.setSocket (socket : Nat) (value : AgentSocket) : Agent :=
  { A with sockets := Function.update A.sockets socket value }

/-- `socket_manager[sockfd] = socket_manager[sockfd] or {}` -/
def Agent.openSocket (sockfd : Sockfd) : Agent × Nat :=
  match A.socketManager sockfd with
  | some socket => (A, socket)
  | none =>
      ({ A with
        sockets := Function.update A.sockets A.nextSocket ⟨none, none⟩
        nextSocket := A.nextSocket + 1
        socketManager := Function.update A.socketManager sockfd (some A.nextSocket) }, A.nextSocket)

/-- `on_message`, up to the yield in `z.kcall`. -/
def Agent.onMessage (sockfd : Sockfd) (socket : Nat) (msg : ClientMsg) (session : Option Nat) :
    Agent :=
  match (A.sockets socket).check with
  | none =>
      match msg.uid with
      | none => A
      | some uid =>
          let A := A.setSocket socket { A.sockets socket with check := some false }
          match session with
          -- an error ends the handler
          | none => A
          | some session =>
              { A.send (.login session uid msg.password) with
                kcalls := A.kcalls.yieldCall sockfd session ⟨sockfd, socket, msg⟩
                requests := session :: A.requests }
  | some true => A.send (.data sockfd (A.sockets socket).uid msg)
  | some false => A

/-- `on_message` goes on with the answer. -/
def Agent.checked (frame : LoginFrame) (ret : Bool) : Agent :=
  if ret then
    (A.setSocket frame.socket ⟨some true, frame.msg.uid⟩).send
      (.data frame.sockfd frame.msg.uid frame.msg)
  else
    (A.setSocket frame.socket { A.sockets frame.socket with check := none }).send
      (.client frame.sockfd frame.msg (-1))

/-- `socket_handle.close` -/
def Agent.closeSocket (sockfd : Sockfd) (order : List (Nat × Nat)) : Agent :=
  match A.socketManager sockfd with
  | none => A
  | some socket =>
      match resumeKcall sockfd order A.kcalls with
      -- the error ends the handler
      | (kcalls, false) => { A with kcalls := kcalls }
      | (kcalls, true) =>
          let A := { A with kcalls := kcalls }
          let A :=
            if (A.sockets socket).check = some true then
              A.send (.close sockfd (A.sockets socket).uid)
            else A
          { A with socketManager := Function.update A.socketManager sockfd none }

/-- The session is not waited for. -/
def Agent.Unused (session : Nat) : Prop :=
  session ∉ A.requests ∧ (∀ e ∈ A.kcalls.watchingKey, e.1 ≠ session) ∧
    A.kcalls.sessionIdCoroutine session = none

instance (session : Nat) : Decidable (A.Unused session) := by
  unfold Agent.Unused
  infer_instance

/-- The dispatch of one message. -/
def agentStep (A : Agent) : AgentEvent → Option Agent
  | .data _ none _ => some A
  | .data sockfd (some msg) session =>
      if ∀ s ∈ session, A.Unused s then
        let (A, socket) := A.openSocket sockfd
        some (A.onMessage sockfd socket msg session)
      else none
  | .close sockfd order =>
      if order.Perm A.kcalls.watchingKey then some (A.closeSocket sockfd order) else none
  | .reply session ret =>
      if session ∈ A.requests then
        let A := { A with requests := A.requests.erase session }
        match A.kcalls.rawDispatchResponse session with
        | (kcalls, .resumes frame) => some ({ A with kcalls := kcalls }.checked frame ret)
        | (kcalls, _) => some { A with kcalls := kcalls }
      else none

end Handlers

-- ============================================================================
-- Moves
-- ============================================================================

/-- The client data of the connection that has been handed to the hall. -/
def Agent.forwards (A : Agent) (sockfd : Sockfd) : List AgentMsg :=
  A.sent.filter fun
    | .data s _ _ => s = sockfd
    | _ => false

/-- No connection loses its table. -/
def Agent.Extends (A A' : Agent) : Prop :=
  ∀ sockfd socket, A.socketManager sockfd = some socket → A'.socketManager sockfd = some socket

/-- What the dispatch of one message does to the calls and the connections. -/
inductive AgentMove (A : Agent) : AgentEvent → Agent → Prop where
  | message (e : AgentEvent) (A' : Agent) (hreply : ∀ session ret, e ≠ .reply session ret)
      (hclose : ∀ sockfd order, e ≠ .close sockfd order)
      (hkcalls : A'.kcalls = A.kcalls) (hextends : A.Extends A') : AgentMove A e A'
  | login (sockfd : Sockfd) (msg : Option ClientMsg) (session : Nat) (frame : LoginFrame)
      (A' : Agent)
      (hunused : A.Unused session)
      (hkcalls : A'.kcalls = A.kcalls.yieldCall frame.sockfd session frame)
      (hsocket : A'.socketManager frame.sockfd = some frame.socket) (hextends : A.Extends A') :
      AgentMove A (.data sockfd msg (some session)) A'
  | unknown (sockfd : Sockfd) (order : List (Nat × Nat)) (hnone : A.socketManager sockfd = none) :
      AgentMove A (.close sockfd order) A
  | broken (sockfd : Sockfd) (order : List (Nat × Nat)) (co : CoId)
      (hco : A.kcalls.BlockedUnder sockfd co) :
      AgentMove A (.close sockfd order) { A with kcalls := (A.kcalls.resume (.co co) false).1 }
  | closed (sockfd : Sockfd) (order : List (Nat × Nat)) (A' : Agent)
      (hnone : ∀ co, ¬A.kcalls.BlockedUnder sockfd co) (hkcalls : A'.kcalls = A.kcalls)
      (hmanager : A'.socketManager = Function.update A.socketManager sockfd none) :
      AgentMove A (.close sockfd order) A'
  | answered (session : Nat) (ret : Bool) (co : CoId) (frame : LoginFrame) (A' : Agent)
      (hco : A.kcalls.coroutines co = .blocked session frame)
      (hkcalls : Unblocked A.kcalls co session A'.kcalls)
      (hmanager : A'.socketManager = A.socketManager)
      (hforwards : ∀ sockfd, frame.sockfd ≠ sockfd → A'.forwards sockfd = A.forwards sockfd) :
      AgentMove A (.reply session ret) A'
  | stray (session : Nat) (ret : Bool) (A' : Agent) (hkcalls : Stray A.kcalls A'.kcalls)
      (hmanager : A'.socketManager = A.socketManager) (hsent : A'.sent = A.sent) :
      AgentMove A (.reply session ret) A'

section Moves

variable {A A' : Agent}

theorem openSocket_eq (A : Agent) (sockfd : Sockfd) :
    (A.openSocket sockfd).1.socketManager sockfd = some (A.openSocket sockfd).2 ∧
      A.Extends (A.openSocket sockfd).1 ∧ (A.openSocket sockfd).1.kcalls = A.kcalls ∧
      (A.openSocket sockfd).1.requests = A.requests := by
  unfold Agent.openSocket
  cases hsocket : A.socketManager sockfd with
  | some socket => exact ⟨hsocket, fun _ _ h => h, rfl, rfl⟩
  | none =>
      refine ⟨Function.update_self _ _ _, fun s socket hs => ?_, rfl, rfl⟩
      have hne : s ≠ sockfd := by
        rintro rfl
        rw [hsocket] at hs
        cases hs
      exact (Function.update_of_ne hne _ _).trans hs

/-- `on_message` begins a call, or leaves the calls alone. -/
theorem onMessage_cases (A : Agent) (sockfd : Sockfd) (socket : Nat) (msg : ClientMsg)
    (session : Option Nat) :
    (A.onMessage sockfd socket msg session).socketManager = A.socketManager ∧
      ((A.onMessage sockfd socket msg session).kcalls = A.kcalls ∨
        ∃ s, session = some s ∧ (A.onMessage sockfd socket msg session).kcalls =
          A.kcalls.yieldCall sockfd s ⟨sockfd, socket, msg⟩) := by
  unfold Agent.onMessage
  cases (A.sockets socket).check with
  | some check => cases check <;> exact ⟨rfl, Or.inl rfl⟩
  | none =>
      cases msg.uid with
      | none => exact ⟨rfl, Or.inl rfl⟩
      | some uid =>
          cases session with
          | none => exact ⟨rfl, Or.inl rfl⟩
          | some session => exact ⟨rfl, Or.inr ⟨session, rfl, rfl⟩⟩

theorem checked_eq (A : Agent) (frame : LoginFrame) (ret : Bool) :
    (A.checked frame ret).kcalls = A.kcalls ∧
      (A.checked frame ret).socketManager = A.socketManager ∧
      ∀ sockfd, frame.sockfd ≠ sockfd →
        (A.checked frame ret).forwards sockfd = A.forwards sockfd := by
  unfold Agent.checked
  cases ret with
  | true =>
      refine ⟨rfl, rfl, fun sockfd hne => ?_⟩
      show (A.sent ++ [_]).filter _ = _
      rw [List.filter_append, List.filter_cons_of_neg (by simpa using hne), List.filter_nil,
        List.append_nil]
      rfl
  | false =>
      refine ⟨rfl, rfl, fun sockfd _ => ?_⟩
      show (A.sent ++ [_]).filter _ = _
      rw [List.filter_append, List.filter_cons_of_neg Bool.false_ne_true, List.filter_nil,
        List.append_nil]
      rfl

theorem agent_move {e : AgentEvent} (hs : agentStep A e = some A') (hA : A.kcalls.Consistent) :
    AgentMove A e A' := by
  cases e with
  | data sockfd msg session =>
      cases msg with
      | none =>
          cases hs
          exact .message _ _ (by rintro _ _ ⟨⟩) (by rintro _ _ ⟨⟩) rfl fun _ _ h => h
      | some msg =>
          simp only [agentStep] at hs
          split at hs
          · rename_i hunused
            cases hs
            obtain ⟨hsocket, hextends, hkcalls, -⟩ := openSocket_eq A sockfd
            obtain ⟨hmanager, hcases⟩ := onMessage_cases (A.openSocket sockfd).1 sockfd
              (A.openSocket sockfd).2 msg session
            have hextends' : A.Extends ((A.openSocket sockfd).1.onMessage sockfd
                (A.openSocket sockfd).2 msg session) := by
              unfold Agent.Extends
              rw [hmanager]
              exact hextends
            rcases hcases with hsame | ⟨s, rfl, hyield⟩
            · exact .message _ _ (by rintro _ _ ⟨⟩) (by rintro _ _ ⟨⟩) (hsame.trans hkcalls)
                hextends'
            · rw [hkcalls] at hyield
              refine .login sockfd _ s ⟨sockfd, (A.openSocket sockfd).2, msg⟩ _ (hunused s rfl)
                hyield
                ?_ hextends'
              rw [hmanager]
              exact hsocket
          · cases hs
  | close sockfd order =>
      simp only [agentStep] at hs
      split at hs
      · rename_i horder
        cases hs
        unfold Agent.closeSocket
        cases hsocket : A.socketManager sockfd with
        | none => exact .unknown sockfd order hsocket
        | some socket =>
            by_cases hnone : ∀ co, ¬A.kcalls.BlockedUnder sockfd co
            · have hwatched := hA.none_watched hnone
              have hresume : resumeKcall sockfd order A.kcalls = (A.kcalls, true) :=
                resumeKcall_none fun e he => hwatched e (horder.mem_iff.mp he)
              simp only [hresume]
              refine .closed sockfd order _ hnone ?_ ?_ <;> split <;> rfl
            · obtain ⟨co, hco⟩ := not_forall.mp hnone
              obtain ⟨session, frame, -, hmem⟩ := not_not.mp hco
              obtain ⟨co', hco', hresume⟩ := resumeKcall_some hA
                (fun e he => horder.mem_iff.mp he) ⟨_, horder.mem_iff.mpr hmem, rfl⟩
              simp only [hresume]
              exact .broken sockfd order co' hco'
      · cases hs
  | reply session ret =>
      simp only [agentStep] at hs
      split at hs
      · by_cases hblocked : ∃ co frame, A.kcalls.coroutines co = .blocked session frame
        · obtain ⟨co, frame, hco⟩ := hblocked
          obtain ⟨-, hresponse, hunblocked⟩ := hA.resume hco
          simp only [hresponse] at hs
          cases hs
          obtain ⟨hkcalls, hmanager, hforwards⟩ := checked_eq { A with
            requests := A.requests.erase session
            kcalls := ((A.kcalls.register session none).resume (.co co) true).1 } frame ret
          exact .answered session ret co frame _ hco (hkcalls ▸ hunblocked) hmanager hforwards
        · have hnone : ∀ co frame, A.kcalls.coroutines co ≠ .blocked session frame :=
            fun co frame hco => hblocked ⟨co, frame, hco⟩
          obtain ⟨Z, d, hresponse, hd, hstray⟩ := hA.stray hnone
          simp only [hresponse] at hs
          cases d with
          | resumes frame => exact absurd rfl (hd frame)
          | swallowed =>
              cases hs
              exact .stray session ret _ hstray rfl rfl
          | error =>
              cases hs
              exact .stray session ret _ hstray rfl rfl
      · cases hs

end Moves

-- ============================================================================
-- Logins
-- ============================================================================

/-- A coroutine that is blocked is so for a login of a connection that is there. -/
structure Agent.Ok (A : Agent) : Prop where
  kcalls : A.kcalls.Consistent
  login : ∀ co session frame, A.kcalls.coroutines co = .blocked session frame →
    (session, frame.sockfd) ∈ A.kcalls.watchingKey ∧
      A.socketManager frame.sockfd = some frame.socket

section Logins

variable {A A' : Agent}

/-- A coroutine is blocked under one key. -/
theorem Kcalls.Consistent.key_eq {φ : Type} {Z : Kcalls φ} (h : Z.Consistent) {session k k' : Nat}
    (hk : (session, k) ∈ Z.watchingKey) (hk' : (session, k') ∈ Z.watchingKey) : k = k' :=
  congrArg Prod.snd (List.inj_on_of_nodup_map h.once hk hk' rfl)

theorem Agent.Ok.blockedUnder_iff (h : A.Ok) {sockfd : Sockfd} {co : CoId} :
    A.kcalls.BlockedUnder sockfd co ↔
      ∃ session frame, A.kcalls.coroutines co = .blocked session frame ∧ frame.sockfd = sockfd := by
  constructor
  · rintro ⟨session, frame, hco, hmem⟩
    exact ⟨session, frame, hco, h.kcalls.key_eq (h.login _ _ _ hco).1 hmem⟩
  · rintro ⟨session, frame, hco, rfl⟩
    exact ⟨session, frame, hco, (h.login _ _ _ hco).1⟩

theorem Unblocked.login {Z Z' : Kcalls LoginFrame} {co : CoId} {session : Nat}
    (h : Unblocked Z co session Z') {co' : CoId} {session' : Nat} {frame' : LoginFrame}
    (hco' : Z'.coroutines co' = .blocked session' frame')
    (hmem : ∀ frame, Z.coroutines co' = .blocked session' frame →
      (session', frame.sockfd) ∈ Z.watchingKey) :
    (session', frame'.sockfd) ∈ Z'.watchingKey := by
  obtain ⟨hold, hne⟩ := h.blocked _ _ _ hco'
  rw [h.watchingKey, List.mem_filter]
  exact ⟨hmem _ hold, decide_eq_true hne⟩

theorem AgentMove.ok {e : AgentEvent} (hmove : AgentMove A e A') (h : A.Ok) : A'.Ok := by
  cases hmove with
  | message e A' hreply hclose hkcalls hextends =>
      refine ⟨hkcalls ▸ h.kcalls, fun co session frame hco => ?_⟩
      rw [hkcalls] at hco ⊢
      obtain ⟨hmem, hsocket⟩ := h.login _ _ _ hco
      exact ⟨hmem, hextends _ _ hsocket⟩
  | login sockfd msg session frame A' hunused hkcalls hsocket hextends =>
      refine ⟨hkcalls ▸ h.kcalls.yieldCall _ frame hunused.2.1 hunused.2.2,
        fun co session' frame' hco => ?_⟩
      rw [hkcalls] at hco ⊢
      have hco : Function.update A.kcalls.coroutines A.kcalls.next (CoState.blocked session frame) co =
          .blocked session' frame' := hco
      by_cases hself : co = A.kcalls.next
      · subst hself
        rw [Function.update_self] at hco
        cases hco
        exact ⟨List.mem_cons_self, hsocket⟩
      · rw [Function.update_of_ne hself] at hco
        obtain ⟨hmem, hsocket'⟩ := h.login _ _ _ hco
        exact ⟨List.mem_cons_of_mem _ hmem, hextends _ _ hsocket'⟩
  | unknown sockfd order hnone => exact h
  | broken sockfd order co hco =>
      obtain ⟨session, frame, hblocked, -⟩ := hco
      obtain ⟨hunblocked, -, -⟩ := h.kcalls.resume hblocked
      refine ⟨hunblocked.consistent, fun co' session' frame' hco' => ?_⟩
      exact ⟨hunblocked.login hco' fun frame hframe => (h.login _ _ _ hframe).1,
        (h.login _ _ _ (hunblocked.blocked _ _ _ hco').1).2⟩
  | closed sockfd order A' hnone hkcalls hmanager =>
      refine ⟨hkcalls ▸ h.kcalls, fun co session frame hco => ?_⟩
      rw [hkcalls] at hco ⊢
      obtain ⟨hmem, hsocket⟩ := h.login _ _ _ hco
      have hne : frame.sockfd ≠ sockfd := fun heq =>
        hnone co (h.blockedUnder_iff.mpr ⟨session, frame, hco, heq⟩)
      rw [hmanager, Function.update_of_ne hne]
      exact ⟨hmem, hsocket⟩
  | answered session ret co frame A' hco hkcalls hmanager hforwards =>
      refine ⟨hkcalls.consistent, fun co' session' frame' hco' => ?_⟩
      rw [hmanager]
      exact ⟨hkcalls.login hco' fun frame hframe => (h.login _ _ _ hframe).1,
        (h.login _ _ _ (hkcalls.blocked _ _ _ hco').1).2⟩
  | stray session ret A' hkcalls hmanager hsent =>
      refine ⟨hkcalls.consistent, fun co' session' frame' hco' => ?_⟩
      rw [hkcalls.coroutines] at hco'
      rw [hkcalls.watchingKey, hmanager]
      exact h.login _ _ _ hco'

theorem agentInit_ok : agentInit.Ok :=
  ⟨⟨List.nodup_nil, by rintro _ ⟨⟩, by rintro _ _ _ ⟨⟩, by rintro _ _ ⟨⟩, fun _ _ => rfl⟩,
    by rintro _ _ _ ⟨⟩⟩

theorem agent_ok (h : Reachable agentStep agentInit A) : A.Ok :=
  h.invariant agentInit_ok fun _ _ _ hok hs => (agent_move hs hok.kcalls).ok hok

-- ============================================================================
-- Closes
-- ============================================================================

/-- The coroutines that were there before a close are not blocked for the connection. -/
structure ClosedFor (sockfd : Sockfd) (next : CoId) (A : Agent) : Prop where
  ok : A.Ok
  next_le : next ≤ A.kcalls.next
  others : ∀ co session frame, co < next → A.kcalls.coroutines co = .blocked session frame →
    frame.sockfd ≠ sockfd

theorem ClosedFor.step {sockfd : Sockfd} {next : CoId} (h : ClosedFor sockfd next A)
    {e : AgentEvent}
    (hs : agentStep A e = some A') : ClosedFor sockfd next A' := by
  have hmove := agent_move hs h.ok.kcalls
  refine ⟨hmove.ok h.ok, ?_, fun co session frame hlt hco => ?_⟩
  · cases hmove with
    | message e A' hreply hclose hkcalls hextends =>
        rw [hkcalls]
        exact h.next_le
    | login sockfd msg session frame A' hunused hkcalls hsocket hextends =>
        rw [hkcalls]
        exact Nat.le_succ_of_le h.next_le
    | unknown sockfd order hnone => exact h.next_le
    | broken sockfd order co hco =>
        obtain ⟨session, frame, hblocked, -⟩ := hco
        exact Nat.le_trans h.next_le (Nat.le_of_eq (h.ok.kcalls.resume hblocked).1.next.symm)
    | closed sockfd order A' hnone hkcalls hmanager =>
        rw [hkcalls]
        exact h.next_le
    | answered session ret co frame A' hco hkcalls hmanager hforwards =>
        rw [hkcalls.next]
        exact h.next_le
    | stray session ret A' hkcalls hmanager hsent =>
        rw [hkcalls.next]
        exact h.next_le
  · cases hmove with
    | message e A' hreply hclose hkcalls hextends =>
        rw [hkcalls] at hco
        exact h.others _ _ _ hlt hco
    | login sockfd' msg session' frame' A' hunused hkcalls hsocket hextends =>
        rw [hkcalls] at hco
        have hne : co ≠ A.kcalls.next := Nat.ne_of_lt (Nat.lt_of_lt_of_le hlt h.next_le)
        exact h.others _ _ _ hlt ((Function.update_of_ne hne _ _).symm.trans hco)
    | unknown sockfd order hnone => exact h.others _ _ _ hlt hco
    | broken sockfd' order co' hco' =>
        obtain ⟨session', frame', hblocked, -⟩ := hco'
        exact h.others _ _ _ hlt ((h.ok.kcalls.resume hblocked).1.blocked _ _ _ hco).1
    | closed sockfd order A' hnone hkcalls hmanager =>
        rw [hkcalls] at hco
        exact h.others _ _ _ hlt hco
    | answered session' ret co' frame' A' hco' hkcalls hmanager hforwards =>
        exact h.others _ _ _ hlt (hkcalls.blocked _ _ _ hco).1
    | stray session' ret A' hkcalls hmanager hsent =>
        rw [hkcalls.coroutines] at hco
        exact h.others _ _ _ hlt hco

theorem forwards_sent {A A' : Agent} (h : A'.sent = A.sent) (sockfd : Sockfd) :
    A'.forwards sockfd = A.forwards sockfd := by
  unfold Agent.forwards
  rw [h]

/-- Only a login of the connection makes an answer hand its data to the hall. -/
theorem reply_forwards (h : A.Ok) {session : Nat} {ret : Bool} {sockfd : Sockfd}
    (hs : agentStep A (.reply session ret) = some A')
    (hne : A'.forwards sockfd ≠ A.forwards sockfd) :
    ∃ co frame, A.kcalls.sessionIdCoroutine session = some (.co co) ∧
      A.kcalls.coroutines co = .blocked session frame ∧ frame.sockfd = sockfd := by
  cases agent_move hs h.kcalls with
  | message e A' hreply hclose hkcalls hextends => exact absurd rfl (hreply session ret)
  | answered session ret co frame A' hco hkcalls hmanager hforwards =>
      refine ⟨co, frame, (h.kcalls.blocked _ _ _ hco).1, hco, ?_⟩
      by_contra hother
      exact hne (hforwards sockfd hother)
  | stray session ret A' hkcalls hmanager hsent => exact absurd (forwards_sent hsent sockfd) hne

/-- What `socket_handle.close` is for: the connection is forgotten, and when a later
    answer of the login service hands data of it to the hall, that is for a login that
    has begun since. -/
def CloseEnds (A : Agent) (sockfd : Sockfd) : Prop :=
  ∀ order A', agentStep A (.close sockfd order) = some A' →
    A'.socketManager sockfd = none ∧
    ∀ es B session ret B', runFrom agentStep A' es = some B →
      agentStep B (.reply session ret) = some B' → B'.forwards sockfd ≠ B.forwards sockfd →
      ∃ co, B.kcalls.sessionIdCoroutine session = some (.co co) ∧ A'.kcalls.next ≤ co

theorem closeEnds_iff (h : A.Ok) (sockfd : Sockfd) :
    CloseEnds A sockfd ↔ ∀ co, ¬A.kcalls.BlockedUnder sockfd co := by
  constructor
  · intro hends co hco
    obtain ⟨session, frame, hblocked, hframe⟩ := h.blockedUnder_iff.mp hco
    have hsocket := (h.login _ _ _ hblocked).2
    rw [hframe] at hsocket
    have hs : agentStep A (.close sockfd A.kcalls.watchingKey) =
        some (A.closeSocket sockfd A.kcalls.watchingKey) := if_pos (List.Perm.refl _)
    have hgone := (hends _ _ hs).1
    generalize A.closeSocket sockfd A.kcalls.watchingKey = A' at hs hgone
    cases agent_move hs h.kcalls with
    | message e A' hreply hclose hkcalls hextends => exact hclose _ _ rfl
    | unknown sockfd order hnone =>
        rw [hnone] at hsocket
        cases hsocket
    | broken sockfd order co' hco' =>
        have hgone : A.socketManager sockfd = none := hgone
        rw [hgone] at hsocket
        cases hsocket
    | closed sockfd order A' hnone hkcalls hmanager => exact hnone co hco
  · intro hnone order A' hs
    have hclosed : ClosedFor sockfd A'.kcalls.next A' ∧ A'.socketManager sockfd = none := by
      have hothers : ∀ co session frame, A.kcalls.coroutines co = .blocked session frame →
          frame.sockfd ≠ sockfd := fun co session frame hco heq =>
        hnone co (h.blockedUnder_iff.mpr ⟨session, frame, hco, heq⟩)
      have hmove := agent_move hs h.kcalls
      have hok := hmove.ok h
      cases hmove with
      | message e A' hreply hclose hkcalls hextends => exact absurd rfl (hclose _ _)
      | unknown sockfd order hgone =>
          exact ⟨⟨hok, Nat.le_refl _, fun co session frame _ => hothers co session frame⟩, hgone⟩
      | broken sockfd order co hco => exact absurd hco (hnone co)
      | closed sockfd order A' hnone hkcalls hmanager =>
          refine ⟨⟨hok, Nat.le_refl _, fun co session frame _ hco => ?_⟩, ?_⟩
          · rw [hkcalls] at hco
            exact hothers co session frame hco
          · rw [hmanager]
            exact Function.update_self _ _ _
    refine ⟨hclosed.2, fun es B session ret B' hrun hs' hne => ?_⟩
    have hB : ClosedFor sockfd A'.kcalls.next B :=
      (Reachable.of_runFrom hrun).invariant hclosed.1 fun _ _ _ hc hs => hc.step hs
    obtain ⟨co, frame, hentry, hblocked, hframe⟩ := reply_forwards hB.ok hs' hne
    refine ⟨co, hentry, ?_⟩
    by_contra hlt
    exact hB.others co session frame (Nat.lt_of_not_le hlt) hblocked hframe

/-- Breaking the calls under a key, and closing a connection, go as they are to just in
    case no coroutine is blocked under the key, or for the connection. -/
theorem resumeKcall_breaks_iff {φ : Type} {Z : Kcalls φ} (hZ : Z.Consistent) (key : Nat) {A : Agent}
    (hA : Reachable agentStep agentInit A) (sockfd : Sockfd) :
    ((∀ order, order.Perm Z.watchingKey → BreaksKey Z key order) ↔ ∀ co, ¬Z.BlockedUnder key co) ∧
      A.kcalls.Consistent ∧ (CloseEnds A sockfd ↔ ∀ co, ¬A.kcalls.BlockedUnder sockfd co) :=
  ⟨breaksKey_iff hZ, (agent_ok hA).kcalls, closeEnds_iff (agent_ok hA) sockfd⟩

/-- Two connections log in, and the first is closed once it has been checked. -/
theorem resumeKcall_breaks_checked : ∃ A,
    runFrom agentStep agentInit [.data 5 (some ⟨1, "login.LOGIN", some 7, "7"⟩) (some 1),
      .data 6 (some ⟨1, "login.LOGIN", some 8, "8"⟩) (some 2), .reply 1 true] = some A ∧
      CloseEnds A 5 ∧ ∀ order, order.Perm A.kcalls.watchingKey → BreaksKey A.kcalls 5 order := by
  have hrun : ∃ A, runFrom agentStep agentInit
      [.data 5 (some ⟨1, "login.LOGIN", some 7, "7"⟩) (some 1),
        .data 6 (some ⟨1, "login.LOGIN", some 8, "8"⟩) (some 2), .reply 1 true] = some A ∧
      A.kcalls.watchingKey = [(2, 6)] := ⟨_, rfl, rfl⟩
  obtain ⟨A, hA, hwatching⟩ := hrun
  have hnone : ∀ co, ¬A.kcalls.BlockedUnder 5 co := by
    rintro co ⟨session, frame, -, hmem⟩
    rw [hwatching] at hmem
    cases List.mem_singleton.mp hmem
  obtain ⟨hbreaks, -, hends⟩ := resumeKcall_breaks_iff (agent_ok ⟨_, hA⟩).kcalls 5 ⟨_, hA⟩ 5
  exact ⟨A, hA, hends.mpr hnone, hbreaks.mpr hnone⟩

/-- A connection that is closed while its login is being checked stays in
    `socket_manager`, where it is taken for one whose check goes on, and the answer ends
    in an error. -/
theorem resumeKcall_fails : ∃ A A',
    runFrom agentStep agentInit [.data 5 (some ⟨1, "login.LOGIN", some 7, "7"⟩) (some 1)] = some A ∧
      (resumeKcall 5 A.kcalls.watchingKey A.kcalls).2 = false ∧ ¬CloseEnds A 5 ∧
      agentStep A (.close 5 A.kcalls.watchingKey) = some A' ∧ A'.socketManager 5 = some 0 ∧
      A'.sockets 0 = ⟨some false, none⟩ ∧ (A'.kcalls.rawDispatchResponse 1).2 = .error := by
  have hrun : ∃ A A', runFrom agentStep agentInit
      [.data 5 (some ⟨1, "login.LOGIN", some 7, "7"⟩) (some 1)] = some A ∧
      (resumeKcall 5 A.kcalls.watchingKey A.kcalls).2 = false ∧
      agentStep A (.close 5 A.kcalls.watchingKey) = some A' ∧ A'.socketManager 5 = some 0 ∧
      A'.sockets 0 = ⟨some false, none⟩ ∧ (A'.kcalls.rawDispatchResponse 1).2 = .error :=
    ⟨_, _, rfl, rfl, rfl, rfl, rfl, rfl⟩
  obtain ⟨A, A', hA, hreturns, hs, hsocket, hrest⟩ := hrun
  refine ⟨A, A', hA, hreturns, fun hends => ?_, hs, hsocket, hrest⟩
  rw [(hends _ _ hs).1] at hsocket
  cases hsocket

end Logins

end Game
end ZServer
