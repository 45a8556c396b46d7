/-
  ZServer.Lua.Calls

  Calls from service to service, from end to end: what `z.call` and `z.kcall` return comes
  from the handler of that very request, which has been started once.

  As in `Correlation`, the sessions are new and no error message is dispatched.  What the
  C code sends is a tick, for a timer of the service, or a message that nobody waits for.

    * `Adds` — what one step adds to the history of a service, and sends.
    * `Explained` — where a message on its way comes from.
    * `Traced` — the invariant of a system with the messages that have been sent.
    * `calls_answered` — the result, for every run.
-/

import ZServer.Lua.Correlation
import ZServer.Lua.System

namespace ZServer
namespace Lua

open Lib

-- ============================================================================
-- Sessions
-- ============================================================================

/-- The session that an event is the first to use. -/
def Event.opens : Event → Option Nat
  | .called _ session => some session
  | .given _ (.timer session _ _) => some session
  | _ => none

/-- The session that the sender of a request waits for. -/
def Message.awaits (msg : Message) : Option Nat :=
  if msg.prototype = MSG_TYPE_RESPONSE ∨ msg.prototype = MSG_TYPE_PROTO_ERROR ∨ msg.session = 0
  then none else some msg.session

/-- The handler of a request with that source and session is given to a coroutine. -/
def Event.starts (source : Addr) (session : Nat) : Event → Bool
  | .given _ (.handler source' session') => source' = source ∧ session' = session
  | _ => false

/-- No event that a message leads to. -/
def Event.Plain : Event → Prop
  | .given _ (.handler _ _) => False
  | .resumed _ (.answer _) => False
  | _ => True

/-- A message of `L`; a response is in the history. -/
structure Message.Sent (msg : Message) (L : Service) : Prop where
  source : msg.source = L.handle
  replied : msg.prototype = MSG_TYPE_RESPONSE → msg.session ≠ 0 ∧ ∃ co, .replied co msg ∈ L.log

-- ============================================================================
-- What a step adds
-- ============================================================================

/-- From `L` to `L'` the service adds plain events to its history, and sends messages; the
    sessions are new. -/
structure Adds (L L' : Service) : Prop where
  handle : L'.handle = L.handle
  issued : L.issued ⊆ L'.issued
  log : ∃ es, L'.log = L.log ++ es ∧ (∀ e ∈ es, e.Plain) ∧
    Claims Event.opens L.issued L'.issued es
  outbox : ∃ ms, L'.outbox = L.outbox ++ ms ∧ (∀ msg ∈ ms, msg.Sent L') ∧
    Claims Message.awaits L.issued L'.issued ms

section Adds

variable {L L₁ L₂ : Service} {co : Co}

theorem Adds.same (hhandle : L₁.handle = L.handle) (hissued : L₁.issued = L.issued)
    (hlog : L₁.log = L.log) (houtbox : L₁.outbox = L.outbox) : Adds L L₁ where
  handle := hhandle
  issued := by simp [hissued]
  log := ⟨[], by simp [hlog], by simp, .nil⟩
  outbox := ⟨[], by simp [houtbox], by simp, .nil⟩

theorem Adds.refl (L : Service) : Adds L L := .same rfl rfl rfl rfl

theorem Message.Sent.adds {msg : Message} (h : msg.Sent L) (hadds : Adds L L₁) : msg.Sent L₁ := by
  refine ⟨h.source.trans hadds.handle.symm, ?_⟩
  intro hproto
  obtain ⟨hsession, co, hco⟩ := h.replied hproto
  obtain ⟨es, hlog, -⟩ := hadds.log
  exact ⟨hsession, co, by simp [hlog, hco]⟩

theorem Adds.trans (h₁ : Adds L L₁) (h₂ : Adds L₁ L₂) : Adds L L₂ := by
  obtain ⟨es₁, hlog₁, hplain₁, hopens₁⟩ := h₁.log
  obtain ⟨es₂, hlog₂, hplain₂, hopens₂⟩ := h₂.log
  obtain ⟨ms₁, hout₁, hsent₁, hawaits₁⟩ := h₁.outbox
  obtain ⟨ms₂, hout₂, hsent₂, hawaits₂⟩ := h₂.outbox
  refine ⟨h₂.handle.trans h₁.handle, List.Subset.trans h₁.issued h₂.issued, ⟨es₁ ++ es₂, ?_, ?_, ?_⟩,
    ⟨ms₁ ++ ms₂, ?_, ?_, ?_⟩⟩
  · rw [hlog₂, hlog₁, List.append_assoc]
  · intro e he
    rcases List.mem_append.mp he with he | he
    · exact hplain₁ e he
    · exact hplain₂ e he
  · exact hopens₁.append hopens₂ h₁.issued h₂.issued
  · rw [hout₂, hout₁, List.append_assoc]
  · intro msg hmsg
    rcases List.mem_append.mp hmsg with hmsg | hmsg
    · exact (hsent₁ msg hmsg).adds h₂
    · exact hsent₂ msg hmsg
  · exact hawaits₁.append hawaits₂ h₁.issued h₂.issued

/-- Nor does a change of other fields. -/
theorem Adds.then (h : Adds L L₁) (hhandle : L₂.handle = L₁.handle)
    (hissued : L₂.issued = L₁.issued) (hlog : L₂.log = L₁.log) (houtbox : L₂.outbox = L₁.outbox) :
    Adds L L₂ :=
  h.trans (.same hhandle hissued hlog houtbox)

/-- Before or after. -/
theorem Adds.since (h : Adds L₁ L₂) (hhandle : L₁.handle = L.handle)
    (hissued : L₁.issued = L.issued) (hlog : L₁.log = L.log) (houtbox : L₁.outbox = L.outbox) :
    Adds L L₂ :=
  (Adds.same hhandle hissued hlog houtbox).trans h

/-- An event that opens no session. -/
theorem note_adds {e : Event} (hplain : e.Plain) (hopens : e.opens = none) :
    Adds L (L.note e) where
  handle := rfl
  issued := List.Subset.refl _
  log := ⟨[e], rfl, by simpa using hplain, .of_none (by simpa using hopens)⟩
  outbox := ⟨[], by simp [Service.note], by simp, .nil⟩

theorem goOn_adds (L : Service) (co : Co) : Adds L (L.goOn co).1 := by
  unfold Service.goOn
  split
  · exact .same rfl rfl rfl rfl
  · split <;> exact .same rfl rfl rfl rfl
  · exact .same rfl rfl rfl rfl

theorem dispatchErrorQueue_adds (L : Service) : Adds L L.dispatchErrorQueue := by
  unfold Service.dispatchErrorQueue
  split
  · exact .same rfl rfl rfl rfl
  · rename_i session errorQueue _
    simp only
    split
    · exact .same rfl rfl rfl rfl
    · rename_i co _
      let L₁ : Service := ({ L with errorQueue := errorQueue } : Service).register session none
      have hsame : Adds L L₁ := .same rfl rfl rfl rfl
      have hnote : Adds L (L₁.note (.resumed co .failure)) := hsame.trans (note_adds trivial rfl)
      have hall := hnote.trans (goOn_adds _ co)
      split
      · exact hall.then rfl rfl rfl rfl
      · exact hall.then rfl rfl rfl rfl

/-- A message that nobody waits for is sent. -/
theorem cSend_adds {msg : Message} (hsource : msg.source = L.handle)
    (hproto : msg.prototype ≠ MSG_TYPE_RESPONSE) (hawaits : msg.awaits = none) :
    Adds L (L.cSend msg) := by
  refine ⟨rfl, List.Subset.refl _, ⟨[], by simp [Service.cSend], by simp, .nil⟩,
    ⟨[msg], rfl, ?_, .of_none (by simpa using hawaits)⟩⟩
  intro msg' hmsg
  rw [List.mem_singleton] at hmsg
  subst hmsg
  exact ⟨hsource, fun h => absurd h hproto⟩

/-- The reply to a request that was a call. -/
theorem reply_adds {session : Nat} (hsession : session ≠ 0) (data : Data) :
    Adds L (L.reply co session data) := by
  refine ⟨rfl, List.Subset.refl _, ⟨[_], rfl, ?_, .of_none ?_⟩, ⟨[_], rfl, ?_, .of_none ?_⟩⟩
  · simp [Event.Plain]
  · simp [Event.opens]
  · intro msg hmsg
    rw [List.mem_singleton] at hmsg
    subst hmsg
    refine ⟨rfl, fun _ => ⟨hsession, co, ?_⟩⟩
    simp [Service.reply, Service.note, Service.cSend]
  · simp [Message.awaits]

theorem sendError_adds (L : Service) (co : Co) : Adds L (L.sendError co) := by
  unfold Service.sendError
  split
  · rename_i session _
    have hsend : Adds L (L.cSend ⟨L.handle, (L.sessionCoroutineAddress co).getD 0, session,
        MSG_TYPE_PROTO_ERROR, []⟩) := by
      apply cSend_adds rfl
      · exact (show MSG_TYPE_PROTO_ERROR ≠ MSG_TYPE_RESPONSE by decide)
      · simp [Message.awaits]
    exact hsend.trans (note_adds trivial rfl)
  · exact .refl L

theorem resumeReturn_adds (L : Service) (co : Co) : Adds L (L.resumeReturn co) := by
  have hnote : Adds L (L.note (.resumed co .returned)) := note_adds trivial rfl
  exact hnote.then rfl rfl rfl rfl

theorem suspend_adds (L : Service) (co : Co) (cmd : Cmd) : Adds L (L.suspend co cmd) := by
  unfold Service.suspend
  split
  · exact (sendError_adds L co).then rfl rfl rfl rfl
  · exact (dispatchErrorQueue_adds _).since rfl rfl rfl rfl
  · exact (dispatchErrorQueue_adds _).since rfl rfl rfl rfl
  · exact (dispatchErrorQueue_adds _).since rfl rfl rfl rfl
  · split
    · exact .same rfl rfl rfl rfl
    · split
      · exact resumeReturn_adds L co
      · rename_i hsession
        split
        · exact .same rfl rfl rfl rfl
        · exact (reply_adds hsession _).trans (resumeReturn_adds _ co)

theorem yield_adds (L : Service) (co : Co) (queued : Bool) (cmd : Cmd) :
    Adds L (L.yield co queued cmd) := by
  unfold Service.yield
  split
  · exact .same rfl rfl rfl rfl
  · exact suspend_adds L co cmd

/-- What can be packed is neither a response nor an error message. -/
theorem pack_prototype {prototype : Nat} {packed : Option Data} {data : Data}
    (h : pack prototype packed = some data) :
    prototype ≠ MSG_TYPE_RESPONSE ∧ prototype ≠ MSG_TYPE_PROTO_ERROR := by
  constructor
  · rintro rfl
    simp [pack, proto, MSG_TYPE_RESPONSE, MSG_TYPE_PROTO_LUA, MSG_TYPE_PROTO_SYS,
      MSG_TYPE_PROTO_SOCKET, MSG_TYPE_PROTO_ERROR] at h
  · rintro rfl
    simp [pack, proto, MSG_TYPE_PROTO_LUA, MSG_TYPE_PROTO_SYS, MSG_TYPE_PROTO_SOCKET,
      MSG_TYPE_PROTO_ERROR] at h

theorem send_adds (dest : Addr) (prototype : Nat) (packed : Option Data) :
    Adds L (L.send dest prototype packed) := by
  unfold Service.send
  split
  · exact .refl L
  · split
    · exact .refl L
    · rename_i data hpack
      apply cSend_adds rfl (pack_prototype hpack).1
      simp [Message.awaits]

/-- A request is sent with a new session. -/
theorem request_adds {msg : Message} (hsource : msg.source = L.handle)
    (hproto : msg.prototype ≠ MSG_TYPE_RESPONSE) (hnew : msg.session ∉ L.issued) :
    Adds L ((L.cSend msg).issue msg.session) := by
  refine ⟨rfl, List.subset_cons_self .., ⟨[], by simp [Service.issue, Service.cSend], by simp,
    .nil⟩, ⟨[msg], rfl, ?_, .singleton ?_⟩⟩
  · intro msg' hmsg
    rw [List.mem_singleton] at hmsg
    subst hmsg
    exact ⟨hsource, fun h => absurd h hproto⟩
  · intro k hk
    unfold Message.awaits at hk
    split at hk
    · simp at hk
    · simp only [Option.some.injEq] at hk
      subst hk
      exact ⟨hnew, List.mem_cons_self⟩

/-- An event opens the session that is issued with it. -/
theorem Adds.open (h : Adds L L₁) {e : Event} (hlog : L₁.log = L.log) (hplain : e.Plain)
    (hopens : ∀ k, e.opens = some k → k ∉ L.issued ∧ k ∈ L₁.issued) : Adds L (L₁.note e) where
  handle := h.handle
  issued := h.issued
  log := ⟨[e], by simp [Service.note, hlog], by simpa using hplain, .singleton hopens⟩
  outbox := by
    obtain ⟨ms, hout, hsent, hawaits⟩ := h.outbox
    refine ⟨ms, hout, ?_, hawaits⟩
    intro msg hmsg
    obtain ⟨hsource, hreplied⟩ := hsent msg hmsg
    refine ⟨hsource, ?_⟩
    intro hproto
    obtain ⟨hsession, co, hco⟩ := hreplied hproto
    exact ⟨hsession, co, by simp [Service.note, hco]⟩

theorem call_adds (queued : Bool) (form : CallForm) (dest : Addr) (prototype : Nat)
    (packed : Option Data) (answer : Option Nat)
    (hnew : ∀ session, answer = some session → session ∉ L.issued) :
    Adds L (L.call co queued form dest prototype packed answer) := by
  unfold Service.call
  split
  · exact .refl L
  · split
    · rename_i data session hpack
      have hnew := hnew session rfl
      have hsend : Adds L ((L.cSend ⟨L.handle, dest, session, prototype, data⟩).issue session) :=
        request_adds rfl (pack_prototype hpack).1 hnew
      obtain ⟨-, hissued, -, hlog⟩ := watch_same
        ((L.cSend ⟨L.handle, dest, session, prototype, data⟩).issue session) form session dest
      simp only
      split
      · have hwatch : Adds L (((L.cSend ⟨L.handle, dest, session, prototype, data⟩).issue
            session).watch form session dest) := by
          cases form <;> exact hsend.then rfl rfl rfl rfl
        have hnote := hwatch.open (e := .called co session) hlog trivial (by
          intro k hk
          cases hk
          exact ⟨hnew, by rw [hissued]; exact List.mem_cons_self⟩)
        exact hnote.trans ((yield_adds _ co queued _).since rfl rfl rfl rfl)
      · exact hsend
    · exact .refl L

/-- The session of a timer is opened by its function. -/
theorem timeout_adds (nomore : Int) {session : Nat} (id : Option Nat)
    (hnew : session ∉ L.issued) : Adds L (L.timeout nomore session id) := by
  have hissue : Adds L (L.issue session) := by
    refine ⟨rfl, List.subset_cons_self .., ⟨[], by simp [Service.issue], by simp, .nil⟩,
      ⟨[], by simp [Service.issue], by simp, .nil⟩⟩
  have hcreate : ∀ id, Adds L ((L.issue session).coCreate (.timer session id nomore)).1 := by
    intro id
    have hopen : ∀ co, Adds L ((L.issue session).note (.given co (.timer session id nomore))) := by
      intro co
      apply hissue.open rfl (by simp [Event.Plain])
      intro k hk
      cases hk
      exact ⟨hnew, List.mem_cons_self⟩
    unfold Service.coCreate
    split
    · exact (hopen _).then rfl rfl rfl rfl
    · exact (hopen _).then rfl rfl rfl rfl
  unfold Service.timeout
  cases id with
  | none => exact hcreate _
  | some id =>
      simp only
      split
      · exact hcreate id
      · exact (hcreate id).then rfl rfl rfl rfl

theorem done_adds (L : Service) (co : Co) (queued value : Bool) : Adds L (L.done co queued value) := by
  have hexit : ∀ L₁ : Service, Adds L₁ ((L₁.exit co).yield co queued .exit) := by
    intro L₁
    exact (yield_adds _ co queued _).since rfl rfl rfl rfl
  unfold Service.done
  split
  · exact hexit L
  · split
    · exact (yield_adds _ co queued _).since rfl rfl rfl rfl
    · simp only
      split
      · rename_i id _ _ _ _
        have hcancel : Adds L (L.timercancel id) := note_adds trivial rfl
        exact hcancel.trans (hexit _)
      · exact hexit L

theorem raise_adds (L : Service) (co : Co) (queued : Bool) : Adds L (L.raise co queued) := by
  have hgoto : Adds L (L.goto co .dead) := .same rfl rfl rfl rfl
  have hnote : Adds (L.goto co .dead) ((L.goto co .dead).note (.died co)) := note_adds trivial rfl
  exact (hgoto.trans hnote).trans (yield_adds _ co queued _)

/-- Code of the service. -/
theorem userStep_adds {act : Act} {L' : Service} (hs : L.userStep act = some L')
    (hok : Ordinary L act) : Adds L L' := by
  unfold Service.userStep at hs
  split at hs
  · cases hs
  · cases hs
    exact send_adds _ _ _
  · cases hs
    exact timeout_adds _ _ hok
  · cases hs
    exact note_adds trivial rfl
  · cases hs
    exact .same rfl rfl rfl rfl
  · rename_i answer _ _
    cases hs
    apply call_adds
    intro session hanswer
    subst hanswer
    exact hok
  · cases hs
    exact (yield_adds _ _ _ _).since rfl rfl rfl rfl
  · cases hs
    exact done_adds L _ _ _
  · cases hs
    exact raise_adds L _ _
  · cases hs

/-- The event that the dispatch of a message begins with. -/
inductive Message.LeadsTo (msg : Message) : List Event → Prop
  | nothing : msg.LeadsTo []
  | response (co : Co) (hproto : msg.prototype = MSG_TYPE_RESPONSE) :
      msg.LeadsTo [.resumed co (.answer msg)]
  | request (co : Co) (hproto : msg.prototype ≠ MSG_TYPE_RESPONSE) :
      msg.LeadsTo [.given co (.handler msg.source msg.session)]

/-- The dispatch of a message. -/
theorem rawDispatchMessage_adds {msg : Message} (hmsg : msg.prototype ≠ MSG_TYPE_PROTO_ERROR)
    (unpacked : Bool) (order : List Nat) : ∃ lead, msg.LeadsTo lead ∧
      Adds { L with log := L.log ++ lead } (L.rawDispatchMessage msg unpacked order) := by
  have hnothing : ∃ lead, msg.LeadsTo lead ∧ Adds { L with log := L.log ++ lead } L :=
    ⟨[], .nothing, .same rfl rfl (by simp) rfl⟩
  unfold Service.rawDispatchMessage
  split
  · rename_i hproto
    unfold Service.dispatchResponse
    split
    · exact hnothing
    · rename_i co _
      refine ⟨_, .response co hproto, ?_⟩
      have hgo : Adds { L with log := L.log ++ [.resumed co (.answer msg)] }
          (((L.register msg.session none).note (.resumed co (.answer msg))).goOn co).1 :=
        (goOn_adds _ co).since rfl rfl rfl rfl
      simp only
      split
      · exact hgo.trans (suspend_adds _ co .exit)
      · exact hgo.then rfl rfl rfl rfl
  · rename_i hproto
    split
    · exact hnothing
    · rename_i cls hcls
      have huser := proto_dispatch hcls hmsg
      have hcreate : ∃ lead, msg.LeadsTo lead ∧ Adds { L with log := L.log ++ lead }
          ((L.coCreate (.handler msg.source msg.session)).1.serve
            (L.coCreate (.handler msg.source msg.session)).2 msg) := by
        unfold Service.coCreate
        split
        · exact ⟨_, .request _ hproto, .same rfl rfl rfl rfl⟩
        · exact ⟨_, .request _ hproto, .same rfl rfl rfl rfl⟩
      obtain ⟨lead, hlead, hadds⟩ := hcreate
      refine ⟨lead, hlead, ?_⟩
      unfold Service.dispatchRequest
      simp only [huser]
      split
      · exact hadds
      · exact hadds.then rfl rfl rfl rfl

end Adds

-- ============================================================================
-- Systems with the messages that have been sent
-- ============================================================================

/-- What the service that takes the step sends. -/
def System.sends (S : System) (act : SystemAct) : List Message :=
  match act with
  | .run addr act => (((S.services addr).step act).map Service.outbox).getD []
  | .deliver i unpacked order =>
      match S.net[i]? with
      | none => []
      | some msg =>
          (((S.services msg.dest).step (.message msg unpacked order)).map Service.outbox).getD []
  | .launch _ | .exit _ | .inject _ => []

/-- A system, with all that its services have sent. -/
structure Wire where
  system : System
  sent : List Message

def wireInit : Wire := ⟨systemInit, []⟩

def Wire.step (W : Wire) (act : SystemAct) : Option Wire :=
  (W.system.step act).map fun S => ⟨S, W.sent ++ W.system.sends act⟩

/-- The history of the service at `addr`. -/
def Wire.log (W : Wire) (addr : Addr) : List Event := (W.system.services addr).log

def Event.times (session : Nat) : Event → Bool
  | .given _ (.timer session' _ _) => session' = session
  | _ => false

/-- The condition on a step: sessions are new, no error message is dispatched, and the C
    code sends ticks of timers, and requests with the session 0. -/
def Orderly (W : Wire) (act : SystemAct) : Prop :=
  match act with
  | .run addr act => Ordinary (W.system.services addr) act
  | .deliver i _ _ => ∀ msg, W.system.net[i]? = some msg → msg.prototype ≠ MSG_TYPE_PROTO_ERROR
  | .inject msg =>
      if msg.prototype = MSG_TYPE_RESPONSE then
        (W.log msg.dest).any (Event.times msg.session) = true
      else msg.session = 0
  | _ => True

instance (W : Wire) : DecidablePred (Orderly W) := fun act =>
  match act with
  | .run addr act => inferInstanceAs (Decidable (Ordinary (W.system.services addr) act))
  | .deliver i _ _ => inferInstanceAs (Decidable
      (∀ msg, W.system.net[i]? = some msg → msg.prototype ≠ MSG_TYPE_PROTO_ERROR))
  | .inject msg => inferInstanceAs (Decidable
      (if msg.prototype = MSG_TYPE_RESPONSE then
        (W.log msg.dest).any (Event.times msg.session) = true
      else msg.session = 0))
  | .launch _ | .exit _ => .isTrue trivial

/-- The message is a request of `source` to `dest`, which waits for `session`. -/
def Message.requests (source dest : Addr) (session : Nat) (msg : Message) : Bool :=
  msg.source = source ∧ msg.dest = dest ∧ msg.awaits = some session

/-- A coroutine that waits for a session is resumed with a reply of the service that it has
    called, by a coroutine that was given the handler of this request; a handler is given
    once for a request. -/
structure CallsAnswered (W : Wire) : Prop where
  answered : ∀ A before co how after session,
    W.log A = before ++ .resumed co how :: after → waitingOn before co = some session →
    ∃ request ∈ W.sent, ∃ answer co', how = .answer answer ∧ answer.session = session ∧
      request.requests A answer.source session ∧
      .given co' (.handler A session) ∈ W.log answer.source ∧
      .replied co' answer ∈ W.log answer.source
  requested_once : ∀ A B session, W.sent.countP (Message.requests A B session) ≤ 1
  started_once : ∀ A B session, session ≠ 0 → (W.log B).countP (Event.starts A session) ≤ 1

-- ============================================================================
-- The invariant
-- ============================================================================

/-- Where a message comes from. -/
def Explained (W : Wire) (msg : Message) : Prop :=
  if msg.prototype = MSG_TYPE_RESPONSE then
    (∃ e ∈ W.log msg.dest, e.times msg.session) ∨
      msg.session ≠ 0 ∧ ∃ co, .replied co msg ∈ W.log msg.source
  else msg.awaits = none ∨ msg ∈ W.sent

/-- What `addr` waits for. -/
def awaitsAt (addr : Addr) (msg : Message) : Option Nat :=
  if msg.source = addr then msg.awaits else none

/-- What is on its way and what has happened goes back to what has been sent. -/
structure Traced (W : Wire) : Prop where
  kept : ∀ addr, Kept (W.system.services addr)
  handle : ∀ addr, (W.system.services addr).handle = addr
  outbox : ∀ addr, (W.system.services addr).outbox = []
  opens : ∀ addr, Claims Event.opens [] (W.system.services addr).issued (W.log addr)
  awaits : ∀ addr, Claims (awaitsAt addr) [] (W.system.services addr).issued W.sent
  net : ∀ msg ∈ W.system.net, Explained W msg
  answers : ∀ addr co msg, .resumed co (.answer msg) ∈ W.log addr →
    msg.prototype = MSG_TYPE_RESPONSE ∧ msg.dest = addr ∧ Explained W msg
  starts : ∀ A B session, session ≠ 0 →
    (W.log B).countP (Event.starts A session) +
      W.system.net.countP (Message.requests A B session) ≤
    W.sent.countP (Message.requests A B session)

section Invariant

variable {W W' : Wire} {msg : Message}

/-- An explanation stays one. -/
theorem Explained.mono (h : Explained W msg) (hlog : ∀ addr, W.log addr ⊆ W'.log addr)
    (hsent : W.sent ⊆ W'.sent) : Explained W' msg := by
  unfold Explained at h ⊢
  split at h
  · rename_i hproto
    rw [if_pos hproto]
    rcases h with ⟨e, he, htimes⟩ | ⟨hsession, co, hco⟩
    · exact Or.inl ⟨e, hlog _ he, htimes⟩
    · exact Or.inr ⟨hsession, co, hlog _ hco⟩
  · rename_i hproto
    rw [if_neg hproto]
    exact h.imp_right fun h => hsent h

/-- Another set of messages on their way. -/
theorem Traced.setNet (h : Traced W) (net : List Message) (hnet : ∀ msg ∈ net, Explained W msg)
    (hcount : ∀ A B session, net.countP (Message.requests A B session) ≤
      W.system.net.countP (Message.requests A B session)) :
    Traced { W with system := { W.system with net := net } } := by
  refine ⟨h.kept, h.handle, h.outbox, h.opens, h.awaits, hnet, h.answers, ?_⟩
  intro A B session hsession
  have hle := h.starts A B session hsession
  have hnet := hcount A B session
  exact Nat.le_trans (Nat.add_le_add_left hnet _) hle

theorem Kept.clearOutbox {L : Service} (h : Kept L) : Kept { L with outbox := [] } := by
  obtain ⟨⟨t₁, t₂, t₃, t₄, t₅, t₆⟩, ⟨d₁, d₂, d₃, d₄, d₅, d₆, d₇⟩, hsteady⟩ := h
  exact ⟨⟨t₁.same rfl rfl rfl rfl, t₂, t₃, t₄, t₅, t₆⟩, ⟨d₁, d₂, d₃, d₄, d₅, d₆, d₇⟩, hsteady⟩

/-- A plain event starts no handler. -/
theorem Event.Plain.starts {e : Event} (h : e.Plain) (A : Addr) (session : Nat) :
    ¬e.starts A session := by
  cases e with
  | given co body =>
      cases body with
      | handler => exact h.elim
      | timer => simp [Event.starts]
  | _ => simp [Event.starts]

/-- What is sent is explained, once it is in the history of its sender. -/
theorem Message.Sent.explained {L : Service} (h : msg.Sent L) (hmem : msg ∈ W.sent)
    (hlog : W.log L.handle = L.log) : Explained W msg := by
  unfold Explained
  split
  · rename_i hproto
    rw [h.source, hlog]
    exact Or.inr (h.replied hproto)
  · exact Or.inr hmem

theorem post_self (S : System) (addr : Addr) (L : Service) :
    (S.post addr L).services addr = { L with outbox := [] } :=
  Function.update_self ..

theorem post_other (S : System) {addr A : Addr} (hne : A ≠ addr) (L : Service) :
    (S.post addr L).services A = S.services A :=
  Function.update_of_ne hne _ _

/-- The service at `addr` takes a step, which begins with `lead`. -/
theorem Traced.post (h : Traced W) {addr : Addr} {lead : List Event} {L : Service}
    (hkept : Kept L)
    (hadds : Adds { W.system.services addr with log := W.log addr ++ lead } L)
    (hopens : ∀ e ∈ lead, e.opens = none)
    (hanswers : ∀ co msg, .resumed co (.answer msg) ∈ lead →
      msg.prototype = MSG_TYPE_RESPONSE ∧ msg.dest = addr ∧ Explained W msg)
    (hstarts : ∀ A session, session ≠ 0 →
      (W.log addr).countP (Event.starts A session) + lead.countP (Event.starts A session) +
        W.system.net.countP (Message.requests A addr session) ≤
      W.sent.countP (Message.requests A addr session)) :
    Traced ⟨W.system.post addr L, W.sent ++ L.outbox⟩ := by
  obtain ⟨hhandle, hissued, ⟨es, hlog, hplain, hes⟩, ⟨ms, hout, hsent, hms⟩⟩ := hadds
  have hhandle : L.handle = addr := hhandle.trans (h.handle addr)
  have hout : L.outbox = ms := by simpa [h.outbox addr] using hout
  subst hout
  have hself := post_self W.system addr L
  let W' : Wire := ⟨W.system.post addr L, W.sent ++ L.outbox⟩
  have hlogs : ∀ A, W.log A ⊆ W'.log A := by
    intro A
    by_cases heq : A = addr
    · subst heq
      simp [W', Wire.log, hself, hlog]
    · simp [W', Wire.log, post_other W.system heq]
  have hsents : W.sent ⊆ W'.sent := by simp [W']
  have hlogAt : W'.log L.handle = L.log := by simp [W', Wire.log, hhandle, hself]
  have hexplained : ∀ msg ∈ L.outbox, Explained W' msg := by
    intro msg hmsg
    exact (hsent msg hmsg).explained (by simp [W', hmsg]) hlogAt
  refine ⟨?_, ?_, ?_, ?_, ?_, ?_, ?_, ?_⟩
  · intro A
    by_cases heq : A = addr
    · subst heq
      rw [hself]
      exact hkept.clearOutbox
    · rw [post_other W.system heq]
      exact h.kept A
  · intro A
    by_cases heq : A = addr
    · subst heq
      rw [hself]
      exact hhandle
    · rw [post_other W.system heq]
      exact h.handle A
  · intro A
    by_cases heq : A = addr
    · subst heq
      rw [hself]
    · rw [post_other W.system heq]
      exact h.outbox A
  · intro A
    by_cases heq : A = addr
    · subst heq
      have hlead : Claims Event.opens (W.system.services A).issued (W.system.services A).issued
          lead := .of_none hopens
      have hall := ((h.opens A).append hlead (by simp) (by simp)).append hes (by simp) hissued
      simpa [Wire.log, hself, hlog] using hall
    · simpa [Wire.log, post_other W.system heq] using h.opens A
  · intro A
    by_cases heq : A = addr
    · subst heq
      have hnew : Claims (awaitsAt A) (W.system.services A).issued L.issued L.outbox := by
        apply hms.congr
        intro msg hmsg
        simp [awaitsAt, (hsent msg hmsg).source, hhandle]
      rw [hself]
      exact (h.awaits A).append hnew (by simp) hissued
    · have hnew : Claims (awaitsAt A) (W.system.services A).issued
          (W.system.services A).issued L.outbox := by
        apply Claims.of_none
        intro msg hmsg
        have hsource : msg.source ≠ A := by
          rw [(hsent msg hmsg).source, hhandle]
          exact Ne.symm heq
        simp [awaitsAt, hsource]
      rw [post_other W.system heq]
      exact (h.awaits A).append hnew (by simp) (by simp)
  · intro msg hmsg
    rcases List.mem_append.mp hmsg with hmsg | hmsg
    · exact (h.net msg hmsg).mono hlogs hsents
    · exact hexplained msg (List.mem_filter.mp hmsg).1
  · intro A co msg hmem
    have hcases : .resumed co (.answer msg) ∈ W.log A ∨
        A = addr ∧ .resumed co (.answer msg) ∈ lead := by
      by_cases heq : A = addr
      · subst heq
        have hmem : .resumed co (.answer msg) ∈ L.log := by simpa [Wire.log, hself] using hmem
        rw [hlog] at hmem
        simp only [List.mem_append] at hmem
        rcases hmem with (hmem | hmem) | hmem
        · exact Or.inl hmem
        · exact Or.inr ⟨rfl, hmem⟩
        · exact (hplain _ hmem).elim
      · exact Or.inl (by simpa [Wire.log, post_other W.system heq] using hmem)
    rcases hcases with hold | ⟨rfl, hlead⟩
    · obtain ⟨hproto, hdest, hex⟩ := h.answers A co msg hold
      exact ⟨hproto, hdest, hex.mono hlogs hsents⟩
    · obtain ⟨hproto, hdest, hex⟩ := hanswers co msg hlead
      exact ⟨hproto, hdest, hex.mono hlogs hsents⟩
  · intro A B session hsession
    have hnet : (W.system.post addr L).net.countP (Message.requests A B session) ≤
        W.system.net.countP (Message.requests A B session) +
          L.outbox.countP (Message.requests A B session) := by
      show (W.system.net ++ L.outbox.filter _).countP _ ≤ _
      rw [List.countP_append]
      exact Nat.add_le_add_left (List.filter_sublist.countP_le) _
    have hsum : (W.sent ++ L.outbox).countP (Message.requests A B session) =
        W.sent.countP (Message.requests A B session) +
          L.outbox.countP (Message.requests A B session) := List.countP_append
    have hold : (W'.log B).countP (Event.starts A session) +
        W.system.net.countP (Message.requests A B session) ≤
        W.sent.countP (Message.requests A B session) := by
      by_cases heq : B = addr
      · subst heq
        have hzero : es.countP (Event.starts A session) = 0 := by
          rw [List.countP_eq_zero]
          intro e he
          exact (hplain e he).starts A session
        have hle := hstarts A session hsession
        have hcount : (W'.log B).countP (Event.starts A session) =
            (W.log B).countP (Event.starts A session) +
              lead.countP (Event.starts A session) := by
          simp [W', Wire.log, hself, hlog, hzero, List.countP_append]
        omega
      · have hsame : W'.log B = W.log B := by simp [W', Wire.log, post_other W.system heq]
        rw [hsame]
        exact h.starts A B session hsession
    show (W'.log B).countP _ + (W.system.post addr L).net.countP _ ≤ (W.sent ++ L.outbox).countP _
    omega

/-- Code of a service runs. -/
theorem Traced.run (h : Traced W) {addr : Addr} {act : Act} {L : Service}
    (hs : (W.system.services addr).step act = some L)
    (huser : (W.system.services addr).userStep act = some L)
    (hok : Ordinary (W.system.services addr) act) :
    Traced ⟨W.system.post addr L, W.sent ++ L.outbox⟩ := by
  have hadds : Adds { W.system.services addr with log := W.log addr ++ [] } L :=
    (userStep_adds huser hok).since rfl rfl (by simp [Wire.log]) rfl
  apply h.post ((h.kept addr).step hs hok) hadds (by simp) (by simp)
  intro A session hsession
  simpa using h.starts A addr session hsession

/-- The `i`-th message on its way is dispatched. -/
theorem Traced.deliver (h : Traced W) {i : Nat} {unpacked : Bool} {order : List Nat}
    {L : Service} (hget : W.system.net[i]? = some msg)
    (hs : (W.system.services msg.dest).step (.message msg unpacked order) = some L)
    (hL : L = (W.system.services msg.dest).rawDispatchMessage msg unpacked order)
    (hproto : msg.prototype ≠ MSG_TYPE_PROTO_ERROR) :
    Traced ⟨{ W.system with net := W.system.net.eraseIdx i }.post msg.dest L,
      W.sent ++ L.outbox⟩ := by
  have hmem := List.mem_of_getElem? hget
  have hex := h.net msg hmem
  have hcount : ∀ p : Message → Bool, W.system.net.countP p =
      (W.system.net.eraseIdx i).countP p + if p msg then 1 else 0 := by
    intro p
    obtain ⟨hi, rfl⟩ := List.getElem?_eq_some_iff.mp hget
    rw [← (List.getElem_cons_eraseIdx_perm hi).countP_eq, List.countP_cons]
  have hrest := h.setNet (W.system.net.eraseIdx i)
    (fun msg' hmsg' => h.net msg' (List.mem_of_mem_eraseIdx hmsg'))
    (fun A B session => (List.eraseIdx_sublist ..).countP_le)
  have hkept := (h.kept msg.dest).step hs hproto
  obtain ⟨lead, hlead, hadds⟩ :=
    rawDispatchMessage_adds (L := W.system.services msg.dest) hproto unpacked order
  rw [← hL] at hadds
  refine hrest.post hkept hadds ?_ ?_ ?_
  · cases hlead <;> simp [Event.opens]
  · intro co msg' hmsg'
    cases hlead with
    | nothing => simp at hmsg'
    | response co' hresponse =>
        simp only [List.mem_singleton, Event.resumed.injEq, Resumed.answer.injEq] at hmsg'
        obtain ⟨-, rfl⟩ := hmsg'
        exact ⟨hresponse, rfl, hex⟩
    | request co' hrequest => simp at hmsg'
  · intro A session hsession
    have hle := h.starts A msg.dest session hsession
    rw [hcount] at hle
    have hone : lead.countP (Event.starts A session) ≤
        if msg.requests A msg.dest session then 1 else 0 := by
      cases hlead with
      | nothing => simp
      | response co' hresponse => simp [Event.starts]
      | request co' hrequest =>
          have hrequests : Event.starts A session (.given co' (.handler msg.source msg.session)) =
              true → msg.requests A msg.dest session = true := by
            simp only [Event.starts, Message.requests, Message.awaits, decide_eq_true_eq]
            rintro ⟨hsource, rfl⟩
            simp [hsource, hrequest, hproto, hsession]
          rw [List.countP_singleton]
          split
          · rename_i hstart
            simp [hrequests hstart]
          · omega
    show (W.log msg.dest).countP _ + _ + (W.system.net.eraseIdx i).countP _ ≤ W.sent.countP _
    omega

/-- The C code sends a message. -/
theorem Traced.inject (h : Traced W) (hex : Explained W msg) (hawaits : msg.awaits = none) :
    Traced { W with system := { W.system with net := W.system.net ++ [msg] } } := by
  apply h.setNet
  · intro msg' hmsg'
    rcases List.mem_append.mp hmsg' with hmsg' | hmsg'
    · exact h.net msg' hmsg'
    · rw [List.mem_singleton] at hmsg'
      exact hmsg' ▸ hex
  · intro A B session
    simp [List.countP_append, Message.requests, hawaits]

theorem Traced.step (h : Traced W) {act : SystemAct} (hs : W.step act = some W')
    (hok : Orderly W act) : Traced W' := by
  obtain ⟨S, hS, rfl⟩ := Option.map_eq_some_iff.mp hs
  cases act with
  | launch addr =>
      simp only [System.step] at hS
      split at hS
      · cases hS
        rw [show W.sent ++ W.system.sends (.launch addr) = W.sent from List.append_nil _]
        exact ⟨h.kept, h.handle, h.outbox, h.opens, h.awaits, h.net, h.answers, h.starts⟩
      · cases hS
  | exit addr =>
      simp only [System.step] at hS
      split at hS
      · cases hS
        rw [show W.sent ++ W.system.sends (.exit addr) = W.sent from List.append_nil _]
        have hnet := h.setNet (W.system.net.filter fun msg => msg.dest ≠ addr)
          (fun msg hmsg => h.net msg (List.mem_filter.mp hmsg).1)
          (fun A B session => List.filter_sublist.countP_le)
        exact ⟨hnet.kept, hnet.handle, hnet.outbox, hnet.opens, hnet.awaits, hnet.net,
          hnet.answers, hnet.starts⟩
      · cases hS
  | run addr act =>
      simp only [System.step] at hS
      split at hS
      · rename_i hfits
        obtain ⟨L, hL, rfl⟩ := Option.map_eq_some_iff.mp hS
        have hsends : W.system.sends (.run addr act) = L.outbox := by
          simp [System.sends, hL]
        rw [hsends]
        rcases Service.step_eq hL with ⟨msg, unpacked, order, rfl, -⟩ | huser
        · exact absurd hfits.2 id
        · exact h.run hL huser hok
      · cases hS
  | deliver i unpacked order =>
      simp only [System.step] at hS
      split at hS
      · cases hS
      · rename_i msg hget
        split at hS
        · obtain ⟨L, hL, rfl⟩ := Option.map_eq_some_iff.mp hS
          have hsends : W.system.sends (.deliver i unpacked order) = L.outbox := by
            simp [System.sends, hget, hL]
          rw [hsends]
          rcases Service.step_eq hL with ⟨msg', unpacked', order', heq, hraw⟩ | huser
          · cases heq
            exact h.deliver hget hL hraw (hok msg hget)
          · unfold Service.userStep at huser
            split at huser <;> simp_all
        · cases hS
  | inject msg =>
      simp only [System.step] at hS
      split at hS
      · rename_i hinject
        cases hS
        rw [show W.sent ++ W.system.sends (.inject msg) = W.sent from List.append_nil _]
        simp only [Orderly] at hok
        split at hok
        · rename_i hproto
          apply h.inject
          · unfold Explained
            rw [if_pos hproto]
            exact Or.inl (List.any_eq_true.mp hok)
          · simp [Message.awaits, hproto]
        · rename_i hproto
          have hawaits : msg.awaits = none := by simp [Message.awaits, hok]
          apply h.inject _ hawaits
          unfold Explained
          rw [if_neg hproto]
          exact Or.inl hawaits
      · cases hS

/-- The function that a coroutine is serving has been given to it. -/
theorem servingOn_given {log : List Event} {co : Co} {source : Addr} {session : Nat}
    (hserving : servingOn log co = some (source, session)) :
    .given co (.handler source session) ∈ log := by
  unfold servingOn at hserving
  split at hserving
  · rename_i source' session' hlatest
    simp only [Option.some.injEq, Prod.mk.injEq] at hserving
    obtain ⟨rfl, rfl⟩ := hserving
    obtain ⟨e, he, hgiven⟩ := List.exists_of_findSome?_eq_some hlatest
    unfold givenTo at hgiven
    split at hgiven
    · split at hgiven
      · rename_i heq
        simp only [Option.some.injEq] at hgiven
        subst heq hgiven
        exact List.mem_reverse.mp he
      · simp at hgiven
    · simp at hgiven
  · simp at hserving

/-- The session that a coroutine waits for is that of a call. -/
theorem waitingOn_called {log : List Event} {co : Co} {session : Nat}
    (hwait : waitingOn log co = some session) : .called co session ∈ log := by
  unfold waitingOn at hwait
  have hlatest := Option.join_eq_some_iff.mp hwait
  obtain ⟨e, he, hcall⟩ := List.exists_of_findSome?_eq_some hlatest
  unfold callOf at hcall
  split at hcall
  · split at hcall
    · rename_i heq
      simp only [Option.some.injEq] at hcall
      subst heq hcall
      exact List.mem_reverse.mp he
    · simp at hcall
  · split at hcall <;> simp at hcall
  · simp at hcall

/-- A handler that has been given for a session belongs to a request. -/
theorem Traced.requested (h : Traced W) {A B : Addr} {co : Co} {session : Nat}
    (hsession : session ≠ 0) (hgiven : .given co (.handler A session) ∈ W.log B) :
    ∃ request ∈ W.sent, request.requests A B session := by
  have hpos : 0 < (W.log B).countP (Event.starts A session) := by
    rw [List.countP_pos_iff]
    exact ⟨_, hgiven, by simp [Event.starts]⟩
  have hle := h.starts A B session hsession
  have hsent : 0 < W.sent.countP (Message.requests A B session) := by omega
  exact List.countP_pos_iff.mp hsent

theorem Traced.requested_once (h : Traced W) (A B : Addr) (session : Nat) :
    W.sent.countP (Message.requests A B session) ≤ 1 := by
  apply (h.awaits A).countP_le (k := session)
  intro msg hmsg hrequests
  simp only [Message.requests, decide_eq_true_eq] at hrequests
  simp [awaitsAt, hrequests]

/-- A session belongs to a call or to a timer. -/
theorem Traced.not_times (h : Traced W) {A : Addr} {co : Co} {session : Nat}
    (hcalled : .called co session ∈ W.log A) : ∀ e ∈ W.log A, ¬e.times session := by
  intro e he htimes
  unfold Event.times at htimes
  split at htimes
  · simp only [decide_eq_true_eq] at htimes
    subst htimes
    have heq := (h.opens A).unique he hcalled rfl rfl
    simp at heq
  · simp at htimes

theorem Traced.callsAnswered (h : Traced W) : CallsAnswered W where
  answered := by
    intro A before co how after session hlog hwait
    have hlawful := (h.kept A).told.lawful before _ after hlog
    obtain ⟨answer, rfl, hproto, hsession⟩ := hlawful session hwait
    have hcalled : .called co session ∈ W.log A := by
      rw [hlog]
      exact List.mem_append_left _ (waitingOn_called hwait)
    obtain ⟨-, hdest, hex⟩ := h.answers A co answer (by rw [hlog]; simp)
    unfold Explained at hex
    rw [if_pos hproto, hdest, hsession] at hex
    rcases hex with ⟨e, he, htimes⟩ | ⟨hne, co', hreplied⟩
    · exact absurd htimes (h.not_times hcalled e he)
    · -- the reply is to the request that the coroutine was given
      obtain ⟨before', after', hlog'⟩ := List.append_of_mem hreplied
      have hserving := (h.kept answer.source).told.lawful before' _ after' hlog'
      have hgiven : .given co' (.handler A session) ∈ W.log answer.source := by
        rw [hlog', ← hdest, ← hsession]
        exact List.mem_append_left _ (servingOn_given hserving)
      obtain ⟨request, hsent, hrequests⟩ := h.requested hne hgiven
      exact ⟨request, hsent, answer, co', rfl, hsession, hrequests, hgiven, hreplied⟩
  requested_once := h.requested_once
  started_once := by
    intro A B session hsession
    have hle := h.starts A B session hsession
    have hone := h.requested_once A B session
    omega

theorem wireInit_traced : Traced wireInit where
  kept addr := serviceInit_kept addr
  handle _ := rfl
  outbox _ := rfl
  opens _ := .nil
  awaits _ := .nil
  net := by simp [wireInit, systemInit]
  answers := by simp [wireInit, systemInit, Wire.log, serviceInit]
  starts := by simp [wireInit, systemInit, Wire.log, serviceInit]

/-- Along every run with new sessions and no error message, what a call returns comes from
    the handler of its request, which is started once. -/
theorem calls_answered (acts : List SystemAct)
    (hok : AllSteps Wire.step Orderly wireInit acts) :
    Always Wire.step CallsAnswered wireInit acts :=
  always_of_allSteps (J := Traced) (fun _ h => h.callsAnswered)
    (fun _ _ _ h hs hok => h.step hs hok) wireInit_traced hok

/-- Service 1 calls service 2, which calls service 3 before it answers. -/
theorem calls_answered_chain : ∃ acts W, runFrom Wire.step wireInit acts = some W ∧
    CallsAnswered W ∧
      (W.log 1).count (.resumed 0 (.answer ⟨2, 1, 2, MSG_TYPE_RESPONSE, [7]⟩)) = 1 := by
  let acts : List SystemAct :=
    [.launch 1, .launch 2, .launch 3, .run 1 (.timeout 0 0 1 (some 0)), .run 1 (.done false),
      .run 2 (.done false), .run 3 (.done false), .inject ⟨0, 1, 1, MSG_TYPE_RESPONSE, []⟩,
      .deliver 0 true [], .run 1 (.call .call 2 MSG_TYPE_PROTO_LUA (some [5]) (some 2)),
      .deliver 0 true [], .run 2 (.call .kcall 3 MSG_TYPE_PROTO_LUA (some [6]) (some 2)),
      .deliver 0 true [], .run 3 (.ret (some [8])), .deliver 0 true [],
      .run 2 (.ret (some [7])), .deliver 0 true []]
  have hrun : ∃ W, runFrom Wire.step wireInit acts = some W ∧
      (W.log 1).count (.resumed 0 (.answer ⟨2, 1, 2, MSG_TYPE_RESPONSE, [7]⟩)) = 1 :=
    ⟨_, rfl, rfl⟩
  obtain ⟨W, hW, hcount⟩ := hrun
  exact ⟨acts, W, hW, (calls_answered acts (by decide)).last hW, hcount⟩

end Invariant

end Lua
end ZServer
