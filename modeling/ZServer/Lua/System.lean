/-
  ZServer.Lua.System

  Services that send messages to each other, and what they think of each other: a
  service takes another one for dead when it gets an error message with the session 0.
  That is what an error in the handler of a one-way message sends; nothing else does,
  and a service that terminates tells nobody.

  The messages on their way arrive in any order.  A service that has a message comes
  with its own messages, the C code with any that is not an error message.
-/

import ZServer.Lua.Tables

namespace ZServer
namespace Lua

open Lib

-- ============================================================================
-- Systems
-- ============================================================================

inductive Status where
  | absent
  | running
  | terminated
  deriving DecidableEq, Repr

structure System where
  services : Addr → Service
  status : Addr → Status
  net : List Message

def systemInit : System where
  services := serviceInit
  status := fun _ => .absent
  net := []

inductive SystemAct where
  | launch (addr : Addr)
  | exit (addr : Addr)
  /-- code of the service runs -/
  | run (addr : Addr) (act : Act)
  /-- the `i`-th message on its way is dispatched -/
  | deliver (i : Nat) (unpacked : Bool) (order : List Nat)
  /-- the C code sends a message: a tick, a socket message, an answer -/
  | inject (msg : Message)
  deriving DecidableEq, Repr

section Steps

variable (S : System)

/-- The service at `addr` has become `L`; what it has sent goes to the services that
    there are. -/
def System.post (addr : Addr) (L : Service) : System :=
  { S with
    services := Function.update S.services addr { L with outbox := [] }
    net := S.net ++ L.outbox.filter fun msg => S.status msg.dest = .running }

/-- Code of a service takes no message by itself, and `c.send` answers with a session
    when it finds the service. -/
def Act.fits (act : Act) : Prop :=
  match act with
  | .message _ _ _ => False
  | .call _ dest _ _ answer => answer.isSome ↔ S.status dest = .running
  | _ => True

instance : DecidablePred (Act.fits S) := fun act =>
  match act with
  | .message _ _ _ => .isFalse id
  | .call _ dest _ _ answer =>
      inferInstanceAs (Decidable (answer.isSome ↔ S.status dest = .running))
  | .send _ _ _ | .ret _ | .timeout _ _ _ _ | .timercancel _ | .done _ | .raise => .isTrue trivial

def System.step (act : SystemAct) : Option System :=
  match act with
  | .launch addr =>
      if S.status addr = .absent then
        some { S with status := Function.update S.status addr .running }
      else none
  | .exit addr =>
      if S.status addr = .running then
        some { S with
          status := Function.update S.status addr .terminated
          net := S.net.filter fun msg => msg.dest ≠ addr }
      else none
  | .run addr act =>
      if S.status addr = .running ∧ act.fits S then
        ((S.services addr).step act).map (S.post addr)
      else none
  | .deliver i unpacked order =>
      match S.net[i]? with
      | none => none
      | some msg =>
          if S.status msg.dest = .running then
            ((S.services msg.dest).step (.message msg unpacked order)).map
              ({ S with net := S.net.eraseIdx i }.post msg.dest)
          else none
  | .inject msg =>
      if msg.prototype ≠ MSG_TYPE_PROTO_ERROR ∧ S.status msg.dest = .running then
        some { S with net := S.net ++ [msg] }
      else none

end Steps

/-- `A` takes `B` for dead only if `B` has terminated. -/
def TrueReports (S : System) : Prop :=
  ∀ A B, (S.services A).watchingService B = some false → S.status B = .terminated

/-- The condition on a step: no error is raised in a coroutine that
    `session_coroutine_id` has the session 0 for, unless `dispatch_error_queue` runs it. -/
def NoOneWayError (S : System) (act : SystemAct) : Prop :=
  match act with
  | .run addr .raise =>
      match (S.services addr).current with
      | .run co false => (S.services addr).sessionCoroutineId co ≠ some 0
      | _ => True
  | _ => True

instance (S : System) : DecidablePred (NoOneWayError S) := fun act => by
  unfold NoOneWayError
  split
  · split <;> infer_instance
  · infer_instance

-- ============================================================================
-- What a service says of others
-- ============================================================================

def Message.ReportsDead (msg : Message) : Prop :=
  msg.prototype = MSG_TYPE_PROTO_ERROR ∧ msg.session = 0

/-- From `L` to `L'` the service takes no other one for dead, and sends no message that
    says so. -/
structure Peaceful (L L' : Service) : Prop where
  watching : L'.watchingService = L.watchingService
  sent : ∃ msgs, L'.outbox = L.outbox ++ msgs ∧ ∀ msg ∈ msgs, ¬msg.ReportsDead

section Peaceful

variable {L L₁ L₂ : Service} {co : Co}

theorem Peaceful.same (hwatching : L₁.watchingService = L.watchingService)
    (houtbox : L₁.outbox = L.outbox) : Peaceful L L₁ :=
  ⟨hwatching, [], by rw [houtbox, List.append_nil], by rintro _ ⟨⟩⟩

theorem Peaceful.refl (L : Service) : Peaceful L L := .same rfl rfl

theorem Peaceful.trans (h₁ : Peaceful L L₁) (h₂ : Peaceful L₁ L₂) : Peaceful L L₂ := by
  obtain ⟨hwatching₁, msgs₁, hout₁, hnone₁⟩ := h₁
  obtain ⟨hwatching₂, msgs₂, hout₂, hnone₂⟩ := h₂
  refine ⟨hwatching₂.trans hwatching₁, msgs₁ ++ msgs₂, ?_, fun msg hmsg => ?_⟩
  · rw [hout₂, hout₁, List.append_assoc]
  · exact (List.mem_append.mp hmsg).elim (hnone₁ msg) (hnone₂ msg)

/-- Nor does a change of other fields. -/
theorem Peaceful.then (h : Peaceful L L₁) (hwatching : L₂.watchingService = L₁.watchingService)
    (houtbox : L₂.outbox = L₁.outbox) : Peaceful L L₂ :=
  h.trans (.same hwatching houtbox)

/-- Before or after. -/
theorem Peaceful.since (h : Peaceful L₁ L₂) (hwatching : L₁.watchingService = L.watchingService)
    (houtbox : L₁.outbox = L.outbox) : Peaceful L L₂ :=
  (Peaceful.same hwatching houtbox).trans h

theorem cSend_peaceful {msg : Message} (hmsg : ¬msg.ReportsDead) : Peaceful L (L.cSend msg) :=
  ⟨rfl, [msg], rfl, fun _ hmem => by rwa [List.mem_singleton.mp hmem]⟩

theorem goOn_peaceful (L : Service) (co : Co) : Peaceful L (L.goOn co).1 := by
  unfold Service.goOn
  split
  · exact .same rfl rfl
  · split <;> exact .same rfl rfl
  · exact .same rfl rfl

theorem dispatchErrorQueue_peaceful (L : Service) : Peaceful L L.dispatchErrorQueue := by
  unfold Service.dispatchErrorQueue
  split
  · exact .same rfl rfl
  · rename_i session errorQueue _
    simp only
    split
    · exact .same rfl rfl
    · rename_i co _
      have hgo := goOn_peaceful ((({ L with errorQueue := errorQueue } : Service).register session
        none).note (.resumed co .failure)) co
      have hall := Peaceful.since (L := L) hgo rfl rfl
      split
      · exact hall.then rfl rfl
      · exact hall.then rfl rfl

theorem sendError_peaceful (h : L.sessionCoroutineId co ≠ some 0) : Peaceful L (L.sendError co) := by
  unfold Service.sendError
  split
  · rename_i session hid
    refine (cSend_peaceful fun hdead => ?_).then rfl rfl
    exact h (hid.trans (congrArg some hdead.2))
  · exact .refl L

theorem response_reports {source dest : Addr} {session : Nat} {data : Data} :
    ¬Message.ReportsDead ⟨source, dest, session, MSG_TYPE_RESPONSE, data⟩ := fun h =>
  absurd (show MSG_TYPE_RESPONSE = MSG_TYPE_PROTO_ERROR from h.1) (by decide)

/-- Only a coroutine for the session 0 that has died is reported. -/
theorem suspend_peaceful {cmd : Cmd} (h : cmd = .failed → L.sessionCoroutineId co ≠ some 0) :
    Peaceful L (L.suspend co cmd) := by
  unfold Service.suspend
  split
  · exact (sendError_peaceful (h rfl)).then rfl rfl
  · exact (dispatchErrorQueue_peaceful _).since rfl rfl
  · exact (dispatchErrorQueue_peaceful _).since rfl rfl
  · exact (dispatchErrorQueue_peaceful _).since rfl rfl
  · split
    · exact .same rfl rfl
    · split
      · exact .same rfl rfl
      · split
        · exact .same rfl rfl
        · exact (cSend_peaceful response_reports).then rfl rfl

theorem yield_peaceful {queued : Bool} {cmd : Cmd}
    (h : queued = false → cmd = .failed → L.sessionCoroutineId co ≠ some 0) :
    Peaceful L (L.yield co queued cmd) := by
  unfold Service.yield
  split
  · exact .same rfl rfl
  · rename_i hqueued
    exact suspend_peaceful (h (Bool.eq_false_iff.mpr hqueued))

theorem Peaceful.suspend (h : Peaceful L L₁) {cmd : Cmd} (hcmd : cmd ≠ .failed) :
    Peaceful L (L₁.suspend co cmd) :=
  h.trans (suspend_peaceful fun heq => absurd heq hcmd)

theorem Peaceful.yield (h : Peaceful L L₁) {queued : Bool} {cmd : Cmd} (hcmd : cmd ≠ .failed) :
    Peaceful L (L₁.yield co queued cmd) :=
  h.trans (yield_peaceful fun _ heq => absurd heq hcmd)

theorem coCreate_peaceful (L : Service) (body : Body) : Peaceful L (L.coCreate body).1 := by
  unfold Service.coCreate
  split <;> exact .same rfl rfl

/-- `z.send`, `z.call` and `z.kcall` send no error message: its class cannot pack. -/
theorem pack_reports {prototype : Nat} {packed : Option Data} {data : Data}
    (h : pack prototype packed = some data) (source dest : Addr) (session : Nat) :
    ¬Message.ReportsDead ⟨source, dest, session, prototype, data⟩ := by
  rintro ⟨hproto, -⟩
  have hproto : prototype = MSG_TYPE_PROTO_ERROR := hproto
  rw [hproto] at h
  cases h

theorem send_peaceful (dest : Addr) (prototype : Nat) (packed : Option Data) :
    Peaceful L (L.send dest prototype packed) := by
  unfold Service.send
  split
  · exact .refl L
  · split
    · exact .refl L
    · rename_i data hpack
      exact cSend_peaceful (pack_reports hpack _ _ _)

theorem watch_peaceful (form : CallForm) (session : Nat) (dest : Addr) :
    Peaceful L (L.watch form session dest) := by
  cases form <;> exact .same rfl rfl

theorem call_peaceful (queued : Bool) (form : CallForm) (dest : Addr) (prototype : Nat)
    (packed : Option Data) (answer : Option Nat) :
    Peaceful L (L.call co queued form dest prototype packed answer) := by
  unfold Service.call
  split
  · exact .refl L
  · split
    · rename_i data session hpack
      have hsend : Peaceful L ((L.cSend ⟨L.handle, dest, session, prototype, data⟩).issue session) :=
        (cSend_peaceful (pack_reports hpack _ _ _)).then rfl rfl
      simp only
      split
      · have hwatch := hsend.trans (watch_peaceful form session dest)
        apply Peaceful.yield
        · exact hwatch.then rfl rfl
        · rintro ⟨⟩
      · exact hsend
    · exact .refl L

theorem timeout_peaceful (nomore : Int) (session : Nat) (id : Option Nat) :
    Peaceful L (L.timeout nomore session id) := by
  have hcreate : ∀ body, Peaceful L ((L.issue session).coCreate body).1 := fun body =>
    (coCreate_peaceful (L.issue session) body).since rfl rfl
  unfold Service.timeout
  cases id with
  | none => exact hcreate _
  | some id =>
      simp only
      split
      · exact hcreate _
      · exact (hcreate _).then rfl rfl

theorem done_peaceful (queued value : Bool) : Peaceful L (L.done co queued value) := by
  unfold Service.done
  split
  · apply Peaceful.yield
    · exact .same rfl rfl
    · rintro ⟨⟩
  · split
    · apply Peaceful.yield
      · exact .same rfl rfl
      · rintro ⟨⟩
    · apply Peaceful.yield
      · split <;> exact .same rfl rfl
      · rintro ⟨⟩

/-- Code of the service reports nobody, but by an error for the session 0. -/
theorem userStep_peaceful {act : Act} {L' : Service} (hs : L.userStep act = some L')
    (hok : act = .raise → ∀ co, L.current = .run co false → L.sessionCoroutineId co ≠ some 0) :
    Peaceful L L' := by
  unfold Service.userStep at hs
  split at hs
  · cases hs
  · cases hs
    exact send_peaceful _ _ _
  · cases hs
    exact timeout_peaceful _ _ _
  · cases hs
    exact .same rfl rfl
  · cases hs
    exact .same rfl rfl
  · cases hs
    exact call_peaceful _ _ _ _ _ _
  · cases hs
    apply Peaceful.yield
    · exact .same rfl rfl
    · rintro ⟨⟩
  · cases hs
    exact done_peaceful _ _
  · rename_i hrun
    cases hs
    refine (yield_peaceful fun hqueued _ => ?_).since rfl rfl
    exact hok rfl _ (by rw [hrun, hqueued])
  · cases hs

/-- Nor does a message that reports nobody. -/
theorem rawDispatchMessage_peaceful {msg : Message} (hmsg : ¬msg.ReportsDead) (unpacked : Bool)
    (order : List Nat) : Peaceful L (L.rawDispatchMessage msg unpacked order) := by
  unfold Service.rawDispatchMessage
  split
  · unfold Service.dispatchResponse
    split
    · exact .refl L
    · rename_i co _
      have hgo : Peaceful L (((L.register msg.session none).note (.resumed co (.answer msg))).goOn
        co).1 := (goOn_peaceful _ co).since rfl rfl
      simp only
      split
      · exact hgo.suspend (by rintro ⟨⟩)
      · exact hgo.then rfl rfl
  · split
    · exact .refl L
    · rename_i cls hcls
      have hserve : ∀ body, Peaceful L ((L.coCreate body).1.serve (L.coCreate body).2 msg) :=
        fun body => (coCreate_peaceful L body).then rfl rfl
      unfold Service.dispatchRequest
      simp only
      split
      · rename_i hdispatch
        -- an error message, of another session than 0
        have hproto : msg.prototype = MSG_TYPE_PROTO_ERROR := by
          by_contra hne
          rw [proto_dispatch hcls hne] at hdispatch
          cases hdispatch
        have hsession : msg.session ≠ 0 := fun hzero => hmsg ⟨hproto, hzero⟩
        have herror : ∀ L' : Service, Peaceful L' (L'.errorDispatch msg.source msg.session order) := by
          intro L'
          unfold Service.errorDispatch
          rw [if_neg hsession]
          split <;> exact .same rfl rfl
        apply Peaceful.suspend
        · exact ((hserve _).trans (herror _)).then rfl rfl
        · rintro ⟨⟩
      · split
        · exact hserve _
        · exact (hserve _).then rfl rfl

end Peaceful

-- ============================================================================
-- Runs
-- ============================================================================

/-- Nobody is taken for dead, and no message on its way says so. -/
structure Calm (S : System) : Prop where
  watching : ∀ A B, (S.services A).watchingService B ≠ some false
  outbox : ∀ A, (S.services A).outbox = []
  net : ∀ msg ∈ S.net, ¬msg.ReportsDead

section Runs

variable {S : System}

theorem Calm.post (h : Calm S) {addr : Addr} {L : Service} (hL : Peaceful (S.services addr) L) :
    Calm (S.post addr L) := by
  obtain ⟨hwatching, msgs, hout, hnone⟩ := hL
  rw [h.outbox addr, List.nil_append] at hout
  refine ⟨fun A B => ?_, fun A => ?_, fun msg hmsg => ?_⟩
  · show (Function.update S.services addr { L with outbox := [] } A).watchingService B ≠ _
    by_cases heq : A = addr
    · rw [heq, Function.update_self]
      show L.watchingService B ≠ _
      rw [hwatching]
      exact h.watching addr B
    · rw [Function.update_of_ne heq]
      exact h.watching A B
  · show (Function.update S.services addr { L with outbox := [] } A).outbox = []
    by_cases heq : A = addr
    · rw [heq, Function.update_self]
    · rw [Function.update_of_ne heq]
      exact h.outbox A
  · rcases List.mem_append.mp hmsg with hmsg | hmsg
    · exact h.net msg hmsg
    · exact hnone msg (hout ▸ (List.mem_filter.mp hmsg).1)

theorem Calm.setNet (h : Calm S) (net : List Message) (hsub : ∀ msg ∈ net, ¬msg.ReportsDead) :
    Calm { S with net := net } :=
  ⟨h.watching, h.outbox, hsub⟩

theorem Service.step_eq {L L' : Service} {act : Act} (hs : L.step act = some L') :
    (∃ msg unpacked order, act = .message msg unpacked order ∧
      L' = L.rawDispatchMessage msg unpacked order) ∨ L.userStep act = some L' := by
  unfold Service.step at hs
  split at hs
  · split at hs
    · split at hs
      · cases hs
        exact Or.inl ⟨_, _, _, rfl, rfl⟩
      · cases hs
    · exact Or.inr hs
  · cases hs

theorem Calm.step (h : Calm S) {act : SystemAct} {S' : System} (hs : S.step act = some S')
    (hok : NoOneWayError S act) : Calm S' := by
  cases act with
  | launch addr =>
      simp only [System.step] at hs
      split at hs
      · cases hs
        exact ⟨h.watching, h.outbox, h.net⟩
      · cases hs
  | exit addr =>
      simp only [System.step] at hs
      split at hs
      · cases hs
        exact ⟨h.watching, h.outbox, fun msg hmsg => h.net msg (List.mem_filter.mp hmsg).1⟩
      · cases hs
  | run addr act =>
      simp only [System.step] at hs
      split at hs
      · rename_i hfits
        obtain ⟨L, hL, rfl⟩ := Option.map_eq_some_iff.mp hs
        rcases Service.step_eq hL with ⟨msg, unpacked, order, rfl, -⟩ | hL
        · exact absurd hfits.2 id
        · refine h.post (userStep_peaceful hL ?_)
          rintro rfl co hrun
          simp only [NoOneWayError, hrun] at hok
          exact hok
      · cases hs
  | deliver i unpacked order =>
      simp only [System.step] at hs
      split at hs
      · cases hs
      · rename_i msg hget
        split at hs
        · obtain ⟨L, hL, rfl⟩ := Option.map_eq_some_iff.mp hs
          have hmsg := h.net msg (List.mem_of_getElem? hget)
          have hrest := h.setNet (S.net.eraseIdx i) fun msg' hmsg' =>
            h.net msg' (List.mem_of_mem_eraseIdx hmsg')
          rcases Service.step_eq hL with ⟨_, _, _, heq, rfl⟩ | hL
          · cases heq
            exact hrest.post (rawDispatchMessage_peaceful hmsg unpacked order)
          · refine hrest.post (userStep_peaceful hL ?_)
            rintro ⟨⟩
        · cases hs
  | inject msg =>
      simp only [System.step] at hs
      split at hs
      · rename_i hinject
        cases hs
        refine h.setNet _ fun msg' hmsg' => ?_
        rcases List.mem_append.mp hmsg' with hmsg' | hmsg'
        · exact h.net msg' hmsg'
        · rw [List.mem_singleton.mp hmsg']
          exact fun hdead => hinject.1 hdead.1
      · cases hs

/-- Along a run in which no error is raised for a one-way message, only services that
    have terminated are taken for dead. -/
theorem reports_true (acts : List SystemAct)
    (hok : AllSteps System.step NoOneWayError systemInit acts) :
    Always System.step TrueReports systemInit acts := by
  refine always_of_allSteps (J := Calm) (fun S h A B hdead => absurd hdead (h.watching A B))
    (fun S act S' h hs hok => h.step hs hok) ⟨fun A B => ?_, fun A => rfl, ?_⟩ hok
  · rintro ⟨⟩
  · rintro _ ⟨⟩

/-- Service 1 calls service 2, whose handler raises an error; service 1 is told, and goes
    on taking service 2 for alive. -/
theorem reports_true_call : ∃ acts S, runFrom System.step systemInit acts = some S ∧
    TrueReports S ∧ (S.services 1).log.count (.resumed 0 .failure) = 1 ∧
      (S.services 1).watchingService 2 = none := by
  let acts : List SystemAct :=
    [.launch 1, .launch 2, .run 1 (.timeout 0 0 1 (some 0)), .run 1 (.done false),
      .run 2 (.done false), .inject ⟨0, 1, 1, MSG_TYPE_RESPONSE, []⟩, .deliver 0 true [],
      .run 1 (.call .call 2 MSG_TYPE_PROTO_LUA (some [5]) (some 2)), .deliver 0 true [],
      .run 2 .raise, .deliver 0 true [2]]
  have hrun : ∃ S, runFrom System.step systemInit acts = some S ∧
      (S.services 1).log.count (.resumed 0 .failure) = 1 ∧
      (S.services 1).watchingService 2 = none := ⟨_, rfl, rfl, rfl⟩
  obtain ⟨S, hS, hcount, hwatching⟩ := hrun
  exact ⟨acts, S, hS, (reports_true acts (by decide)).last hS, hcount, hwatching⟩

/-- Service 1 sends service 2 a one-way message, whose handler raises an error; from then
    on service 1 refuses to send to service 2, which is running. -/
theorem one_way_error_reported : ∃ acts S, runFrom System.step systemInit acts = some S ∧
    S.status 2 = .running ∧ ¬TrueReports S ∧
      ∀ prototype packed, (S.services 1).send 2 prototype packed = S.services 1 := by
  let acts : List SystemAct :=
    [.launch 1, .launch 2, .run 1 (.send 2 MSG_TYPE_PROTO_LUA (some [5])), .run 1 (.done false),
      .run 2 (.done false), .deliver 0 true [], .run 2 .raise, .deliver 0 true []]
  have hrun : ∃ S, runFrom System.step systemInit acts = some S ∧ S.status 2 = .running ∧
      (S.services 1).watchingService 2 = some false := ⟨_, rfl, rfl, rfl⟩
  obtain ⟨S, hS, hstatus, hwatching⟩ := hrun
  refine ⟨acts, S, hS, hstatus, fun htrue => ?_, fun prototype packed => ?_⟩
  · rw [htrue 1 2 hwatching] at hstatus
    cases hstatus
  · unfold Service.send
    rw [if_pos hwatching]

end Runs

end Lua
end ZServer
