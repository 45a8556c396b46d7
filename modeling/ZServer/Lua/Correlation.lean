/-
  ZServer.Lua.Correlation

  Responses find the coroutine that has called for them, and replies the sender of
  the request, as long as the sessions do not repeat and no error message arrives.

  The history of a service says which session a coroutine has called with last, and
  which function it has been given; `Allowed` is what may happen after a history.
-/

import ZServer.Lib.History
import ZServer.Lua.Tables

namespace ZServer
namespace Lua

open Lib

-- ============================================================================
-- What may happen
-- ============================================================================

def callOf (co : Co) : Event → Option (Option Nat)
  | .called co' session => if co' = co then some (some session) else none
  | .resumed co' _ => if co' = co then some none else none
  | _ => none

def givenTo (co : Co) : Event → Option Body
  | .given co' body => if co' = co then some body else none
  | _ => none

/-- The session with which `co` has yielded "CALL", unless it has been resumed. -/
def waitingOn (log : List Event) (co : Co) : Option Nat := (latest (callOf co) log).join

/-- The request whose handler `co` executes: that of its latest function. -/
def servingOn (log : List Event) (co : Co) : Option (Addr × Nat) :=
  match latest (givenTo co) log with
  | some (.handler source session) => some (source, session)
  | _ => none

def Event.answers (session : Nat) : Event → Bool
  | .resumed _ (.answer msg) => msg.session = session
  | _ => false

/-- A coroutine that has yielded "CALL" is resumed by the response with the session,
    and a reply goes to the sender of the request, with its session. -/
def Allowed (log : List Event) : Event → Prop
  | .resumed co how => ∀ session, waitingOn log co = some session →
      ∃ msg, how = .answer msg ∧ msg.prototype = MSG_TYPE_RESPONSE ∧ msg.session = session
  | .replied co msg => servingOn log co = some (msg.dest, msg.session)
  | _ => True

/-- Requests and responses are kept apart: whatever has happened was allowed, a session
    is answered once, and a coroutine that waits does so once, and is not in the pool. -/
structure Correlated (L : Service) : Prop where
  lawful : Lawful Allowed L.log
  once : ∀ co session, .called co session ∈ L.log → L.log.countP (Event.answers session) ≤ 1
  registered_once : L.current = .idle → ∀ s s' co, L.sessionIdCoroutine s = some co →
    L.sessionIdCoroutine s' = some co → s = s'
  not_pooled : L.current = .idle → ∀ s co, L.sessionIdCoroutine s = some co → co ∉ L.coroutinePool

/-- The condition on a step: it hands out a new session, and dispatches no error
    message. -/
def Ordinary (L : Service) : Act → Prop
  | .message msg _ _ => msg.prototype ≠ MSG_TYPE_PROTO_ERROR
  | .call _ _ _ _ (some session) => session ∉ L.issued
  | .timeout _ _ session _ => session ∉ L.issued
  | _ => True

instance (L : Service) : DecidablePred (Ordinary L) := fun act =>
  match act with
  | .message msg _ _ => inferInstanceAs (Decidable (msg.prototype ≠ MSG_TYPE_PROTO_ERROR))
  | .call _ _ _ _ (some session) => inferInstanceAs (Decidable (session ∉ L.issued))
  | .timeout _ _ session _ => inferInstanceAs (Decidable (session ∉ L.issued))
  | .call _ _ _ _ none | .send _ _ _ | .ret _ | .timercancel _ | .done _ | .raise =>
      .isTrue trivial

-- ============================================================================
-- Told
-- ============================================================================

/-- The function of `z.timeout` for the session has not ended. -/
def TimerOf (c : Coroutine) (session : Nat) : Prop :=
  (∃ id nomore, c.body = .timer session id nomore) ∧ c.pc ≠ .yieldExit ∧ c.pc ≠ .dead

/-- The history agrees with the tables, but for what `hole` waits for. -/
structure Told (L : Service) (hole : Option Co) : Prop where
  lawful : Lawful Allowed L.log
  waiting : ∀ co s, some co ≠ hole → waitingOn L.log co = some s → L.sessionIdCoroutine s = some co
  serving : ∀ co r, requestOf (L.coroutines co) = some r → servingOn L.log co = some r
  once : ∀ co s, .called co s ∈ L.log → s ∈ L.issued ∧ L.log.countP (Event.answers s) ≤ 1
  unanswered : ∀ co s, .called co s ∈ L.log → L.sessionIdCoroutine s ≠ none →
    L.log.countP (Event.answers s) = 0
  new : ∀ s, s ∉ L.issued → L.log.countP (Event.answers s) = 0
  apart : ∀ co s, .called co s ∈ L.log → ∀ co', ¬TimerOf (L.coroutines co') s

section Operations

variable {L : Service} {hole : Option Co} {co : Co}

theorem Told.setCurrent (h : Told L hole) (current : Current) :
    Told { L with current := current } hole :=
  ⟨h.1, h.2, h.3, h.4, h.5, h.6, h.7⟩

theorem Told.cSend (h : Told L hole) (msg : Message) : Told (L.cSend msg) hole :=
  ⟨h.1, h.2, h.3, h.4, h.5, h.6, h.7⟩

theorem Told.setWatching (h : Told L hole) (watching : Nat → Option Addr) :
    Told { L with watchingSession := watching } hole :=
  ⟨h.1, h.2, h.3, h.4, h.5, h.6, h.7⟩

theorem Told.watch (h : Told L hole) (form : CallForm) (session : Nat) (dest : Addr) :
    Told (L.watch form session dest) hole := by
  cases form with
  | call => exact h.setWatching _
  | kcall => exact h

theorem Told.unserve (h : Told L hole) : Told (L.unserve co) hole :=
  ⟨h.1, h.2, h.3, h.4, h.5, h.6, h.7⟩

theorem Told.serve (h : Told L hole) (co : Co) (msg : Message) : Told (L.serve co msg) hole :=
  ⟨h.1, h.2, h.3, h.4, h.5, h.6, h.7⟩

theorem Told.issue (h : Told L hole) (session : Nat) : Told (L.issue session) hole :=
  ⟨h.1, h.2, h.3, fun co s hs => ⟨List.mem_cons_of_mem _ (h.once co s hs).1, (h.once co s hs).2⟩,
    h.5, fun s hs => h.new s fun hold => hs (List.mem_cons_of_mem _ hold), h.7⟩

theorem Told.take (h : Told L none) (co : Co) : Told L (some co) :=
  ⟨h.1, fun co s _ => h.waiting co s (by rintro ⟨⟩), h.3, h.4, h.5, h.6, h.7⟩

theorem Told.close (h : Told L (some co)) (hwaiting : waitingOn L.log co = none) : Told L none := by
  refine ⟨h.1, fun co' s _ hs => h.waiting co' s ?_ hs, h.3, h.4, h.5, h.6, h.7⟩
  rintro ⟨⟩
  rw [hwaiting] at hs
  cases hs

/-- Another place of `co`, or another function. -/
theorem Told.update (h : Told L hole) (co : Co) (c : Coroutine) (pool : List Co) (next : Co)
    (hserving : ∀ r, requestOf c = some r → servingOn L.log co = some r)
    (htimer : ∀ co' s, .called co' s ∈ L.log → ¬TimerOf c s) :
    Told { L with
      coroutines := Function.update L.coroutines co c
      coroutinePool := pool
      next := next } hole := by
  refine ⟨h.1, h.2, fun co' r hr => ?_, h.4, h.5, h.6, fun co₁ s hs co₂ => ?_⟩
  · have hr : requestOf (Function.update L.coroutines co c co') = some r := hr
    show servingOn L.log co' = some r
    by_cases heq : co' = co
    · rw [heq, Function.update_self] at hr
      rw [heq]
      exact hserving r hr
    · rw [Function.update_of_ne heq] at hr
      exact h.serving co' r hr
  · show ¬TimerOf (Function.update L.coroutines co c co₂) s
    by_cases heq : co₂ = co
    · rw [heq, Function.update_self]
      exact htimer co₁ s hs
    · rw [Function.update_of_ne heq]
      exact h.apart co₁ s hs co₂

theorem Told.goto (h : Told L hole) (co : Co) (pc : CoPc)
    (hserving : ∀ r, requestOf ⟨(L.coroutines co).body, pc⟩ = some r →
      servingOn L.log co = some r)
    (hlive : (L.coroutines co).pc ≠ .yieldExit ∧ (L.coroutines co).pc ≠ .dead) :
    Told (L.goto co pc) hole :=
  h.update co _ L.coroutinePool L.next hserving
    fun co' s hs htimer => h.apart co' s hs co ⟨htimer.1, hlive⟩

/-- An event that is not an answer. -/
theorem Told.note (h : Told L hole) {e : Event} (hallowed : Allowed L.log e)
    (hcall : ∀ co', some co' ≠ hole → callOf co' e = none)
    (hgiven : ∀ co', requestOf (L.coroutines co') ≠ none → givenTo co' e = none)
    (hanswer : ∀ s, e.answers s = false)
    (hcalled : ∀ co' s, e = .called co' s → s ∈ L.issued ∧ L.log.countP (Event.answers s) = 0 ∧
      ∀ co'', ¬TimerOf (L.coroutines co'') s) : Told (L.note e) hole := by
  have hcount : ∀ s, (L.log ++ [e]).countP (Event.answers s) = L.log.countP (Event.answers s) := by
    intro s
    rw [List.countP_append, List.countP_singleton, hanswer s]
    rfl
  have hold : ∀ {co' s}, .called co' s ∈ L.log ++ [e] → .called co' s ∈ L.log ∨ e = .called co' s := by
    intro co' s hs
    exact (List.mem_append.mp hs).imp_right fun he => (List.mem_singleton.mp he).symm
  refine ⟨h.lawful.concat hallowed, fun co' s hne hs => h.waiting co' s hne ?_,
    fun co' r hr => ?_, fun co' s hs => ?_, fun co' s hs hne => ?_, fun s hs => ?_,
    fun co' s hs co'' => ?_⟩
  · unfold waitingOn at hs ⊢
    rwa [show (L.note e).log = L.log ++ [e] from rfl, latest_concat_of_none (hcall co' hne)] at hs
  · have hnone := hgiven co' (by rw [show requestOf (L.coroutines co') = some r from hr]; rintro ⟨⟩)
    unfold servingOn
    rw [show (L.note e).log = L.log ++ [e] from rfl, latest_concat_of_none hnone]
    exact h.serving co' r hr
  · show s ∈ L.issued ∧ (L.log ++ [e]).countP _ ≤ 1
    rw [hcount]
    rcases hold hs with hs | rfl
    · exact h.once co' s hs
    · exact ⟨(hcalled co' s rfl).1, by rw [(hcalled co' s rfl).2.1]; exact Nat.zero_le _⟩
  · show (L.log ++ [e]).countP _ = 0
    rw [hcount]
    rcases hold hs with hs | rfl
    · exact h.unanswered co' s hs hne
    · exact (hcalled co' s rfl).2.1
  · show (L.log ++ [e]).countP _ = 0
    rw [hcount]
    exact h.new s hs
  · rcases hold hs with hs | rfl
    · exact h.apart co' s hs co''
    · exact (hcalled co' s rfl).2.2 co''

/-- What the history says of a coroutine that is resumed. -/
theorem waitingOn_resumed (log : List Event) (co : Co) (how : Resumed) :
    waitingOn (log ++ [.resumed co how]) co = none := by
  have hcall : callOf co (.resumed co how) = some none := if_pos rfl
  unfold waitingOn
  rw [latest_concat_of_some hcall]
  rfl

/-- A coroutine in code of the service has not called. -/
theorem Told.running (h : Told L none) (ht : Tidy L none) (hpc : (L.coroutines co).pc = .user) :
    waitingOn L.log co = none := by
  cases hwait : waitingOn L.log co with
  | none => rfl
  | some s =>
      have hs := h.waiting co s (by rintro ⟨⟩) hwait
      exact absurd hpc (ht.sound.waits s co hs).pc_ne.1

/-- A response is dispatched to the coroutine that waits for it. -/
theorem Told.answer (h : Told L none) (ht : Tidy L none) {msg : Message}
    (hproto : msg.prototype = MSG_TYPE_RESPONSE)
    (hs : L.sessionIdCoroutine msg.session = some co) :
    Told ((L.register msg.session none).note (.resumed co (.answer msg))) (some co) := by
  have hissued := ht.issued msg.session co hs
  have hcount : ∀ s, s ≠ msg.session → (L.log ++ [Event.resumed co (.answer msg)]).countP
      (Event.answers s) = L.log.countP (Event.answers s) := by
    intro s hne
    have hfalse : Event.answers s (.resumed co (.answer msg)) = false :=
      decide_eq_false fun heq => hne heq.symm
    rw [List.countP_append, List.countP_singleton, hfalse]
    rfl
  have hle : (L.log ++ [Event.resumed co (.answer msg)]).countP (Event.answers msg.session) ≤
      L.log.countP (Event.answers msg.session) + 1 := by
    rw [List.countP_append]
    exact Nat.add_le_add_left (List.countP_le_length (l := [Event.resumed co (.answer msg)])) _
  have hold : ∀ {co' s}, Event.called co' s ∈ L.log ++ [.resumed co (.answer msg)] →
      .called co' s ∈ L.log := by
    intro co' s hcalled
    rcases List.mem_append.mp hcalled with hcalled | hcalled
    · exact hcalled
    · cases List.mem_singleton.mp hcalled
  refine ⟨h.lawful.concat ?_, fun co' s hne hwait => ?_, fun co' r hr => ?_,
    fun co' s hcalled => ?_, fun co' s hcalled hne => ?_, fun s hnot => ?_,
    fun co' s hcalled => h.apart co' s (hold hcalled)⟩
  · intro session hwait
    have hsession := h.waiting co session (by rintro ⟨⟩) hwait
    exact ⟨msg, rfl, hproto, (ht.sound.waits _ co hs).unique (ht.sound.waits session co hsession)⟩
  · have hne' : co ≠ co' := fun heq => hne (congrArg some heq.symm)
    have hsame : callOf co' (.resumed co (.answer msg)) = none := if_neg hne'
    have hold : waitingOn L.log co' = some s := by
      unfold waitingOn at hwait ⊢
      rwa [show ((L.register msg.session none).note (.resumed co (.answer msg))).log =
        L.log ++ [.resumed co (.answer msg)] from rfl, latest_concat_of_none hsame] at hwait
    have hreg := h.waiting co' s (by rintro ⟨⟩) hold
    show Function.update L.sessionIdCoroutine msg.session none s = some co'
    rw [Function.update_of_ne]
    · exact hreg
    · rintro rfl
      exact hne' (Option.some.inj (hs.symm.trans hreg))
  · unfold servingOn
    rw [show ((L.register msg.session none).note (.resumed co (.answer msg))).log =
      L.log ++ [.resumed co (.answer msg)] from rfl, latest_concat_of_none rfl]
    exact h.serving co' r hr
  · obtain ⟨hin, hone⟩ := h.once co' s (hold hcalled)
    refine ⟨hin, ?_⟩
    show (L.log ++ [Event.resumed co (.answer msg)]).countP _ ≤ 1
    by_cases heq : s = msg.session
    · have hzero := h.unanswered co' s (hold hcalled) (by rw [heq, hs]; rintro ⟨⟩)
      rw [heq] at hzero ⊢
      omega
    · rw [hcount s heq]
      exact hone
  · have hne' : s ≠ msg.session := by
      rintro rfl
      exact hne (Function.update_self ..)
    show (L.log ++ [Event.resumed co (.answer msg)]).countP _ = 0
    rw [hcount s hne']
    refine h.unanswered co' s (hold hcalled) fun hnone => hne ?_
    exact (Function.update_of_ne hne' _ _).trans hnone
  · show (L.log ++ [Event.resumed co (.answer msg)]).countP _ = 0
    rw [hcount s]
    · exact h.new s hnot
    · rintro rfl
      exact hnot hissued

/-- A coroutine is registered under a session that nobody waits for. -/
theorem Told.register (h : Told L (some co)) (session : Nat)
    (hfree : L.sessionIdCoroutine session = none)
    (hwait : ∀ s, waitingOn L.log co = some s → s = session)
    (hcount : ∀ co', .called co' session ∈ L.log → L.log.countP (Event.answers session) = 0) :
    Told (L.register session (some co)) none := by
  have hother : ∀ {s}, s ≠ session → (L.register session (some co)).sessionIdCoroutine s =
      L.sessionIdCoroutine s := fun hne => Function.update_of_ne hne _ _
  refine ⟨h.1, fun co' s _ hs => ?_, h.3, h.4, fun co' s hs hne => ?_, h.6, h.7⟩
  · by_cases heq : co' = co
    · rw [heq] at hs ⊢
      rw [hwait s hs]
      exact Function.update_self ..
    · have hreg := h.waiting co' s (fun hsome => heq (Option.some.inj hsome)) hs
      rw [hother]
      · exact hreg
      · rintro rfl
        rw [hfree] at hreg
        cases hreg
  · by_cases heq : s = session
    · rw [heq] at hs ⊢
      exact hcount co' hs
    · exact h.unanswered co' s hs (by rwa [hother heq] at hne)

end Operations

-- ============================================================================
-- Steps
-- ============================================================================

/-- What holds between two steps. -/
structure Kept (L : Service) : Prop where
  tidy : Tidy L none
  told : Told L none
  steady : ∀ co queued, L.current = .run co queued → queued = false ∧ (L.coroutines co).pc = .user

section Steps

variable {L : Service} {co : Co}

theorem dispatchErrorQueue_nil (h : L.errorQueue = []) : L.dispatchErrorQueue = L.rest := by
  unfold Service.dispatchErrorQueue
  rw [h]

theorem user_live (hpc : (L.coroutines co).pc = .user) :
    (L.coroutines co).pc ≠ .yieldExit ∧ (L.coroutines co).pc ≠ .dead := by
  rw [hpc]
  exact ⟨by rintro ⟨⟩, by rintro ⟨⟩⟩

/-- The main thread is done. -/
theorem Kept.rest (ht : Tidy L none) (hd : Told L none) : Kept L.rest :=
  ⟨ht.setCurrent .idle, hd.setCurrent .idle, by rintro _ _ ⟨⟩⟩

/-- It goes on in `co`. -/
theorem Kept.run (ht : Tidy L none) (hd : Told L none) (hpc : (L.coroutines co).pc = .user) :
    Kept { L with current := .run co false } :=
  ⟨ht.setCurrent _, hd.setCurrent _, by rintro _ _ ⟨⟩; exact ⟨rfl, hpc⟩⟩

/-- A step that changes no coroutine. -/
theorem Kept.same (h : Kept L) {L' : Service} (ht : Tidy L' none) (hd : Told L' none)
    (hcurrent : L'.current = L.current) (hcoroutines : L'.coroutines = L.coroutines) : Kept L' :=
  ⟨ht, hd, fun co queued hrun => by
    rw [hcoroutines]
    exact h.steady co queued (hcurrent.symm.trans hrun)⟩

theorem requestOf_goto (body : Body) (pc : CoPc) (hne : pc ≠ .yieldTimeout)
    (hexit : pc ≠ .yieldExit) (hdead : pc ≠ .dead) :
    requestOf ⟨body, pc⟩ = requestOf ⟨body, .user⟩ := by
  cases body with
  | timer => rfl
  | handler =>
      cases pc with
      | yieldTimeout => exact absurd rfl hne
      | yieldExit => exact absurd rfl hexit
      | dead => exact absurd rfl hdead
      | _ => rfl

/-- The request of a coroutine in code of the service. -/
theorem requestOf_user (hpc : (L.coroutines co).pc = .user) :
    requestOf (L.coroutines co) = requestOf ⟨(L.coroutines co).body, .user⟩ := by
  rw [← hpc]

theorem Service.Serves.goto (h : L.Serves co) (pc : CoPc)
    (hsame : requestOf ⟨(L.coroutines co).body, pc⟩ = requestOf (L.coroutines co)) :
    (L.goto co pc).Serves co := by
  unfold Service.Serves
  rw [goto_self, hsame]
  exact h

theorem Kept.send (h : Kept L) (dest : Addr) (prototype : Nat) (packed : Option Data) :
    Kept (L.send dest prototype packed) := by
  unfold Service.send
  split
  · exact h
  · split
    · exact h
    · exact h.same (h.tidy.cSend _) (h.told.cSend _) rfl rfl

theorem Kept.timercancel (h : Kept L) (id : Nat) : Kept (L.timercancel id) :=
  h.same (h.tidy.note _) (h.told.note trivial (fun _ _ => rfl) (fun _ _ => rfl) (fun _ => rfl)
    (by rintro _ _ ⟨⟩)) rfl rfl

/-- A session that has not been handed out is nobody's. -/
theorem Kept.fresh (h : Kept L) {session : Nat} (hnew : session ∉ L.issued) :
    L.sessionIdCoroutine session = none ∧ (∀ co, ¬Owns (L.coroutines co) session) ∧
      ∀ co, .called co session ∉ L.log := by
  refine ⟨?_, fun co howns => hnew (h.tidy.owns_issued session co howns),
    fun co hcalled => hnew (h.told.once co session hcalled).1⟩
  cases hs : L.sessionIdCoroutine session with
  | none => rfl
  | some co => exact absurd (h.tidy.issued session co hs) hnew

/-- `co` has yielded "CALL" with a session that is new to the tables. -/
theorem Kept.yieldCall (ht : Tidy L none) (hd : Told L none) (hpc : (L.coroutines co).pc = .user)
    (form : CallForm) {session : Nat} (hissued : session ∈ L.issued)
    (hfree : L.sessionIdCoroutine session = none)
    (hnone : ∀ co', ¬Owns (L.coroutines co') session)
    (hcount : L.log.countP (Event.answers session) = 0) :
    Kept (((L.note (.called co session)).goto co (.yieldCall form session)).yield co false
      (.call session)) := by
  have hlive := user_live hpc
  have hreq := requestOf_goto (L.coroutines co).body (.yieldCall form session)
    (by rintro ⟨⟩) (by rintro ⟨⟩) (by rintro ⟨⟩)
  rw [← requestOf_user hpc] at hreq
  have hserves := Service.Serves.goto (L := L.note (.called co session))
    (ht.serves co (by rintro ⟨⟩)) _ hreq
  have hnote : Told (L.note (.called co session)) (some co) := by
    refine (hd.take co).note trivial (fun co' hne => if_neg fun heq => hne (congrArg some heq.symm))
      (fun _ _ => rfl) (fun _ => rfl) ?_
    rintro co' s ⟨⟩
    exact ⟨hissued, hcount, fun co'' htimer => hnone co'' (Or.inr htimer)⟩
  have ht' := ((ht.run hpc).note (.called co session)).goto (.yieldCall form session) hlive
    fun _ _ heq => by
      cases heq
      exact ⟨hissued, fun co' howns => absurd howns (hnone co')⟩
  have hd' := hnote.goto co (.yieldCall form session)
    (fun r hr => hnote.serving co r (hreq ▸ hr)) hlive
  have ht'' := ht'.register session hserves
    (by rw [goto_self]; exact Or.inl ⟨form, rfl⟩) hissued
  have hcall : callOf co (.called co session) = some (some session) := if_pos rfl
  have hd'' := hd'.register session hfree (fun s hs => ?_) fun _ _ => ?_
  · unfold Service.yield Service.suspend
    simp only [Bool.false_eq_true, if_false]
    rw [dispatchErrorQueue_nil ht''.queue]
    exact Kept.rest ht'' hd''
  · unfold waitingOn at hs
    rw [show ((L.note (.called co session)).goto co (.yieldCall form session)).log =
      L.log ++ [.called co session] from rfl, latest_concat_of_some hcall] at hs
    exact (Option.some.inj hs).symm
  · show (L.log ++ [Event.called co session]).countP _ = 0
    rw [List.countP_append, hcount]
    rfl

theorem Kept.call (h : Kept L) (hpc : (L.coroutines co).pc = .user) (form : CallForm) (dest : Addr)
    (prototype : Nat) (packed : Option Data) (answer : Option Nat)
    (hanswer : ∀ session, answer = some session → session ∉ L.issued) :
    Kept (L.call co false form dest prototype packed answer) := by
  unfold Service.call
  split
  · exact h
  · split
    · rename_i data session _
      have hnew := hanswer session rfl
      obtain ⟨hfree, hnone, -⟩ := h.fresh hnew
      have ht := (h.tidy.cSend ⟨L.handle, dest, session, prototype, data⟩).issue session
      have hd := (h.told.cSend ⟨L.handle, dest, session, prototype, data⟩).issue session
      simp only
      split
      · obtain ⟨hcoroutines, hissued, htable, hlog⟩ := watch_same
          ((L.cSend ⟨L.handle, dest, session, prototype, data⟩).issue session) form session dest
        refine Kept.yieldCall (ht.watch form session dest) (hd.watch form session dest) ?_ form ?_ ?_
          ?_ ?_
        · rw [hcoroutines]
          exact hpc
        · rw [hissued]
          exact List.mem_cons_self
        · rw [htable]
          exact hfree
        · rw [hcoroutines]
          exact hnone
        · rw [hlog]
          exact h.told.new session hnew
      · exact h.same ht hd rfl rfl
    · exact h

/-- `co` has yielded "RETURN", and goes on. -/
theorem Kept.resumeReturn (ht : Tidy L (some co)) (hd : Told L (some co)) (hserves : L.Serves co)
    (hpc : (L.coroutines co).pc = .yieldReturn) (hwait : waitingOn L.log co = none) :
    Kept (L.resumeReturn co) := by
  have hlive : (L.coroutines co).pc ≠ .yieldExit ∧ (L.coroutines co).pc ≠ .dead := by
    rw [hpc]
    exact ⟨by rintro ⟨⟩, by rintro ⟨⟩⟩
  have hreq : requestOf ⟨(L.coroutines co).body, .user⟩ = requestOf (L.coroutines co) := by
    rw [← requestOf_goto _ .yieldReturn (by rintro ⟨⟩) (by rintro ⟨⟩) (by rintro ⟨⟩), ← hpc]
  have hnote : Told (L.note (.resumed co .returned)) (some co) := by
    refine hd.note ?_ (fun co' hne => if_neg fun heq => hne (congrArg some heq.symm))
      (fun _ _ => rfl) (fun _ => rfl) (by rintro _ _ ⟨⟩)
    intro session hwaiting
    rw [hwait] at hwaiting
    cases hwaiting
  have ht' := (ht.note (.resumed co .returned)).goto .user hlive (by rintro _ _ ⟨⟩)
  have hserves' : ((L.note (.resumed co .returned)).goto co .user).Serves co :=
    Service.Serves.goto (L := L.note (.resumed co .returned)) hserves _ hreq
  have hd' := hnote.goto co .user (fun r hr => hnote.serving co r (hreq ▸ hr)) hlive
  refine Kept.run (ht'.close hserves') (hd'.close ?_) ?_
  · exact waitingOn_resumed L.log co .returned
  · rw [goto_self]

/-- What the tables have for a coroutine is the request whose handler it executes. -/
theorem Kept.served (h : Kept L) {session : Nat}
    (hid : L.sessionCoroutineId co = some session) :
    servingOn L.log co = some ((L.sessionCoroutineAddress co).getD 0, session) := by
  obtain ⟨hid', haddr⟩ := h.tidy.serves co (by rintro ⟨⟩)
  rw [hid] at hid'
  obtain ⟨r, hr, rfl⟩ := Option.map_eq_some_iff.mp hid'.symm
  have hserving := h.told.serving co r hr
  rw [haddr, hr, hserving]
  rfl

theorem Kept.ret (h : Kept L) (hpc : (L.coroutines co).pc = .user) (packed : Option Data) :
    Kept ((L.goto co .yieldReturn).yield co false (.ret packed)) := by
  have hlive := user_live hpc
  have hreq := requestOf_goto (L.coroutines co).body .yieldReturn
    (by rintro ⟨⟩) (by rintro ⟨⟩) (by rintro ⟨⟩)
  rw [← requestOf_user hpc] at hreq
  have hserves := (h.tidy.serves co (by rintro ⟨⟩)).goto _ hreq
  have ht := (h.tidy.run hpc).goto .yieldReturn hlive (by rintro _ _ ⟨⟩)
  have hd := (h.told.take co).goto co .yieldReturn
    (fun r hr => h.told.serving co r (hreq ▸ hr)) hlive
  have hwait := h.told.running h.tidy hpc
  have hreturn : ((L.goto co .yieldReturn).coroutines co).pc = .yieldReturn := by rw [goto_self]
  have hstuck : Kept (L.goto co .yieldReturn).rest := Kept.rest (ht.close hserves) (hd.close hwait)
  unfold Service.yield Service.suspend
  simp only [Bool.false_eq_true, if_false]
  split
  · exact hstuck
  · rename_i session hid
    split
    · exact Kept.resumeReturn ht hd hserves hreturn hwait
    · split
      · exact hstuck
      · rename_i data _
        have hreply := (hd.cSend ⟨L.handle, (L.sessionCoroutineAddress co).getD 0, session,
            MSG_TYPE_RESPONSE, data⟩).note
          (e := .replied co ⟨L.handle, (L.sessionCoroutineAddress co).getD 0, session,
            MSG_TYPE_RESPONSE, data⟩)
          (h.served hid) (fun _ _ => rfl) (fun _ _ => rfl) (fun _ => rfl) (by rintro _ _ ⟨⟩)
        have hwait' : ∀ msg, waitingOn (L.log ++ [.replied co msg]) co = none := by
          intro msg
          unfold waitingOn at hwait ⊢
          rw [latest_concat_of_none rfl]
          exact hwait
        exact Kept.resumeReturn ((ht.cSend _).note _) hreply hserves hreturn (hwait' _)

/-- The function of `co` has returned. -/
theorem Kept.exit (ht : Tidy L (some co)) (hd : Told L (some co))
    (hlive : (L.coroutines co).pc ≠ .yieldExit ∧ (L.coroutines co).pc ≠ .dead)
    (hwait : waitingOn L.log co = none) : Kept ((L.exit co).suspend co .exit) := by
  have hnone : requestOf ⟨(L.coroutines co).body, .yieldExit⟩ = none := by
    cases (L.coroutines co).body <;> rfl
  have ht' := ht.exit hlive
  have hd' : Told ((L.exit co).unserve co) (some co) :=
    (hd.update co ⟨(L.coroutines co).body, .yieldExit⟩ (L.coroutinePool ++ [co]) L.next
      (fun r hr => by rw [hnone] at hr; cases hr)
      fun _ _ _ htimer => htimer.2.1 rfl).unserve
  unfold Service.suspend
  simp only
  rw [dispatchErrorQueue_nil ht'.queue]
  exact Kept.rest ht' (hd'.close hwait)

/-- A timer waits for its next tick. -/
theorem Kept.yieldTimeout (h : Kept L) (hpc : (L.coroutines co).pc = .user) {session id : Nat}
    {nomore : Int} (hbody : (L.coroutines co).body = .timer session id nomore) :
    Kept ((L.goto co .yieldTimeout).suspend co (.timeout session)) := by
  have hlive := user_live hpc
  have hown : Owns (L.coroutines co) session := Or.inr ⟨⟨id, nomore, hbody⟩, hlive⟩
  have hnone : ∀ pc, requestOf ⟨(L.coroutines co).body, pc⟩ = none := fun pc => by
    rw [hbody]
    rfl
  have hreq : requestOf (L.coroutines co) = none := hnone (L.coroutines co).pc
  have hserves := (h.tidy.serves co (by rintro ⟨⟩)).goto .yieldTimeout
    ((hnone _).trans hreq.symm)
  have ht := (h.tidy.run hpc).goto .yieldTimeout hlive (by rintro _ _ ⟨⟩)
  have hd := (h.told.take co).goto co .yieldTimeout
    (fun r hr => by rw [hnone] at hr; cases hr) hlive
  have hfree : L.sessionIdCoroutine session = none := by
    cases hs : L.sessionIdCoroutine session with
    | none => rfl
    | some co' =>
        have heq := h.tidy.owner session co' co (h.tidy.sound.waits session co' hs).owns hown
        exact absurd (heq ▸ hs) ((h.tidy.sound.run hpc).hole_waits session co rfl)
  have ht' := ht.register session hserves
    (by rw [goto_self]; exact Or.inr ⟨⟨id, nomore, hbody⟩, Or.inr rfl⟩)
    (h.tidy.owns_issued session co hown)
  have hd' := hd.register session hfree
    (fun s hs => by
      rw [show waitingOn (L.goto co .yieldTimeout).log co = none from h.told.running h.tidy hpc]
        at hs
      cases hs)
    fun co' hcalled => absurd ⟨⟨id, nomore, hbody⟩, hlive⟩ (h.told.apart co' session hcalled co)
  unfold Service.suspend
  simp only
  rw [dispatchErrorQueue_nil ht'.queue]
  exact Kept.rest ht' hd'

theorem yield_eq (L : Service) (co : Co) (cmd : Cmd) : L.yield co false cmd = L.suspend co cmd :=
  if_neg Bool.false_ne_true

theorem Kept.done (h : Kept L) (hpc : (L.coroutines co).pc = .user) (value : Bool) :
    Kept (L.done co false value) := by
  have hlive := user_live hpc
  have hexit : ∀ {L' : Service}, Kept L' → L'.coroutines = L.coroutines →
      Kept ((L'.exit co).yield co false .exit) := by
    intro L' h' heq
    rw [← heq] at hpc hlive
    rw [yield_eq]
    exact Kept.exit (h'.tidy.run hpc) (h'.told.take _) hlive (h'.told.running h'.tidy hpc)
  unfold Service.done
  split
  · exact hexit h rfl
  · rename_i session id nomore hbody
    split
    · rw [yield_eq]
      exact h.yieldTimeout hpc hbody
    · simp only
      split
      · exact hexit (h.timercancel id) rfl
      · exact hexit h rfl

/-- The request of a coroutine that has died is forgotten. -/
theorem Kept.raise (h : Kept L) (hpc : (L.coroutines co).pc = .user) :
    Kept (L.raise co false) := by
  have hlive := user_live hpc
  have hnone : requestOf ⟨(L.coroutines co).body, .dead⟩ = none := by
    cases (L.coroutines co).body <;> rfl
  have ht := ((h.tidy.run hpc).goto .dead hlive (by rintro _ _ ⟨⟩)).note (.died co)
  have hd := ((h.told.take co).goto co .dead
    (fun r hr => by rw [hnone] at hr; cases hr) hlive).note (e := .died co) trivial
    (fun _ _ => rfl) (fun _ _ => rfl) (fun _ => rfl) (by rintro _ _ ⟨⟩)
  have hwait : waitingOn (L.log ++ [.died co]) co = none := by
    have hrunning := h.told.running h.tidy hpc
    unfold waitingOn at hrunning ⊢
    rw [latest_concat_of_none rfl]
    exact hrunning
  have herror : ∀ {L' : Service}, Tidy L' (some co) → Told L' (some co) →
      waitingOn L'.log co = none → (L'.coroutines co).pc = .dead →
      Kept ((L'.sendError co).unserve co).rest := by
    intro L' ht' hd' hwait' hdead
    have hsend : Tidy (L'.sendError co) (some co) ∧ Told (L'.sendError co) (some co) ∧
        waitingOn (L'.sendError co).log co = none ∧
        (L'.sendError co).coroutines = L'.coroutines := by
      unfold Service.sendError
      split
      · refine ⟨(ht'.cSend _).note _, (hd'.cSend _).note trivial (fun _ _ => rfl) (fun _ _ => rfl)
          (fun _ => rfl) (by rintro _ _ ⟨⟩), ?_, rfl⟩
        unfold waitingOn at hwait' ⊢
        exact (congrArg Option.join (latest_concat_of_none rfl)).trans hwait'
      · exact ⟨ht', hd', hwait', rfl⟩
    obtain ⟨ht'', hd'', hwait'', hcoroutines⟩ := hsend
    have hserves : ((L'.sendError co).unserve co).Serves co := by
      have hreq : requestOf (((L'.sendError co).unserve co).coroutines co) = none := by
        show requestOf ((L'.sendError co).coroutines co) = none
        rw [hcoroutines]
        unfold requestOf
        rw [hdead]
        cases (L'.coroutines co).body <;> rfl
      unfold Service.Serves
      rw [hreq]
      exact ⟨Function.update_self .., Function.update_self ..⟩
    exact Kept.rest (ht''.unserve.close hserves) (hd''.unserve.close hwait'')
  unfold Service.raise
  rw [yield_eq]
  exact herror ht hd hwait (by show ((L.goto co .dead).coroutines co).pc = _; rw [goto_self])

/-- `co_create` gives a coroutine that serves nothing, and has not called. -/
theorem Kept.coCreate (h : Kept L) (body : Body)
    (hown : ∀ s, Owns ⟨body, .start⟩ s → s ∈ L.issued ∧ ∀ co', ¬Owns (L.coroutines co') s)
    (hcalled : ∀ co' s, .called co' s ∈ L.log → ¬TimerOf ⟨body, .start⟩ s) :
    Tidy (L.coCreate body).1 (some (L.coCreate body).2) ∧ Told (L.coCreate body).1 none ∧
      (L.sessionCoroutineId (L.coCreate body).2 = none ∧
        L.sessionCoroutineAddress (L.coCreate body).2 = none) ∧
      waitingOn (L.coCreate body).1.log (L.coCreate body).2 = none := by
  have ht := h.tidy.coCreate body hown
  have hc := h.tidy.sound.coCreate body
  have hnone : requestOf (L.coroutines (L.coCreate body).2) = none := by
    unfold requestOf
    rcases hc.idle with hpc | ⟨hpc, -⟩ <;> rw [hpc] <;>
      cases (L.coroutines (L.coCreate body).2).body <;> rfl
  have hgive : ∀ {co pool next}, requestOf (L.coroutines co) = none →
      Told { L.note (.given co body) with
        coroutines := Function.update L.coroutines co ⟨body, .start⟩
        coroutinePool := pool
        next := next } none := by
    intro co pool next hfree
    have hsome : givenTo co (.given co body) = some body := if_pos rfl
    have hnote : Told (L.note (.given co body)) none := by
      refine h.told.note trivial (fun _ _ => rfl) (fun co' hne => if_neg ?_) (fun _ => rfl)
        (by rintro _ _ ⟨⟩)
      rintro rfl
      exact hne hfree
    refine hnote.update _ _ _ _ (fun r hr => ?_) fun co' s hs => hcalled co' s ?_
    · show servingOn (L.log ++ [.given co body]) co = some r
      unfold servingOn
      rw [latest_concat_of_some hsome]
      cases body with
      | handler source session => exact hr
      | timer session id nomore => cases hr
    · rcases List.mem_append.mp hs with hs | hs
      · exact hs
      · cases List.mem_singleton.mp hs
  have hd : Told (L.coCreate body).1 none := by
    unfold Service.coCreate at hnone ⊢
    split at hnone <;> exact hgive hnone
  obtain ⟨hid, haddr⟩ := h.tidy.serves (L.coCreate body).2 (by rintro ⟨⟩)
  rw [hnone] at hid haddr
  refine ⟨ht, hd, ⟨hid, haddr⟩, ?_⟩
  cases hwait : waitingOn (L.coCreate body).1.log (L.coCreate body).2 with
  | none => rfl
  | some s =>
      have hs := hd.waiting _ s (by rintro ⟨⟩) hwait
      exact absurd hs (ht.sound.hole_waits s _ rfl)

/-- The coroutine that runs goes on running. -/
theorem Kept.created (h : Kept L) {L' L'' : Service} {body : Body}
    (hc : Created L body L' co) (ht : Tidy L'' none) (hd : Told L'' none)
    (hcurrent : L''.current = L'.current) (hcoroutines : L''.coroutines = L'.coroutines) :
    Kept L'' := by
  refine ⟨ht, hd, fun co' queued hrun => ?_⟩
  rw [hcurrent, hc.rest] at hrun
  obtain ⟨hqueued, hpc⟩ := h.steady co' queued hrun
  rw [hcoroutines, hc.other]
  · exact ⟨hqueued, hpc⟩
  · rintro rfl
    rcases hc.idle with hidle | ⟨hidle, -⟩ <;> rw [hidle] at hpc <;> cases hpc

theorem Kept.timeout (h : Kept L) (nomore : Int) {session : Nat} (id : Option Nat)
    (hnew : session ∉ L.issued) : Kept (L.timeout nomore session id) := by
  obtain ⟨hfree, hnone, hcalled⟩ := h.fresh hnew
  have h' : Kept (L.issue session) := h.same (h.tidy.issue session) (h.told.issue session) rfl rfl
  have hcreated : ∀ id, _ := fun id => h'.coCreate (.timer session id nomore)
    (by
      rintro s (⟨form, hpc⟩ | ⟨⟨id', nomore', hbody⟩, -⟩)
      · cases hpc
      · cases hbody
        exact ⟨List.mem_cons_self, hnone⟩)
    (by
      rintro co' s hs ⟨⟨id', nomore', hbody⟩, -⟩
      cases hbody
      exact hcalled co' hs)
  have hc := fun id => h'.tidy.sound.coCreate (.timer session id nomore)
  have hserves : ∀ id, ((L.issue session).coCreate (.timer session id nomore)).1.Serves
      ((L.issue session).coCreate (.timer session id nomore)).2 := fun id => by
    unfold Service.Serves
    rw [(hc id).start, (hc id).rest]
    exact (hcreated id).2.2.1
  unfold Service.timeout
  cases id with
  | none =>
      obtain ⟨ht, hd, -, -⟩ := hcreated 0
      exact h'.created (hc 0) (ht.close (hserves 0)) hd rfl rfl
  | some id =>
      obtain ⟨ht, hd, -, hwait⟩ := hcreated id
      have hsome : ((L.issue session).coCreate (.timer session id nomore)).1.sessionIdCoroutine
          session = none := by
        rw [(hc id).rest]
        exact hfree
      simp only
      rw [if_neg (by rw [hsome]; exact Bool.false_ne_true)]
      refine h'.created (hc id) (ht.register session (hserves id) ?_ ?_)
        ((hd.take _).register session hsome ?_ ?_)
        rfl rfl
      · rw [(hc id).start]
        exact Or.inr ⟨⟨id, nomore, rfl⟩, Or.inl rfl⟩
      · rw [(hc id).rest]
        exact List.mem_cons_self
      · intro s hs
        rw [hwait] at hs
        cases hs
      · intro co' hs
        rw [(hc id).log] at hs
        rcases List.mem_append.mp hs with hs | hs
        · exact absurd hs (hcalled co')
        · cases List.mem_singleton.mp hs

theorem Kept.dispatchRequest (h : Kept L) (cls : Class) (msg : Message) (unpacked : Bool)
    (order : List Nat) (hcls : cls.dispatch = .user) :
    Kept (L.dispatchRequest cls msg unpacked order) := by
  have hc := h.tidy.sound.coCreate (.handler msg.source msg.session)
  obtain ⟨ht, hd, -, hwait⟩ := h.coCreate (.handler msg.source msg.session)
    (by
      rintro s (⟨form, hpc⟩ | ⟨⟨id', nomore', hbody⟩, -⟩)
      · cases hpc
      · cases hbody)
    (by
      rintro co' s hs ⟨⟨id', nomore', hbody⟩, -⟩
      cases hbody)
  unfold Service.dispatchRequest
  simp only [hcls]
  generalize (L.coCreate (.handler msg.source msg.session)).1 = L₁ at hc ht hd hwait ⊢
  generalize (L.coCreate (.handler msg.source msg.session)).2 = co at hc ht hd hwait ⊢
  have ht := ht.serve msg
  have hd := (hd.take co).serve co msg
  have hstart : (L₁.serve co msg).coroutines co = ⟨.handler msg.source msg.session, .start⟩ :=
    hc.start
  have hserves : (L₁.serve co msg).Serves co := by
    unfold Service.Serves
    rw [hstart]
    exact ⟨Function.update_self .., Function.update_self ..⟩
  split
  · -- the coroutine is lost
    exact h.created hc (ht.close hserves) (hd.close hwait) rfl rfl
  · have hlive : ((L₁.serve co msg).coroutines co).pc ≠ .yieldExit ∧
        ((L₁.serve co msg).coroutines co).pc ≠ .dead := by
      rw [hstart]
      exact ⟨by rintro ⟨⟩, by rintro ⟨⟩⟩
    have hreq : requestOf ⟨((L₁.serve co msg).coroutines co).body, .user⟩ =
        requestOf ((L₁.serve co msg).coroutines co) := by
      rw [hstart]
      rfl
    have ht' := ht.goto .user hlive (by rintro _ _ ⟨⟩)
    have hd' := hd.goto co .user (fun r hr => hd.serving co r (hreq ▸ hr)) hlive
    exact Kept.run (ht'.close (hserves.goto _ hreq)) (hd'.close hwait) (by rw [goto_self])

theorem WaitsFor.requestOf_user {c : Coroutine} {s : Nat} (h : WaitsFor c s) :
    requestOf ⟨c.body, .user⟩ = requestOf c := by
  rcases h with ⟨form, hpc⟩ | ⟨⟨id, nomore, hbody⟩, -⟩
  · rw [← requestOf_goto _ (.yieldCall form s) (by rintro ⟨⟩) (by rintro ⟨⟩) (by rintro ⟨⟩),
      ← hpc]
  · unfold requestOf
    rw [hbody]

theorem Kept.dispatchResponse (h : Kept L) {msg : Message}
    (hproto : msg.prototype = MSG_TYPE_RESPONSE) : Kept (L.dispatchResponse msg) := by
  unfold Service.dispatchResponse
  split
  · exact h
  · rename_i co hs
    have hwaits := h.tidy.sound.waits msg.session co hs
    have ht := (h.tidy.take hs).note (.resumed co (.answer msg))
    have hd := h.told.answer h.tidy hproto hs
    have hwait : waitingOn ((L.register msg.session none).note (.resumed co (.answer msg))).log co =
        none := waitingOn_resumed L.log co (.answer msg)
    have hlive := hwaits.pc_ne.2
    rcases goOn_cases ((L.register msg.session none).note (.resumed co (.answer msg))) co with
      ⟨watching, heq⟩ | ⟨-, heq⟩
    · rw [heq]
      have ht' := (ht.goto .user hlive (by rintro _ _ ⟨⟩)).setWatching watching
      have hd' := (hd.goto co .user (fun r hr => hd.serving co r
        (hwaits.requestOf_user ▸ hr)) hlive).setWatching watching
      refine Kept.run (ht'.close ?_) (hd'.close hwait) ?_
      · exact Service.Serves.goto (L := (L.register msg.session none).note (.resumed co (.answer msg)))
          (h.tidy.serves co (by rintro ⟨⟩)) _ hwaits.requestOf_user
      · show ((Service.goto _ co .user).coroutines co).pc = .user
        rw [goto_self]
    · rw [heq]
      exact Kept.exit ht hd hlive hwait

/-- One step. -/
theorem Kept.step (h : Kept L) {act : Act} {L' : Service} (hs : L.step act = some L')
    (hok : Ordinary L act) : Kept L' := by
  have huser : ∀ {L'}, L.userStep act = some L' → Kept L' := by
    intro L' hs
    unfold Service.userStep at hs
    split at hs
    · cases hs
    · cases hs
      exact h.send _ _ _
    · cases hs
      exact h.timeout _ _ hok
    · cases hs
      exact h.timercancel _
    · cases hs
      exact Kept.rest h.tidy h.told
    · rename_i answer hrun _
      cases hs
      obtain ⟨rfl, hpc⟩ := h.steady _ _ hrun
      refine h.call hpc _ _ _ _ _ fun session hanswer => ?_
      rw [hanswer] at hok
      exact hok
    · rename_i hrun _
      cases hs
      obtain ⟨rfl, hpc⟩ := h.steady _ _ hrun
      exact h.ret hpc _
    · rename_i hrun _
      cases hs
      obtain ⟨rfl, hpc⟩ := h.steady _ _ hrun
      exact h.done hpc _
    · rename_i hrun _
      cases hs
      obtain ⟨rfl, hpc⟩ := h.steady _ _ hrun
      exact h.raise hpc
    · cases hs
  unfold Service.step at hs
  split at hs
  · split at hs
    · split at hs
      · cases hs
        unfold Service.rawDispatchMessage
        split
        · rename_i hproto
          exact h.dispatchResponse hproto
        · split
          · exact h
          · rename_i cls hcls
            exact h.dispatchRequest cls _ _ _ (proto_dispatch hcls hok)
      · cases hs
    · exact huser hs
  · cases hs

theorem serviceInit_kept (handle : Addr) : Kept (serviceInit handle) where
  tidy :=
    { sound := serviceInit_sound handle
      queue := rfl
      issued := by rintro _ _ ⟨⟩
      owns_issued := by
        rintro s co (⟨form, hpc⟩ | ⟨⟨id, nomore, hbody⟩, -⟩)
        · cases hpc
        · cases hbody
      owner := by
        rintro s co co' (⟨form, hpc⟩ | ⟨⟨id, nomore, hbody⟩, -⟩)
        · cases hpc
        · cases hbody
      serves := fun _ _ => ⟨rfl, rfl⟩ }
  told :=
    { lawful := lawful_nil
      waiting := by rintro _ _ _ ⟨⟩
      serving := by rintro _ _ ⟨⟩
      once := by rintro _ _ ⟨⟩
      unanswered := by rintro _ _ ⟨⟩
      new := fun _ _ => rfl
      apart := by rintro _ _ ⟨⟩ }
  steady := by rintro _ _ ⟨⟩

theorem Kept.correlated (h : Kept L) : Correlated L where
  lawful := h.told.lawful
  once := fun co session hcalled => (h.told.once co session hcalled).2
  registered_once := fun _ s s' co hs hs' =>
    (h.tidy.sound.waits s co hs).unique (h.tidy.sound.waits s' co hs')
  not_pooled := fun _ s co hs hpool =>
    (h.tidy.sound.waits s co hs).pc_ne.2.1 (h.tidy.sound.pool_exit co hpool)

end Steps

-- ============================================================================
-- Runs
-- ============================================================================

/-- Along a run whose steps hand out new sessions and dispatch no error message,
    requests and responses are kept apart. -/
theorem responses_correlated (handle : Addr) (acts : List Act)
    (hok : AllSteps Service.step Ordinary (serviceInit handle) acts) :
    Always Service.step Correlated (serviceInit handle) acts :=
  always_of_allSteps (J := Kept) (fun _ h => h.correlated) (fun _ _ _ h hs hok => h.step hs hok)
    (serviceInit_kept handle) hok

/-- Service 7 calls service 4 for a request of service 3, and replies. -/
theorem responses_correlated_call : ∃ acts L,
    runFrom Service.step (serviceInit 7) acts = some L ∧ Correlated L ∧
      L.outbox = [⟨7, 4, 2, MSG_TYPE_PROTO_LUA, [1]⟩, ⟨7, 3, 9, MSG_TYPE_RESPONSE, [6]⟩] ∧
      L.log.count (.resumed 1 (.answer ⟨4, 7, 2, MSG_TYPE_RESPONSE, [5]⟩)) = 1 := by
  let acts : List Act :=
    [.timeout 0 0 1 (some 0), .done false,
      .message ⟨3, 7, 9, MSG_TYPE_PROTO_LUA, [0]⟩ true [],
      .call .call 4 MSG_TYPE_PROTO_LUA (some [1]) (some 2),
      .message ⟨0, 7, 1, MSG_TYPE_RESPONSE, []⟩ true [], .done false,
      .message ⟨4, 7, 2, MSG_TYPE_RESPONSE, [5]⟩ true [], .ret (some [6]), .done false]
  have hrun : ∃ L, runFrom Service.step (serviceInit 7) acts = some L ∧
      L.outbox = [⟨7, 4, 2, MSG_TYPE_PROTO_LUA, [1]⟩, ⟨7, 3, 9, MSG_TYPE_RESPONSE, [6]⟩] ∧
      L.log.count (.resumed 1 (.answer ⟨4, 7, 2, MSG_TYPE_RESPONSE, [5]⟩)) = 1 :=
    ⟨_, rfl, rfl, rfl⟩
  obtain ⟨L, hL, hout, hcount⟩ := hrun
  exact ⟨acts, L, hL, (responses_correlated 7 acts (by decide)).last hL, hout, hcount⟩

end Lua
end ZServer
