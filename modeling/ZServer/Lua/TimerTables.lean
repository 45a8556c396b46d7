/-
  ZServer.Lua.TimerTables

  What a step of a service does to the coroutines of its timers.  Most steps leave them
  as they are, and so the entries of their sessions in `session_id_coroutine`
  (`Still`): a coroutine that `dispatch_error_queue` resumes waits in `z.call`.  The
  others move one coroutine (`Moved`).
-/

import ZServer.Lua.Ticks

namespace ZServer
namespace Lua

open Lib

-- ============================================================================
-- Still
-- ============================================================================

/-- No error message is for the session of a timer. -/
def Apart (L : Service) : Prop :=
  ∀ co v, L.timers co = some v → L.watchingSession v.session = none ∧ v.session ∉ L.errorQueue

/-- The coroutines of the timers are where they were, and so are the entries of their
    sessions. -/
structure Still (L L' : Service) : Prop where
  timers : L'.timers = L.timers
  table : ∀ co v, L.timers co = some v →
    L'.sessionIdCoroutine v.session = L.sessionIdCoroutine v.session
  apart : Apart L → Apart L'

section Still

variable {L L₁ L₂ : Service} {co : Co}

theorem timers_eq (hcoroutines : L₁.coroutines = L.coroutines) : L₁.timers = L.timers := by
  funext k
  unfold Service.timers
  rw [hcoroutines]

theorem Still.trans (h₁ : Still L L₁) (h₂ : Still L₁ L₂) : Still L L₂ where
  timers := h₂.timers.trans h₁.timers
  table := fun k v hv => (h₂.table k v (h₁.timers ▸ hv)).trans (h₁.table k v hv)
  apart := fun h => h₂.apart (h₁.apart h)

theorem Still.same (hcoroutines : L₁.coroutines = L.coroutines)
    (htable : L₁.sessionIdCoroutine = L.sessionIdCoroutine)
    (hwatching : L₁.watchingSession = L.watchingSession) (hqueue : L₁.errorQueue = L.errorQueue) :
    Still L L₁ where
  timers := timers_eq hcoroutines
  table := fun k v _ => by rw [htable]
  apart := fun h k v hv => by
    rw [hwatching, hqueue]
    exact h k v (timers_eq hcoroutines ▸ hv)

theorem Still.refl (L : Service) : Still L L := .same rfl rfl rfl rfl

theorem Still.note (L : Service) (e : Event) : Still L (L.note e) := .same rfl rfl rfl rfl

/-- A coroutine goes to another place. -/
theorem goto_timers (L : Service) (co : Co) (pc : CoPc) :
    (L.goto co pc).timers = Function.update L.timers co (Coroutine.timer ⟨(L.coroutines co).body, pc⟩) := by
  funext k
  unfold Service.timers
  by_cases hk : k = co
  · rw [hk, goto_self, Function.update_self]
  · rw [goto_other hk, Function.update_of_ne hk]

/-- The timer does not see where a coroutine that is busy goes. -/
theorem Still.goto {pc : CoPc}
    (hsame : Coroutine.timer ⟨(L.coroutines co).body, pc⟩ = (L.coroutines co).timer) :
    Still L (L.goto co pc) := by
  have htimers : (L.goto co pc).timers = L.timers := by
    rw [goto_timers, hsame]
    exact Function.update_eq_self co L.timers
  exact ⟨htimers, fun _ _ _ => rfl, fun h k v hv => h k v (htimers ▸ hv)⟩

/-- The places of a coroutine that is busy. -/
def CoPc.isBusy (pc : CoPc) : Prop :=
  pc = .user ∨ (∃ form session, pc = .yieldCall form session) ∨ pc = .yieldReturn

theorem timer_busy {c : Coroutine} {pc : CoPc} (hpc : c.pc.isBusy) (hpc' : pc.isBusy) :
    Coroutine.timer ⟨c.body, pc⟩ = c.timer := by
  obtain ⟨body, pc₀⟩ := c
  rcases hpc with rfl | ⟨form, session, rfl⟩ | rfl <;>
    rcases hpc' with rfl | ⟨form', session', rfl⟩ | rfl <;> cases body <;> rfl

theorem timer_some {c : Coroutine} {v : TimerView} (h : c.timer = some v) :
    c.body = .timer v.session v.id v.nomore ∧
      (v.stage = .fresh ∧ c.pc = .start ∨ v.stage = .waiting ∧ c.pc = .yieldTimeout ∨
        v.stage = .busy ∧ c.pc.isBusy) := by
  obtain ⟨body, pc⟩ := c
  cases body with
  | handler source session => cases h
  | timer session id nomore =>
      cases pc with
      | start =>
          cases h
          exact ⟨rfl, Or.inl ⟨rfl, rfl⟩⟩
      | yieldTimeout =>
          cases h
          exact ⟨rfl, Or.inr (Or.inl ⟨rfl, rfl⟩)⟩
      | user =>
          cases h
          exact ⟨rfl, Or.inr (Or.inr ⟨rfl, Or.inl rfl⟩)⟩
      | yieldCall form session' =>
          cases h
          exact ⟨rfl, Or.inr (Or.inr ⟨rfl, Or.inr (Or.inl ⟨form, session', rfl⟩)⟩)⟩
      | yieldReturn =>
          cases h
          exact ⟨rfl, Or.inr (Or.inr ⟨rfl, Or.inr (Or.inr rfl)⟩)⟩
      | _ => cases h

/-- The session of another coroutine than a timer's is registered, or not. -/
theorem Still.register {session : Nat} (hnew : ∀ k v, L.timers k = some v → v.session ≠ session)
    (x : Option Co) : Still L (L.register session x) where
  timers := rfl
  table := fun k v hv => Function.update_of_ne (hnew k v hv) _ _
  apart := fun h => h

/-- A coroutine that waits in a call goes on. -/
theorem Still.goOn (co : Co) {form : CallForm} {session : Nat}
    (hpc : (L.coroutines co).pc = .yieldCall form session) :
    Still L (L.goOn co).1 ∧ (L.goOn co).2 = false := by
  have hgoto : Still L (L.goto co .user) :=
    .goto (timer_busy (Or.inr (Or.inl ⟨form, session, hpc⟩)) (Or.inl rfl))
  unfold Service.goOn
  rw [hpc]
  cases form with
  | call =>
      refine ⟨hgoto.trans ⟨rfl, fun _ _ _ => rfl, fun h k v hv => ⟨?_, (h k v hv).2⟩⟩, rfl⟩
      show Function.update L.watchingSession session none v.session = none
      by_cases hs : v.session = session
      · rw [hs, Function.update_self]
      · rw [Function.update_of_ne hs]
        exact (h k v hv).1
  | kcall => exact ⟨hgoto, rfl⟩

/-- What is registered for a session that is no timer's waits in a call. -/
theorem Sound.waits_call (h : Sound L none) {session : Nat}
    (hs : L.sessionIdCoroutine session = some co)
    (hnew : ∀ k v, L.timers k = some v → v.session ≠ session) :
    ∃ form, (L.coroutines co).pc = .yieldCall form session := by
  rcases h.waits session co hs with hcall | ⟨⟨id, nomore, hbody⟩, hpc⟩
  · exact hcall
  · have htimer : ∃ v, L.timers co = some v ∧ v.session = session := by
      unfold Service.timers Coroutine.timer
      rw [hbody]
      rcases hpc with hpc | hpc <;> rw [hpc] <;> exact ⟨_, rfl, rfl⟩
    obtain ⟨v, hv, hsession⟩ := htimer
    exact absurd hsession (hnew co v hv)

theorem Still.dispatchErrorQueue (h : Sound L none) (hapart : Apart L) :
    Still L L.dispatchErrorQueue := by
  unfold Service.dispatchErrorQueue
  split
  · exact .same rfl rfl rfl rfl
  · rename_i session errorQueue hqueue
    have hnew : ∀ k v, L.timers k = some v → v.session ≠ session := by
      rintro k v hv rfl
      refine (hapart k v hv).2 ?_
      rw [hqueue]
      exact List.mem_cons_self
    have hpop : Still L { L with errorQueue := errorQueue } :=
      ⟨rfl, fun _ _ _ => rfl, fun h k v hv => ⟨(h k v hv).1, fun hmem => (h k v hv).2 (by
        rw [hqueue]
        exact List.mem_cons_of_mem _ hmem)⟩⟩
    have hforget : Still L (({ L with errorQueue := errorQueue } : Service).register session none) :=
      hpop.trans (Still.register (L := { L with errorQueue := errorQueue }) hnew none)
    simp only
    split
    · exact hforget.trans (.same rfl rfl rfl rfl)
    · rename_i co hs
      obtain ⟨form, hpc⟩ := h.waits_call hs hnew
      obtain ⟨hgo, hended⟩ := Still.goOn (L := (({ L with errorQueue := errorQueue } :
        Service).register session none).note (.resumed co .failure)) co hpc
      have hall := (hforget.trans (.note _ _)).trans hgo
      rw [if_neg (by rw [hended]; exact Bool.false_ne_true)]
      exact hall.trans (.same rfl rfl rfl rfl)

end Still

-- ============================================================================
-- Moved
-- ============================================================================

/-- One coroutine of a timer comes to `x`, and `table` has the entries of the sessions. -/
structure Moved (L L' : Service) (co : Co) (x : Option TimerView) (table : Nat → Option Co) :
    Prop where
  timers : L'.timers = Function.update L.timers co x
  table : ∀ k v, L'.timers k = some v → L'.sessionIdCoroutine v.session = table v.session
  apart : Apart L'

section Moved

variable {L L₁ L₂ : Service} {co : Co} {x : Option TimerView} {table : Nat → Option Co}

theorem Moved.then (h : Moved L L₁ co x table) (h₁ : Still L₁ L₂) : Moved L L₂ co x table where
  timers := h₁.timers.trans h.timers
  table := fun k v hv => by
    rw [h₁.timers] at hv
    exact (h₁.table k v hv).trans (h.table k v hv)
  apart := h₁.apart h.apart

/-- The timers are where they were. -/
theorem Moved.still (h : Moved L L₁ co (L.timers co) L.sessionIdCoroutine) : Still L L₁ := by
  have htimers := h.timers
  rw [Function.update_eq_self] at htimers
  exact ⟨htimers, fun k v hv => h.table k v (htimers ▸ hv), fun _ => h.apart⟩

/-- The first step of a move. -/
theorem Moved.start (h : Apart L) (htimers : L₁.timers = Function.update L.timers co x)
    (htable : L₁.sessionIdCoroutine = table) (hwatching : L₁.watchingSession = L.watchingSession)
    (hqueue : L₁.errorQueue = L.errorQueue)
    (hx : ∀ v, x = some v → L.watchingSession v.session = none ∧ v.session ∉ L.errorQueue) :
    Moved L L₁ co x table := by
  refine ⟨htimers, fun k v _ => by rw [htable], fun k v hv => ?_⟩
  rw [hwatching, hqueue]
  rw [htimers] at hv
  by_cases hk : k = co
  · rw [hk, Function.update_self] at hv
    exact hx v hv
  · rw [Function.update_of_ne hk] at hv
    exact h k v hv

/-- A coroutine goes to the pool. -/
theorem Moved.exit (h : Sound L (some co)) (hapart : Apart L) (queued : Bool) :
    Moved L ((L.exit co).yield co queued .exit) co none L.sessionIdCoroutine := by
  have htimers : (L.exit co).timers = Function.update L.timers co none := by
    have hnone : Coroutine.timer ⟨(L.coroutines co).body, .yieldExit⟩ = none := by
      unfold Coroutine.timer
      cases (L.coroutines co).body <;> rfl
    rw [← hnone]
    exact goto_timers L co .yieldExit
  have hexit : Moved L (L.exit co) co none L.sessionIdCoroutine :=
    .start hapart htimers rfl rfl rfl (by rintro _ ⟨⟩)
  unfold Service.yield
  split
  · exact hexit.then (.same rfl rfl rfl rfl)
  · have hunserve : Moved L ((L.exit co).unserve co) co none L.sessionIdCoroutine :=
      hexit.then (.same rfl rfl rfl rfl)
    exact hunserve.then (.dispatchErrorQueue (h.exit.same rfl rfl rfl rfl) hunserve.apart)

/-- A coroutine dies. -/
theorem Moved.raise (co : Co) (hapart : Apart L) (queued : Bool) :
    Moved L (L.raise co queued) co none L.sessionIdCoroutine := by
  have hnone : Coroutine.timer ⟨(L.coroutines co).body, .dead⟩ = none := by
    unfold Coroutine.timer
    cases (L.coroutines co).body <;> rfl
  have hdead : Moved L ((L.goto co .dead).note (.died co)) co none L.sessionIdCoroutine := by
    refine .start hapart ?_ rfl rfl rfl (by rintro _ ⟨⟩)
    rw [← hnone]
    exact goto_timers L co .dead
  have hsend : ∀ L' : Service, Still L' (L'.sendError co) := fun L' => by
    unfold Service.sendError
    split
    · exact .same rfl rfl rfl rfl
    · exact .refl L'
  unfold Service.raise Service.yield
  split
  · exact hdead.then (.same rfl rfl rfl rfl)
  · have hsent := hdead.then (hsend _)
    exact hsent.then (.same rfl rfl rfl rfl)

/-- The function of a timer returns a true value, and its coroutine waits. -/
theorem Moved.wait (h : Sound L (some co)) (hapart : Apart L) {session id : Nat} {nomore : Int}
    (hbody : (L.coroutines co).body = .timer session id nomore)
    (hsession : L.watchingSession session = none ∧ session ∉ L.errorQueue) (queued : Bool) :
    Moved L ((L.goto co .yieldTimeout).yield co queued (.timeout session)) co
      (some ⟨session, id, nomore, .waiting⟩)
      (if queued then L.sessionIdCoroutine
        else Function.update L.sessionIdCoroutine session (some co)) := by
  have htimers : (L.goto co .yieldTimeout).timers =
      Function.update L.timers co (some ⟨session, id, nomore, .waiting⟩) := by
    rw [goto_timers, hbody]
    rfl
  have hx : ∀ v, some (⟨session, id, nomore, .waiting⟩ : TimerView) = some v →
      L.watchingSession v.session = none ∧ v.session ∉ L.errorQueue := by
    rintro v ⟨⟩
    exact hsession
  unfold Service.yield
  cases queued with
  | true =>
      rw [if_pos rfl, if_pos rfl]
      have hgoto : Moved L (L.goto co .yieldTimeout) co _ L.sessionIdCoroutine :=
        .start hapart htimers rfl rfl rfl hx
      exact hgoto.then (.same rfl rfl rfl rfl)
  | false =>
      rw [if_neg Bool.false_ne_true, if_neg Bool.false_ne_true]
      have hregister : Moved L ((L.goto co .yieldTimeout).register session (some co)) co _ _ :=
        .start hapart htimers rfl rfl rfl hx
      have hsound : Sound ((L.goto co .yieldTimeout).register session (some co)) none := by
        refine (h.goto .yieldTimeout).register ?_
        rw [goto_self]
        exact Or.inr ⟨⟨id, nomore, hbody⟩, Or.inr rfl⟩
      exact hregister.then (.dispatchErrorQueue hsound hregister.apart)

/-- `co_create` takes up a coroutine that is no timer's. -/
theorem Created.timers {body : Body} (hc : Created L body L₁ co) :
    L.timers co = none ∧
      L₁.timers = Function.update L.timers co (Coroutine.timer ⟨body, .start⟩) := by
  constructor
  · unfold Service.timers Coroutine.timer
    rcases hc.idle with hpc | ⟨hpc, -⟩ <;> rw [hpc] <;> cases (L.coroutines co).body <;> rfl
  · funext k
    unfold Service.timers
    rw [hc.coroutines]
    by_cases hk : k = co
    · rw [hk, Function.update_self, Function.update_self]
    · rw [Function.update_of_ne hk, Function.update_of_ne hk]

theorem Created.moved {body : Body} (hapart : Apart L) (hc : Created L body L₁ co)
    (hx : ∀ v, Coroutine.timer ⟨body, .start⟩ = some v →
      L.watchingSession v.session = none ∧ v.session ∉ L.errorQueue) :
    Moved L L₁ co (Coroutine.timer ⟨body, .start⟩) L.sessionIdCoroutine := by
  refine .start hapart hc.timers.2 ?_ ?_ ?_ hx <;> rw [hc.rest]

/-- A coroutine is created for a new timer. -/
theorem Moved.timeout (h : Sound L none) (hapart : Apart L) (nomore : Int) {session : Nat}
    (id : Option Nat) (hfree : L.sessionIdCoroutine session = none)
    (hsession : L.watchingSession session = none ∧ session ∉ L.errorQueue) :
    ∃ co, L.timers co = none ∧ Moved L (L.timeout nomore session id) co
      (some ⟨session, id.getD 0, nomore, .fresh⟩)
      (match id with
        | none => L.sessionIdCoroutine
        | some _ => Function.update L.sessionIdCoroutine session (some co)) := by
  have hissue : Sound (L.issue session) none := h.same rfl rfl rfl rfl
  have hx : ∀ id' v, Coroutine.timer ⟨.timer session id' nomore, .start⟩ = some v →
      L.watchingSession v.session = none ∧ v.session ∉ L.errorQueue := by
    rintro id' v ⟨⟩
    exact hsession
  have hcreated := fun id' => hissue.coCreate (.timer session id' nomore)
  have hmoved : ∀ id', Moved L ((L.issue session).coCreate (.timer session id' nomore)).1
      ((L.issue session).coCreate (.timer session id' nomore)).2
      (some ⟨session, id', nomore, .fresh⟩) L.sessionIdCoroutine := fun id' => by
    have hissued : Apart (L.issue session) := hapart
    obtain ⟨htimers, htable, hapart'⟩ := (hcreated id').moved hissued (hx id')
    exact ⟨htimers, htable, hapart'⟩
  unfold Service.timeout
  cases id with
  | none => exact ⟨_, (hcreated 0).timers.1, hmoved 0⟩
  | some id =>
      refine ⟨_, (hcreated id).timers.1, ?_⟩
      have hnone : ((L.issue session).coCreate (.timer session id nomore)).1.sessionIdCoroutine =
          L.sessionIdCoroutine := by
        rw [(hcreated id).rest]
        rfl
      simp only
      rw [hnone, hfree, if_neg (by rintro ⟨⟩)]
      obtain ⟨htimers, -, hapart'⟩ := hmoved id
      refine ⟨htimers, fun k v _ => ?_, hapart'⟩
      show Function.update _ session _ v.session = _
      rw [hnone]

/-- The coroutine of a timer gets its tick. -/
theorem Moved.tick (hapart : Apart L) (msg : Message) {v : TimerView} (hv : L.timers co = some v)
    (hstage : v.stage ≠ .busy)
    (hs : L.sessionIdCoroutine msg.session = some co) (honce : v.nomore = 0 → v.stage = .fresh) :
    Moved L (L.dispatchResponse msg) co (some { v with stage := .busy })
      (Function.update L.sessionIdCoroutine msg.session none) := by
  obtain ⟨hbody, hcases⟩ := timer_some hv
  -- it goes on into the function
  have hgo : ∀ L' : Service, L'.coroutines = L.coroutines → L'.goOn co = (L'.goto co .user, false) := by
    intro L' hcoroutines
    unfold Service.goOn
    rw [hcoroutines, hbody]
    rcases hcases with ⟨-, hpc⟩ | ⟨hwaiting, hpc⟩ | ⟨hbusy, -⟩
    · rw [hpc]
    · rw [hpc]
      have hmore : v.nomore ≠ 0 := fun hzero => by
        rw [honce hzero] at hwaiting
        cases hwaiting
      simp only
      rw [if_neg hmore]
    · exact absurd hbusy hstage
  unfold Service.dispatchResponse
  rw [hs]
  simp only
  rw [hgo ((L.register msg.session none).note (.resumed co (.answer msg))) rfl]
  refine .start hapart ?_ rfl rfl rfl ?_
  · show Service.timers (Service.goto _ co .user) = _
    rw [goto_timers]
    show Function.update L.timers co (Coroutine.timer ⟨(L.coroutines co).body, .user⟩) = _
    rw [hbody]
    rfl
  · rintro _ ⟨⟩
    exact hapart co v hv

end Moved

-- ============================================================================
-- Steps that move no timer
-- ============================================================================

section StillSteps

variable {L L' : Service} {co : Co}

theorem Still.send (dest : Addr) (prototype : Nat) (packed : Option Data) :
    Still L (L.send dest prototype packed) := by
  unfold Service.send
  split
  · exact .refl L
  · split
    · exact .refl L
    · exact .same rfl rfl rfl rfl

/-- `z.call` or `z.kcall`, with a session that is no timer's. -/
theorem Still.call (h : Fit L) (hpc : (L.coroutines co).pc = .user) (hapart : Apart L) (queued : Bool)
    (form : CallForm) (dest : Addr) (prototype : Nat) (packed : Option Data) (answer : Option Nat)
    (hnew : ∀ session ∈ answer, ∀ k v, L.timers k = some v → v.session ≠ session) :
    Still L (L.call co queued form dest prototype packed answer) := by
  unfold Service.call
  split
  · exact .refl L
  · split
    · rename_i data session _
      have hnew := hnew session rfl
      simp only
      split
      · have hwatch : Still L ((((L.cSend ⟨L.handle, dest, session, prototype, data⟩).issue
            session).watch form session dest).note (.called co session)) := by
          refine ⟨timers_eq (watch_same _ form session dest).1, fun k v _ => ?_, fun h k v hv => ?_⟩
          · exact congrFun (watch_same _ form session dest).2.2.1 v.session
          · cases form with
            | call => exact ⟨(Function.update_of_ne (hnew k v hv) _ _).trans (h k v hv).1, (h k v hv).2⟩
            | kcall => exact h k v hv
        have hsound : Sound ((((L.cSend ⟨L.handle, dest, session, prototype, data⟩).issue
            session).watch form session dest).note (.called co session)) (some co) := by
          refine (h.sound.run hpc).same ?_ ?_ ?_ ?_ <;> cases form <;> rfl
        have hpc' : (((((L.cSend ⟨L.handle, dest, session, prototype, data⟩).issue
            session).watch form session dest).note (.called co session)).coroutines co).pc =
            .user := by
          rw [← hpc]
          exact congrArg (fun c => (c co).pc) (watch_same _ form session dest).1
        generalize (((L.cSend ⟨L.handle, dest, session, prototype, data⟩).issue session).watch form
          session dest).note (.called co session) = L₁ at hwatch hsound hpc' ⊢
        have hgoto : Still L₁ (L₁.goto co (.yieldCall form session)) := by
          refine .goto (timer_busy (Or.inl hpc') (Or.inr (Or.inl ⟨form, session, rfl⟩)))
        have hcalled := hwatch.trans hgoto
        unfold Service.yield
        split
        · exact hcalled.trans (.same rfl rfl rfl rfl)
        · have hregister := hcalled.trans (Still.register (fun k v hv => hnew k v
            (hcalled.timers ▸ hv)) (some co))
          refine hregister.trans (.dispatchErrorQueue ?_ (hregister.apart hapart))
          refine (hsound.goto (.yieldCall form session)).register ?_
          rw [goto_self]
          exact Or.inl ⟨form, rfl⟩
      · exact .same rfl rfl rfl rfl
    · exact .refl L

theorem Still.ret (hpc : (L.coroutines co).pc = .user) (queued : Bool) (packed : Option Data) :
    Still L ((L.goto co .yieldReturn).yield co queued (.ret packed)) := by
  have hgoto : Still L (L.goto co .yieldReturn) :=
    .goto (timer_busy (Or.inl hpc) (Or.inr (Or.inr rfl)))
  have hreturn : ∀ L' : Service, (L'.coroutines co).pc = .yieldReturn →
      Still L' (L'.resumeReturn co) := by
    intro L' hpc'
    have hnote : Still L' (L'.note (.resumed co .returned)) := .note L' _
    have huser : Still (L'.note (.resumed co .returned)) ((L'.note (.resumed co .returned)).goto co
        .user) := .goto (timer_busy (Or.inr (Or.inr hpc')) (Or.inl rfl))
    exact (hnote.trans huser).trans (.same rfl rfl rfl rfl)
  have hpc' : ((L.goto co .yieldReturn).coroutines co).pc = .yieldReturn := by rw [goto_self]
  unfold Service.yield Service.suspend
  split
  · exact hgoto.trans (.same rfl rfl rfl rfl)
  · simp only
    split
    · exact hgoto.trans (.same rfl rfl rfl rfl)
    · split
      · exact hgoto.trans (hreturn _ hpc')
      · split
        · exact hgoto.trans (.same rfl rfl rfl rfl)
        · rename_i session _ _ _ data _
          have hreply : Still (L.goto co .yieldReturn) ((L.goto co .yieldReturn).reply co session
              data) := .same rfl rfl rfl rfl
          exact (hgoto.trans hreply).trans (hreturn _ hpc')

/-- An error message is not for the session of a timer. -/
theorem Still.errorDispatch {errorFrom : Addr} {errorSession : Nat} {order : List Nat}
    (horder : ∀ session ∈ order, L.watchingSession session ≠ none) :
    Still L (L.errorDispatch errorFrom errorSession order) := by
  have hqueue : ∀ sessions : List Nat, (∀ session ∈ sessions, L.watchingSession session ≠ none) →
      ∀ {L' : Service}, L'.coroutines = L.coroutines →
        L'.sessionIdCoroutine = L.sessionIdCoroutine → L'.watchingSession = L.watchingSession →
        L'.errorQueue = L.errorQueue ++ sessions → Still L L' := by
    intro sessions hwatched L' hcoroutines htable hwatching hqueue
    refine ⟨timers_eq hcoroutines, fun k v _ => by rw [htable], fun h k v hv => ?_⟩
    rw [hwatching, hqueue]
    have hv := h k v (timers_eq hcoroutines ▸ hv)
    refine ⟨hv.1, fun hmem => ?_⟩
    rcases List.mem_append.mp hmem with hmem | hmem
    · exact hv.2 hmem
    · exact hwatched v.session hmem hv.1
  unfold Service.errorDispatch
  split
  · exact hqueue order horder rfl rfl rfl rfl
  · split
    · rename_i hsome
      refine hqueue [errorSession] (fun session hmem => ?_) rfl rfl rfl rfl
      rw [List.mem_singleton.mp hmem]
      exact Option.isSome_iff_ne_none.mp hsome
    · exact .refl L

/-- A message that is no tick. -/
theorem Still.message (h : Fit L) (hapart : Apart L) {msg : Message} (unpacked : Bool)
    {order : List Nat}
    (hresponse : msg.prototype = MSG_TYPE_RESPONSE → ∀ k v, L.timers k = some v →
      v.session ≠ msg.session)
    (horder : msg.prototype = MSG_TYPE_PROTO_ERROR → order.Perm (L.watched msg.source)) :
    Still L (L.rawDispatchMessage msg unpacked order) := by
  unfold Service.rawDispatchMessage
  split
  · rename_i hproto
    have hnew := hresponse hproto
    unfold Service.dispatchResponse
    split
    · exact .refl L
    · rename_i co hs
      obtain ⟨form, hpc⟩ := h.sound.waits_call hs hnew
      obtain ⟨hgo, hended⟩ := Still.goOn (L := (L.register msg.session none).note
        (.resumed co (.answer msg))) co hpc
      have hall := ((Still.register hnew none).trans (.note _ _)).trans hgo
      simp only
      rw [if_neg (by rw [hended]; exact Bool.false_ne_true)]
      exact hall.trans (.same rfl rfl rfl rfl)
  · split
    · exact .refl L
    · rename_i cls hcls
      have hc := h.sound.coCreate (.handler msg.source msg.session)
      have hnone : Coroutine.timer ⟨.handler msg.source msg.session, .start⟩ = none := rfl
      have hcreated := hc.moved hapart (by rintro _ ⟨⟩)
      have hwatching : (L.coCreate (.handler msg.source msg.session)).1.watchingSession =
          L.watchingSession := by rw [hc.rest]
      unfold Service.dispatchRequest
      simp only
      generalize (L.coCreate (.handler msg.source msg.session)).1 = L₁ at hc hcreated hwatching ⊢
      generalize (L.coCreate (.handler msg.source msg.session)).2 = co at hc hcreated ⊢
      rw [hnone, ← hc.timers.1] at hcreated
      have hstill : Still L (L₁.serve co msg) := hcreated.still.trans (.same rfl rfl rfl rfl)
      have hbody : ((L₁.serve co msg).coroutines co).body = .handler msg.source msg.session :=
        congrArg Coroutine.body hc.start
      split
      · rename_i hdispatch
        have hproto : msg.prototype = MSG_TYPE_PROTO_ERROR := by
          by_contra hne
          rw [proto_dispatch hcls hne] at hdispatch
          cases hdispatch
        have herror : Still (L₁.serve co msg)
            ((L₁.serve co msg).errorDispatch msg.source msg.session order) := by
          refine Still.errorDispatch fun session hmem => ?_
          have hwatched := List.mem_filter.mp ((horder hproto).mem_iff.mp hmem)
          show L₁.watchingSession session ≠ none
          rw [hwatching, of_decide_eq_true hwatched.2]
          rintro ⟨⟩
        have hall := hstill.trans herror
        have hsound : Sound ((L₁.serve co msg).errorDispatch msg.source msg.session order)
            (some co) := by
          have hserve : Sound (L₁.serve co msg) (some co) := hc.sound.same rfl rfl rfl rfl
          unfold Service.errorDispatch
          split
          · exact hserve.same rfl rfl rfl rfl
          · split <;> exact hserve.same rfl rfl rfl rfl
        have hexit := Moved.exit hsound (hall.apart hapart) false
        rw [← hc.timers.1, ← hall.timers] at hexit
        exact hall.trans hexit.still
      · split
        · exact hstill
        · have hgoto : Still (L₁.serve co msg) ((L₁.serve co msg).goto co .user) := by
            refine .goto ?_
            unfold Coroutine.timer
            rw [hbody]
          exact (hstill.trans hgoto).trans (.same rfl rfl rfl rfl)

end StillSteps

end Lua
end ZServer
