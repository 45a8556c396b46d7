/-
  ZServer.Lua.Soundness

  The tables of a service are sound in every run, with error messages and with sessions
  that repeat; so are those of all services of a system.
-/

import ZServer.Lua.System

namespace ZServer
namespace Lua

open Lib

-- ============================================================================
-- One service
-- ============================================================================

/-- The tables are sound, and the coroutine that is run is in code of the service. -/
structure Fit (L : Service) : Prop where
  sound : Sound L none
  user : ∀ co queued, L.current = .run co queued → (L.coroutines co).pc = .user

section Fit

variable {L L' : Service} {co : Co}

theorem Fit.rest (h : Sound L none) : Fit L.rest :=
  ⟨h.same rfl rfl rfl rfl, by rintro _ _ ⟨⟩⟩

theorem Fit.run (h : Sound L none) (hpc : (L.coroutines co).pc = .user) (queued : Bool) :
    Fit { L with current := .run co queued } :=
  ⟨h.same rfl rfl rfl rfl, by rintro _ _ ⟨⟩; exact hpc⟩

/-- A step that changes no coroutine and no table. -/
theorem Fit.same (h : Fit L) (hcoroutines : L'.coroutines = L.coroutines)
    (hpool : L'.coroutinePool = L.coroutinePool) (hnext : L'.next = L.next)
    (htable : L'.sessionIdCoroutine = L.sessionIdCoroutine) (hcurrent : L'.current = L.current) :
    Fit L' :=
  ⟨h.sound.same hcoroutines hpool hnext htable, fun co queued hrun => by
    rw [hcoroutines]
    exact h.user co queued (hcurrent ▸ hrun)⟩

/-- A coroutine goes on into code of the service, or ends. -/
theorem Sound.goOn (h : Sound L (some co)) :
    Sound (L.goOn co).1 none ∧
      ((L.goOn co).2 = false → ((L.goOn co).1.coroutines co).pc = .user) := by
  rcases goOn_cases L co with ⟨watching, heq⟩ | ⟨-, heq⟩
  · rw [heq]
    refine ⟨(h.goto .user).close.same rfl rfl rfl rfl, fun _ => ?_⟩
    exact congrArg Coroutine.pc (goto_self L co .user)
  · rw [heq]
    exact ⟨h.exit, by rintro ⟨⟩⟩

theorem Fit.dispatchErrorQueue (h : Sound L none) : Fit L.dispatchErrorQueue := by
  unfold Service.dispatchErrorQueue
  split
  · exact Fit.rest h
  · rename_i session errorQueue _
    simp only
    split
    · exact Fit.rest ((h.forget session).same rfl rfl rfl rfl)
    · rename_i co hs
      have htake : Sound ((({ L with errorQueue := errorQueue } : Service).register session
          none).note (.resumed co .failure)) (some co) := (h.take hs).same rfl rfl rfl rfl
      obtain ⟨hgo, huser⟩ := htake.goOn
      split
      · exact Fit.rest hgo
      · rename_i hended
        exact Fit.run hgo (huser (Bool.eq_false_iff.mpr hended)) true

/-- What a coroutine waits for when it yields so. -/
def Cmd.WaitedFor (cmd : Cmd) (c : Coroutine) : Prop :=
  match cmd with
  | .call session => WaitsFor c session
  | .timeout session => WaitsFor c session
  | _ => True

theorem Fit.suspend (h : Sound L (some co)) {cmd : Cmd} (hwaits : cmd.WaitedFor (L.coroutines co)) :
    Fit (L.suspend co cmd) := by
  have hreturn : ∀ {L' : Service}, Sound L' (some co) → Fit (L'.resumeReturn co) := by
    intro L' h'
    have hnote : Sound (L'.note (.resumed co .returned)) (some co) := h'.same rfl rfl rfl rfl
    exact Fit.run (hnote.goto .user).close (by rw [goto_self]) false
  unfold Service.suspend
  split
  · refine Fit.rest ?_
    unfold Service.sendError
    split <;> exact h.close.same rfl rfl rfl rfl
  · exact Fit.dispatchErrorQueue (h.register hwaits)
  · exact Fit.dispatchErrorQueue (h.register hwaits)
  · exact Fit.dispatchErrorQueue (h.close.same rfl rfl rfl rfl)
  · split
    · exact Fit.rest h.close
    · split
      · exact hreturn h
      · split
        · exact Fit.rest h.close
        · exact hreturn (h.same rfl rfl rfl rfl)

theorem Fit.yield (h : Sound L (some co)) {queued : Bool} {cmd : Cmd}
    (hwaits : cmd.WaitedFor (L.coroutines co)) : Fit (L.yield co queued cmd) := by
  unfold Service.yield
  split
  · exact Fit.rest h.close
  · exact Fit.suspend h hwaits

/-- The same for a coroutine that is in the pool already. -/
theorem Fit.exit (h : Sound L (some co)) (queued : Bool) :
    Fit ((L.exit co).yield co queued .exit) := by
  unfold Service.yield Service.suspend
  split
  · exact Fit.rest h.exit
  · exact Fit.dispatchErrorQueue (h.exit.same rfl rfl rfl rfl)

theorem Fit.coCreate (h : Fit L) (hc : Created L body L' co) {L'' : Service}
    (hsound : Sound L'' none) (hcoroutines : L''.coroutines = L'.coroutines)
    (hcurrent : L''.current = L'.current) : Fit L'' := by
  refine ⟨hsound, fun co' queued hrun => ?_⟩
  rw [hcurrent, hc.rest] at hrun
  have hpc := h.user co' queued hrun
  rw [hcoroutines, hc.other]
  · exact hpc
  · rintro rfl
    rcases hc.idle with hidle | ⟨hidle, -⟩ <;> rw [hidle] at hpc <;> cases hpc

theorem Fit.timeout (h : Fit L) (nomore : Int) (session : Nat) (id : Option Nat) :
    Fit (L.timeout nomore session id) := by
  have h' : Fit (L.issue session) := h.same rfl rfl rfl rfl rfl
  unfold Service.timeout
  cases id with
  | none =>
      have hc := h'.sound.coCreate (.timer session 0 nomore)
      exact h'.coCreate hc hc.sound.close rfl rfl
  | some id =>
      have hc := h'.sound.coCreate (.timer session id nomore)
      simp only
      split
      · exact h'.coCreate hc hc.sound.close rfl rfl
      · refine h'.coCreate hc (hc.sound.register ?_) rfl rfl
        rw [hc.start]
        exact Or.inr ⟨⟨id, nomore, rfl⟩, Or.inl rfl⟩

theorem Fit.call (h : Fit L) (hpc : (L.coroutines co).pc = .user) (queued : Bool) (form : CallForm)
    (dest : Addr) (prototype : Nat) (packed : Option Data) (answer : Option Nat) :
    Fit (L.call co queued form dest prototype packed answer) := by
  unfold Service.call
  split
  · exact h
  · split
    · rename_i data session _
      simp only
      split
      · have hwatch : Sound ((((L.cSend ⟨L.handle, dest, session, prototype, data⟩).issue
            session).watch form session dest).note (.called co session)) (some co) := by
          refine (h.sound.run hpc).same ?_ ?_ ?_ ?_ <;> cases form <;> rfl
        refine Fit.yield (hwatch.goto (.yieldCall form session)) ?_
        rw [goto_self]
        exact Or.inl ⟨form, rfl⟩
      · exact h.same rfl rfl rfl rfl rfl
    · exact h

theorem Fit.done (h : Fit L) (hpc : (L.coroutines co).pc = .user) (queued value : Bool) :
    Fit (L.done co queued value) := by
  have hrun := h.sound.run hpc
  unfold Service.done
  split
  · exact Fit.exit hrun queued
  · rename_i session id nomore hbody
    split
    · refine Fit.yield (hrun.goto .yieldTimeout) ?_
      rw [goto_self]
      exact Or.inr ⟨⟨id, nomore, hbody⟩, Or.inr rfl⟩
    · refine Fit.exit ?_ queued
      split
      · exact hrun.same rfl rfl rfl rfl
      · exact hrun

theorem Fit.raise (h : Fit L) (hpc : (L.coroutines co).pc = .user) (queued : Bool) :
    Fit (L.raise co queued) := by
  have hdead : Sound ((L.goto co .dead).note (.died co)) (some co) :=
    ((h.sound.run hpc).goto .dead).same rfl rfl rfl rfl
  exact Fit.yield hdead trivial

theorem Fit.userStep (h : Fit L) {act : Act} (hs : L.userStep act = some L') : Fit L' := by
  unfold Service.userStep at hs
  split at hs
  · cases hs
  · cases hs
    unfold Service.send
    split
    · exact h
    · split
      · exact h
      · exact h.same rfl rfl rfl rfl rfl
  · cases hs
    exact h.timeout _ _ _
  · cases hs
    exact h.same rfl rfl rfl rfl rfl
  · cases hs
    exact Fit.rest h.sound
  · rename_i hrun
    cases hs
    exact h.call (h.user _ _ hrun) _ _ _ _ _ _
  · rename_i hrun
    cases hs
    exact Fit.yield ((h.sound.run (h.user _ _ hrun)).goto .yieldReturn) trivial
  · rename_i hrun
    cases hs
    exact h.done (h.user _ _ hrun) _ _
  · rename_i hrun
    cases hs
    exact h.raise (h.user _ _ hrun) _
  · cases hs

theorem Fit.dispatchResponse (h : Fit L) (msg : Message) : Fit (L.dispatchResponse msg) := by
  unfold Service.dispatchResponse
  split
  · exact h
  · rename_i co hs
    have htake : Sound ((L.register msg.session none).note (.resumed co (.answer msg))) (some co) :=
      (h.sound.take hs).same rfl rfl rfl rfl
    rcases goOn_cases ((L.register msg.session none).note (.resumed co (.answer msg))) co with
      ⟨watching, heq⟩ | ⟨-, heq⟩
    · rw [heq]
      refine ⟨(htake.goto .user).close.same rfl rfl rfl rfl, ?_⟩
      rintro _ _ ⟨⟩
      exact congrArg Coroutine.pc (goto_self _ co .user)
    · rw [heq]
      exact Fit.dispatchErrorQueue (htake.exit.same rfl rfl rfl rfl)

theorem Fit.dispatchRequest (h : Fit L) (cls : Class) (msg : Message) (unpacked : Bool)
    (order : List Nat) : Fit (L.dispatchRequest cls msg unpacked order) := by
  have hc := h.sound.coCreate (.handler msg.source msg.session)
  unfold Service.dispatchRequest
  simp only
  generalize (L.coCreate (.handler msg.source msg.session)).1 = L₁ at hc ⊢
  generalize (L.coCreate (.handler msg.source msg.session)).2 = co at hc ⊢
  have hserve : Sound (L₁.serve co msg) (some co) := hc.sound.same rfl rfl rfl rfl
  split
  · have herror : Sound ((L₁.serve co msg).errorDispatch msg.source msg.session order) (some co) := by
      unfold Service.errorDispatch
      split
      · exact hserve.same rfl rfl rfl rfl
      · split <;> exact hserve.same rfl rfl rfl rfl
    exact Fit.dispatchErrorQueue (herror.exit.same rfl rfl rfl rfl)
  · split
    · exact h.coCreate hc hserve.close rfl rfl
    · exact Fit.run (hserve.goto .user).close (by rw [goto_self]) false

theorem Fit.step (h : Fit L) {act : Act} (hs : L.step act = some L') : Fit L' := by
  rcases Service.step_eq hs with ⟨msg, unpacked, order, -, rfl⟩ | hs
  · unfold Service.rawDispatchMessage
    split
    · exact h.dispatchResponse msg
    · split
      · exact h
      · exact h.dispatchRequest _ _ _ _
  · exact h.userStep hs

end Fit

-- ============================================================================
-- Systems
-- ============================================================================

/-- The tables of all services are sound, and their messages are on their way. -/
def AllFit (S : System) : Prop :=
  ∀ A, Fit (S.services A) ∧ (S.services A).outbox = []

theorem AllFit.post {S : System} (h : AllFit S) {addr : Addr} {L : Service} (hL : Fit L) :
    AllFit (S.post addr L) := by
  intro A
  show Fit (Function.update S.services addr { L with outbox := [] } A) ∧
    (Function.update S.services addr { L with outbox := [] } A).outbox = []
  by_cases heq : A = addr
  · rw [heq, Function.update_self]
    exact ⟨hL.same rfl rfl rfl rfl rfl, rfl⟩
  · rw [Function.update_of_ne heq]
    exact h A

theorem AllFit.step {S S' : System} (h : AllFit S) {act : SystemAct} (hs : S.step act = some S') :
    AllFit S' := by
  cases act with
  | launch addr =>
      simp only [System.step] at hs
      split at hs <;> cases hs
      exact h
  | exit addr =>
      simp only [System.step] at hs
      split at hs <;> cases hs
      exact h
  | run addr act =>
      simp only [System.step] at hs
      split at hs
      · obtain ⟨L, hL, rfl⟩ := Option.map_eq_some_iff.mp hs
        exact h.post ((h addr).1.step hL)
      · cases hs
  | deliver i unpacked order =>
      simp only [System.step] at hs
      split at hs
      · cases hs
      · rename_i msg _
        split at hs
        · obtain ⟨L, hL, rfl⟩ := Option.map_eq_some_iff.mp hs
          exact AllFit.post (S := { S with net := S.net.eraseIdx i }) h ((h msg.dest).1.step hL)
        · cases hs
  | inject msg =>
      simp only [System.step] at hs
      split at hs <;> cases hs
      exact h

theorem reachable_fit {S : System} (h : Reachable System.step systemInit S) : AllFit S :=
  h.invariant (J := AllFit)
    (fun A => ⟨⟨serviceInit_sound A, by rintro _ _ ⟨⟩⟩, rfl⟩) fun _ _ _ hS hs => hS.step hs

end Lua
end ZServer
