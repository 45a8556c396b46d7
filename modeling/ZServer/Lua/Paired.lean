/-
  ZServer.Lua.Paired

  The timers of a service stay paired with those of the timer thread, in every run whose
  steps meet `Clocked.Regular`.
-/

import ZServer.Lua.Pairing

namespace ZServer
namespace Lua

open Lib
open Timer (Timers TimerPc TimerChoice Tick Steady timerInit)

-- ============================================================================
-- The service
-- ============================================================================

section Service

variable {ι : Type} [DecidableEq ι] {handle : Addr} {loop own : ι}
  {P P' : Clocked ι} {L : Service} {act : Act} {full : Bool}

omit [DecidableEq ι] in
theorem coming_iff {s : Nat} :
    P.Coming handle s ↔ s ∈ P.ticks ∨ ∃ p, P.timers.shared.Due handle s p :=
  or_congr_right (exists_congr fun _ => and_assoc.symm)

omit [DecidableEq ι] in
theorem possible_iff {s : Nat} :
    P.Possible handle s ↔ s ∈ P.ticks ∨ ∃ p, P.timers.shared.Armed handle s p := Iff.rfl

/-- What holds in every state of a run whose steps meet the condition. -/
structure ClockedInv (handle : Addr) (loop own : ι) (P : Clocked ι) : Prop where
  outside : Outside handle loop own P.timers
  few : P.timers.shared.created.length < 2 ^ 31
  fit : Fit P.service
  apart : Apart P.service
  found : P.missed = []
  agree : Agree handle P.service P.timers.shared P.ticks
  flags : ∀ co v, P.service.timers co = some v → v.nomore = 0 ∨ v.nomore = 1

/-- A coroutine goes on as the timer that it is, or as a new one. -/
theorem ClockedInv.flags_moved (h : ClockedInv handle loop own P) {co : Co} {x : Option TimerView}
    {table : Nat → Option Co} (hmoved : Moved P.service L co x table)
    (hx : ∀ v, x = some v → v.nomore = 0 ∨ v.nomore = 1) :
    ∀ k v, L.timers k = some v → v.nomore = 0 ∨ v.nomore = 1 := by
  intro k v hv
  rcases hmoved.cases hv with ⟨-, hv⟩ | ⟨-, hv⟩
  · exact hx v hv
  · exact h.flags k v hv

/-- Code of the service that asks `timer.c` for nothing, and moves no timer. -/
theorem ClockedInv.still (h : ClockedInv handle loop own P) (hfit : Fit L)
    (hstill : Still P.service L) : ClockedInv handle loop own (P.post handle L P.timers) where
  outside := h.outside
  few := h.few
  fit := hfit
  apart := hstill.apart h.apart
  found := h.found
  agree := by
    rw [post_ticks_nil rfl]
    exact h.agree.still h.fit.sound hstill hfit.sound
  flags := fun co v hv => h.flags co v (hstill.timers ▸ hv)

/-- The timer of the coroutine that runs. -/
theorem ClockedInv.running (h : ClockedInv handle loop own P) {co : Co} {queued : Bool}
    (hrun : P.service.current = .run co queued) :
    (P.service.coroutines co).pc = .user ∧ P.service.running =
      (P.service.timers co).map fun v => (v, queued) := by
  refine ⟨h.fit.user co queued hrun, ?_⟩
  unfold Service.running
  rw [hrun]

theorem running_busy {L : Service} {co : Co} {v : TimerView} (hpc : (L.coroutines co).pc = .user)
    (hv : L.timers co = some v) :
    (L.coroutines co).body = .timer v.session v.id v.nomore ∧ v.stage = .busy := by
  obtain ⟨hbody, hcases⟩ := timer_some hv
  refine ⟨hbody, ?_⟩
  rw [hpc] at hcases
  rcases hcases with ⟨-, hpc⟩ | ⟨-, hpc⟩ | ⟨hbusy, -⟩
  · cases hpc
  · cases hpc
  · exact hbusy

theorem running_none {L : Service} {co : Co} (hpc : (L.coroutines co).pc = .user)
    (hv : L.timers co = none) : ∃ source session, (L.coroutines co).body = .handler source session := by
  unfold Service.timers Coroutine.timer at hv
  cases hbody : (L.coroutines co).body with
  | handler source session => exact ⟨source, session, rfl⟩
  | timer session id nomore =>
      rw [hbody, hpc] at hv
      cases hv

/-- The coroutine of a timer ends, without a word to `timer.c`. -/
theorem ClockedInv.stop (h : ClockedInv handle loop own P) (hfit : Fit L) {co : Co} {v : TimerView}
    (hv : P.service.timers co = some v)
    (hmoved : Moved P.service L co none P.service.sessionIdCoroutine)
    (hok : ¬P.Coming handle v.session) :
    ClockedInv handle loop own (P.post handle L P.timers) where
  outside := h.outside
  few := h.few
  fit := hfit
  apart := hmoved.apart
  found := h.found
  agree := by
    rw [post_ticks_nil rfl]
    exact h.agree.stop h.fit.sound hfit.sound hv hmoved fun hcoming => hok (coming_iff.mpr hcoming)
  flags := h.flags_moved hmoved (by rintro _ ⟨⟩)

/-- Nothing comes any more for a one shot timer whose function runs. -/
theorem ClockedInv.once (h : ClockedInv handle loop own P) {co : Co} {v : TimerView}
    (hv : P.service.timers co = some v) (hbusy : v.stage = .busy) (hzero : v.nomore = 0) :
    ¬P.Possible handle v.session := by
  have honce := h.agree.once co v hv hzero
  rw [hbusy, if_neg (by rintro ⟨⟩)] at honce
  rw [possible_iff, ← List.count_pos_iff, ← Timer.Timers.shots_pos]
  omega

omit [DecidableEq ι] in
theorem Clocked.Coming.possible {s : Nat} (h : P.Coming handle s) : P.Possible handle s :=
  h.imp_right fun ⟨p, hp, hfor, _⟩ => ⟨p, hp, hfor⟩

/-- The function of a timer returns a true value. -/
theorem ClockedInv.wait (h : ClockedInv handle loop own P) (hfit : Fit L) {co : Co} {v : TimerView}
    {queued : Bool} (hv : P.service.timers co = some v) (hbusy : v.stage = .busy)
    (hfree : P.service.sessionIdCoroutine v.session ≠ some co)
    (hmoved : Moved P.service L co (some { v with stage := .waiting })
      (if queued then P.service.sessionIdCoroutine
        else Function.update P.service.sessionIdCoroutine v.session (some co)))
    (hok : if queued then ¬P.Coming handle v.session else P.Possible handle v.session) :
    ClockedInv handle loop own (P.post handle L P.timers) where
  outside := h.outside
  few := h.few
  fit := hfit
  apart := hmoved.apart
  found := h.found
  agree := by
    rw [post_ticks_nil rfl]
    refine h.agree.wait h.fit.sound hfit.sound hv hbusy hfree hmoved ?_
    cases queued with
    | true => exact fun hcoming => hok (coming_iff.mpr hcoming)
    | false => exact possible_iff.mp hok
  flags := h.flags_moved hmoved (by
    rintro _ ⟨⟩
    exact h.flags co v hv)

variable [Fintype ι]

/-- The function of a repeating timer returns a false value, and the timer is
    cancelled. -/
theorem ClockedInv.cancelled (h : ClockedInv handle loop own P) (hfit : Fit L) {co : Co}
    {v : TimerView} (hv : P.service.timers co = some v)
    (hmoved : Moved P.service L co none P.service.sessionIdCoroutine)
    {c' : Config ι Timers TimerPc} (hask : P.ask own (.cancel v.id) full = some c')
    (hticks : v.session ∉ P.ticks) (hfull : full = true → ¬P.Coming handle v.session) :
    ClockedInv handle loop own (P.post handle L c') := by
  obtain ⟨houtside, hcreated, hsent, hsteady, hgone⟩ := ask_cancel h.outside hask
  have hagree : Agree handle P.service c'.shared P.ticks :=
    h.agree.steady hsteady fun _ _ _ _ _ _ _ _ => id
  have hnone : ¬(v.session ∈ P.ticks ∨ ∃ p, c'.shared.Due handle v.session p) := by
    rintro (htick | ⟨p, hdue⟩)
    · exact hticks htick
    · cases full with
      | true => exact hfull rfl (coming_iff.mpr (Or.inr ⟨p, hsteady.due v.session p hdue⟩))
      | false => exact hgone rfl v.session p hdue (hagree.named co v p hv hdue.1).1
  have hfew : c'.shared.created.length < 2 ^ 31 := hcreated ▸ h.few
  refine ⟨houtside, hfew, hfit, hmoved.apart, h.found, ?_, h.flags_moved hmoved (by rintro _ ⟨⟩)⟩
  rw [post_ticks_nil hsent]
  exact hagree.stop h.fit.sound hfit.sound hv hmoved hnone

/-- `z.timeout` -/
theorem ClockedInv.timeout (h : ClockedInv handle loop own P) {time nomore : Int} {session : Nat}
    {id : Option Nat} (hnomore : nomore = 0 ∨ nomore = 1) (hid : id = P.answer time full)
    (hnew : P.New handle session) (hfew : P.timers.shared.created.length + 1 < 2 ^ 31)
    {c' : Config ι Timers TimerPc}
    (hask : P.ask own (.timeout handle time session nomore) full = some c') :
    ClockedInv handle loop own (P.post handle (P.service.timeout nomore session id) c') := by
  obtain ⟨-, htimes, hfree, hwatching, herror, hpossible⟩ := hnew
  obtain ⟨houtside, hcreated, hcases⟩ := ask_timeout h.outside hask
  obtain ⟨co, hnone, hmoved⟩ :=
    Moved.timeout h.fit.sound h.apart nomore id hfree ⟨hwatching, herror⟩
  have hfit := h.fit.timeout nomore session id
  have hnothing : ¬(session ∈ P.ticks ∨ ∃ p, P.timers.shared.Armed handle session p) := fun hor =>
    hpossible (possible_iff.mpr hor)
  have hnot := fun p hp => hnothing (Or.inr ⟨p, hp⟩)
  have hshots : P.timers.shared.shots handle session = 0 := by
    by_contra hpos
    obtain ⟨p, hp⟩ := Timer.Timers.shots_pos.mp (Nat.pos_of_ne_zero hpos)
    exact hnot p hp
  have hcount : P.ticks.count session = 0 :=
    List.count_eq_zero.mpr fun hmem => hnothing (Or.inl hmem)
  have hother : ∀ k v, P.service.timers k = some v → v.session ≠ session := fun k v hv hs =>
    htimes ⟨k, timers_lt h.fit.sound hv, v, hv, hs⟩
  refine ⟨houtside, Nat.lt_of_le_of_lt hcreated hfew, hfit, hmoved.apart, h.found, ?_,
    h.flags_moved hmoved (by rintro _ ⟨⟩; exact hnomore)⟩
  rcases hcases with ⟨htime, hsent, hsteady⟩ | ⟨htime, hsent, hrest⟩
  · -- the tick has been sent
    obtain rfl : id = some 0 := hid.trans (if_pos htime)
    have hticks : (P.post handle (P.service.timeout nomore session (some 0)) c').ticks =
        P.ticks ++ [session] := post_ticks_own hsent rfl
    rw [hticks]
    refine h.agree.begin h.fit.sound hfit.sound hnone rfl hmoved hother hnot
      (fun s hs => Function.update_of_ne hs _ _) (hsteady.arms session 0 nomore) (fun s hs => ?_)
      (fun _ => Or.inl (List.mem_append_right _ (List.mem_singleton_self _)))
      (fun _ => Function.update_self _ _ _) fun _ => ?_
    · rw [List.count_append, List.count_singleton, if_neg (by simpa using Ne.symm hs)]
      rfl
    · have hle := hsteady.shots session
      show (P.ticks ++ [session]).count session + c'.shared.shots handle session ≤ 1
      rw [List.count_append, List.count_singleton_self]
      omega
  · rw [post_ticks_nil hsent]
    rcases hrest with ⟨rfl, hsteady⟩ | ⟨rfl, harms, harmed, hle⟩
    · -- the record has been refused
      obtain rfl : id = none := hid.trans ((if_neg htime).trans (if_pos rfl))
      have hle := hsteady.shots session
      refine h.agree.begin h.fit.sound hfit.sound hnone rfl hmoved hother hnot (fun s _ => rfl)
        (hsteady.arms session 0 nomore) (fun _ _ => rfl) (fun hs => ?_) (fun hcoming => ?_)
        fun _ => ?_
      · have hs : P.service.sessionIdCoroutine session = some co := hs
        rw [hfree] at hs
        cases hs
      · refine absurd (hcoming.imp_right ?_) hnothing
        rintro ⟨p, hp⟩
        exact ⟨p, hsteady.armed session p hp.1⟩
      · show P.ticks.count session + c'.shared.shots handle session ≤ 1
        omega
    · -- the timer is on its way
      obtain rfl : id = some (u32 (P.timers.shared.sn + 1) &&& 0x7fffffff) :=
        hid.trans ((if_neg htime).trans (if_neg Bool.false_ne_true))
      exact h.agree.begin h.fit.sound hfit.sound hnone rfl hmoved hother hnot
        (fun s hs => Function.update_of_ne hs _ _) harms (fun _ _ => rfl) (fun _ => Or.inr harmed)
        (fun _ => Function.update_self _ _ _) fun _ => by
          show P.ticks.count session + c'.shared.shots handle session ≤ 1
          omega

omit [DecidableEq ι] [Fintype ι] in
theorem readBack_eq (hreg : P.Regular handle (.run act full)) : act.readBack = act := by
  unfold Act.readBack
  split
  · have hnew := hreg.2
    simp only [Clocked.New] at hnew
    unfold readSession
    rw [if_pos hnew.1.1]
  · rfl

omit [Fintype ι] in
/-- Code of the service asks `timer.c` for something, or for nothing. -/
theorem Clocked.run_cases (hreg : P.Regular handle (.run act full))
    (hs : P.step handle own (.run act full) = some P') :
    act.agrees P full ∧ ∃ L c', P.service.userStep act = some L ∧ P' = P.post handle L c' ∧
      ((P.service.asks handle act = none ∧ c' = P.timers) ∨
        ∃ choice, P.service.asks handle act = some choice ∧ P.ask own choice full = some c') := by
  have hback := readBack_eq hreg
  simp only [Clocked.step] at hs
  split at hs
  · rename_i hagrees
    refine ⟨hagrees, ?_⟩
    have huser : ∀ {L}, P.service.step act.readBack = some L → P.service.userStep act = some L := by
      intro L hL
      rw [hback] at hL
      rcases Service.step_eq hL with ⟨msg, unpacked, order, rfl, -⟩ | hL
      · exact absurd hagrees id
      · exact hL
    split at hs
    · cases hs
    · rename_i L hL hasks
      exact ⟨L, P.timers, huser hL, (Option.some.inj hs).symm, Or.inl ⟨hasks, rfl⟩⟩
    · rename_i L choice hL hasks
      obtain ⟨c', hask, rfl⟩ := Option.map_eq_some_iff.mp hs
      exact ⟨L, c', huser hL, rfl, Or.inr ⟨choice, hasks, hask⟩⟩
  · cases hs

theorem asks_done_none {L : Service} (h : L.running = none) (value : Bool) :
    L.asks handle (.done value) = none := by
  unfold Service.asks
  rw [h]
  cases value <;> rfl

/-- The function of a timer, or another handler, returns. -/
theorem ClockedInv.done (h : ClockedInv handle loop own P) {co : Co} {queued value : Bool}
    (hrun : P.service.current = .run co queued)
    (hreg : ∀ r ∈ P.service.running, P.Ends handle full (.done value) r.1 r.2)
    {c' : Config ι Timers TimerPc}
    (hask : (P.service.asks handle (.done value) = none ∧ c' = P.timers) ∨
      ∃ choice, P.service.asks handle (.done value) = some choice ∧
        P.ask own choice full = some c') :
    ClockedInv handle loop own (P.post handle (P.service.done co queued value) c') := by
  obtain ⟨hpc, hrunning⟩ := h.running hrun
  have hfit := h.fit.done hpc queued value
  have hsound := h.fit.sound.run hpc
  have hexit := Moved.exit hsound h.apart queued
  cases hv : P.service.timers co with
  | none =>
      -- a handler
      obtain ⟨source, session, hbody⟩ := running_none hpc hv
      have hdone : P.service.done co queued value =
          (P.service.exit co).yield co queued .exit := by
        unfold Service.done
        rw [hbody]
      rw [hv] at hrunning
      rw [asks_done_none hrunning] at hask
      obtain ⟨-, rfl⟩ | ⟨_, ⟨⟩, -⟩ := hask
      rw [hdone] at hfit ⊢
      rw [← hv] at hexit
      exact h.still hfit hexit.still
  | some v =>
      obtain ⟨hbody, hbusy⟩ := running_busy hpc hv
      rw [hv] at hrunning
      have hends := hreg (v, queued) hrunning
      cases value with
      | true =>
          obtain ⟨-, rfl⟩ | ⟨_, ⟨⟩, -⟩ := hask
          have hdone : P.service.done co queued true =
              (P.service.goto co .yieldTimeout).yield co queued (.timeout v.session) := by
            unfold Service.done
            rw [hbody]
            rfl
          rw [hdone] at hfit ⊢
          exact h.wait hfit hv hbusy ((h.fit.sound.user_free hpc).2 v.session)
            (Moved.wait hsound h.apart hbody (h.apart co v hv) queued) hends
      | false =>
          have hasks : P.service.asks handle (.done false) =
              if v.nomore = 1 then some (.cancel v.id) else none := by
            unfold Service.asks
            rw [hrunning]
            rfl
          rw [hasks] at hask
          have hdone : P.service.done co queued false = ((if v.nomore = 1 then
              P.service.timercancel v.id else P.service).exit co).yield co queued .exit := by
            unfold Service.done
            rw [hbody]
            rfl
          rw [hdone] at hfit ⊢
          rcases h.flags co v hv with hzero | hone
          · have hnot : v.nomore ≠ 1 := by rw [hzero]; decide
            rw [if_neg hnot] at hask hfit ⊢
            obtain ⟨-, rfl⟩ | ⟨_, ⟨⟩, -⟩ := hask
            exact h.stop hfit hv hexit fun hcoming => h.once hv hbusy hzero hcoming.possible
          · rw [if_pos hone] at hask hfit ⊢
            obtain ⟨⟨⟩, -⟩ | ⟨_, ⟨⟩, hask⟩ := hask
            obtain ⟨htimers, htable, hapart⟩ := Moved.exit (L := P.service.timercancel v.id)
              (hsound.same rfl rfl rfl rfl) h.apart queued
            have hmore : v.nomore ≠ 0 := by rw [hone]; decide
            exact h.cancelled hfit hv ⟨htimers, htable, hapart⟩ hask (hends hmore).1 (hends hmore).2

omit [Fintype ι] in
/-- It raises an error. -/
theorem ClockedInv.raise (h : ClockedInv handle loop own P) {co : Co} {queued : Bool}
    (hrun : P.service.current = .run co queued)
    (hreg : ∀ r ∈ P.service.running, P.Ends handle full .raise r.1 r.2) :
    ClockedInv handle loop own (P.post handle (P.service.raise co queued) P.timers) := by
  obtain ⟨hpc, hrunning⟩ := h.running hrun
  have hfit := h.fit.raise hpc queued
  have hmoved := Moved.raise co h.apart queued
  cases hv : P.service.timers co with
  | none =>
      rw [← hv] at hmoved
      exact h.still hfit hmoved.still
  | some v =>
      rw [hv] at hrunning
      refine h.stop hfit hv hmoved fun hcoming => ?_
      rcases h.flags co v hv with hzero | hone
      · exact h.once hv (running_busy hpc hv).2 hzero hcoming.possible
      · exact hreg (v, queued) hrunning (by rw [hone]; decide) hcoming

/-- A step of code of the service. -/
theorem ClockedInv.run (h : ClockedInv handle loop own P)
    (hreg : P.Regular handle (.run act full)) (hs : P.step handle own (.run act full) = some P') :
    ClockedInv handle loop own P' := by
  obtain ⟨hagrees, L, c', hL, rfl, hask⟩ := Clocked.run_cases hreg hs
  have hfit := h.fit.userStep hL
  unfold Service.userStep at hL
  split at hL
  · cases hL
  · cases hL
    obtain ⟨-, rfl⟩ | ⟨_, ⟨⟩, -⟩ := hask
    exact h.still hfit (.send _ _ _)
  · cases hL
    obtain ⟨⟨⟩, -⟩ | ⟨_, ⟨⟩, hask⟩ := hask
    exact h.timeout hagrees.1 hagrees.2 hreg.2.1 hreg.2.2 hask
  · cases hL
    obtain ⟨⟨⟩, -⟩ | ⟨_, ⟨⟩, hask⟩ := hask
    obtain ⟨houtside, hcreated, hsent, hsteady, -⟩ := ask_cancel h.outside hask
    have hfew : c'.shared.created.length < 2 ^ 31 := hcreated ▸ h.few
    refine ⟨houtside, hfew, hfit, h.apart, h.found, ?_, h.flags⟩
    rw [post_ticks_nil hsent]
    exact (h.agree.still h.fit.sound (.note _ _) hfit.sound).steady hsteady
      fun _ _ _ _ _ _ _ _ => id
  · rename_i hchunk
    cases hL
    have hnone : P.service.running = none := by
      unfold Service.running
      rw [hchunk]
    rw [asks_done_none hnone] at hask
    obtain ⟨-, rfl⟩ | ⟨_, ⟨⟩, -⟩ := hask
    exact h.still hfit (.same rfl rfl rfl rfl)
  · rename_i co queued form dest prototype packed answer hrun
    cases hL
    obtain ⟨-, rfl⟩ | ⟨_, ⟨⟩, -⟩ := hask
    refine h.still hfit (Still.call h.fit (h.fit.user _ _ hrun) h.apart _ _ _ _ _ _ ?_)
    rintro session ⟨⟩ k v hv rfl
    exact hreg.2 ⟨k, timers_lt h.fit.sound hv, v, hv, rfl⟩
  · rename_i hrun
    cases hL
    obtain ⟨-, rfl⟩ | ⟨_, ⟨⟩, -⟩ := hask
    exact h.still hfit (Still.ret (h.fit.user _ _ hrun) _ _)
  · rename_i hrun
    cases hL
    exact h.done hrun hreg.1 hask
  · rename_i hrun
    cases hL
    obtain ⟨-, rfl⟩ | ⟨_, ⟨⟩, -⟩ := hask
    exact h.raise hrun hreg.1
  · cases hL

theorem step_message {L L' : Service} {msg : Message} {unpacked : Bool} {order : List Nat}
    (hs : L.step (.message msg unpacked order) = some L') :
    L' = L.rawDispatchMessage msg unpacked order ∧
      (msg.prototype = MSG_TYPE_PROTO_ERROR → order.Perm (L.watched msg.source)) := by
  have hpossible : (Act.message msg unpacked order).possible := trivial
  unfold Service.step at hs
  rw [if_pos hpossible] at hs
  cases hcurrent : L.current with
  | idle =>
      rw [hcurrent] at hs
      obtain ⟨horder, heq⟩ := Option.ite_none_right_eq_some.mp hs
      exact ⟨(Option.some.inj heq).symm, horder⟩
  | chunk =>
      unfold Service.userStep at hs
      rw [hcurrent] at hs
      cases hs
  | run co queued =>
      unfold Service.userStep at hs
      rw [hcurrent] at hs
      cases hs

omit [DecidableEq ι] [Fintype ι] in
theorem post_same (handle : Addr) (L : Service) :
    P.post handle L P.timers = { P with service := L } := by
  unfold Clocked.post
  rw [List.drop_length]
  exact congrArg (fun ticks => ({ P with service := L, ticks := ticks } : Clocked ι))
    (List.append_nil _)

omit [Fintype ι] in
/-- A message that is no tick. -/
theorem ClockedInv.message (h : ClockedInv handle loop own P) {msg : Message} {unpacked : Bool}
    {order : List Nat} (hreg : P.Regular handle (.message msg unpacked order))
    (hs : P.step handle own (.message msg unpacked order) = some P') :
    ClockedInv handle loop own P' := by
  obtain ⟨L, hL, rfl⟩ := Option.map_eq_some_iff.mp hs
  have hfit := h.fit.step hL
  obtain ⟨rfl, horder⟩ := step_message hL
  rw [← post_same handle]
  refine h.still hfit (Still.message h.fit h.apart unpacked (fun hresponse k v hv heq => ?_) horder)
  exact hreg hresponse ⟨k, timers_lt h.fit.sound hv, v, hv, heq⟩

omit [Fintype ι] in
/-- A tick. -/
theorem ClockedInv.tick (h : ClockedInv handle loop own P) {i : Nat}
    (hreg : P.Regular handle (.tick i)) (hs : P.step handle own (.tick i) = some P') :
    ClockedInv handle loop own P' := by
  simp only [Clocked.step] at hs
  split at hs
  · cases hs
  · rename_i session hi
    obtain ⟨L, hL, rfl⟩ := Option.map_eq_some_iff.mp hs
    have hfit := h.fit.step hL
    obtain ⟨rfl, -⟩ := step_message hL
    obtain ⟨hlt, rfl⟩ := List.getElem?_eq_some_iff.mp hi
    have hmem : P.ticks[i] ∈ P.ticks := List.getElem_mem hlt
    obtain ⟨co, v, hv, hsession, hor⟩ :=
      (attended_iff h.fit.sound).mp (h.agree.attended _ (Or.inl hmem))
    have hstage := hreg _ hi co (timers_lt h.fit.sound hv) v hv hsession
    have hco := hor.resolve_left hstage
    have honce : v.nomore = 0 → v.stage = .fresh := by
      intro hzero
      by_contra hnot
      have honce := h.agree.once co v hv hzero
      have hpos := List.count_pos_iff.mpr hmem
      rw [if_neg hnot, hsession] at honce
      omega
    have hmoved := Moved.tick h.apart ⟨0, handle, P.ticks[i], MSG_TYPE_RESPONSE, []⟩ hv hstage
      hco honce
    refine ⟨h.outside, h.few, hfit, hmoved.apart, ?_, ?_, ?_⟩
    · show P.missed ++ (if _ then [] else _) = []
      rw [hco, h.found]
      rfl
    · refine h.agree.tick h.fit.sound hfit.sound hv (hsession ▸ hmoved) ?_
      rw [hsession]
      exact (List.getElem_cons_eraseIdx_perm hlt).symm
    · exact h.flags_moved hmoved (by
        rintro _ ⟨⟩
        exact h.flags co v hv)

/-- Another thread runs. -/
theorem ClockedInv.thread (h : ClockedInv handle loop own P) {i : ι} {choice : TimerChoice}
    (hreg : P.Regular handle (.thread i choice))
    (hs : P.step handle own (.thread i choice) = some P') : ClockedInv handle loop own P' := by
  simp only [Clocked.step] at hs
  split at hs
  · rename_i hallows
    obtain ⟨c', hf, rfl⟩ := Option.map_eq_some_iff.mp hs
    obtain ⟨houtside, hfew, hagree⟩ :=
      thread_agrees h.outside h.few h.fit.sound h.agree hallows.1 hallows.2 hreg hf
    exact ⟨houtside, hfew, h.fit, h.apart, h.found, hagree, h.flags⟩
  · cases hs

theorem ClockedInv.step (h : ClockedInv handle loop own P) {act : ClockedAct ι}
    (hreg : P.Regular handle act) (hs : P.step handle own act = some P') :
    ClockedInv handle loop own P' := by
  cases act with
  | run act full => exact h.run hreg hs
  | tick i => exact h.tick hreg hs
  | message msg unpacked order => exact h.message hreg hs
  | thread i choice => exact h.thread hreg hs

omit [Fintype ι] in
theorem clockedInit_inv (hown : own ≠ loop) :
    ClockedInv handle loop own (clockedInit handle loop) where
  outside :=
    { reach := .refl _
      own := if_neg hown
      others := fun i event hi => by
        have hi : (if i = loop then TimerPc.loop else .user) = .push event := hi
        split at hi <;> cases hi }
  few := Nat.two_pow_pos 31
  fit := ⟨serviceInit_sound handle, by rintro _ _ ⟨⟩⟩
  apart := by rintro co v ⟨⟩
  found := rfl
  agree :=
    { one := by rintro co co' v v' ⟨⟩
      waits := by rintro co v ⟨⟩
      attended := by rintro s (hmem | ⟨p, ⟨hmem, -⟩, -⟩) <;> cases hmem
      named := by rintro co v p ⟨⟩
      once := by rintro co v ⟨⟩ }
  flags := by rintro co v ⟨⟩

omit [Fintype ι] in
theorem ClockedInv.paired (h : ClockedInv handle loop own P) : TimersPaired handle P where
  found := h.found
  ended := h.agree.waits
  kept := fun s p hdue => h.agree.attended s (Or.inr ⟨p, hdue⟩)

/-- In every run of a service and its timers whose steps meet the condition, every tick
    finds the coroutine of its timer, and a coroutine stays registered under the
    session of its timer just as long as ticks come. -/
theorem timers_paired (hown : own ≠ loop) (acts : List (ClockedAct ι))
    (hok : AllSteps (Clocked.step handle own) (Clocked.Regular handle) (clockedInit handle loop)
      acts) :
    Always (Clocked.step handle own) (TimersPaired handle) (clockedInit handle loop) acts :=
  always_of_allSteps (J := ClockedInv handle loop own) (fun _ h => h.paired)
    (fun _ _ _ h hs hreg => h.step hreg hs) (clockedInit_inv hown) hok

end Service

/-- A repeating timer ticks twice; its function returns a true value, and then a false
    one, and the timer is cancelled. -/
theorem timers_paired_twice : ∃ acts S,
    runFrom (Clocked.step 1 (1 : Fin 2)) (clockedInit 1 0) acts = some S ∧
    S.timers.shared.sent.length = 2 ∧ S.timers.shared.pending = [] ∧ S.service.timers 0 = none ∧
    Always (Clocked.step 1 (1 : Fin 2)) (TimersPaired 1) (clockedInit 1 0) acts := by
  refine ⟨[.run (.timeout 10 1 5 (some 1)) false, .run (.done true) false, .thread 0 (.recv 0 0),
    .thread 0 (.process 100), .thread 0 (.look 100 0 0 100 0), .thread 0 (.look 100 0 0 100 0),
    .thread 0 (.look 100 0 0 100 0), .tick 0, .run (.done true) false, .thread 0 (.process 200),
    .thread 0 (.look 200 0 0 200 0), .thread 0 (.look 200 0 0 200 0),
    .thread 0 (.look 200 0 0 200 0), .tick 0, .run (.done false) false, .thread 0 (.recv 200 0)],
    _, rfl, rfl, rfl, rfl, ?_⟩
  exact timers_paired (by decide) _ (by decide +kernel)

/-- The function of a repeating timer raises an error on the first tick: the timer goes
    on, and the next tick finds no coroutine. -/
theorem failed_timer_ticks : ∃ acts S,
    runFrom (Clocked.step 1 (1 : Fin 2)) (clockedInit 1 0) acts = some S ∧ S.missed = [5] ∧
    S.timers.shared.pending = [(0, 0)] ∧ S.service.timers 0 = none ∧ ¬TimersPaired 1 S := by
  refine ⟨[.run (.timeout 10 1 5 (some 1)) false, .run (.done true) false, .thread 0 (.recv 0 0),
    .thread 0 (.process 100), .thread 0 (.look 100 0 0 100 0), .thread 0 (.look 100 0 0 100 0),
    .thread 0 (.look 100 0 0 100 0), .tick 0, .run .raise false, .thread 0 (.process 200),
    .thread 0 (.look 200 0 0 200 0), .tick 0], _, rfl, rfl, rfl, rfl, fun h => ?_⟩
  have hmissed := h.found
  cases hmissed

end Lua
end ZServer
