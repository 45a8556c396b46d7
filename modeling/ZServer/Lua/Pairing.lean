/-
  ZServer.Lua.Pairing

  The coroutines of the timers of a service agree with what the timer thread has, and
  with the ticks in the mailbox (`Agree`): what a step of either side does to that.
-/

import ZServer.Lua.TimerTables

namespace ZServer
namespace Lua

open Lib
open Timer (EventPtr TimerEvent Timers TimerPc TimerChoice Tick Steady timerPcStep timerInit)

-- ============================================================================
-- Both sides agree
-- ============================================================================

/-- The coroutines of the timers, what the timer thread has, and the ticks in the
    mailbox. -/
structure Agree (handle : Addr) (L : Service) (T : Timers) (ticks : List Nat) : Prop where
  one : ∀ co co' v v', L.timers co = some v → L.timers co' = some v' → v.session = v'.session →
    co = co'
  waits : ∀ co v, L.timers co = some v → v.stage ≠ .busy →
    L.sessionIdCoroutine v.session = some co → v.session ∈ ticks ∨ ∃ p, T.Armed handle v.session p
  attended : ∀ s, (s ∈ ticks ∨ ∃ p, T.Due handle s p) → L.Attended s
  named : ∀ co v p, L.timers co = some v → T.Armed handle v.session p →
    (T.heap p).sn = v.id ∧ (T.heap p).noMore = v.nomore
  /-- the one tick of a one shot timer -/
  once : ∀ co v, L.timers co = some v → v.nomore = 0 →
    ticks.count v.session + T.shots handle v.session + (if v.stage = .fresh then 0 else 1) ≤ 1

section Agree

variable {handle : Addr} {L L' : Service} {T T' : Timers} {ticks ticks' : List Nat} {co : Co}
  {v : TimerView}

theorem timers_lt (h : Sound L none) (hv : L.timers co = some v) : co < L.next := by
  refine h.lt_next fun hdead => ?_
  obtain ⟨-, ⟨-, hpc⟩ | ⟨-, hpc⟩ | ⟨-, hpc⟩⟩ := timer_some hv
  · rw [hdead] at hpc
    cases hpc
  · rw [hdead] at hpc
    cases hpc
  · rw [hdead] at hpc
    rcases hpc with hpc | ⟨form, session, hpc⟩ | hpc <;> cases hpc

theorem attended_iff (h : Sound L none) {s : Nat} : L.Attended s ↔ ∃ co v, L.timers co = some v ∧
    v.session = s ∧ (v.stage = .busy ∨ L.sessionIdCoroutine s = some co) := by
  constructor
  · rintro ⟨co, -, v, hv, hs, hor⟩
    exact ⟨co, v, hv, hs, hor⟩
  · rintro ⟨co, v, hv, hs, hor⟩
    exact ⟨co, timers_lt h hv, v, hv, hs, hor⟩

/-- A step of the service that moves no timer. -/
theorem Agree.still (h : Agree handle L T ticks) (hL : Sound L none) (hstill : Still L L')
    (hL' : Sound L' none) : Agree handle L' T ticks := by
  have htimers := hstill.timers
  refine ⟨fun co co' v v' hv hv' => h.one co co' v v' (htimers ▸ hv) (htimers ▸ hv'),
    fun co v hv hstage hs => ?_, fun s hcoming => ?_, fun co v p hv => h.named co v p (htimers ▸ hv),
    fun co v hv => h.once co v (htimers ▸ hv)⟩
  · rw [htimers] at hv
    rw [hstill.table co v hv] at hs
    exact h.waits co v hv hstage hs
  · obtain ⟨co, v, hv, rfl, hor⟩ := (attended_iff hL).mp (h.attended s hcoming)
    refine (attended_iff hL').mpr ⟨co, v, htimers ▸ hv, rfl, hor.imp_right fun hs => ?_⟩
    rw [hstill.table co v hv]
    exact hs

/-- A step of the timer thread that arms and calls no timer of the service. -/
theorem Agree.steady (h : Agree handle L T ticks) {gone : EventPtr → Prop}
    (hT : Steady handle gone T T')
    (hgone : ∀ co v, L.timers co = some v → v.stage ≠ .busy →
      L.sessionIdCoroutine v.session = some co → v.session ∉ ticks →
        ∀ p, T.Armed handle v.session p → ¬gone p) : Agree handle L T' ticks := by
  refine ⟨h.one, fun co v hv hstage hs => ?_, fun s hcoming => ?_, fun co v p hv hp => ?_,
    fun co v hv hzero => ?_⟩
  · by_cases htick : v.session ∈ ticks
    · exact Or.inl htick
    · obtain ⟨p, hp⟩ := (h.waits co v hv hstage hs).resolve_left htick
      exact Or.inr ⟨p, hT.stays v.session p hp (hgone co v hv hstage hs htick p hp)⟩
  · exact h.attended s (hcoming.imp_right fun ⟨p, hp⟩ => ⟨p, hT.due s p hp⟩)
  · have hp := hT.armed v.session p hp
    rw [hT.record v.session p hp]
    exact h.named co v p hv hp
  · have honce := h.once co v hv hzero
    have hshots := hT.shots v.session
    omega

theorem Moved.cases {x : Option TimerView} {table : Nat → Option Co} (h : Moved L L' co x table)
    {k : Co} {w : TimerView} (hw : L'.timers k = some w) :
    k = co ∧ x = some w ∨ k ≠ co ∧ L.timers k = some w := by
  rw [h.timers] at hw
  by_cases hk : k = co
  · rw [hk, Function.update_self] at hw
    exact Or.inl ⟨hk, hw⟩
  · rw [Function.update_of_ne hk] at hw
    exact Or.inr ⟨hk, hw⟩

theorem Moved.other {x : Option TimerView} {table : Nat → Option Co} (h : Moved L L' co x table)
    {k : Co} (hk : k ≠ co) : L'.timers k = L.timers k := by
  rw [h.timers, Function.update_of_ne hk]

theorem Moved.self_eq {x : Option TimerView} {table : Nat → Option Co} (h : Moved L L' co x table) :
    L'.timers co = x := by
  rw [h.timers, Function.update_self]

/-- The coroutine of a timer goes on with its session. -/
theorem Agree.one_moved (h : Agree handle L T ticks) {w : TimerView} {table : Nat → Option Co}
    (hmoved : Moved L L' co (some w) table)
    (hw : ∀ k v, L.timers k = some v → v.session = w.session → k = co) :
    ∀ k k' v v', L'.timers k = some v → L'.timers k' = some v' → v.session = v'.session →
      k = k' := by
  intro k k' v₁ v₂ hv₁ hv₂ heq
  rcases hmoved.cases hv₁ with ⟨rfl, hx⟩ | ⟨-, hold₁⟩ <;>
    rcases hmoved.cases hv₂ with ⟨rfl, hx'⟩ | ⟨-, hold₂⟩
  · rfl
  · cases hx
    exact (hw k' v₂ hold₂ heq.symm).symm
  · cases hx'
    exact hw k v₁ hold₁ heq
  · exact h.one k k' v₁ v₂ hold₁ hold₂ heq

/-- A tick is dispatched to the coroutine that waits for it. -/
theorem Agree.tick (h : Agree handle L T ticks) (hL : Sound L none) (hL' : Sound L' none)
    (hv : L.timers co = some v)
    (hmoved : Moved L L' co (some { v with stage := .busy })
      (Function.update L.sessionIdCoroutine v.session none))
    (hticks : ticks.Perm (v.session :: ticks')) : Agree handle L' T ticks' := by
  have hone : ∀ k w, L.timers k = some w → w.session = v.session → k = co :=
    fun k w hw heq => h.one k co w v hw hv heq
  have hne : ∀ k w, k ≠ co → L.timers k = some w → w.session ≠ v.session :=
    fun k w hk hw heq => hk (hone k w hw heq)
  have hsub : ∀ s, s ∈ ticks' → s ∈ ticks := fun s hs =>
    hticks.mem_iff.mpr (List.mem_cons_of_mem _ hs)
  refine ⟨h.one_moved hmoved hone, fun k w hw hstage hs => ?_, fun s hcoming => ?_,
    fun k w p hw hp => ?_, fun k w hw hzero => ?_⟩
  · rcases hmoved.cases hw with ⟨-, hx⟩ | ⟨hk, hold⟩
    · cases hx
      exact absurd rfl hstage
    · rw [hmoved.table k w hw, Function.update_of_ne (hne k w hk hold)] at hs
      refine (h.waits k w hold hstage hs).imp_left fun htick => ?_
      exact (List.mem_cons.mp (hticks.mem_iff.mp htick)).resolve_left (hne k w hk hold)
  · by_cases hs : s = v.session
    · exact (attended_iff hL').mpr ⟨co, _, hmoved.self_eq, hs.symm, Or.inl rfl⟩
    · obtain ⟨k, w, hw, rfl, hor⟩ := (attended_iff hL).mp (h.attended s (hcoming.imp_left (hsub s)))
      have hk : k ≠ co := by
        rintro rfl
        rw [hv] at hw
        cases hw
        exact hs rfl
      have hw' : L'.timers k = some w := (hmoved.other hk).trans hw
      refine (attended_iff hL').mpr ⟨k, w, hw', rfl, hor.imp_right fun hreg => ?_⟩
      rw [hmoved.table k w hw', Function.update_of_ne hs]
      exact hreg
  · rcases hmoved.cases hw with ⟨-, hx⟩ | ⟨-, hold⟩
    · cases hx
      exact h.named co v p hv hp
    · exact h.named k w p hold hp
  · rcases hmoved.cases hw with ⟨-, hx⟩ | ⟨hk, hold⟩
    · cases hx
      have honce := h.once co v hv hzero
      rw [hticks.count_eq, List.count_cons_self] at honce
      simp only
      split at honce <;> simp <;> omega
    · have honce := h.once k w hold hzero
      rw [hticks.count_eq, List.count_cons_of_ne (Ne.symm (hne k w hk hold))] at honce
      exact honce

/-- A function returns a true value. -/
theorem Agree.wait (h : Agree handle L T ticks) (hL : Sound L none) (hL' : Sound L' none)
    (hv : L.timers co = some v) (hbusy : v.stage = .busy) {queued : Bool}
    (hfree : L.sessionIdCoroutine v.session ≠ some co)
    (hmoved : Moved L L' co (some { v with stage := .waiting })
      (if queued then L.sessionIdCoroutine
        else Function.update L.sessionIdCoroutine v.session (some co)))
    (hok : if queued then ¬(v.session ∈ ticks ∨ ∃ p, T.Due handle v.session p)
      else v.session ∈ ticks ∨ ∃ p, T.Armed handle v.session p) : Agree handle L' T ticks := by
  have hone : ∀ k w, L.timers k = some w → w.session = v.session → k = co :=
    fun k w hw heq => h.one k co w v hw hv heq
  have hne : ∀ k w, k ≠ co → L.timers k = some w → w.session ≠ v.session :=
    fun k w hk hw heq => hk (hone k w hw heq)
  have hother : ∀ {s}, s ≠ v.session → (if queued then L.sessionIdCoroutine
      else Function.update L.sessionIdCoroutine v.session (some co)) s =
        L.sessionIdCoroutine s := by
    intro s hs
    split
    · rfl
    · exact Function.update_of_ne hs _ _
  refine ⟨h.one_moved hmoved hone, fun k w hw hstage hs => ?_, fun s hcoming => ?_,
    fun k w p hw hp => ?_, fun k w hw hzero => ?_⟩
  · rw [hmoved.table k w hw] at hs
    rcases hmoved.cases hw with ⟨rfl, hx⟩ | ⟨hk, hold⟩
    · cases hx
      cases queued with
      | true => exact absurd hs hfree
      | false => exact hok
    · rw [hother (hne k w hk hold)] at hs
      exact h.waits k w hold hstage hs
  · by_cases hs : s = v.session
    · cases queued with
      | true => exact absurd (hs ▸ hcoming) hok
      | false =>
          refine (attended_iff hL').mpr ⟨co, _, hmoved.self_eq, hs.symm, Or.inr ?_⟩
          rw [hs]
          refine (hmoved.table co _ hmoved.self_eq).trans ?_
          exact Function.update_self _ _ _
    · obtain ⟨k, w, hw, rfl, hor⟩ := (attended_iff hL).mp (h.attended s hcoming)
      have hk : k ≠ co := by
        rintro rfl
        rw [hv] at hw
        cases hw
        exact hs rfl
      have hw' : L'.timers k = some w := (hmoved.other hk).trans hw
      refine (attended_iff hL').mpr ⟨k, w, hw', rfl, hor.imp_right fun hreg => ?_⟩
      rw [hmoved.table k w hw', hother hs]
      exact hreg
  · rcases hmoved.cases hw with ⟨-, hx⟩ | ⟨-, hold⟩
    · cases hx
      exact h.named co v p hv hp
    · exact h.named k w p hold hp
  · rcases hmoved.cases hw with ⟨-, hx⟩ | ⟨hk, hold⟩
    · cases hx
      have honce := h.once co v hv hzero
      rw [hbusy] at honce
      exact honce
    · exact h.once k w hold hzero

/-- The coroutine of a timer ends. -/
theorem Agree.stop (h : Agree handle L T ticks) (hL : Sound L none) (hL' : Sound L' none)
    (hv : L.timers co = some v) (hmoved : Moved L L' co none L.sessionIdCoroutine)
    (hok : ¬(v.session ∈ ticks ∨ ∃ p, T.Due handle v.session p)) : Agree handle L' T ticks := by
  have hold : ∀ {k w}, L'.timers k = some w → k ≠ co ∧ L.timers k = some w := by
    intro k w hw
    rcases hmoved.cases hw with ⟨-, hx⟩ | hold
    · cases hx
    · exact hold
  refine ⟨fun k k' w w' hw hw' => h.one k k' w w' (hold hw).2 (hold hw').2,
    fun k w hw hstage hs => ?_, fun s hcoming => ?_, fun k w p hw => h.named k w p (hold hw).2,
    fun k w hw => h.once k w (hold hw).2⟩
  · rw [hmoved.table k w hw] at hs
    exact h.waits k w (hold hw).2 hstage hs
  · obtain ⟨k, w, hw, rfl, hor⟩ := (attended_iff hL).mp (h.attended s hcoming)
    have hk : k ≠ co := by
      rintro rfl
      rw [hv] at hw
      cases hw
      exact hok hcoming
    have hw' : L'.timers k = some w := (hmoved.other hk).trans hw
    refine (attended_iff hL').mpr ⟨k, w, hw', rfl, hor.imp_right fun hreg => ?_⟩
    rw [hmoved.table k w hw']
    exact hreg

/-- `z.timeout` makes a coroutine, and asks for a timer. -/
theorem Agree.begin (h : Agree handle L T ticks) (hL : Sound L none) (hL' : Sound L' none)
    (hnone : L.timers co = none) {w : TimerView} (hstage : w.stage = .fresh)
    {table : Nat → Option Co} (hmoved : Moved L L' co (some w) table)
    (hnew : ∀ k v, L.timers k = some v → v.session ≠ w.session)
    (hunarmed : ∀ p, ¬T.Armed handle w.session p)
    (htable : ∀ s, s ≠ w.session → table s = L.sessionIdCoroutine s)
    (hT : Timer.Arms handle w.session w.id w.nomore T T')
    (hticks : ∀ s, s ≠ w.session → ticks'.count s = ticks.count s)
    (hwaits : table w.session = some co →
      w.session ∈ ticks' ∨ ∃ p, T'.Armed handle w.session p)
    (hattended : (w.session ∈ ticks' ∨ ∃ p, T'.Due handle w.session p) →
      table w.session = some co)
    (honce : w.nomore = 0 → ticks'.count w.session + T'.shots handle w.session ≤ 1) :
    Agree handle L' T' ticks' := by
  have hmem : ∀ s, s ≠ w.session → (s ∈ ticks' ↔ s ∈ ticks) := fun s hs => by
    rw [← List.count_pos_iff, ← List.count_pos_iff, hticks s hs]
  refine ⟨h.one_moved hmoved fun k v hv heq => absurd heq (hnew k v hv), fun k v hv hstage' hs => ?_,
    fun s hcoming => ?_, fun k v p hv hp => ?_, fun k v hv hzero => ?_⟩
  · rw [hmoved.table k v hv] at hs
    rcases hmoved.cases hv with ⟨rfl, hx⟩ | ⟨-, hold⟩
    · cases hx
      exact hwaits hs
    · rw [htable v.session (hnew k v hold)] at hs
      refine (h.waits k v hold hstage' hs).imp (hmem v.session (hnew k v hold)).mpr ?_
      rintro ⟨p, hp⟩
      exact ⟨p, hT.stays v.session p hp⟩
  · by_cases hs : s = w.session
    · refine (attended_iff hL').mpr ⟨co, w, hmoved.self_eq, hs.symm, Or.inr ?_⟩
      rw [hs] at hcoming ⊢
      exact (hmoved.table co w hmoved.self_eq).trans (hattended hcoming)
    · obtain ⟨k, v, hv, rfl, hor⟩ := (attended_iff hL).mp (h.attended s
        (hcoming.imp (hmem s hs).mp fun ⟨p, hp⟩ => ⟨p, hT.due s p hs hp⟩))
      have hk : k ≠ co := by
        rintro rfl
        rw [hnone] at hv
        cases hv
      have hv' : L'.timers k = some v := (hmoved.other hk).trans hv
      refine (attended_iff hL').mpr ⟨k, v, hv', rfl, hor.imp_right fun hreg => ?_⟩
      rw [hmoved.table k v hv', htable v.session hs]
      exact hreg
  · rcases hmoved.cases hv with ⟨-, hx⟩ | ⟨-, hold⟩
    · cases hx
      rcases hT.armed w.session p hp with hp | ⟨-, hnamed⟩
      · exact absurd hp (hunarmed p)
      · exact hnamed
    · rcases hT.armed v.session p hp with hp | ⟨heq, -⟩
      · rw [hT.record v.session p hp]
        exact h.named k v p hold hp
      · exact absurd heq (hnew k v hold)
  · rcases hmoved.cases hv with ⟨-, hx⟩ | ⟨-, hold⟩
    · cases hx
      rw [if_pos hstage]
      exact honce hzero
    · have hold' := h.once k v hold hzero
      have hshots := hT.shots v.session (hnew k v hold)
      rw [← hticks v.session (hnew k v hold)] at hold'
      omega

/-- A timer of the service ticks. -/
theorem Agree.fire (h : Agree handle L T ticks) {p₀ : EventPtr} {s₀ : Nat}
    (hp₀ : T.Armed handle s₀ p₀) (hT : Steady handle (fun p => p = p₀) T T')
    (hended : (T.heap p₀).noMore = 0 → T'.shots handle s₀ < T.shots handle s₀)
    (hattended : L.Attended s₀) : Agree handle L T' (ticks ++ [s₀]) := by
  refine ⟨h.one, fun co v hv hstage hs => ?_, fun s hcoming => ?_, fun co v p hv hp => ?_,
    fun co v hv hzero => ?_⟩
  · rcases h.waits co v hv hstage hs with htick | ⟨p, hp⟩
    · exact Or.inl (List.mem_append_left _ htick)
    · by_cases heq : p = p₀
      · have hsession : v.session = s₀ := (heq ▸ hp.2.2.2).symm.trans hp₀.2.2.2
        exact Or.inl (List.mem_append_right _ (List.mem_singleton.mpr hsession))
      · exact Or.inr ⟨p, hT.stays v.session p hp heq⟩
  · rcases hcoming with htick | ⟨p, hp⟩
    · rcases List.mem_append.mp htick with htick | htick
      · exact h.attended s (Or.inl htick)
      · rw [List.mem_singleton.mp htick]
        exact hattended
    · exact h.attended s (Or.inr ⟨p, hT.due s p hp⟩)
  · have hp := hT.armed v.session p hp
    rw [hT.record v.session p hp]
    exact h.named co v p hv hp
  · have honce := h.once co v hv hzero
    have hshots := hT.shots v.session
    rw [List.count_append]
    by_cases hs : v.session = s₀
    · have hnomore := (h.named co v p₀ hv (hs ▸ hp₀)).2
      have hless := hended (hnomore.trans hzero)
      rw [hs, List.count_singleton_self]
      rw [hs] at honce
      omega
    · have hnot : [s₀].count v.session = 0 := List.count_eq_zero.mpr (by simpa using hs)
      omega

end Agree

-- ============================================================================
-- The threads
-- ============================================================================

section Threads

variable {ι : Type} [DecidableEq ι] [Fintype ι] {handle : Addr} {loop own : ι}
  {c c' : Config ι Timers TimerPc}

/-- What the threads have of the timers of the service: the thread of the service is not
    in `timer.c`, and the others push no timer of the service. -/
structure Outside (handle : Addr) (loop own : ι) (c : Config ι Timers TimerPc) : Prop where
  reach : Reachable (fire timerPcStep) (timerInit loop) c
  own : c.pcs own = .user
  others : ∀ i event, c.pcs i = .push event → ∀ s, ¬c.shared.IsFor handle s event

/-- A record is filled in by the thread of the service, and pushed or refused. -/
theorem ask_push (h : Outside handle loop own c) {choice : TimerChoice} (event : TimerEvent)
    {c₁ : Config ι Timers TimerPc} (hask : fire timerPcStep c (own, choice) = some c₁)
    (hpc : c₁.pcs own = .push c.shared.next)
    (hheap : c₁.shared.heap = Function.update c.shared.heap c.shared.next event)
    (hem : c₁.shared.em = c.shared.em) (hpending : c₁.shared.pending = c.shared.pending)
    (hsent : c₁.shared.sent = c.shared.sent) {full : Bool}
    (hpush : fire timerPcStep c₁ (own, .pushed full) = some c') :
    Outside handle loop own c' ∧ c'.shared.created = c₁.shared.created ∧
      c'.shared.sent = c.shared.sent ∧
      Steady handle (fun _ => False) c.shared c₁.shared ∧ c.shared.next ∉ c₁.shared.held ∧
      (full = true → Steady handle (fun _ => False) c₁.shared c'.shared) ∧
      (full = false → c'.shared = { c₁.shared with em := c₁.shared.em ++ [c.shared.next] }) := by
  have hreach₁ := h.reach.tail hask
  have halloc : Steady handle (fun _ => False) c.shared c₁.shared :=
    .alloc (Timer.held_lt h.reach) hheap hem hpending
  have hfresh := (Timer.push_owned hreach₁ hpc).2
  obtain ⟨T₁, pc₁, -, hc₁⟩ := fire_eq_some.mp hask
  have hpcs : ∀ i, i ≠ own → c₁.pcs i = c.pcs i := fun i hi => by
    rw [hc₁]
    exact Function.update_of_ne hi _ _
  obtain ⟨T', pc', hs', hc'⟩ := fire_eq_some.mp hpush
  have hc' : c' = ⟨T', Function.update c₁.pcs own pc'⟩ := hc'
  have hs' : timerPcStep c₁.shared (.push c.shared.next) (.pushed full) = some (T', pc') := by
    rw [← hpc]
    exact hs'
  -- the other threads have what they had
  have hothers : ∀ i event', i ≠ own → c.pcs i = .push event' → ∀ s,
      ¬c₁.shared.IsFor handle s event' := by
    intro i event' _ hi s hfor
    refine h.others i event' hi s ?_
    have hlt := (Timer.push_owned h.reach hi).1
    unfold Timers.IsFor at hfor ⊢
    rw [hheap, Function.update_of_ne (Nat.ne_of_lt hlt)] at hfor
    exact hfor
  have houtside : pc' = .user → T'.heap = c₁.shared.heap → Outside handle loop own c' := by
    intro huser hheap'
    refine ⟨hreach₁.tail hpush, ?_, fun i event' hi s => ?_⟩
    · rw [hc', huser]
      exact Function.update_self _ _ _
    · have hi : Function.update c₁.pcs own pc' i = .push event' := by
        rw [hc'] at hi
        exact hi
      rw [hc']
      by_cases heq : i = own
      · rw [heq, huser, Function.update_self] at hi
        cases hi
      · rw [Function.update_of_ne heq, hpcs i heq] at hi
        unfold Timers.IsFor
        rw [hheap']
        exact hothers i event' heq hi s
  cases full with
  | true =>
      cases hs'
      refine ⟨houtside rfl rfl, ?_, ?_, halloc, hfresh, fun _ => ?_, by rintro ⟨⟩⟩
      · rw [hc']
        rfl
      · rw [hc']
        exact hsent
      · rw [hc']
        exact .same rfl rfl rfl
  | false =>
      cases hs'
      refine ⟨houtside rfl rfl, ?_, ?_, halloc, hfresh, by rintro ⟨⟩, fun _ => by rw [hc']⟩
      · rw [hc']
      · rw [hc']
        exact hsent

variable {P : Clocked ι}

omit [Fintype ι] in
theorem Clocked.ask_cases {choice : TimerChoice} {full : Bool}
    (hs : P.ask own choice full = some c') :
    ∃ c₁, fire timerPcStep P.timers (own, choice) = some c₁ ∧
      ((∃ event, c₁.pcs own = .push event ∧ fire timerPcStep c₁ (own, .pushed full) = some c') ∨
        (∀ event, c₁.pcs own ≠ .push event) ∧ c' = c₁) := by
  unfold Clocked.ask at hs
  split at hs
  · cases hs
  · rename_i c₁ hfire
    refine ⟨c₁, hfire, ?_⟩
    split at hs
    · rename_i event hpc
      exact Or.inl ⟨event, hpc, hs⟩
    · rename_i hpc
      exact Or.inr ⟨hpc, (Option.some.inj hs).symm⟩

/-- `z.timercancel` -/
theorem ask_cancel (h : Outside handle loop own P.timers) {id : Nat} {full : Bool}
    (hs : P.ask own (.cancel id) full = some c') :
    Outside handle loop own c' ∧ c'.shared.created = P.timers.shared.created ∧
      c'.shared.sent = P.timers.shared.sent ∧
      Steady handle (fun _ => False) P.timers.shared c'.shared ∧
      (full = false → ∀ s p, c'.shared.Due handle s p → (c'.shared.heap p).sn ≠ id) := by
  obtain ⟨c₁, hask, hcases⟩ := Clocked.ask_cases hs
  obtain ⟨T₁, pc₁, hstep, hc₁⟩ := fire_eq_some.mp hask
  have hc₁ : c₁ = ⟨T₁, Function.update P.timers.pcs own pc₁⟩ := hc₁
  simp only [h.own, timerPcStep, Option.some.injEq, Prod.mk.injEq] at hstep
  obtain ⟨hT₁, hpc₁⟩ := hstep
  have hpc : c₁.pcs own = .push P.timers.shared.next := by
    rw [hc₁, ← hpc₁]
    exact Function.update_self _ _ _
  have hT₁ : c₁.shared = P.timers.shared.zmalloc ⟨0, 0, id, 0, 0, 1⟩ := by rw [hc₁, hT₁]
  rcases hcases with ⟨event, -, hpush⟩ | ⟨hnot, -⟩
  · obtain ⟨houtside, hcreated, hsent, halloc, -, hrefused, hpushed⟩ :=
      ask_push h ⟨0, 0, id, 0, 0, 1⟩ hask hpc (by rw [hT₁]; rfl) (by rw [hT₁]; rfl)
        (by rw [hT₁]; rfl) (by rw [hT₁]; rfl) hpush
    have hcreated : c'.shared.created = P.timers.shared.created := by
      rw [hcreated, hT₁]
      rfl
    have hrecord : c₁.shared.heap P.timers.shared.next = ⟨0, 0, id, 0, 0, 1⟩ := by
      rw [hT₁]
      exact Function.update_self _ _ _
    cases full with
    | true => exact ⟨houtside, hcreated, hsent, halloc.trans (hrefused rfl), by rintro ⟨⟩⟩
    | false =>
        have hpushed := hpushed rfl
        have hnot : ∀ s, ¬c₁.shared.IsFor handle s P.timers.shared.next := fun s hfor => by
          have htype := hfor.1
          rw [hrecord] at htype
          cases htype
        refine ⟨houtside, hcreated, hsent, ?_, fun _ s p hdue hsn => ?_⟩
        · rw [hpushed]
          exact halloc.trans (.push hnot)
        · rw [hpushed] at hdue hsn
          refine hdue.2 (Timer.push_doomed hdue.1.2.1 ?_)
          unfold Timers.Cancels
          rw [hrecord]
          exact ⟨rfl, hsn.symm⟩
  · exact absurd hpc (hnot _)

/-- `z.timeout` -/
theorem ask_timeout (h : Outside handle loop own P.timers) {time nomore : Int} {session : Nat}
    {full : Bool} (hs : P.ask own (.timeout handle time session nomore) full = some c') :
    Outside handle loop own c' ∧
      c'.shared.created.length ≤ P.timers.shared.created.length + 1 ∧
      (time = 0 ∧ c'.shared.sent = P.timers.shared.sent ++ [⟨none, handle, session⟩] ∧
          Steady handle (fun _ => False) P.timers.shared c'.shared ∨
        time ≠ 0 ∧ c'.shared.sent = P.timers.shared.sent ∧
          (full = true ∧ Steady handle (fun _ => False) P.timers.shared c'.shared ∨
            full = false ∧
              Timer.Arms handle session (u32 (P.timers.shared.sn + 1) &&& 0x7fffffff) nomore
                P.timers.shared c'.shared ∧
              (∃ p, c'.shared.Armed handle session p) ∧
              c'.shared.shots handle session ≤ P.timers.shared.shots handle session + 1)) := by
  obtain ⟨c₁, hask, hcases⟩ := Clocked.ask_cases hs
  obtain ⟨T₁, pc₁, hstep, hc₁⟩ := fire_eq_some.mp hask
  have hc₁ : c₁ = ⟨T₁, Function.update P.timers.pcs own pc₁⟩ := hc₁
  simp only [h.own, timerPcStep, Timers.timerTimeout, Option.some.injEq] at hstep
  by_cases htime : time = 0
  · -- the tick is sent at once
    rw [if_pos htime] at hstep
    cases hstep
    have hself : c₁.pcs own = .user := by
      rw [hc₁]
      exact Function.update_self _ _ _
    rcases hcases with ⟨event, hpc, -⟩ | ⟨-, rfl⟩
    · rw [hself] at hpc
      cases hpc
    · refine ⟨⟨h.reach.tail hask, hself, fun i event hi s => ?_⟩, ?_, Or.inl ⟨htime, ?_, ?_⟩⟩
      · by_cases heq : i = own
        · rw [heq, hself] at hi
          cases hi
        · rw [hc₁] at hi ⊢
          exact h.others i event ((Function.update_of_ne heq _ _).symm.trans hi) s
      · rw [hc₁]
        exact Nat.le_succ _
      · rw [hc₁]
        rfl
      · rw [hc₁]
        exact .same rfl rfl rfl
  · rw [if_neg htime] at hstep
    cases hstep
    have hpc : c₁.pcs own = .push P.timers.shared.next := by
      rw [hc₁]
      exact Function.update_self _ _ _
    rcases hcases with ⟨event, -, hpush⟩ | ⟨hnot, -⟩
    · obtain ⟨houtside, hcreated, hsent, halloc, hfresh, hrefused, hpushed⟩ :=
        ask_push h ⟨u32 (P.timers.shared.sn + 1) &&& 0x7fffffff, handle, session, time, nomore, 0⟩
          hask hpc (by rw [hc₁]; rfl) (by rw [hc₁]; rfl) (by rw [hc₁]; rfl)
          (by rw [hc₁]; rfl) hpush
      refine ⟨houtside, ?_, Or.inr ⟨htime, hsent, ?_⟩⟩
      · rw [hcreated, hc₁]
        exact Nat.le_of_eq (List.length_append ..)
      · have hrecord : c₁.shared.heap P.timers.shared.next =
            ⟨u32 (P.timers.shared.sn + 1) &&& 0x7fffffff, handle, session, time, nomore, 0⟩ := by
          rw [hc₁]
          exact Function.update_self _ _ _
        cases full with
        | true => exact Or.inl ⟨rfl, halloc.trans (hrefused rfl)⟩
        | false =>
            refine Or.inr ⟨rfl, ?_⟩
            have hfor : c₁.shared.IsFor handle session P.timers.shared.next := by
              unfold Timers.IsFor
              rw [hrecord]
              exact ⟨rfl, rfl, rfl⟩
            obtain ⟨harmed, hdue, hshots⟩ := Timer.push_armed hfresh hfor
            have hself := (harmed session P.timers.shared.next).mpr (Or.inr ⟨rfl, rfl⟩)
            rw [hpushed rfl]
            refine ⟨halloc.then_arms ⟨fun s p hp => ?_, fun s p hp => rfl, fun s p hp => ?_,
              fun s p hne hp => ?_, fun s hne => ?_⟩, ⟨_, hself⟩, ?_⟩
            · refine ((harmed s p).mp hp).imp_right ?_
              rintro ⟨rfl, hs⟩
              refine ⟨hs, ?_⟩
              show (c₁.shared.heap P.timers.shared.next).sn = _ ∧
                (c₁.shared.heap P.timers.shared.next).noMore = _
              rw [hrecord]
              exact ⟨rfl, rfl⟩
            · exact (harmed s p).mpr (Or.inl hp)
            · exact (hdue s p hp).resolve_right fun hboth => hne hboth.2
            · rw [hshots s, if_neg hne]
              exact Nat.le_refl _
            · rw [hshots session, if_pos rfl]
              exact Nat.succ_le_succ (halloc.shots session)
    · exact absurd hpc (hnot _)

/-- Another thread runs, and pushes no timer of the service. -/
theorem Outside.step (h : Outside handle loop own c) {i : ι} (hi : i ≠ own) {choice : TimerChoice}
    {T' : Timers} {pc' : TimerPc} (hs : timerPcStep c.shared (c.pcs i) choice = some (T', pc'))
    (hheap : ∀ event < c.shared.next, T'.heap event = c.shared.heap event)
    (hpc' : ∀ event, pc' = .push event → ∀ s, ¬T'.IsFor handle s event) :
    Outside handle loop own ⟨T', Function.update c.pcs i pc'⟩ := by
  have hf : fire timerPcStep c (i, choice) = some ⟨T', Function.update c.pcs i pc'⟩ :=
    fire_eq_some.mpr ⟨T', pc', hs, rfl⟩
  refine ⟨h.reach.tail hf, (Function.update_of_ne (Ne.symm hi) _ _).trans h.own, fun j event hj s => ?_⟩
  by_cases hji : j = i
  · rw [hji] at hj
    exact hpc' event ((Function.update_self i pc' c.pcs).symm.trans hj) s
  · have hj : c.pcs j = .push event := (Function.update_of_ne hji _ _).symm.trans hj
    have hlt := (Timer.push_owned h.reach hj).1
    show ¬T'.IsFor handle s event
    unfold Timers.IsFor
    rw [hheap event hlt]
    exact h.others j event hj s

omit [DecidableEq ι] [Fintype ι] in
theorem post_ticks {L : Service} {new : List Tick}
    (hsent : c'.shared.sent = P.timers.shared.sent ++ new) :
    (P.post handle L c').ticks =
      P.ticks ++ (new.filter fun tick => tick.dest = (handle : Int)).map Tick.session := by
  unfold Clocked.post
  rw [hsent, List.drop_left]

omit [DecidableEq ι] [Fintype ι] in
theorem post_ticks_nil {L : Service} (hsent : c'.shared.sent = P.timers.shared.sent) :
    (P.post handle L c').ticks = P.ticks := by
  have hnil : c'.shared.sent = P.timers.shared.sent ++ [] := by rw [hsent, List.append_nil]
  rw [post_ticks hnil]
  exact List.append_nil _

omit [DecidableEq ι] [Fintype ι] in
theorem post_ticks_other {L : Service} {tick : Tick}
    (hsent : c'.shared.sent = P.timers.shared.sent ++ [tick]) (hdest : tick.dest ≠ handle) :
    (P.post handle L c').ticks = P.ticks := by
  rw [post_ticks hsent, List.filter_cons_of_neg (by simpa using hdest)]
  exact List.append_nil _

omit [DecidableEq ι] [Fintype ι] in
theorem post_ticks_own {L : Service} {tick : Tick}
    (hsent : c'.shared.sent = P.timers.shared.sent ++ [tick]) (hdest : tick.dest = handle) :
    (P.post handle L c').ticks = P.ticks ++ [tick.session] := by
  rw [post_ticks hsent, List.filter_cons_of_pos (by simpa using hdest)]
  rfl

omit [DecidableEq ι] [Fintype ι] in
/-- The timer thread calls `timeProc`. -/
theorem thread_fire (hknown : P.timers.shared.Known)
    (htype : ∀ e ∈ P.timers.shared.pending, (P.timers.shared.heap e.2).type = 0)
    (hagree : Agree handle P.service P.timers.shared P.ticks) {k : Nat} {te : Timer.AeTimeEvent}
    (hk : P.timers.shared.timeEventHead[k]? = some te) {ret curSec curMs : Int}
    (hret : (P.timers.shared.heap te.clientData).dest = handle → 0 ≤ ret)
    (hattended : (P.timers.shared.heap te.clientData).dest = handle →
      P.timers.shared.Doomed te.clientData →
        P.service.Attended (P.timers.shared.heap te.clientData).value)
    (hc' : c'.shared = P.timers.shared.runTimeEvent k te ret curSec curMs) :
    Agree handle P.service c'.shared (P.post handle P.service c').ticks := by
  obtain ⟨hsteady, hended⟩ := Steady.fire handle hk hknown ret curSec curMs
  have hsent := Timer.runTimeEvent_sent P.timers.shared k te ret curSec curMs
  rw [← hc'] at hsteady hended hsent
  have hmem := Timer.Timers.mem_pending (List.mem_of_getElem? hk)
  by_cases hdest : (P.timers.shared.heap te.clientData).dest = handle
  · have harmed : P.timers.shared.Armed handle (P.timers.shared.heap te.clientData).value
        te.clientData :=
      ⟨List.mem_append_right _ (List.mem_map.mpr ⟨_, hmem, rfl⟩), htype _ hmem, hdest, rfl⟩
    rw [post_ticks_own hsent hdest]
    refine hagree.fire harmed hsteady (fun hnomore => hended ?_ _ harmed.2) ?_
    · unfold Timer.timeProc
      rw [if_neg (Int.not_lt.mpr (hret hdest)), if_pos hnomore]
    · by_cases hdoomed : P.timers.shared.Doomed te.clientData
      · exact hattended hdest hdoomed
      · exact hagree.attended _ (Or.inr ⟨_, harmed, hdoomed⟩)
  · rw [post_ticks_other hsent hdest]
    refine hagree.steady hsteady fun co v _ _ _ _ p hp heq => hdest ?_
    rw [← heq]
    exact hp.2.2.1

omit [DecidableEq ι] [Fintype ι] in
/-- The timer thread takes up a record. -/
theorem thread_recv (hknown : P.timers.shared.Known)
    (hagree : Agree handle P.service P.timers.shared P.ticks) (hsound : Sound P.service none)
    {msg : EventPtr} {em : List EventPtr} (hem : P.timers.shared.em = msg :: em)
    (hreg : ∀ co < P.service.next, ∀ v ∈ P.service.timers co, v.stage ≠ .busy →
      P.service.sessionIdCoroutine v.session = some co → v.session ∉ P.ticks →
        ∀ e ∈ P.timers.shared.pending, P.timers.shared.IsFor handle v.session e.2 →
          ¬P.timers.shared.Cancels msg e.2) {curSec curMs : Int}
    (hc' : c'.shared = ({ P.timers.shared with em := em } : Timers).emCallback msg curSec curMs) :
    Agree handle P.service c'.shared (P.post handle P.service c').ticks := by
  have hsteady := Steady.recv handle hem hknown curSec curMs
  rw [← hc'] at hsteady
  rw [post_ticks_nil (by rw [hc', Timer.emCallback_sent])]
  refine hagree.steady hsteady fun co v hv hstage hs htick p hp hgone => ?_
  obtain ⟨hpem, hcancels⟩ := hgone
  have hheld := hp.1
  unfold Timers.held at hheld
  rw [hem, List.cons_append, List.mem_cons, List.mem_append] at hheld
  rcases hheld with rfl | hheld | hheld
  · have htype := hp.2.1
    rw [hcancels.1] at htype
    cases htype
  · exact hpem hheld
  · obtain ⟨e, he, rfl⟩ := List.mem_map.mp hheld
    exact hreg co (timers_lt hsound hv) v hv hstage hs htick e he hp.2 hcancels

omit [DecidableEq ι] [Fintype ι] in
theorem agree_steady (hagree : Agree handle P.service P.timers.shared P.ticks)
    (hsteady : Steady handle (fun _ => False) P.timers.shared c'.shared)
    (hticks : (P.post handle P.service c').ticks = P.ticks) :
    Agree handle P.service c'.shared (P.post handle P.service c').ticks := by
  rw [hticks]
  exact hagree.steady hsteady fun _ _ _ _ _ _ _ _ => id

/-- Another thread runs. -/
theorem thread_agrees (h : Outside handle loop own P.timers)
    (hfew : P.timers.shared.created.length < 2 ^ 31) (hsound : Sound P.service none)
    (hagree : Agree handle P.service P.timers.shared P.ticks) {i : ι} {choice : TimerChoice}
    (hi : i ≠ own) (hallows : P.Allows handle i choice) (hreg : P.Regular handle (.thread i choice))
    (hf : fire timerPcStep P.timers (i, choice) = some c') :
    Outside handle loop own c' ∧ c'.shared.created.length < 2 ^ 31 ∧
      Agree handle P.service c'.shared (P.post handle P.service c').ticks := by
  have hknown := Timer.timers_known h.reach hfew
  have hlt := Timer.held_lt h.reach
  obtain ⟨T', pc', hs, hc'⟩ := fire_eq_some.mp hf
  have hs : timerPcStep P.timers.shared (P.timers.pcs i) choice = some (T', pc') := hs
  have hc' : c' = ⟨T', Function.update P.timers.pcs i pc'⟩ := hc'
  have houtside := h.step hi hs
  rw [hc']
  have hheap : ∀ (event : TimerEvent), ∀ e < P.timers.shared.next,
      Function.update P.timers.shared.heap P.timers.shared.next event e = P.timers.shared.heap e :=
    fun event e he => Function.update_of_ne (Nat.ne_of_lt he) _ _
  have hrequest : ∀ event : TimerEvent, event.type ≠ 0 → ∀ event', TimerPc.push P.timers.shared.next =
      .push event' → ∀ s, ¬(P.timers.shared.zmalloc event).IsFor handle s event' := by
    rintro event htype _ ⟨⟩ s ⟨hzero, -⟩
    rw [show (P.timers.shared.zmalloc event).heap P.timers.shared.next = event from
      Function.update_self _ _ _] at hzero
    exact htype hzero
  cases hpc : P.timers.pcs i with
  | user =>
      rw [hpc] at hs
      cases choice with
      | timeout dest time session noMore =>
          simp only [Clocked.Allows, hpc] at hallows
          simp only [Clocked.Regular, hpc] at hreg
          simp only [timerPcStep, Timers.timerTimeout, Option.some.injEq] at hs
          by_cases htime : time = 0
          · rw [if_pos htime] at hs
            cases hs
            refine ⟨houtside (fun _ _ => rfl) (by rintro _ ⟨⟩), hfew, agree_steady hagree
              (.same rfl rfl rfl) (post_ticks_other rfl hallows)⟩
          · rw [if_neg htime] at hs
            cases hs
            refine ⟨houtside (hheap _) ?_, ?_, agree_steady hagree
              (.alloc hlt rfl rfl rfl) (post_ticks_nil rfl)⟩
            · rintro _ ⟨⟩ s ⟨-, hdest, -⟩
              have hself : Function.update P.timers.shared.heap P.timers.shared.next
                  ⟨u32 (P.timers.shared.sn + 1) &&& 0x7fffffff, dest, session, time, noMore, 0⟩
                  P.timers.shared.next = _ := Function.update_self _ _ _
              exact hallows ((congrArg TimerEvent.dest hself).symm.trans hdest)
            · show (P.timers.shared.created ++ [_]).length < _
              rw [List.length_append]
              exact hreg
      | cancel sn =>
          cases hs
          exact ⟨houtside (hheap _) (hrequest _ Nat.one_ne_zero), hfew, agree_steady hagree
            (.alloc hlt rfl rfl rfl) (post_ticks_nil rfl)⟩
      | stop =>
          cases hs
          exact ⟨houtside (hheap _) (hrequest _ (by decide)), hfew, agree_steady hagree
            (.alloc hlt rfl rfl rfl) (post_ticks_nil rfl)⟩
      | _ => cases hs
  | push event =>
      rw [hpc] at hs
      cases choice with
      | pushed full =>
          cases full with
          | false =>
              cases hs
              exact ⟨houtside (fun _ _ => rfl) (by rintro _ ⟨⟩), hfew, agree_steady hagree
                (.push (h.others i event hpc)) (post_ticks_nil rfl)⟩
          | true =>
              cases hs
              exact ⟨houtside (fun _ _ => rfl) (by rintro _ ⟨⟩), hfew, agree_steady hagree
                (.same rfl rfl rfl) (post_ticks_nil rfl)⟩
      | _ => cases hs
  | loop =>
      rw [hpc] at hs
      cases choice with
      | recv curSec curMs =>
          simp only [Clocked.Regular, hpc] at hreg
          simp only [timerPcStep] at hs
          split at hs
          · cases hs
          · rename_i msg em hem
            cases hs
            obtain ⟨-, hheap', hcreated, -⟩ :=
              Timer.emCallback_keeps { P.timers.shared with em := em } msg curSec curMs
            refine ⟨houtside (fun _ _ => by rw [hheap']) (by rintro _ ⟨⟩), ?_,
              thread_recv hknown hagree hsound hem (hreg msg (by rw [hem]; rfl)) rfl⟩
            rw [hcreated]
            exact hfew
      | process now =>
          cases hs
          refine ⟨houtside (fun _ _ => rfl) (by rintro _ ⟨⟩), hfew, agree_steady hagree
            (.same rfl rfl ?_) (post_ticks_nil rfl)⟩
          unfold Timers.pending
          simp only
          split
          · rw [List.map_map]
            rfl
          · rfl
      | _ => cases hs
  | scan maxId k =>
      rw [hpc] at hs
      cases choice with
      | look nowSec nowMs ret curSec curMs =>
          simp only [Clocked.Allows, hpc] at hallows
          simp only [Clocked.Regular, hpc] at hreg
          have hstill : ∀ pc₁ : TimerPc, (∀ event, pc₁ ≠ .push event) →
              (P.timers.shared, pc₁) = (T', pc') → Outside handle loop own
                ⟨T', Function.update P.timers.pcs i pc'⟩ ∧ T'.created.length < 2 ^ 31 ∧
                Agree handle P.service T' (P.post handle P.service
                  ⟨T', Function.update P.timers.pcs i pc'⟩).ticks := by
            rintro pc₁ hne ⟨⟩
            exact ⟨houtside (fun _ _ => rfl) (fun event heq => absurd heq (hne event)), hfew,
              agree_steady hagree (.same rfl rfl rfl) (post_ticks_nil rfl)⟩
          simp only [timerPcStep] at hs
          split at hs
          · exact hstill _ (by split <;> rintro _ ⟨⟩) (Option.some.inj hs)
          · rename_i te hk
            split at hs
            · exact hstill _ (by rintro _ ⟨⟩) (Option.some.inj hs)
            · rename_i hmax
              split at hs
              · rename_i hdue
                cases hs
                obtain ⟨-, hheap', hcreated, -⟩ :=
                  Timer.runTimeEvent_keeps P.timers.shared ret curSec curMs hk
                refine ⟨houtside (fun _ _ => by rw [hheap']) (by rintro _ ⟨⟩), by rw [hcreated]; exact hfew,
                  thread_fire hknown (fun e he => ?_) hagree hk (hallows te hk)
                    (hreg te hk (Int.not_lt.mp hmax) hdue) rfl⟩
                have hmem := hknown.timer e he
                obtain ⟨n, hn⟩ := List.mem_iff_getElem?.mp hmem
                exact ((Timer.timers_numbered h.reach).created n e.2 hn).2.1
              · exact hstill _ (by rintro _ ⟨⟩) (Option.some.inj hs)
      | _ => cases hs
  | stopped =>
      rw [hpc] at hs
      cases hs

end Threads

end Lua
end ZServer
