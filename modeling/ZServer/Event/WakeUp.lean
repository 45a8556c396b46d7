/-
  ZServer.Event.WakeUp

  When the event loop is woken for every message.

  A producer sends a wake-up byte when it reads a count of 1 after its push.
  Between its atomic addition and that read another producer may add as well;
  both then read 2 and nobody sends.  `em_wakes_of_quietCounts` says that this
  is the only way to lose a wake-up, `em_silent_forever` that it silences the
  event loop for good.
-/

import ZServer.Event.MsgQueue
import ZServer.Ring.Answers

namespace ZServer

open Lib

variable {α ι : Type}

/-! ## The property -/

/-- With a published item in the queue and every thread outside `emPush` and
    `popMsgqueue`, a wake-up byte is under way. -/
def EmWakes (c : Config ι (Em α) (EmPc α)) : Prop :=
  c.shared.queue.readIndex < c.shared.queue.maximumReadIndex →
    (∀ i, c.pcs i = .outside ∨ c.pcs i = .waiting) → 1 ≤ c.shared.pending

/-- The event loop will not look into the ring before the next wake-up byte. -/
def EmPc.away : EmPc α → Bool
  | .waiting => true
  | .pop (.popRet none) => true
  | _ => false

/-- The event loop is away and no wake-up byte is under way or about to be. -/
structure EmQuiet (loop : ι) (c : Config ι (Em α) (EmPc α)) : Prop where
  away : (c.pcs loop).away = true
  pending : c.shared.pending = 0
  no_send : ∀ i, c.pcs i ≠ .send

instance [Fintype ι] (c : Config ι (Em α) (EmPc α)) [DecidableEq α] : Decidable (EmWakes c) :=
  inferInstanceAs (Decidable (_ → _))

instance [Fintype ι] [DecidableEq α] (loop : ι) (c : Config ι (Em α) (EmPc α)) :
    Decidable (EmQuiet loop c) :=
  decidable_of_iff ((c.pcs loop).away = true ∧ c.shared.pending = 0 ∧ ∀ i, c.pcs i ≠ .send)
    ⟨fun h => ⟨h.1, h.2.1, h.2.2⟩, fun h => ⟨h.away, h.pending, h.no_send⟩⟩

/-- The condition on a step: no producer's `AtomicAdd` takes the count from 1
    to 2 while all is quiet. -/
def QuietCount (loop : ι) (c : Config ι (Em α) (EmPc α)) (a : ι × α) : Prop :=
  match c.pcs a.1 with
  | .push (.pushCount _) => EmQuiet loop c → c.shared.queue.count ≠ 1
  | _ => True

instance [Fintype ι] [DecidableEq α] (loop : ι) (c : Config ι (Em α) (EmPc α)) (a : ι × α) :
    Decidable (QuietCount loop c a) := by
  unfold QuietCount
  split <;> infer_instance

/-! ## Who does what -/

/-- The program points of the event-loop thread. -/
def EmPc.isLoop : EmPc α → Bool
  | .waiting | .pop _ | .callback _ => true
  | _ => false

/-- A push stands at a point of a push, a pop at a point of a pop; and as
    nobody else pops, the read index of the event loop is current. -/
def EmPc.Ok (msgq : Em α) : EmPc α → Prop
  | .push (.pushReadWrite _) | .push (.pushReadRead _ _) | .push (.pushReserve _ _)
  | .push (.pushStore _ _) | .push (.pushPublish _ _) | .push (.pushCount _)
  | .push (.pushRet _) => True
  | .push _ => False
  | .pop (.popReadMax currentReadIndex) => currentReadIndex = msgq.queue.readIndex
  | .pop .popReadRead | .pop (.popLoad _) | .pop (.popClaim _ _) | .pop (.popCount _ _)
  | .pop (.popRet _) => True
  | .pop _ => False
  | _ => True

/-- What a step of a producer does, seen from the event loop. -/
inductive EmPushStep (msgq msgq' : Em α) (p p' : EmPc α) : Prop where
  /-- inside the ring, before the atomic addition -/
  | ring (hpending : msgq'.pending = msgq.pending)
      (hread : msgq'.queue.readIndex = msgq.queue.readIndex)
      (hcount : msgq'.queue.count = msgq.queue.count)
      (hret : p ≠ .push (.pushRet true)) (hsend : p ≠ .send) (hsend' : p' ≠ .send)
  | count (cw : Nat) (hp : p = .push (.pushCount cw)) (hp' : p' = .push (.pushRet true))
      (hshared : msgq'.pending = msgq.pending ∧ msgq'.queue.readIndex = msgq.queue.readIndex ∧
        msgq'.queue.maximumReadIndex = msgq.queue.maximumReadIndex)
      (hcount : msgq'.queue.count = msgq.queue.count + 1)
  /-- the read of the count -/
  | test (hp : p = .push (.pushRet true)) (hshared : msgq' = msgq)
      (hp' : p' = if ringCount msgq.queue = 1 then .send else .outside)
  | send (hp : p = .send) (hread : msgq'.queue.readIndex = msgq.queue.readIndex)
      (hpending : msgq'.pending = msgq.pending + 1)

theorem em_push_step {msgq msgq' : Em α} {p p' : EmPc α} {msg : α} (hrole : p.isLoop = false)
    (hL : p.Ok msgq) (hs : emStep msgq p msg = some (msgq', p')) :
    EmPushStep msgq msgq' p p' := by
  cases p with
  | outside => cases hs; refine .ring rfl rfl rfl ?_ ?_ ?_ <;> rintro ⟨⟩
  | push pc =>
      cases pc with
      | pushReadWrite item => cases hs; refine .ring rfl rfl rfl ?_ ?_ ?_ <;> rintro ⟨⟩
      | pushReadRead _ _ | pushReserve _ _ | pushPublish _ _ =>
          simp only [emStep, ringStep] at hs
          split at hs <;> (cases hs; refine .ring rfl rfl rfl ?_ ?_ ?_ <;> rintro ⟨⟩)
      | pushStore item cw => cases hs; refine .ring rfl rfl rfl ?_ ?_ ?_ <;> rintro ⟨⟩
      | pushCount cw => cases hs; exact .count cw rfl rfl ⟨rfl, rfl, rfl⟩ rfl
      | pushRet ret =>
          cases ret with
          | false => cases hs; refine .ring rfl rfl rfl ?_ ?_ ?_ <;> rintro ⟨⟩
          | true =>
              simp only [emStep] at hs
              split at hs
              · rename_i hone
                cases hs
                exact .test rfl rfl (if_pos hone).symm
              · rename_i hone
                cases hs
                exact .test rfl rfl (if_neg hone).symm
      | _ => exact hL.elim
  | send => cases hs; exact .send rfl rfl rfl
  | _ => cases hrole

/-- A step of the event loop that ends away from the ring comes from a pop that
    found it empty, or only leaves `popMsgqueue`. -/
theorem em_away_step {msgq msgq' : Em α} {p p' : EmPc α} {msg : α} (hrole : p.isLoop = true)
    (hs : emStep msgq p msg = some (msgq', p')) (haway : p'.away = true) :
    msgq' = msgq ∧ ((∃ cr, p = .pop (.popReadMax cr) ∧
      countToIndex msgq.queue cr = countToIndex msgq.queue msgq.queue.maximumReadIndex) ∨
        p.away = true) := by
  cases p with
  | pop pc =>
      cases pc with
      | popReadMax cr =>
          simp only [emStep, ringStep] at hs
          split at hs
          · rename_i htest
            cases hs
            exact ⟨rfl, Or.inl ⟨cr, rfl, htest⟩⟩
          · cases hs; cases haway
      | popRet ret =>
          cases ret with
          | none => cases hs; exact ⟨rfl, Or.inr rfl⟩
          | some qdata => cases hs; cases haway
      | idle => cases hs; cases haway
      | pushReadRead _ _ | pushReserve _ _ | pushPublish _ _ | popClaim _ _ =>
          simp only [emStep, ringStep] at hs
          split at hs <;> (cases hs; cases haway)
      | _ => cases hs; cases haway
  | waiting =>
      simp only [emStep] at hs
      split at hs <;> cases hs
      cases haway
  | callback qdata => cases hs; cases haway
  | _ => cases hrole

/-- A step keeps the thread's role. -/
theorem em_step_role {msgq msgq' : Em α} {p p' : EmPc α} {msg : α}
    (hs : emStep msgq p msg = some (msgq', p')) : p'.isLoop = p.isLoop := by
  cases p with
  | push pc =>
      cases pc with
      | pushRet ret =>
          cases ret with
          | false => cases hs; rfl
          | true =>
              simp only [emStep] at hs
              split at hs <;> (cases hs; rfl)
      | _ =>
          obtain ⟨pc', rfl, -⟩ := em_step_push (by rintro _ ⟨⟩) hs
          rfl
  | pop pc =>
      cases pc with
      | popRet ret => cases ret <;> (cases hs; rfl)
      | _ =>
          obtain ⟨pc', rfl, -⟩ := em_step_pop (by rintro _ ⟨⟩) hs
          rfl
  | waiting =>
      simp only [emStep] at hs
      split at hs
      · cases hs; rfl
      · cases hs
  | _ => cases hs; rfl

theorem em_step_ok {msgq msgq' : Em α} {p p' : EmPc α} {msg : α} (hL : p.Ok msgq)
    (hs : emStep msgq p msg = some (msgq', p')) : p'.Ok msgq' := by
  cases p with
  | outside => cases hs; trivial
  | push pc =>
      cases pc with
      | pushRet ret =>
          cases ret with
          | false => cases hs; trivial
          | true =>
              simp only [emStep] at hs
              split at hs <;> (cases hs; trivial)
      | pushReadRead _ _ | pushReserve _ _ | pushPublish _ _ =>
          simp only [emStep, ringStep] at hs
          split at hs <;> (cases hs; trivial)
      | pushReadWrite _ | pushStore _ _ | pushCount _ => cases hs; trivial
      | _ => exact hL.elim
  | pop pc =>
      cases pc with
      | popRet ret => cases ret <;> (cases hs; trivial)
      | popReadRead => cases hs; exact rfl
      | popReadMax _ | popClaim _ _ =>
          simp only [emStep, ringStep] at hs
          split at hs <;> (cases hs; trivial)
      | popLoad _ | popCount _ _ => cases hs; trivial
      | _ => exact hL.elim
  | waiting =>
      simp only [emStep] at hs
      split at hs
      · cases hs; trivial
      · cases hs
  | _ => cases hs; trivial

/-! ## Every reachable configuration -/

section Reachable

variable [DecidableEq ι] [Inhabited α]

/-- `loop` and no other thread runs the event loop, and every thread's program
    point fits its role. -/
structure EmRoles (loop : ι) (c : Config ι (Em α) (EmPc α)) : Prop where
  role : ∀ i, (c.pcs i).isLoop = decide (i = loop)
  ok : ∀ i, (c.pcs i).Ok c.shared

omit [Inhabited α] in
theorem EmRoles.step {loop : ι} {c c' : Config ι (Em α) (EmPc α)} {a : ι × α}
    (h : EmRoles loop c) (hf : fire emStep c a = some c') : EmRoles loop c' := by
  obtain ⟨msgq', p', hs, rfl⟩ := fire_eq_some.mp hf
  refine ⟨fun i => ?_, fun i => ?_⟩
  · by_cases hi : i = a.1
    · subst hi
      simp only [Function.update_self]
      rw [em_step_role hs]
      exact h.role a.1
    · simp only [Function.update_of_ne hi]
      exact h.role i
  · by_cases hi : i = a.1
    · subst hi
      simp only [Function.update_self]
      exact em_step_ok (h.ok a.1) hs
    · simp only [Function.update_of_ne hi]
      have hok := h.ok i
      by_cases hloop : i = loop
      · -- the stepping thread is a producer, and producers do not move `readIndex`
        have hrole : (c.pcs a.1).isLoop = false := by
          rw [h.role a.1]
          exact decide_eq_false (fun ha => hi (hloop.trans ha.symm))
        have hread : msgq'.queue.readIndex = c.shared.queue.readIndex := by
          rcases em_push_step hrole (h.ok a.1) hs with
            ⟨-, hr, -⟩ | ⟨-, -, -, hr, -⟩ | ⟨-, rfl, -⟩ | ⟨-, hr, -⟩
          · exact hr
          · exact hr.2.1
          · rfl
          · exact hr
        cases hpc : c.pcs i with
        | pop pc =>
            rw [hpc] at hok
            cases pc with
            | popReadMax cr => exact hok.trans hread.symm
            | _ => exact hok
        | push pc =>
            rw [hpc] at hok
            cases pc <;> exact hok
        | _ => trivial
      · have hrole := h.role i
        rw [decide_eq_false hloop] at hrole
        cases hpc : c.pcs i with
        | push pc =>
            rw [hpc] at hok
            cases pc <;> exact hok
        | waiting | pop _ | callback _ => rw [hpc] at hrole; cases hrole
        | _ => trivial

theorem em_roles_of_reachable {loop : ι} {size : Nat} {c : Config ι (Em α) (EmPc α)}
    (h : Reachable (fire emStep) (emInit loop size) c) : EmRoles loop c := by
  refine h.invariant (J := EmRoles loop) ⟨fun i => ?_, fun i => ?_⟩ fun _ _ _ hc hf => hc.step hf
  · by_cases hi : i = loop
    · simp [emInit, hi, EmPc.isLoop]
    · simp [emInit, hi, EmPc.isLoop]
  · by_cases hi : i = loop
    · simp [emInit, hi, EmPc.Ok]
    · simp [emInit, hi, EmPc.Ok]

/-- The count as the threads of the event queue leave it. -/
theorem em_count_of_reachable [Fintype ι] {loop : ι} {size : Nat}
    {c : Config ι (Em α) (EmPc α)} (h : Reachable (fire emStep) (emInit loop size) c) :
    c.shared.queue.count + ∑ i, (c.pcs i).toRing.uncounted =
      c.shared.queue.maximumReadIndex - c.shared.queue.readIndex :=
  ring_count_of_reachable (em_ring_reachable h)

/-- Nothing but a pop makes the count exceed the unclaimed items. -/
theorem em_count_le [Fintype ι] {loop : ι} {size : Nat} {c : Config ι (Em α) (EmPc α)}
    (h : Reachable (fire emStep) (emInit loop size) c) (haway : (c.pcs loop).away = true) :
    c.shared.queue.count ≤ c.shared.queue.maximumReadIndex - c.shared.queue.readIndex := by
  have hroles := em_roles_of_reachable h
  have hnonneg : 0 ≤ ∑ i, (c.pcs i).toRing.uncounted := by
    apply Finset.sum_nonneg
    intro i _
    cases hpc : c.pcs i with
    | push pc =>
        have hok := hroles.ok i
        rw [hpc] at hok
        cases pc with
        | pushCount cw => exact Int.one_nonneg
        | popCount _ _ => exact hok.elim
        | _ => exact Int.le_refl 0
    | pop pc =>
        -- the thread that pops is the event loop, which is away
        have hi : i = loop := by
          have hrole := hroles.role i
          rw [hpc] at hrole
          exact of_decide_eq_true hrole.symm
        rw [← hi, hpc] at haway
        cases pc with
        | popRet ret => exact Int.le_refl 0
        | _ => cases haway
    | _ => exact Int.le_refl 0
  have hcount := em_count_of_reachable h
  omega

/-! ## The invariant of the wake-up -/

/-- While all is quiet with an item in the queue, the count has not been seen
    past 1: it is not positive, or it is 1 and the producer that made it so is
    about to read it. -/
def EmWoken (loop : ι) (c : Config ι (Em α) (EmPc α)) : Prop :=
  EmQuiet loop c → c.shared.queue.readIndex < c.shared.queue.maximumReadIndex →
    c.shared.queue.count ≤ 0 ∨
      (c.shared.queue.count = 1 ∧ ∃ i, c.pcs i = .push (.pushRet true))

/-- The event loop moves and ends away from the ring. -/
theorem EmWoken.loop_step {k : Nat} {loop : ι} {c : Config ι (Em α) (EmPc α)} {msgq' : Em α}
    {p' : EmPc α} {msg : α} (hr : Reachable (fire emStep) (emInit loop (2 ^ k)) c)
    (h : EmWoken loop c) (hs : emStep c.shared (c.pcs loop) msg = some (msgq', p')) :
    EmWoken loop ⟨msgq', Function.update c.pcs loop p'⟩ := by
  rintro ⟨haway, hpending, hsend⟩ hitem
  simp only [Function.update_self] at haway hpending hsend hitem
  have hroles := em_roles_of_reachable hr
  have hrole : (c.pcs loop).isLoop = true := by
    rw [hroles.role loop]
    exact decide_eq_true rfl
  obtain ⟨rfl, hfrom⟩ := em_away_step hrole hs haway
  rcases hfrom with ⟨cr, hp, htest⟩ | hstay
  · -- its pop found the ring empty, and nobody else pops
    have hJ : c.shared.queue.Ok k := (ring_sat_of_reachable (em_ring_reachable hr)).shared
    have hcr : cr = c.shared.queue.readIndex := by
      have hloc := hroles.ok loop
      rw [hp] at hloc
      exact hloc
    rw [hcr] at htest
    have hmax := hJ.max_le
    have hwr := hJ.write_lt
    have hempty : c.shared.queue.readIndex = c.shared.queue.maximumReadIndex :=
      hJ.empty_of_test (Nat.le_refl _) htest (by omega)
    omega
  · have hother : ∀ i p, p.away = false → c.pcs i = p → i ≠ loop := by
      intro i p hp hi hloop
      rw [← hloop, hi, hp] at hstay
      cases hstay
    have hquiet : EmQuiet loop c := by
      refine ⟨hstay, hpending, fun i hi => hsend i ?_⟩
      rw [Function.update_of_ne (hother i _ rfl hi)]
      exact hi
    rcases h hquiet hitem with hle | ⟨hone, i, hi⟩
    · exact Or.inl hle
    · refine Or.inr ⟨hone, i, ?_⟩
      show Function.update c.pcs loop p' i = _
      rw [Function.update_of_ne (hother i _ rfl hi)]
      exact hi

/-- A producer moves. -/
theorem EmWoken.push_step [Fintype ι] {size : Nat} {loop i : ι} {c : Config ι (Em α) (EmPc α)}
    {msgq' : Em α} {p' : EmPc α} {msg : α} (hr : Reachable (fire emStep) (emInit loop size) c)
    (h : EmWoken loop c) (hi : i ≠ loop) (hs : emStep c.shared (c.pcs i) msg = some (msgq', p'))
    (hok : QuietCount loop c (i, msg)) :
    EmWoken loop ⟨msgq', Function.update c.pcs i p'⟩ := by
  rintro ⟨haway, hpending, hsend⟩ hitem
  simp only [Function.update_of_ne (Ne.symm hi)] at haway hpending hsend hitem
  have hroles := em_roles_of_reachable hr
  have hrole : (c.pcs i).isLoop = false := by
    rw [hroles.role i]
    exact decide_eq_false hi
  have hcle := em_count_le hr haway
  have hquiet : c.shared.pending = 0 → c.pcs i ≠ .send → EmQuiet loop c := by
    refine fun hpend hnot => ⟨haway, hpend, fun j hj => ?_⟩
    by_cases hji : j = i
    · exact hnot (hji ▸ hj)
    · exact hsend j (by rw [Function.update_of_ne hji]; exact hj)
  show msgq'.queue.count ≤ 0 ∨ (msgq'.queue.count = 1 ∧
    ∃ j, Function.update c.pcs i p' j = .push (.pushRet true))
  rcases em_push_step hrole (hroles.ok i) hs with
    ⟨hpend, hread, hcount, hret, hnot, -⟩ | ⟨cw, hp, hp', ⟨hpend, hread, hmax⟩, hcount⟩ |
    ⟨hp, rfl, hp'⟩ | ⟨hp, hread, hpend⟩
  · rw [hcount]
    by_cases hold : c.shared.queue.readIndex < c.shared.queue.maximumReadIndex
    · rcases h (hquiet (hpend ▸ hpending) hnot) hold with hle | ⟨hone, j, hj⟩
      · exact Or.inl hle
      · refine Or.inr ⟨hone, j, ?_⟩
        have hji : j ≠ i := fun hji => hret (hji ▸ hj)
        rw [Function.update_of_ne hji]
        exact hj
    · -- the first item after an empty ring: it is not counted yet
      exact Or.inl (by omega)
  · have hq := hquiet (hpend ▸ hpending) (by rw [hp]; rintro ⟨⟩)
    have hne : c.shared.queue.count ≠ 1 := by
      simp only [QuietCount, hp] at hok
      exact hok hq
    rw [hcount]
    rcases h hq (by omega) with hle | ⟨hone, -⟩
    · by_cases hzero : c.shared.queue.count = 0
      · refine Or.inr ⟨by omega, i, ?_⟩
        rw [Function.update_self]
        exact hp'
      · exact Or.inl (by omega)
    · exact absurd hone hne
  · have hq := hquiet hpending (by rw [hp]; rintro ⟨⟩)
    have hnot : ringCount c.shared.queue ≠ 1 := by
      intro hone
      rw [if_pos hone] at hp'
      exact hsend i (by rw [Function.update_self]; exact hp')
    rcases h hq hitem with hle | ⟨hone, -⟩
    · exact Or.inl hle
    · exact absurd (by rw [ringCount, hone]; rfl) hnot
  · omega

theorem EmWoken.step [Fintype ι] {k : Nat} {loop : ι} {c c' : Config ι (Em α) (EmPc α)}
    {a : ι × α} (hr : Reachable (fire emStep) (emInit loop (2 ^ k)) c) (h : EmWoken loop c)
    (hf : fire emStep c a = some c') (hok : QuietCount loop c a) : EmWoken loop c' := by
  obtain ⟨msgq', p', hs, rfl⟩ := fire_eq_some.mp hf
  by_cases ha : a.1 = loop
  · rw [ha] at hs ⊢
    exact EmWoken.loop_step hr h hs
  · exact EmWoken.push_step hr h ha hs hok

/-- Once all threads are out, the invariant leaves a byte under way. -/
theorem EmWoken.wakes [Fintype ι] {size : Nat} {loop : ι} {c : Config ι (Em α) (EmPc α)}
    (hr : Reachable (fire emStep) (emInit loop size) c) (h : EmWoken loop c) : EmWakes c := by
  intro hitem hout
  have hsum : ∑ i, (c.pcs i).toRing.uncounted = 0 := by
    apply Finset.sum_eq_zero
    intro i _
    rcases hout i with hi | hi <;> (rw [hi]; rfl)
  have hcount := em_count_of_reachable hr
  have haway : (c.pcs loop).away = true := by
    have hrole := (em_roles_of_reachable hr).role loop
    rw [decide_eq_true rfl] at hrole
    rcases hout loop with hi | hi
    · rw [hi] at hrole
      cases hrole
    · rw [hi]
      rfl
  by_contra hpending
  have hquiet : EmQuiet loop c := by
    refine ⟨haway, by omega, fun i hi => ?_⟩
    rcases hout i with hi' | hi' <;> (rw [hi'] at hi; cases hi)
  rcases h hquiet hitem with hle | ⟨-, i, hi⟩
  · omega
  · rcases hout i with hi' | hi' <;> (rw [hi'] at hi; cases hi)

/-! ## Runs -/

/-- In every run in which no producer counts a second item while all is quiet,
    no wake-up is lost. -/
theorem em_wakes_of_quietCounts [Fintype ι] (loop : ι) (k : Nat) {as : List (ι × α)}
    (hok : AllSteps (fire emStep) (QuietCount loop) (emInit loop (2 ^ k)) as) :
    Always (fire emStep) EmWakes (emInit loop (2 ^ k)) as := by
  refine always_of_allSteps
    (J := fun c => Reachable (fire emStep) (emInit loop (2 ^ k)) c ∧ EmWoken loop c)
    (fun _ h => h.2.wakes h.1)
    (fun _ _ _ h hs hq => ⟨h.1.tail hs, h.2.step h.1 hs hq⟩) ⟨Reachable.refl _, ?_⟩ hok
  exact fun _ hitem => absurd hitem (Nat.lt_irrefl 0)

/-- One message, one wake-up byte, one call of `popMsgqueue`. -/
theorem em_wakes_one_message :
    let run : List (Fin 2 × Nat) := List.replicate 9 (1, 7) ++ List.replicate 11 (0, 0)
    Always (fire emStep) EmWakes (emInit 0 (2 ^ 2)) run :=
  em_wakes_of_quietCounts 0 2 (by decide)

/-- Two producers both count before either reads the count: both read 2, and
    two messages lie in the queue with no byte under way. -/
theorem em_lost_wakeup :
    let run : List (Fin 3 × Nat) :=
      List.replicate 6 (1, 7) ++ List.replicate 6 (2, 8) ++ [(1, 7), (2, 8), (1, 7), (2, 8)]
    ¬ Always (fire emStep) EmWakes (emInit 0 (2 ^ 2)) run := by
  decide

/-! ## After a lost wake-up -/

/-- All is quiet and the count is past 1. -/
structure EmSilent (loop : ι) (c : Config ι (Em α) (EmPc α)) : Prop where
  quiet : EmQuiet loop c
  count : 2 ≤ c.shared.queue.count

theorem EmSilent.step [Fintype ι] {k : Nat} (hk : k ≤ 32) {loop : ι}
    {c c' : Config ι (Em α) (EmPc α)} {a : ι × α}
    (hr : Reachable (fire emStep) (emInit loop (2 ^ k)) c) (h : EmSilent loop c)
    (hf : fire emStep c a = some c') : EmSilent loop c' := by
  obtain ⟨msgq', p', hs, rfl⟩ := fire_eq_some.mp hf
  obtain ⟨⟨haway, hpending, hsend⟩, hcount⟩ := h
  have hroles := em_roles_of_reachable hr
  have hother : ∀ q, q ≠ EmPc.send → ∀ i, Function.update c.pcs a.1 q i ≠ .send := by
    intro q hq i
    by_cases hi : i = a.1
    · rw [hi, Function.update_self]
      exact hq
    · rw [Function.update_of_ne hi]
      exact hsend i
  by_cases ha : a.1 = loop
  · -- with no byte to receive the event loop can only leave `popMsgqueue`
    rw [ha] at hs hother ⊢
    cases hpc : c.pcs loop with
    | waiting =>
        rw [hpc] at hs
        simp only [emStep, hpending] at hs
        cases hs
    | pop pc =>
        rw [hpc] at hs haway
        cases pc with
        | popRet ret =>
            cases ret with
            | none =>
                cases hs
                exact ⟨⟨by simp [EmPc.away], hpending, hother _ (by rintro ⟨⟩)⟩, hcount⟩
            | some qdata => cases haway
        | _ => cases haway
    | _ => rw [hpc] at haway; cases haway
  · have hrole : (c.pcs a.1).isLoop = false := by
      rw [hroles.role a.1]
      exact decide_eq_false ha
    have haway' : (Function.update c.pcs a.1 p' loop).away = true := by
      rw [Function.update_of_ne (Ne.symm ha)]
      exact haway
    rcases em_push_step hrole (hroles.ok a.1) hs with
      ⟨hpend, -, hsame, -, -, hnot⟩ | ⟨cw, -, rfl, ⟨hpend, -⟩, hmore⟩ | ⟨-, rfl, rfl⟩ | ⟨hp, -⟩
    · exact ⟨⟨haway', hpend.trans hpending, hother _ hnot⟩, by rw [hsame]; exact hcount⟩
    · refine ⟨⟨haway', hpend.trans hpending, hother _ (by rintro ⟨⟩)⟩, ?_⟩
      show 2 ≤ msgq'.queue.count
      omega
    · -- the count is below the size, so its low 32 bits are not 1 either
      have hJ : c.shared.queue.Ok k := (ring_sat_of_reachable (em_ring_reachable hr)).shared
      have hcle := em_count_le hr haway
      have hmax := hJ.max_le
      have hwr := hJ.write_lt
      have hsize : c.shared.queue.size ≤ 2 ^ 32 := by
        rw [hJ.size_eq]
        exact Nat.pow_le_pow_right (by decide) hk
      have hlow : ringCount c.shared.queue ≠ 1 := by
        rw [ringCount, Int.emod_eq_of_lt (by omega) (by omega)]
        omega
      rw [if_neg hlow] at haway' ⊢
      exact ⟨⟨haway', hpending, hother _ (by rintro ⟨⟩)⟩, hcount⟩
    · exact absurd hp (hsend a.1)

/-- A second item counted while all is quiet silences the event loop for good:
    in every later configuration an item is published, no byte is under way and
    nobody will send one. -/
theorem em_silent_forever [Fintype ι] {k : Nat} (hk : k ≤ 32) {loop : ι}
    {c c' c'' : Config ι (Em α) (EmPc α)} {a : ι × α}
    (hr : Reachable (fire emStep) (emInit loop (2 ^ k)) c) (hf : fire emStep c a = some c')
    (hbad : ¬ QuietCount loop c a) (hlater : Reachable (fire emStep) c' c'') :
    EmQuiet loop c'' ∧ c''.shared.queue.readIndex < c''.shared.queue.maximumReadIndex := by
  have hfirst : EmSilent loop c' := by
    obtain ⟨msgq', p', hs, rfl⟩ := fire_eq_some.mp hf
    cases hpc : c.pcs a.1 with
    | push pc =>
        cases pc with
        | pushCount cw =>
            simp only [QuietCount, hpc] at hbad
            obtain ⟨hquiet, hone⟩ := Classical.not_imp.mp hbad
            rw [hpc] at hs
            cases hs
            refine ⟨⟨?_, hquiet.pending, fun i => ?_⟩, ?_⟩
            · have ha : loop ≠ a.1 := by
                intro ha
                have haway := hquiet.away
                rw [ha, hpc] at haway
                cases haway
              show (Function.update c.pcs a.1 _ loop).away = true
              rw [Function.update_of_ne ha]
              exact hquiet.away
            · by_cases hi : i = a.1
              · simp [hi]
              · simpa [hi] using hquiet.no_send i
            · show 2 ≤ c.shared.queue.count + 1
              have hone' : c.shared.queue.count = 1 := not_not.mp hone
              omega
        | _ => simp only [QuietCount, hpc, not_true_eq_false] at hbad
    | _ => simp only [QuietCount, hpc, not_true_eq_false] at hbad
  have hboth : Reachable (fire emStep) (emInit loop (2 ^ k)) c'' ∧ EmSilent loop c'' :=
    hlater.invariant
      (J := fun c => Reachable (fire emStep) (emInit loop (2 ^ k)) c ∧ EmSilent loop c)
      ⟨hr.tail hf, hfirst⟩ fun _ _ _ h hs => ⟨h.1.tail hs, h.2.step hk h.1 hs⟩
  obtain ⟨hr'', hquiet, hcount⟩ := hboth
  have hcle := em_count_le hr'' hquiet.away
  exact ⟨hquiet, by omega⟩

end Reachable

end ZServer
