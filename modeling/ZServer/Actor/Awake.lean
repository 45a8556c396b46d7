/-
  ZServer.Actor.Awake

  The workers do not oversleep: while there is a context in the run queue, some
  worker is not blocked, or somebody still has to send the signal for it.

  A worker that has found the count to be zero is on its way to sleep and holds the
  lock, so that no signal comes in between (`SleepPc.turning`).  It has found zero
  with a context in the queue only if some push has not counted it yet; whoever
  makes that push will send a signal, or is a worker himself.
-/

import ZServer.Actor.Sleep

namespace ZServer

open Lib

variable {ι : Type} [DecidableEq ι]

-- ============================================================================
-- Assertions on program points
-- ============================================================================

def SleepCaller.isWorker : SleepCaller → Bool
  | .outside => false
  | .callback _ => true

def SleepPc.isWorker : SleepPc → Bool
  | .user caller | .push caller _ | .wakeLock caller | .wakeSignal caller | .wakeUnlock caller =>
      caller.isWorker
  | .stopLock worker | .stopRunning worker | .stopBroadcast worker | .stopUnlock worker => worker
  | _ => true

/-- The thread holds the lock. -/
def SleepPc.owns : SleepPc → Bool
  | .wakeSignal _ | .wakeUnlock _ | .stopRunning _ | .stopBroadcast _ | .stopUnlock _ | .sleepTest
  | .sleepRunning | .sleepWait | .sleepUnlock => true
  | _ => false

/-- The thread has pushed a context, and has not executed the signal that follows. -/
def SleepPc.signalling : SleepPc → Bool
  | .push _ (.pushCount _) | .push _ (.pushRet _) | .wakeLock _ | .wakeSignal _ => true
  | _ => false

/-- The thread has found the count to be zero and is on its way to sleep. -/
def SleepPc.turning : SleepPc → Bool
  | .sleepRunning | .sleepWait => true
  | _ => false

theorem SleepPc.owns_of_turning {pc : SleepPc} (h : pc.turning = true) : pc.owns = true := by
  cases pc with
  | sleepRunning | sleepWait => rfl
  | _ => cases h

/-- The thread has stopped the workers. -/
def SleepPc.stopping : SleepPc → Bool
  | .stopBroadcast _ | .stopUnlock _ | .done => true
  | _ => false

-- ============================================================================
-- Steps
-- ============================================================================

section Inside

variable {pool : SleepPool ι} {self : ι} {pc : RingPc Ptr} {e : SleepEvent ι}

/-- Before they return, the operations on the run queue only work on the ring. -/
theorem sleepPcStep_push {caller : SleepCaller} (hret : ∀ ret, pc ≠ .pushRet ret) :
    sleepPcStep pool self (.push caller pc) e = pool.ringStep pc (.push caller) := by
  cases pc with
  | pushRet ret => exact absurd rfl (hret ret)
  | _ => rfl

theorem sleepPcStep_requeue (hret : ∀ ret, pc ≠ .pushRet ret) :
    sleepPcStep pool self (.requeue pc) e = pool.ringStep pc .requeue := by
  cases pc with
  | pushRet ret => exact absurd rfl (hret ret)
  | _ => rfl

theorem sleepPcStep_pop (hret : ∀ ret, pc ≠ .popRet ret) :
    sleepPcStep pool self (.pop pc) e = pool.ringStep pc .pop := by
  cases pc with
  | popRet ret => exact absurd rfl (hret ret)
  | _ => rfl

end Inside

/-- What a step of thread `i` does. -/
structure SleepMove (pool pool' : SleepPool ι) (i : ι) (pc pc' : SleepPc) : Prop where
  ring : (pool'.queue = pool.queue ∧ pc'.toRing = pc.toRing) ∨
    ∃ call, ringStep pool.queue pc.toRing call = some (pool'.queue, pc'.toRing)
  role : pc'.isWorker = pc.isWorker
  owner : (pc.owns = true → pool.monitor.owner = some i) →
    (pc'.owns = true → pool'.monitor.owner = some i) ∧
      ∀ j ≠ i, pool.monitor.owner = some j → pool'.monitor.owner = some j
  waiting : ∀ j ∈ pool'.monitor.waiting, j ∈ pool.monitor.waiting ∨ j = i ∧ pc = .sleepWait
  sleeping : pc = .sleeping → pc' = .sleeping ∨ i ∉ pool'.monitor.waiting
  waits : pc = .sleepWait → pc' = .sleeping
  running : pool'.running = true → pool.running = true
  stopping : (pc.stopping = true → pool.running = false) → pc'.stopping = true →
    pool'.running = false
  signals : pc.signalling = true → pc'.signalling = true ∨
    ∃ caller j, pc = .wakeSignal caller ∧ pc' = .wakeUnlock caller ∧
      pool.monitor.signal j = some pool'.monitor
  turns : pc'.turning = true → pc.turning = true ∨ pc = .sleepTest ∧ pool.haveWork = false

/-- A step that leaves the shared memory alone. -/
theorem SleepMove.silent {pool : SleepPool ι} {self : ι} {pc pc' : SleepPc}
    (hring : pc'.toRing = pc.toRing ∨ ∃ call, ringStep pool.queue pc.toRing call =
      some (pool.queue, pc'.toRing))
    (hrole : pc'.isWorker = pc.isWorker) (howns : pc'.owns = true → pc.owns = true)
    (hwait : pc ≠ .sleepWait ∧ pc ≠ .sleeping)
    (hstop : pc'.stopping = true → pc.stopping = true)
    (hsignal : pc.signalling = true → pc'.signalling = true)
    (hturn : pc'.turning = true → pc.turning = true ∨ pc = .sleepTest ∧ pool.haveWork = false) :
    SleepMove pool pool self pc pc' where
  ring := hring.imp_left fun h => ⟨rfl, h⟩
  role := hrole
  owner := fun h => ⟨fun h' => h (howns h'), fun _ _ h' => h'⟩
  waiting := fun _ hj => Or.inl hj
  sleeping := fun h => absurd h hwait.2
  waits := fun h => absurd h hwait.1
  running := fun h => h
  stopping := fun h h' => h (hstop h')
  signals := fun h => Or.inl (hsignal h)
  turns := hturn

/-- A step inside the ring. -/
theorem SleepMove.of_ring {pool pool' : SleepPool ι} {self : ι} {pc : RingPc Ptr} {pc' : SleepPc}
    {k : RingPc Ptr → SleepPc} (hs : pool.ringStep pc k = some (pool', pc'))
    (hring : ∀ pc, (k pc).toRing = pc) (hrole : ∀ pc pc', (k pc).isWorker = (k pc').isWorker)
    (howns : ∀ pc, (k pc).owns = false) (hstop : ∀ pc, (k pc).stopping = false)
    (hturn : ∀ pc, (k pc).turning = false) (hwait : ∀ pc, k pc ≠ .sleepWait ∧ k pc ≠ .sleeping)
    (hsignal : ∀ queue' pc', ringStep pool.queue pc .pop = some (queue', pc') →
      (k pc).signalling = true → (k pc').signalling = true) :
    SleepMove pool pool' self (k pc) pc' := by
  obtain ⟨r, hr, hpair⟩ := Option.map_eq_some_iff.mp hs
  cases hpair
  exact {
    ring := Or.inr ⟨.pop, by rw [hring, hring]; exact hr⟩
    role := hrole _ _
    owner := fun _ => ⟨fun h => (by rw [howns] at h; cases h), fun _ _ h => h⟩
    waiting := fun _ hj => Or.inl hj
    sleeping := fun h => absurd h (hwait _).2
    waits := fun h => absurd h (hwait _).1
    running := fun h => h
    stopping := fun _ h => (by rw [hstop] at h; cases h)
    signals := fun h => Or.inl (hsignal _ _ hr h)
    turns := fun h => (by rw [hturn] at h; cases h) }

/-- An operation on the monitor. -/
theorem SleepMove.of_monitor {pool pool' : SleepPool ι} {self : ι} {pc pc' pc'' : SleepPc}
    {m? : Option (Monitor ι)} (hs : pool.withMonitor m? pc'' = some (pool', pc'))
    (hring : pc''.toRing = pc.toRing) (hrole : pc''.isWorker = pc.isWorker)
    (howner : ∀ m, m? = some m → (pc.owns = true → pool.monitor.owner = some self) →
      (pc''.owns = true → m.owner = some self) ∧
        ∀ j ≠ self, pool.monitor.owner = some j → m.owner = some j)
    (hwaiting : ∀ m, m? = some m → ∀ j ∈ m.waiting,
      j ∈ pool.monitor.waiting ∨ j = self ∧ pc = .sleepWait)
    (hsleeping : pc = .sleeping → ∀ m, m? = some m → pc'' = .sleeping ∨ self ∉ m.waiting)
    (hwaits : pc = .sleepWait → pc'' = .sleeping)
    (hstop : pc''.stopping = true → pc.stopping = true)
    (hsignals : pc.signalling = true → pc''.signalling = true ∨
      ∃ caller j, pc = .wakeSignal caller ∧ pc'' = .wakeUnlock caller ∧ pool.monitor.signal j = m?)
    (hturn : pc''.turning = false) : SleepMove pool pool' self pc pc' := by
  obtain ⟨m, hm, hpair⟩ := Option.map_eq_some_iff.mp hs
  cases hpair
  exact {
    ring := Or.inl ⟨rfl, hring⟩
    role := hrole
    owner := howner m hm
    waiting := hwaiting m hm
    sleeping := fun h => hsleeping h m hm
    waits := hwaits
    running := fun h => h
    stopping := fun h h' => h (hstop h')
    signals := fun h => by
      rcases hsignals h with h | ⟨caller, j, h, h', hsignal⟩
      · exact Or.inl h
      · exact Or.inr ⟨caller, j, h, h', hsignal.trans hm⟩
    turns := fun h => (by rw [hturn] at h; cases h) }

/-- The lock is taken. -/
theorem SleepMove.of_lock {pool pool' : SleepPool ι} {self : ι} {pc pc' pc'' : SleepPc}
    (hs : pool.withMonitor (pool.monitor.lock self) pc'' = some (pool', pc'))
    (hring : pc''.toRing = pc.toRing) (hrole : pc''.isWorker = pc.isWorker)
    (hwait : pc ≠ .sleepWait ∧ pc ≠ .sleeping) (hstop : pc''.stopping = false)
    (hsignal : pc.signalling = true → pc''.signalling = true) (hturn : pc''.turning = false) :
    SleepMove pool pool' self pc pc' := by
  refine .of_monitor hs hring hrole (fun m hm _ => ?_) (fun m hm j hj => Or.inl ?_)
    (fun h => absurd h hwait.2) (fun h => absurd h hwait.1)
    (fun h => (by rw [hstop] at h; cases h)) (fun h => Or.inl (hsignal h)) hturn
  · obtain ⟨hfree, howner, -⟩ := Monitor.lock_eq_some hm
    exact ⟨fun _ => howner, fun j _ hj => (by rw [hfree] at hj; cases hj)⟩
  · rw [← (Monitor.lock_eq_some hm).2.2]
    exact hj

/-- The lock is given back. -/
theorem SleepMove.of_unlock {pool pool' : SleepPool ι} {self : ι} {pc pc' pc'' : SleepPc}
    (hs : pool.withMonitor (some pool.monitor.unlock) pc'' = some (pool', pc'))
    (hring : pc''.toRing = pc.toRing) (hrole : pc''.isWorker = pc.isWorker) (howns : pc.owns = true)
    (hgone : pc''.owns = false) (hwait : pc ≠ .sleepWait ∧ pc ≠ .sleeping)
    (hstop : pc''.stopping = true → pc.stopping = true) (hsignal : pc.signalling = false)
    (hturn : pc''.turning = false) : SleepMove pool pool' self pc pc' := by
  refine .of_monitor hs hring hrole (fun m hm howner => ⟨fun h => ?_, fun j hne hj => ?_⟩)
    (fun m hm j hj => Or.inl ?_) (fun h => absurd h hwait.2) (fun h => absurd h hwait.1) hstop
    (fun h => (by rw [hsignal] at h; cases h)) hturn
  · rw [hgone] at h
    cases h
  · rw [howner howns] at hj
    exact absurd (Option.some.inj hj).symm hne
  · cases hm
    exact hj

theorem sleep_move {pool pool' : SleepPool ι} {self : ι} {pc pc' : SleepPc} {e : SleepEvent ι}
    (hs : sleepPcStep pool self pc e = some (pool', pc')) : SleepMove pool pool' self pc pc' := by
  have hno : ∀ {P : Prop}, false = true → P := by rintro _ ⟨⟩
  cases pc with
  | user caller =>
      cases e with
      | send toctx =>
          cases hs
          exact .silent (Or.inr ⟨.push toctx, rfl⟩) rfl hno ⟨by rintro ⟨⟩, by rintro ⟨⟩⟩ hno hno hno
      | ret | stop =>
          cases caller with
          | outside =>
              cases hs <;>
                exact .silent (Or.inl rfl) rfl hno ⟨by rintro ⟨⟩, by rintro ⟨⟩⟩ hno hno hno
          | callback ctx =>
              cases hs <;>
                exact .silent (Or.inl rfl) rfl hno ⟨by rintro ⟨⟩, by rintro ⟨⟩⟩ hno hno hno
      | _ => cases hs
  | push caller pc =>
      by_cases hret : ∃ ret, pc = .pushRet ret
      · obtain ⟨ret, rfl⟩ := hret
        cases hs
        exact .silent (Or.inr ⟨.pop, rfl⟩) rfl hno ⟨by rintro ⟨⟩, by rintro ⟨⟩⟩ hno (fun _ => rfl) hno
      · rw [sleepPcStep_push fun ret h => hret ⟨ret, h⟩] at hs
        refine .of_ring hs (fun _ => rfl) (fun _ _ => rfl) (fun _ => rfl) (fun _ => rfl)
          (fun _ => rfl) (fun _ => ⟨by rintro ⟨⟩, by rintro ⟨⟩⟩) fun queue' pc' hring hsignal => ?_
        cases pc with
        | pushCount w =>
            cases hring
            rfl
        | pushRet ret => exact absurd ⟨ret, rfl⟩ hret
        | _ => cases hsignal
  | wakeLock caller =>
      exact .of_lock hs rfl rfl ⟨by rintro ⟨⟩, by rintro ⟨⟩⟩ rfl (fun _ => rfl) rfl
  | wakeSignal caller =>
      cases e with
      | signal j =>
          refine .of_monitor hs rfl rfl (fun m hm howner => ?_) (fun m hm i hi => Or.inl ?_)
            (by rintro ⟨⟩) (by rintro ⟨⟩) hno (fun _ => Or.inr ⟨caller, j, rfl, rfl, rfl⟩) rfl
          · rw [(Monitor.signal_eq_some hm).1]
            exact ⟨fun _ => howner rfl, fun _ _ h => h⟩
          · rcases (Monitor.signal_eq_some hm).2 with ⟨hnil, -⟩ | ⟨-, hrest⟩
            · rw [hnil] at hi
              cases hi
            · exact ((hrest i).mp hi).1
      | _ => cases hs
  | wakeUnlock caller =>
      exact .of_unlock hs rfl rfl rfl rfl ⟨by rintro ⟨⟩, by rintro ⟨⟩⟩ hno rfl rfl
  | loop =>
      cases hs
      exact .silent (Or.inr ⟨.pop, rfl⟩) rfl hno ⟨by rintro ⟨⟩, by rintro ⟨⟩⟩ hno hno hno
  | pop pc =>
      by_cases hret : ∃ ret, pc = .popRet ret
      · obtain ⟨ret, rfl⟩ := hret
        cases ret <;> cases hs <;>
          exact .silent (Or.inr ⟨.pop, rfl⟩) rfl hno ⟨by rintro ⟨⟩, by rintro ⟨⟩⟩ hno hno hno
      · rw [sleepPcStep_pop fun ret h => hret ⟨ret, h⟩] at hs
        exact .of_ring hs (fun _ => rfl) (fun _ _ => rfl) (fun _ => rfl) (fun _ => rfl)
          (fun _ => rfl) (fun _ => ⟨by rintro ⟨⟩, by rintro ⟨⟩⟩) fun _ _ _ => hno
  | dispatch ctx =>
      cases e with
      | call | giveUp =>
          cases hs
          exact .silent (Or.inl rfl) rfl hno ⟨by rintro ⟨⟩, by rintro ⟨⟩⟩ hno hno hno
      | _ => cases hs
  | haveWork ctx =>
      unfold sleepPcStep at hs
      cases hs
      split
      · exact .silent (Or.inr ⟨.push ctx, rfl⟩) rfl hno ⟨by rintro ⟨⟩, by rintro ⟨⟩⟩ hno hno hno
      · exact .silent (Or.inl rfl) rfl hno ⟨by rintro ⟨⟩, by rintro ⟨⟩⟩ hno hno hno
  | requeue pc =>
      by_cases hret : ∃ ret, pc = .pushRet ret
      · obtain ⟨ret, rfl⟩ := hret
        cases hs
        exact .silent (Or.inr ⟨.pop, rfl⟩) rfl hno ⟨by rintro ⟨⟩, by rintro ⟨⟩⟩ hno hno hno
      · rw [sleepPcStep_requeue fun ret h => hret ⟨ret, h⟩] at hs
        exact .of_ring hs (fun _ => rfl) (fun _ _ => rfl) (fun _ => rfl) (fun _ => rfl)
          (fun _ => rfl) (fun _ => ⟨by rintro ⟨⟩, by rintro ⟨⟩⟩) fun _ _ _ => hno
  | num sleep =>
      cases e with
      | num n =>
          cases n <;> cases hs
          · exact .silent (Or.inl rfl) rfl hno ⟨by rintro ⟨⟩, by rintro ⟨⟩⟩ hno hno hno
          · cases sleep <;>
              exact .silent (Or.inl rfl) rfl hno ⟨by rintro ⟨⟩, by rintro ⟨⟩⟩ hno hno hno
      | _ => cases hs
  | stopLock worker => exact .of_lock hs rfl rfl ⟨by rintro ⟨⟩, by rintro ⟨⟩⟩ rfl hno rfl
  | stopRunning worker =>
      cases hs
      exact {
        ring := Or.inl ⟨rfl, rfl⟩
        role := rfl
        owner := fun h => ⟨fun _ => h rfl, fun _ _ h => h⟩
        waiting := fun _ hj => Or.inl hj
        sleeping := by rintro ⟨⟩
        waits := by rintro ⟨⟩
        running := hno
        stopping := fun _ _ => rfl
        signals := hno
        turns := hno }
  | stopBroadcast worker =>
      refine .of_monitor hs rfl rfl (fun m hm howner => ?_) (fun m hm j hj => ?_) (by rintro ⟨⟩)
        (by rintro ⟨⟩) (fun _ => rfl) hno rfl
      · cases hm
        exact ⟨fun _ => howner rfl, fun _ _ h => h⟩
      · cases hm
        cases hj
  | stopUnlock worker =>
      cases worker with
      | false => exact .of_unlock hs rfl rfl rfl rfl ⟨by rintro ⟨⟩, by rintro ⟨⟩⟩ hno rfl rfl
      | true => exact .of_unlock hs rfl rfl rfl rfl ⟨by rintro ⟨⟩, by rintro ⟨⟩⟩ (fun _ => rfl) rfl rfl
  | sleepLock => exact .of_lock hs rfl rfl ⟨by rintro ⟨⟩, by rintro ⟨⟩⟩ rfl hno rfl
  | sleepTest =>
      unfold sleepPcStep at hs
      cases hs
      cases hwork : pool.haveWork with
      | true => exact .silent (Or.inl rfl) rfl (fun _ => rfl) ⟨by rintro ⟨⟩, by rintro ⟨⟩⟩ hno hno hno
      | false =>
          exact .silent (Or.inl rfl) rfl (fun _ => rfl) ⟨by rintro ⟨⟩, by rintro ⟨⟩⟩ hno hno
            fun _ => Or.inr ⟨rfl, hwork⟩
  | sleepRunning =>
      unfold sleepPcStep at hs
      cases hs
      split <;>
        exact .silent (Or.inl rfl) rfl (fun _ => rfl) ⟨by rintro ⟨⟩, by rintro ⟨⟩⟩ hno hno
          fun _ => Or.inl rfl
  | sleepWait =>
      refine .of_monitor hs rfl rfl (fun m hm howner => ?_) (fun m hm j hj => ?_) (by rintro ⟨⟩)
        (fun _ => rfl) hno hno rfl
      · cases hm
        refine ⟨hno, fun j hne hj => ?_⟩
        rw [howner rfl] at hj
        exact absurd (Option.some.inj hj).symm hne
      · cases hm
        rcases List.mem_cons.mp hj with rfl | hj
        · exact Or.inr ⟨rfl, rfl⟩
        · exact Or.inl hj
  | sleeping =>
      by_cases hspurious : e = .spurious
      · subst hspurious
        refine .of_monitor hs rfl rfl (fun m hm howner => ?_) (fun m hm j hj => Or.inl ?_)
          (fun _ _ _ => Or.inl rfl) (by rintro ⟨⟩) hno hno rfl
        · cases hm
          exact ⟨hno, fun _ _ h => h⟩
        · cases hm
          exact (Monitor.mem_wake.mp hj).1
      · have hs' : pool.withMonitor (pool.monitor.resume self) .sleepTest = some (pool', pc') := by
          rw [← hs]
          cases e with
          | spurious => exact absurd rfl hspurious
          | _ => rfl
        refine .of_monitor hs' rfl rfl (fun m hm howner => ?_) (fun m hm j hj => Or.inl ?_)
          (fun _ m hm => Or.inr ?_) (by rintro ⟨⟩) hno hno rfl
        · obtain ⟨-, hfree, howner, -⟩ := Monitor.resume_eq_some hm
          exact ⟨fun _ => howner, fun j _ hj => (by rw [hfree] at hj; cases hj)⟩
        · rw [← (Monitor.resume_eq_some hm).2.2.2]
          exact hj
        · rw [(Monitor.resume_eq_some hm).2.2.2]
          exact (Monitor.resume_eq_some hm).1
  | sleepUnlock => exact .of_unlock hs rfl rfl rfl rfl ⟨by rintro ⟨⟩, by rintro ⟨⟩⟩ hno rfl rfl
  | done => cases hs

theorem sleep_step {pool pool' : SleepPool ι} {th th' : SleepThread ι} {e : SleepEvent ι}
    (hs : sleepStep pool th e = some (pool', th')) :
    th'.self = th.self ∧ SleepMove pool pool' th.self th.pc th'.pc := by
  obtain ⟨r, hr, hpair⟩ := Option.map_eq_some_iff.mp hs
  cases hpair
  exact ⟨rfl, sleep_move hr⟩

theorem sleep_step_ring {pool pool' : SleepPool ι} {th th' : SleepThread ι} {e : SleepEvent ι}
    (hs : sleepStep pool th e = some (pool', th')) :
    (pool'.queue = pool.queue ∧ th'.pc.toRing = th.pc.toRing) ∨
      ∃ call, ringStep pool.queue th.pc.toRing call = some (pool'.queue, th'.pc.toRing) :=
  (sleep_step hs).2.ring

def RingPc.pushing {α : Type} : RingPc α → Bool
  | .pushReadWrite _ | .pushReadRead _ _ | .pushReserve _ _ | .pushStore _ _ | .pushPublish _ _
  | .pushCount _ | .pushRet _ => true
  | _ => false

/-- Up to its return a push stays a push. -/
theorem ring_step_pushing {α : Type} {queue queue' : Ring α} {p p' : RingPc α} {call : RingCall α}
    (hs : ringStep queue p call = some (queue', p')) (hp : p.pushing = true)
    (hret : ∀ ret, p ≠ .pushRet ret) : p'.pushing = true := by
  cases p with
  | pushReadRead _ _ | pushReserve _ _ | pushPublish _ _ =>
      simp only [ringStep] at hs
      split at hs <;> (cases hs; rfl)
  | pushReadWrite _ | pushStore _ _ | pushCount _ =>
      cases hs
      rfl
  | pushRet ret => exact absurd rfl (hret ret)
  | _ => cases hp

/-- A sender in `contextQueuePush` is in a push. -/
def SleepPc.phased : SleepPc → Bool
  | .push _ pc => pc.pushing
  | _ => true

theorem sleep_step_phased {pool pool' : SleepPool ι} {self : ι} {pc pc' : SleepPc}
    {e : SleepEvent ι} (hs : sleepPcStep pool self pc e = some (pool', pc'))
    (hpc : pc.phased = true) : pc'.phased = true := by
  have hmonitor : ∀ {m? : Option (Monitor ι)} {pc'' : SleepPc},
      pool.withMonitor m? pc'' = some (pool', pc') → pc''.phased = true → pc'.phased = true := by
    intro m? pc'' hm hpc''
    obtain ⟨m, -, hpair⟩ := Option.map_eq_some_iff.mp hm
    cases hpair
    exact hpc''
  cases pc with
  | user caller =>
      cases e <;> cases caller <;> cases hs <;> rfl
  | push caller pc =>
      by_cases hret : ∃ ret, pc = .pushRet ret
      · obtain ⟨ret, rfl⟩ := hret
        cases hs
        rfl
      · rw [sleepPcStep_push fun ret h => hret ⟨ret, h⟩] at hs
        obtain ⟨r, hr, hpair⟩ := Option.map_eq_some_iff.mp hs
        cases hpair
        exact ring_step_pushing hr hpc fun ret h => hret ⟨ret, h⟩
  | pop pc =>
      by_cases hret : ∃ ret, pc = .popRet ret
      · obtain ⟨ret, rfl⟩ := hret
        cases ret <;> cases hs <;> rfl
      · rw [sleepPcStep_pop fun ret h => hret ⟨ret, h⟩] at hs
        obtain ⟨r, -, hpair⟩ := Option.map_eq_some_iff.mp hs
        cases hpair
        rfl
  | requeue pc =>
      by_cases hret : ∃ ret, pc = .pushRet ret
      · obtain ⟨ret, rfl⟩ := hret
        cases hs
        rfl
      · rw [sleepPcStep_requeue fun ret h => hret ⟨ret, h⟩] at hs
        obtain ⟨r, -, hpair⟩ := Option.map_eq_some_iff.mp hs
        cases hpair
        rfl
  | wakeLock _ | wakeUnlock _ | stopLock _ | stopBroadcast _ | sleepLock | sleepWait
  | sleepUnlock => exact hmonitor hs rfl
  | stopUnlock worker =>
      cases worker with
      | false => exact hmonitor hs rfl
      | true => exact hmonitor hs rfl
  | wakeSignal caller =>
      cases e with
      | signal j => exact hmonitor hs rfl
      | _ => cases hs
  | sleeping =>
      cases e with
      | _ => exact hmonitor hs rfl
  | num sleep =>
      cases e with
      | num n => cases n <;> cases sleep <;> cases hs <;> rfl
      | _ => cases hs
  | dispatch ctx => cases e <;> cases hs <;> rfl
  | haveWork _ | sleepTest | sleepRunning =>
      unfold sleepPcStep at hs
      cases hs
      split <;> rfl
  | loop | stopRunning _ =>
      cases hs
      rfl
  | done => cases hs

-- ============================================================================
-- The ring under the workers
-- ============================================================================

section Ring

variable {workers : ι → Bool} {c : Config ι (SleepPool ι) (SleepThread ι)}

/-- The configuration as the ring sees it. -/
def sleepRing (c : Config ι (SleepPool ι) (SleepThread ι)) : Config ι (Ring Ptr) (RingPc Ptr) :=
  ⟨c.shared.queue, (fun th => th.pc.toRing) ∘ c.pcs⟩

theorem sleep_ring_reachable (h : Reachable (fire sleepStep) (sleepInit workers) c) :
    Reachable (fire ringStep) (ringInit (2 ^ 10)) (sleepRing c) := by
  have hsim := h.simulate ringStep SleepPool.queue (fun th : SleepThread ι => th.pc.toRing)
    fun _ _ _ _ _ hs => sleep_step_ring hs
  have hinit : ((fun th : SleepThread ι => th.pc.toRing) ∘ (sleepInit workers).pcs) =
      fun _ => .idle := by
    funext i
    show (if workers i then SleepPc.loop else .user .outside).toRing = .idle
    split <;> rfl
  have hring : (sleepInit workers).shared.queue = ringOfSize (2 ^ 10) :=
    ringCreate_two_pow (k := 10) (by decide)
  rw [hinit, hring] at hsim
  exact hsim

/-- The ring holds a context that has been published and not been claimed. -/
def SleepPool.Published (pool : SleepPool ι) : Prop :=
  pool.queue.readIndex < pool.queue.maximumReadIndex

/-- Only a push publishes. -/
theorem ring_step_published {α : Type} {queue queue' : Ring α} {p p' : RingPc α}
    {call : RingCall α} (hs : ringStep queue p call = some (queue', p'))
    (hpublished : queue'.readIndex < queue'.maximumReadIndex) :
    queue.readIndex < queue.maximumReadIndex ∨ ∃ w, p' = .pushCount w := by
  cases p with
  | idle => cases call <;> (cases hs; exact Or.inl hpublished)
  | pushPublish item cw =>
      simp only [ringStep] at hs
      split at hs
      · cases hs
        exact Or.inr ⟨cw, rfl⟩
      · cases hs
        exact Or.inl hpublished
  | popClaim cr item =>
      simp only [ringStep] at hs
      split at hs
      · rename_i hcur
        cases hs
        refine Or.inl ?_
        rw [hcur]
        exact Nat.lt_of_succ_lt hpublished
      · cases hs
        exact Or.inl hpublished
  | pushReadRead _ _ | pushReserve _ _ | popReadMax _ =>
      simp only [ringStep] at hs
      split at hs <;> (cases hs; exact Or.inl hpublished)
  | _ =>
      cases hs
      exact Or.inl hpublished

/-- The count is zero with a context in the ring only if a push is yet to count. -/
theorem haveWork_of_counted [Fintype ι] (h : Reachable (fire sleepStep) (sleepInit workers) c)
    (hpublished : c.shared.Published)
    (hcounted : ∀ i, (c.pcs i).pc.toRing.uncounted = 0) : c.shared.haveWork = true := by
  have hring := sleep_ring_reachable h
  have hok : Ring.Ok 10 c.shared.queue := (ring_sat_of_reachable hring).shared
  have hcount : c.shared.queue.count + ∑ i, (c.pcs i).pc.toRing.uncounted =
      c.shared.queue.maximumReadIndex - c.shared.queue.readIndex := ring_count_of_reachable hring
  rw [Finset.sum_eq_zero fun i _ => hcounted i] at hcount
  have hmax := hok.max_le
  have hwrite := hok.write_lt
  have hsize := hok.size_eq
  unfold SleepPool.Published at hpublished
  unfold SleepPool.haveWork ringCount
  rw [decide_eq_true_eq]
  omega

end Ring

-- ============================================================================
-- The invariant
-- ============================================================================

/-- A worker that is not blocked in the wait, and not on its way there. -/
structure AwakeWorker (workers : ι → Bool) (c : Config ι (SleepPool ι) (SleepThread ι)) (i : ι) :
    Prop where
  worker : workers i = true
  not_blocked : i ∉ c.shared.monitor.waiting
  not_turning : (c.pcs i).pc.turning = false
  not_done : (c.pcs i).pc ≠ .done

def Attended (workers : ι → Bool) (c : Config ι (SleepPool ι) (SleepThread ι)) : Prop :=
  (∃ i, AwakeWorker workers c i) ∨ ∃ i, (c.pcs i).pc.signalling = true

structure SleepOk (workers : ι → Bool) (c : Config ι (SleepPool ι) (SleepThread ι)) : Prop where
  self : ∀ i, (c.pcs i).self = i
  role : ∀ i, (c.pcs i).pc.isWorker = workers i
  owner : ∀ i, (c.pcs i).pc.owns = true → c.shared.monitor.owner = some i
  waiting : ∀ i ∈ c.shared.monitor.waiting, (c.pcs i).pc = .sleeping
  stopping : ∀ i, (c.pcs i).pc.stopping = true → c.shared.running = false
  phased : ∀ i, (c.pcs i).pc.phased = true
  attended : c.shared.running = true → c.shared.Published → Attended workers c

omit [DecidableEq ι] in
theorem sleepInit_ok (workers : ι → Bool) : SleepOk workers (sleepInit workers) := by
  have hpc : ∀ i, ((sleepInit workers).pcs i).pc = if workers i then .loop else .user .outside :=
    fun _ => rfl
  refine ⟨fun _ => rfl, fun i => ?_, fun i hi => ?_, by rintro _ ⟨⟩, fun i hi => ?_, fun i => ?_, ?_⟩
  · rw [hpc]
    cases workers i with
    | true => rfl
    | false => rfl
  · rw [hpc] at hi
    cases hw : workers i <;> (rw [hw] at hi; cases hi)
  · rw [hpc] at hi
    cases hw : workers i <;> (rw [hw] at hi; cases hi)
  · rw [hpc]
    cases workers i with
    | true => rfl
    | false => rfl
  · intro _ hpublished
    exact absurd hpublished (Nat.lt_irrefl 0)

section Step

variable {workers : ι → Bool} {c : Config ι (SleepPool ι) (SleepThread ι)} {i : ι}
  {pool' : SleepPool ι} {th' : SleepThread ι}

omit [DecidableEq ι] in
/-- A thread that still has to count its push or pop is attending. -/
theorem SleepOk.attended_of_uncounted (h : SleepOk workers c) {j : ι}
    (hj : (c.pcs j).pc.toRing.uncounted ≠ 0) :
    AwakeWorker workers c j ∨ (c.pcs j).pc.signalling = true := by
  have hrole := h.role j
  have hblocked := h.waiting j
  cases hpc : (c.pcs j).pc with
  | push caller pc =>
      rw [hpc] at hj
      cases pc with
      | pushCount w => exact Or.inr rfl
      | popCount w item =>
          have hphased := h.phased j
          rw [hpc] at hphased
          cases hphased
      | _ => exact absurd rfl hj
  | pop pc | requeue pc =>
      refine Or.inl ⟨hrole.symm.trans (by rw [hpc]; rfl), fun hmem => ?_, by rw [hpc]; rfl, ?_⟩
      · rw [hblocked hmem] at hpc
        cases hpc
      · rw [hpc]
        rintro ⟨⟩
  | _ =>
      rw [hpc] at hj
      exact absurd rfl hj

/-- One step keeps who holds what. -/
theorem SleepOk.step_local (h : SleepOk workers c)
    (hmove : SleepMove c.shared pool' i (c.pcs i).pc th'.pc) (hself : th'.self = i)
    (hphased : th'.pc.phased = true) (hattended : pool'.running = true → pool'.Published →
      Attended workers ⟨pool', Function.update c.pcs i th'⟩) :
    SleepOk workers ⟨pool', Function.update c.pcs i th'⟩ := by
  obtain ⟨hown, hothers⟩ := hmove.owner (h.owner i)
  have hpcs : ∀ j, (j = i ∧ Function.update c.pcs i th' j = th') ∨
      (j ≠ i ∧ Function.update c.pcs i th' j = c.pcs j) := by
    intro j
    by_cases hj : j = i
    · subst hj
      exact Or.inl ⟨rfl, Function.update_self ..⟩
    · exact Or.inr ⟨hj, Function.update_of_ne hj ..⟩
  refine ⟨fun j => ?_, fun j => ?_, fun j hj => ?_, fun j hj => ?_, fun j hj => ?_, fun j => ?_,
    hattended⟩
  · rcases hpcs j with ⟨rfl, hpc⟩ | ⟨hne, hpc⟩
    · exact (congrArg SleepThread.self hpc).trans hself
    · exact (congrArg SleepThread.self hpc).trans (h.self j)
  · rcases hpcs j with ⟨rfl, hpc⟩ | ⟨hne, hpc⟩
    · exact (congrArg (fun th => th.pc.isWorker) hpc).trans (hmove.role.trans (h.role j))
    · exact (congrArg (fun th => th.pc.isWorker) hpc).trans (h.role j)
  · rcases hpcs j with ⟨rfl, hpc⟩ | ⟨hne, hpc⟩
    · simp only [hpc] at hj
      exact hown hj
    · simp only [hpc] at hj
      exact hothers j hne (h.owner j hj)
  · rcases hpcs j with ⟨rfl, hpc⟩ | ⟨hne, hpc⟩
    · simp only [hpc]
      rcases hmove.waiting j hj with hold | ⟨-, hwait⟩
      · exact (hmove.sleeping (h.waiting j hold)).resolve_right (not_not.mpr hj)
      · exact hmove.waits hwait
    · simp only [hpc]
      rcases hmove.waiting j hj with hold | ⟨heq, -⟩
      · exact h.waiting j hold
      · exact absurd heq hne
  · rcases hpcs j with ⟨rfl, hpc⟩ | ⟨hne, hpc⟩
    · simp only [hpc] at hj
      exact hmove.stopping (h.stopping j) hj
    · simp only [hpc] at hj
      refine Bool.eq_false_of_not_eq_true fun hrunning => ?_
      have hbefore := hmove.running hrunning
      rw [h.stopping j hj] at hbefore
      cases hbefore
  · rcases hpcs j with ⟨rfl, hpc⟩ | ⟨hne, hpc⟩
    · simp only [hpc]
      exact hphased
    · simp only [hpc]
      exact h.phased j

/-- Another thread that attends goes on doing so. -/
theorem AwakeWorker.other (hmove : SleepMove c.shared pool' i (c.pcs i).pc th'.pc) {j : ι}
    (hj : j ≠ i) (hattends : AwakeWorker workers c j ∨ (c.pcs j).pc.signalling = true) :
    Attended workers ⟨pool', Function.update c.pcs i th'⟩ := by
  have hpc : (Function.update c.pcs i th' j).pc = (c.pcs j).pc := by rw [Function.update_of_ne hj]
  rcases hattends with hawake | hsignals
  · refine Or.inl ⟨j, hawake.worker, fun hmem => ?_, ?_, fun hdone => ?_⟩
    · rcases hmove.waiting j hmem with hold | ⟨heq, -⟩
      · exact hawake.not_blocked hold
      · exact hj heq
    · exact (congrArg SleepPc.turning hpc).trans hawake.not_turning
    · exact hawake.not_done (hpc.symm.trans hdone)
  · exact Or.inr ⟨j, (congrArg SleepPc.signalling hpc).trans hsignals⟩

/-- A thread that has stopped the workers does so while they run no more. -/
theorem SleepOk.not_done (h : SleepOk workers c)
    (hmove : SleepMove c.shared pool' i (c.pcs i).pc th'.pc) (hrunning : pool'.running = true) :
    th'.pc ≠ .done := by
  intro hdone
  rw [hmove.stopping (h.stopping i) (by rw [hdone]; rfl)] at hrunning
  cases hrunning

/-- Whoever finds the count to be zero with a context in the run queue is not the
    only one to attend. -/
theorem SleepOk.attended_test [Fintype ι] (h : SleepOk workers c)
    (hr : Reachable (fire sleepStep) (sleepInit workers) c)
    (hmove : SleepMove c.shared pool' i (c.pcs i).pc th'.pc) (hpublished : c.shared.Published)
    (htest : (c.pcs i).pc = .sleepTest) (hwork : c.shared.haveWork = false) :
    Attended workers ⟨pool', Function.update c.pcs i th'⟩ := by
  by_contra hnot
  have hcounted : ∀ j, (c.pcs j).pc.toRing.uncounted = 0 := by
    intro j
    by_contra hj
    have hji : j ≠ i := by
      rintro rfl
      rw [htest] at hj
      exact hj rfl
    exact hnot (AwakeWorker.other hmove hji (h.attended_of_uncounted hj))
  rw [haveWork_of_counted hr hpublished hcounted] at hwork
  cases hwork

/-- After a signal somebody is awake. -/
theorem SleepOk.attended_signal (hworker : ∃ w, workers w = true) (h : SleepOk workers c)
    (hmove : SleepMove c.shared pool' i (c.pcs i).pc th'.pc) (hrunning : pool'.running = true)
    {caller : SleepCaller} {k : ι} (hpc : (c.pcs i).pc = .wakeSignal caller)
    (hpc' : th'.pc = .wakeUnlock caller)
    (hsignal : c.shared.monitor.signal k = some pool'.monitor) :
    Attended workers ⟨pool', Function.update c.pcs i th'⟩ := by
  have howner := h.owner i (by rw [hpc]; rfl)
  rcases (Monitor.signal_eq_some hsignal).2 with ⟨hnil', hnil⟩ | ⟨hk, hrest⟩
  · -- nobody is blocked, and nobody else holds the lock
    obtain ⟨w, hw⟩ := hworker
    by_cases hwi : w = i
    · subst hwi
      have hself : (Function.update c.pcs w th' w).pc = .wakeUnlock caller := by
        rw [Function.update_self]
        exact hpc'
      refine Or.inl ⟨w, hw, fun hmem => ?_, ?_, fun hdone => ?_⟩
      · rw [hnil'] at hmem
        cases hmem
      · exact congrArg SleepPc.turning hself
      · cases hself.symm.trans hdone
    · refine AwakeWorker.other hmove hwi (Or.inl ⟨hw, fun hmem => ?_, ?_, fun hdone => ?_⟩)
      · rw [hnil] at hmem
        cases hmem
      · refine Bool.eq_false_of_not_eq_true fun hturning => ?_
        have howner' := h.owner w (SleepPc.owns_of_turning hturning)
        rw [howner] at howner'
        exact hwi (Option.some.inj howner').symm
      · have hstop := h.stopping w (by rw [hdone]; rfl)
        rw [hmove.running hrunning] at hstop
        cases hstop
  · -- thread `k` has been woken
    have hsleeping := h.waiting k hk
    have hki : k ≠ i := by
      rintro rfl
      rw [hsleeping] at hpc
      cases hpc
    have hpck : (Function.update c.pcs i th' k).pc = .sleeping := by
      rw [Function.update_of_ne hki]
      exact hsleeping
    refine Or.inl ⟨k, ?_, fun hmem => ((hrest k).mp hmem).2 rfl, ?_, fun hdone => ?_⟩
    · rw [← h.role k, hsleeping]
      rfl
    · exact congrArg SleepPc.turning hpck
    · cases hpck.symm.trans hdone

/-- Whoever has published a context attends to it. -/
theorem SleepOk.attended_published (h : SleepOk workers c)
    (hmove : SleepMove c.shared pool' i (c.pcs i).pc th'.pc) (hnot_done : th'.pc ≠ .done)
    {w : Nat} (hcount : th'.pc.toRing = .pushCount w) :
    Attended workers ⟨pool', Function.update c.pcs i th'⟩ := by
  have hpc : (Function.update c.pcs i th' i).pc = th'.pc := by rw [Function.update_self]
  have hworker (hrole : th'.pc.isWorker = true) (hturning : th'.pc.turning = false)
      (hwake : th'.pc ≠ .sleeping) : AwakeWorker workers ⟨pool', Function.update c.pcs i th'⟩ i := by
    refine ⟨?_, fun hmem => ?_, (congrArg SleepPc.turning hpc).trans hturning, fun hdone =>
      hnot_done (hpc.symm.trans hdone)⟩
    · rw [← h.role i, ← hmove.role]
      exact hrole
    · rcases hmove.waiting i hmem with hold | ⟨-, hwait⟩
      · rcases hmove.sleeping (h.waiting i hold) with hsleeping | hgone
        · exact hwake hsleeping
        · exact hgone hmem
      · exact hwake (hmove.waits hwait)
  cases hpc' : th'.pc with
  | push caller pc =>
      rw [hpc'] at hcount
      obtain rfl : pc = .pushCount w := hcount
      exact Or.inr ⟨i, congrArg SleepPc.signalling (hpc.trans hpc')⟩
  | pop pc | requeue pc =>
      refine Or.inl ⟨i, hworker ?_ ?_ ?_⟩
      · rw [hpc']
        rfl
      · rw [hpc']
        rfl
      · rw [hpc']
        rintro ⟨⟩
  | _ =>
      rw [hpc'] at hcount
      cases hcount

/-- Somebody still attends to a context in the run queue. -/
theorem SleepOk.attended_step [Fintype ι] (hworker : ∃ w, workers w = true)
    (hr : Reachable (fire sleepStep) (sleepInit workers) c) (h : SleepOk workers c)
    (hmove : SleepMove c.shared pool' i (c.pcs i).pc th'.pc)
    (hrunning : pool'.running = true) (hpublished : pool'.Published) :
    Attended workers ⟨pool', Function.update c.pcs i th'⟩ := by
  have hpc : (Function.update c.pcs i th' i).pc = th'.pc := by rw [Function.update_self]
  have hnot_done := h.not_done hmove hrunning
  have hattends : Attended workers ⟨pool', Function.update c.pcs i th'⟩ ∨ c.shared.Published := by
    rcases hmove.ring with ⟨hqueue, -⟩ | ⟨call, hring⟩
    · unfold SleepPool.Published at hpublished ⊢
      rw [hqueue] at hpublished
      exact Or.inr hpublished
    · rcases ring_step_published hring hpublished with hold | ⟨w, hcount⟩
      · exact Or.inr hold
      · exact Or.inl (h.attended_published hmove hnot_done hcount)
  rcases hattends with hattends | hpublished
  · exact hattends
  · rcases h.attended (hmove.running hrunning) hpublished with ⟨j, hawake⟩ | ⟨j, hsignals⟩
    · by_cases hj : j = i
      · subst hj
        by_cases hturns : th'.pc.turning = true
        · rcases hmove.turns hturns with hturning | ⟨htest, hwork⟩
          · rw [hawake.not_turning] at hturning
            cases hturning
          · exact h.attended_test hr hmove hpublished htest hwork
        · refine Or.inl ⟨j, hawake.worker, fun hmem => ?_, ?_, fun hdone => ?_⟩
          · rcases hmove.waiting j hmem with hold | ⟨-, hwait⟩
            · exact hawake.not_blocked hold
            · have hturning := hawake.not_turning
              rw [hwait] at hturning
              cases hturning
          · exact (congrArg SleepPc.turning hpc).trans (Bool.eq_false_iff.mpr hturns)
          · exact hnot_done (hpc.symm.trans hdone)
      · exact AwakeWorker.other hmove hj (Or.inl hawake)
    · by_cases hj : j = i
      · subst hj
        rcases hmove.signals hsignals with hsignals' | ⟨caller, k, hpcj, hpcj', hsignal⟩
        · exact Or.inr ⟨j, (congrArg SleepPc.signalling hpc).trans hsignals'⟩
        · exact h.attended_signal hworker hmove hrunning hpcj hpcj' hsignal
      · exact AwakeWorker.other hmove hj (Or.inr hsignals)

end Step

-- ============================================================================
-- Runs
-- ============================================================================

section Runs

variable {workers : ι → Bool} {c : Config ι (SleepPool ι) (SleepThread ι)}

theorem sleepOk_of_reachable [Fintype ι] (hworker : ∃ w, workers w = true)
    (h : Reachable (fire sleepStep) (sleepInit workers) c) : SleepOk workers c := by
  have hboth := h.invariant (J := fun c =>
    Reachable (fire sleepStep) (sleepInit workers) c ∧ SleepOk workers c)
    ⟨Reachable.refl _, sleepInit_ok workers⟩ fun c a c' hc hf => ?_
  · exact hboth.2
  · obtain ⟨hr, hok⟩ := hc
    refine ⟨hr.tail hf, ?_⟩
    obtain ⟨pool', th', hs, rfl⟩ := fire_eq_some.mp hf
    obtain ⟨hself, hmove⟩ := sleep_step hs
    obtain ⟨r, hpcs, hpair⟩ := Option.map_eq_some_iff.mp hs
    have hphased := sleep_step_phased hpcs (hok.phased a.1)
    rw [hok.self] at hmove hself
    cases hpair
    exact hok.step_local hmove hself hphased fun hrunning hpublished =>
      hok.attended_step hworker hr hmove hrunning hpublished

/-- While the workers run and the run queue holds a published context, a worker is
    awake, or a signal for one is still to come. -/
theorem workers_do_not_oversleep [Fintype ι] (hworker : ∃ w, workers w = true)
    (h : Reachable (fire sleepStep) (sleepInit workers) c) (hrunning : c.shared.running = true)
    (hpublished : c.shared.Published) : Attended workers c :=
  (sleepOk_of_reachable hworker h).attended hrunning hpublished

/-- A worker blocked in the wait, and a context that another thread has just
    published. -/
theorem workers_do_not_oversleep_one : ∃ c : Config (Fin 2) (SleepPool (Fin 2)) (SleepThread (Fin 2)),
    c.shared.monitor.waiting = [0] ∧ c.shared.Published ∧ Attended (fun i => i = 0) c := by
  let run : List (Fin 2 × SleepEvent (Fin 2)) :=
    List.replicate 4 (0, .go) ++ [(0, .num 1), (0, .go), (0, .go), (0, .go), (0, .go), (1, .send 7)] ++
      List.replicate 5 (1, .go)
  have hrun : ∃ c, runFrom (fire sleepStep) (sleepInit fun i : Fin 2 => i = 0) run = some c ∧
      c.shared.monitor.waiting = [0] ∧ c.shared.running = true ∧ c.shared.Published :=
    ⟨_, rfl, rfl, rfl, Nat.zero_lt_one⟩
  obtain ⟨c, hc, hwaiting, hrunning, hpublished⟩ := hrun
  exact ⟨c, hwaiting, hpublished,
    workers_do_not_oversleep ⟨0, rfl⟩ ⟨run, hc⟩ hrunning hpublished⟩

end Runs

end ZServer
