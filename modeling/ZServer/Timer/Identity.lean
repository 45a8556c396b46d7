/-
  ZServer.Timer.Identity

  A timer has three names: its sn in `timerDict`, the id of its time event, and the
  record that the time event owns.  As long as the sns do not repeat, the three go
  together: a cancellation by sn reaches the time event of the timer that was given
  that sn, or none, even though `timerDict` keeps the entries of timers that have
  ended.

  Every record is in one place (`timers_owned`): with the thread that pushes it, on
  its way, with a time event, or freed.
-/

import Mathlib.Algebra.BigOperators.Ring.Finset
import ZServer.Timer.Basic

namespace ZServer
namespace Timer

open Lib

-- ============================================================================
-- Moves
-- ============================================================================

/-- What one action of one thread does. -/
inductive TimerMove (T : Timers) : TimerPc → Timers → TimerPc → Prop where
  | create (dest time : Int) (session : Nat) (noMore : Int) (htime : time ≠ 0) :
      TimerMove T .user (T.timerTimeout dest time session noMore).1 (.push T.next)
  | request (event : TimerEvent) (htype : event.type ≠ 0) :
      TimerMove T .user (T.zmalloc event) (.push T.next)
  | pushed (event : EventPtr) : TimerMove T (.push event) { T with em := T.em ++ [event] } .user
  | refused (event : EventPtr) : TimerMove T (.push event) (T.zfree event) .user
  | recv (msg : EventPtr) (em : List EventPtr) (curSec curMs : Int) (hem : T.em = msg :: em) :
      TimerMove T .loop ({ T with em := em }.emCallback msg curSec curMs) .loop
  | fire (maxId : Int) (k : Nat) (te : AeTimeEvent) (ret curSec curMs : Int)
      (hk : T.timeEventHead[k]? = some te) :
      TimerMove T (.scan maxId k) (T.runTimeEvent k te ret curSec curMs) (.scan maxId 0)
  /-- the list is walked through, with the times of the events at most changed -/
  | look (head : List AeTimeEvent) (lastTime : Int) (pc pc' : TimerPc)
      (hhead : head.map (fun te => (te.id, te.clientData)) = T.pending)
      (hpc : ∀ event, pc ≠ .push event) (hpc' : ∀ event, pc' ≠ .push event) :
      TimerMove T pc { T with timeEventHead := head, lastTime := lastTime } pc'
  /-- `timerTimeout` for the time 0 -/
  | now (dest : Int) (session : Nat) : TimerMove T .user (T.zSend ⟨none, dest, session⟩) .user

theorem timer_move {T T' : Timers} {pc pc' : TimerPc} {choice : TimerChoice}
    (hs : timerPcStep T pc choice = some (T', pc')) : TimerMove T pc T' pc' := by
  cases pc with
  | user =>
      cases choice with
      | timeout dest time session noMore =>
          by_cases htime : time = 0
          · simp only [timerPcStep, Timers.timerTimeout, if_pos htime] at hs
            cases hs
            exact .now dest session
          · have hmove := TimerMove.create (T := T) dest time session noMore htime
            simp only [timerPcStep, Timers.timerTimeout, if_neg htime] at hs hmove
            cases hs
            exact hmove
      | cancel sn =>
          cases hs
          exact .request _ Nat.one_ne_zero
      | stop =>
          cases hs
          exact .request _ (by decide)
      | _ => cases hs
  | push event =>
      cases choice with
      | pushed full =>
          cases full <;> cases hs
          · exact .pushed event
          · exact .refused event
      | _ => cases hs
  | loop =>
      cases choice with
      | recv curSec curMs =>
          simp only [timerPcStep] at hs
          split at hs
          · cases hs
          · rename_i msg em hem
            cases hs
            exact .recv msg em curSec curMs hem
      | process now =>
          cases hs
          refine .look _ _ _ _ ?_ (by rintro _ ⟨⟩) (by rintro _ ⟨⟩)
          split
          · rw [List.map_map]
            rfl
          · rfl
      | _ => cases hs
  | scan maxId k =>
      cases choice with
      | look nowSec nowMs ret curSec curMs =>
          have hstill : ∀ pc' : TimerPc, (∀ event, pc' ≠ .push event) →
              TimerMove T (.scan maxId k) T pc' :=
            fun pc' hpc' => .look T.timeEventHead T.lastTime _ _ rfl (by rintro _ ⟨⟩) hpc'
          simp only [timerPcStep] at hs
          split at hs
          · cases hs
            exact hstill _ (by split <;> rintro _ ⟨⟩)
          · rename_i te hk
            split at hs
            · cases hs
              exact hstill _ (by rintro _ ⟨⟩)
            · split at hs
              · cases hs
                exact .fire maxId k te ret curSec curMs hk
              · cases hs
                exact hstill _ (by rintro _ ⟨⟩)
      | _ => cases hs
  | stopped => cases hs

-- ============================================================================
-- `emCallback` and `timeProc`
-- ============================================================================

section Actions

variable (T : Timers) (msg : EventPtr) (curSec curMs : Int)

/-- The record of a new timer becomes a time event. -/
theorem emCallback_add (htype : (T.heap msg).type = 0) :
    T.emCallback msg curSec curMs =
      { T.aeCreateTimeEvent (T.heap msg).time msg curSec curMs with
        timerDict := dictAdd T.timerDict (T.heap msg).sn T.timeEventNextId } := by
  unfold Timers.emCallback
  simp only [if_pos htype]
  rfl

theorem emCallback_cancel (htype : (T.heap msg).type = 1) :
    (∃ id, T.timerDict.lookup (T.heap msg).value = some id ∧
      T.emCallback msg curSec curMs = (T.aeDeleteTimeEvent id).zfree msg) ∨
    T.timerDict.lookup (T.heap msg).value = none ∧ T.emCallback msg curSec curMs = T.zfree msg := by
  have hne : (T.heap msg).type ≠ 0 := by
    rw [htype]
    decide
  unfold Timers.emCallback
  simp only [if_neg hne, if_pos htype]
  cases T.timerDict.lookup (T.heap msg).value with
  | none => exact Or.inr ⟨rfl, rfl⟩
  | some id => exact Or.inl ⟨id, rfl, rfl⟩

theorem emCallback_stop (hadd : (T.heap msg).type ≠ 0) (hcancel : (T.heap msg).type ≠ 1) :
    T.emCallback msg curSec curMs = { T.zfree msg with stop := true } := by
  unfold Timers.emCallback
  simp only [if_neg hadd, if_neg hcancel]

/-- A time event that is called again stays where it is. -/
theorem runTimeEvent_cases {k : Nat} {te : AeTimeEvent} (ret : Int)
    (hk : T.timeEventHead[k]? = some te) :
    ∃ T₁, T₁ = T.zSend ⟨some te.clientData, (T.heap te.clientData).dest,
        (T.heap te.clientData).value⟩ ∧
      (timeProc (T.heap te.clientData) ret ≠ AE_NOMORE ∧
          (∃ head, head.map (fun te => (te.id, te.clientData)) = T.pending ∧
            T.runTimeEvent k te ret curSec curMs = { T₁ with timeEventHead := head }) ∨
        timeProc (T.heap te.clientData) ret = AE_NOMORE ∧
          T.runTimeEvent k te ret curSec curMs = T₁.aeDeleteTimeEvent te.id) := by
  refine ⟨_, rfl, ?_⟩
  unfold Timers.runTimeEvent
  simp only
  split
  · rename_i hmore
    refine Or.inl ⟨hmore, _, ?_, rfl⟩
    -- the pair of the element that is replaced does not change
    have hget : T.pending[k]? = some (te.id, te.clientData) := by
      unfold Timers.pending
      rw [List.getElem?_map, hk]
      rfl
    show (T.timeEventHead.set k _).map _ = _
    rw [List.map_set]
    obtain ⟨hlt, hval⟩ := List.getElem?_eq_some_iff.mp hget
    rw [← hval]
    exact List.set_getElem_self hlt
  · rename_i hnomore
    exact Or.inr ⟨not_not.mp hnomore, rfl⟩

end Actions

-- ============================================================================
-- Where the records are
-- ============================================================================

/-- How often the record `p` is with the timer thread, or has been freed. -/
def Timers.owned (T : Timers) (p : EventPtr) : ℕ :=
  T.em.count p + (T.pending.map Prod.snd).count p + T.zfreed.count p

def TimerPc.owned (pc : TimerPc) (p : EventPtr) : ℕ :=
  match pc with
  | .push event => [event].count p
  | _ => 0

theorem TimerPc.owned_eq_zero {pc : TimerPc} (h : ∀ event, pc ≠ .push event) (p : EventPtr) :
    pc.owned p = 0 := by
  cases pc with
  | push event => exact absurd rfl (h event)
  | _ => rfl

/-- Which addresses are in use. -/
def Timers.used (T : Timers) (p : EventPtr) : ℕ := if p < T.next then 1 else 0

theorem used_succ (T : Timers) (p : EventPtr) (T' : Timers) (hnext : T'.next = T.next + 1) :
    T'.used p = T.used p + [T.next].count p := by
  unfold Timers.used
  rw [hnext]
  by_cases hp : p = T.next
  · rw [hp, if_pos (Nat.lt_succ_self _), if_neg (Nat.lt_irrefl _), List.count_singleton_self]
  · have hiff : p < T.next + 1 ↔ p < T.next :=
      ⟨fun h => Nat.lt_of_le_of_ne (Nat.lt_succ_iff.mp h) hp, Nat.lt_succ_of_lt⟩
    rw [List.count_eq_zero.mpr (by simpa using hp), if_congr hiff rfl rfl, Nat.add_zero]

theorem emCallback_next (T : Timers) (msg : EventPtr) (curSec curMs : Int) :
    (T.emCallback msg curSec curMs).next = T.next := by
  by_cases hadd : (T.heap msg).type = 0
  · rw [emCallback_add T msg curSec curMs hadd]
    rfl
  · by_cases hcancel : (T.heap msg).type = 1
    · rcases emCallback_cancel T msg curSec curMs hcancel with ⟨id, -, heq⟩ | ⟨-, heq⟩
      · rw [heq]
        exact (aeDeleteTimeEvent_same T id).next
      · rw [heq]
        rfl
    · rw [emCallback_stop T msg curSec curMs hadd hcancel]
      rfl

/-- A record that the timer thread takes becomes the time event's, or is freed. -/
theorem emCallback_owned (T : Timers) (msg : EventPtr) (curSec curMs : Int) (p : EventPtr) :
    (T.emCallback msg curSec curMs).owned p = T.owned p + [msg].count p := by
  have hfree : ∀ T : Timers, (T.zfree msg).owned p = T.owned p + [msg].count p := by
    intro T
    show T.em.count p + (T.pending.map Prod.snd).count p + (T.zfreed ++ [msg]).count p = _
    rw [List.count_append]
    unfold Timers.owned
    omega
  by_cases hadd : (T.heap msg).type = 0
  · rw [emCallback_add T msg curSec curMs hadd]
    show T.em.count p + (msg :: T.pending.map Prod.snd).count p + T.zfreed.count p = _
    rw [← List.singleton_append, List.count_append]
    unfold Timers.owned
    omega
  · by_cases hcancel : (T.heap msg).type = 1
    · rcases emCallback_cancel T msg curSec curMs hcancel with ⟨id, -, heq⟩ | ⟨-, heq⟩
      · have hcount := aeDeleteTimeEvent_count T id p
        have hem := (aeDeleteTimeEvent_same T id).em
        rw [heq, hfree]
        unfold Timers.owned
        rw [hem]
        omega
      · rw [heq, hfree]
    · rw [emCallback_stop T msg curSec curMs hadd hcancel]
      exact hfree T

theorem runTimeEvent_owned (T : Timers) {k : Nat} {te : AeTimeEvent} (ret curSec curMs : Int)
    (hk : T.timeEventHead[k]? = some te) (p : EventPtr) :
    (T.runTimeEvent k te ret curSec curMs).owned p = T.owned p ∧
      (T.runTimeEvent k te ret curSec curMs).next = T.next := by
  obtain ⟨T₁, hT₁, ⟨-, head, hhead, heq⟩ | ⟨-, heq⟩⟩ := runTimeEvent_cases T curSec curMs ret hk
  · rw [heq, hT₁]
    refine ⟨?_, rfl⟩
    show T.em.count p + ((head.map _).map Prod.snd).count p + T.zfreed.count p = _
    rw [hhead]
    rfl
  · have hcount := aeDeleteTimeEvent_count T₁ te.id p
    obtain ⟨-, hnext, hem, -, -, -, -, -⟩ := aeDeleteTimeEvent_same T₁ te.id
    rw [heq]
    refine ⟨?_, hnext.trans (by rw [hT₁]; rfl)⟩
    have hsame : T₁.owned p = T.owned p := by
      rw [hT₁]
      rfl
    rw [← hsame]
    unfold Timers.owned
    rw [hem]
    omega

theorem TimerMove.owned {T T' : Timers} {pc pc' : TimerPc} (h : TimerMove T pc T' pc')
    (p : EventPtr) :
    T'.owned p + pc'.owned p + T.used p = T.owned p + pc.owned p + T'.used p := by
  have hzmalloc : ∀ T' : Timers, T'.owned p = T.owned p → T'.next = T.next + 1 →
      T'.owned p + (TimerPc.push T.next).owned p + T.used p =
        T.owned p + TimerPc.user.owned p + T'.used p := by
    intro T' howned hnext
    rw [howned, used_succ T p T' hnext]
    simp only [TimerPc.owned]
    omega
  cases h with
  | create dest time session noMore htime =>
      unfold Timers.timerTimeout
      rw [if_neg htime]
      exact hzmalloc _ rfl rfl
  | request event htype => exact hzmalloc _ rfl rfl
  | pushed event =>
      show (T.em ++ [event]).count p + (T.pending.map Prod.snd).count p + T.zfreed.count p + 0 +
        T.used p = T.owned p + [event].count p + T.used p
      rw [List.count_append]
      unfold Timers.owned
      omega
  | refused event =>
      show T.em.count p + (T.pending.map Prod.snd).count p + (T.zfreed ++ [event]).count p + 0 +
        T.used p = T.owned p + [event].count p + T.used p
      rw [List.count_append]
      unfold Timers.owned
      omega
  | recv msg em curSec curMs hem =>
      have hnext := emCallback_next { T with em := em } msg curSec curMs
      have hused : ({ T with em := em }.emCallback msg curSec curMs).used p = T.used p := by
        unfold Timers.used
        rw [hnext]
      have howned : T.owned p = ({ T with em := em } : Timers).owned p + [msg].count p := by
        unfold Timers.owned
        rw [hem, ← List.singleton_append, List.count_append]
        show _ = em.count p + (T.pending.map Prod.snd).count p + T.zfreed.count p + _
        omega
      rw [hused, emCallback_owned, howned]
  | fire maxId k te ret curSec curMs hk =>
      obtain ⟨howned, hnext⟩ := runTimeEvent_owned T ret curSec curMs hk p
      have hused : (T.runTimeEvent k te ret curSec curMs).used p = T.used p := by
        unfold Timers.used
        rw [hnext]
      rw [howned, hused]
      rfl
  | look head lastTime _ _ hhead hpc hpc' =>
      rw [TimerPc.owned_eq_zero hpc, TimerPc.owned_eq_zero hpc']
      show T.em.count p + ((head.map _).map Prod.snd).count p + T.zfreed.count p + 0 + _ = _
      rw [hhead]
      rfl
  | now dest session => rfl

section Owned

variable {ι : Type} [DecidableEq ι] [Fintype ι] {loop : ι} {c : Config ι Timers TimerPc}

/-- A record in use is in exactly one place. -/
theorem timers_owned (h : Reachable (fire timerPcStep) (timerInit loop) c) (p : EventPtr) :
    c.shared.owned p + ∑ i, (c.pcs i).owned p = c.shared.used p := by
  have hint : ((c.shared.owned p : ℤ) - c.shared.used p) + ∑ i, ((c.pcs i).owned p : ℤ) = 0 := by
    refine h.invariant (J := fun c : Config ι Timers TimerPc =>
      ((c.shared.owned p : ℤ) - c.shared.used p) + ∑ i, ((c.pcs i).owned p : ℤ) = 0) ?_
      fun c a c' hc hf => ?_
    · have hzero : ∀ i, ((timerInit loop).pcs i).owned p = 0 := by
        intro i
        show (if i = loop then TimerPc.loop else TimerPc.user).owned p = 0
        split <;> rfl
      rw [Finset.sum_eq_zero fun i _ => by rw [hzero i]; rfl]
      rfl
    · rw [← hc]
      refine fire_sum (F := fun T : Timers => (T.owned p : ℤ) - T.used p)
        (f := fun pc : TimerPc => (pc.owned p : ℤ)) (fun pc choice T' pc' hs => ?_) hf
      have howned := (timer_move hs).owned p
      omega
  rw [← Nat.cast_sum] at hint
  omega

theorem timers_owned_le (h : Reachable (fire timerPcStep) (timerInit loop) c) (p : EventPtr) :
    c.shared.owned p ≤ 1 := by
  have howned := timers_owned h p
  have hused : c.shared.used p ≤ 1 := by
    unfold Timers.used
    split
    · exact Nat.le_refl _
    · exact Nat.zero_le _
  omega

end Owned

-- ============================================================================
-- The sns
-- ============================================================================

/-- The timers are numbered in the order of their creation, from 1 on and modulo
    2 ^ 31. -/
structure Timers.Numbered (T : Timers) : Prop where
  sn : T.sn = u32 T.created.length
  created : ∀ n p, T.created[n]? = some p →
    p < T.next ∧ (T.heap p).type = 0 ∧ (T.heap p).sn = (n + 1) % 2 ^ 31
  add : ∀ p, p < T.next → (T.heap p).type = 0 → p ∈ T.created

theorem Timers.Numbered.lt_next {T : Timers} (h : T.Numbered) {p : EventPtr} (hp : p ∈ T.created) :
    p < T.next := by
  obtain ⟨n, hn⟩ := List.mem_iff_getElem?.mp hp
  exact (h.created n p hn).1

/-- As long as there are fewer than 2 ^ 31, no two have the same sn. -/
theorem Timers.Numbered.sn_inj {T : Timers} (h : T.Numbered) (hnum : T.created.length < 2 ^ 31)
    {p q : EventPtr} (hp : p ∈ T.created) (hq : q ∈ T.created)
    (hsn : (T.heap p).sn = (T.heap q).sn) : p = q := by
  obtain ⟨n, hn⟩ := List.mem_iff_getElem?.mp hp
  obtain ⟨m, hm⟩ := List.mem_iff_getElem?.mp hq
  have hlt : ∀ {n p}, T.created[n]? = some p → n + 1 < 2 ^ 31 := by
    intro n p hn
    have hlen := (List.getElem?_eq_some_iff.mp hn).1
    omega
  rw [(h.created n p hn).2.2, (h.created m q hm).2.2, Nat.mod_eq_of_lt (hlt hn),
    Nat.mod_eq_of_lt (hlt hm)] at hsn
  obtain rfl : n = m := by omega
  exact Option.some.inj (hn.symm.trans hm)

/-- Records that have been filled in do not change, and none is forgotten. -/
structure Keeps (T T' : Timers) : Prop where
  next : T'.next = T.next
  heap : T'.heap = T.heap
  created : T'.created = T.created
  sn : T'.sn = T.sn

theorem SameRecords.keeps {T T' : Timers} (h : SameRecords T T') : Keeps T T' :=
  ⟨h.next, h.heap, h.created, h.sn⟩

theorem emCallback_keeps (T : Timers) (msg : EventPtr) (curSec curMs : Int) :
    Keeps T (T.emCallback msg curSec curMs) := by
  by_cases hadd : (T.heap msg).type = 0
  · rw [emCallback_add T msg curSec curMs hadd]
    exact ⟨rfl, rfl, rfl, rfl⟩
  · by_cases hcancel : (T.heap msg).type = 1
    · rcases emCallback_cancel T msg curSec curMs hcancel with ⟨id, -, heq⟩ | ⟨-, heq⟩
      · rw [heq]
        obtain ⟨hnext, hheap, hcreated, hsn⟩ := (aeDeleteTimeEvent_same T id).keeps
        exact ⟨hnext, hheap, hcreated, hsn⟩
      · rw [heq]
        exact ⟨rfl, rfl, rfl, rfl⟩
    · rw [emCallback_stop T msg curSec curMs hadd hcancel]
      exact ⟨rfl, rfl, rfl, rfl⟩

theorem runTimeEvent_keeps (T : Timers) {k : Nat} {te : AeTimeEvent} (ret curSec curMs : Int)
    (hk : T.timeEventHead[k]? = some te) : Keeps T (T.runTimeEvent k te ret curSec curMs) := by
  obtain ⟨T₁, rfl, ⟨-, head, -, heq⟩ | ⟨-, heq⟩⟩ := runTimeEvent_cases T curSec curMs ret hk
  · rw [heq]
    exact ⟨rfl, rfl, rfl, rfl⟩
  · rw [heq]
    obtain ⟨hnext, hheap, hcreated, hsn⟩ := (aeDeleteTimeEvent_same (T.zSend
      ⟨some te.clientData, (T.heap te.clientData).dest, (T.heap te.clientData).value⟩) te.id).keeps
    exact ⟨hnext, hheap, hcreated, hsn⟩

theorem runTimeEvent_sent (T : Timers) (k : Nat) (te : AeTimeEvent) (ret curSec curMs : Int) :
    (T.runTimeEvent k te ret curSec curMs).sent = T.sent ++
      [⟨some te.clientData, (T.heap te.clientData).dest, (T.heap te.clientData).value⟩] := by
  unfold Timers.runTimeEvent
  simp only
  split
  · rfl
  · rw [(aeDeleteTimeEvent_same _ _).sent]
    rfl

/-- Only a creation and a request fill in a record. -/
theorem TimerMove.records {T T' : Timers} {pc pc' : TimerPc} (h : TimerMove T pc T' pc') :
    Keeps T T' ∨ ∃ event, T'.heap = Function.update T.heap T.next event ∧ T'.next = T.next + 1 ∧
      (T'.created = T.created ++ [T.next] ∧ event.type = 0 ∧ T'.sn = u32 (T.sn + 1) ∧
          event.sn = u32 (T.sn + 1) &&& 0x7fffffff ∨
        T'.created = T.created ∧ event.type ≠ 0 ∧ T'.sn = T.sn) := by
  cases h with
  | create dest time session noMore htime =>
      unfold Timers.timerTimeout
      rw [if_neg htime]
      exact Or.inr ⟨_, rfl, rfl, Or.inl ⟨rfl, rfl, rfl, rfl⟩⟩
  | request event htype => exact Or.inr ⟨event, rfl, rfl, Or.inr ⟨rfl, htype, rfl⟩⟩
  | recv msg em curSec curMs hem =>
      obtain ⟨hnext, hheap, hcreated, hsn⟩ := emCallback_keeps { T with em := em } msg curSec curMs
      exact Or.inl ⟨hnext, hheap, hcreated, hsn⟩
  | fire maxId k te ret curSec curMs hk => exact Or.inl (runTimeEvent_keeps T ret curSec curMs hk)
  | _ => exact Or.inl ⟨rfl, rfl, rfl, rfl⟩

/-- What is known of the older records when another one is filled in. -/
theorem Timers.Numbered.filled {T T' : Timers} (hT : T.Numbered) {event : TimerEvent}
    (hheap : T'.heap = Function.update T.heap T.next event) (hnext : T'.next = T.next + 1) :
    (∀ (n : Nat) p, T.created[n]? = some p →
      p < T'.next ∧ (T'.heap p).type = 0 ∧ (T'.heap p).sn = (n + 1) % 2 ^ 31) ∧
    ∀ p, p < T'.next → p ≠ T.next → (T'.heap p).type = 0 → p ∈ T.created := by
  have hold : ∀ p, p < T.next → T'.heap p = T.heap p := by
    intro p hp
    rw [hheap, Function.update_of_ne (Nat.ne_of_lt hp)]
  refine ⟨fun n p hn => ?_, fun p hp hne hadd => ?_⟩
  · obtain ⟨hp, hrecord⟩ := hT.created n p hn
    rw [hnext, hold p hp]
    exact ⟨Nat.lt_succ_of_lt hp, hrecord⟩
  · rw [hnext] at hp
    have hlt := Nat.lt_of_le_of_ne (Nat.lt_succ_iff.mp hp) hne
    rw [hold p hlt] at hadd
    exact hT.add p hlt hadd

theorem TimerMove.numbered {T T' : Timers} {pc pc' : TimerPc} (h : TimerMove T pc T' pc')
    (hT : T.Numbered) : T'.Numbered := by
  rcases h.records with ⟨hnext, hheap, hcreated, hsn⟩ | ⟨event, hheap, hnext, hcases⟩
  · refine ⟨?_, ?_, ?_⟩
    · rw [hsn, hcreated]
      exact hT.sn
    · rw [hcreated, hnext, hheap]
      exact hT.created
    · rw [hcreated, hnext, hheap]
      exact hT.add
  · obtain ⟨hrecords, hadded⟩ := hT.filled hheap hnext
    have hnew : T'.heap T.next = event := by rw [hheap, Function.update_self]
    rcases hcases with ⟨hcreated, htype, hsn, hevent⟩ | ⟨hcreated, htype, hsn⟩
    · refine ⟨?_, fun n p hn => ?_, fun p hp hadd => ?_⟩
      · rw [hsn, hcreated, hT.sn, List.length_append]
        unfold u32
        exact Nat.mod_add_mod _ _ _
      · rw [hcreated] at hn
        by_cases hlt : n < T.created.length
        · rw [List.getElem?_append_left hlt] at hn
          exact hrecords n p hn
        · -- the new one
          have hlen := (List.getElem?_eq_some_iff.mp hn).1
          rw [List.length_append, List.length_singleton] at hlen
          obtain rfl : n = T.created.length := by omega
          rw [List.getElem?_concat_length] at hn
          cases hn
          rw [hnext, hnew, hevent, hT.sn]
          refine ⟨Nat.lt_succ_self _, htype, ?_⟩
          unfold u32
          rw [show 0x7fffffff = 2 ^ 31 - 1 from rfl, Nat.and_two_pow_sub_one_eq_mod]
          omega
      · rw [hcreated]
        by_cases hlast : p = T.next
        · exact List.mem_append_right _ (List.mem_singleton.mpr hlast)
        · exact List.mem_append_left _ (hadded p hp hlast hadd)
    · refine ⟨?_, ?_, fun p hp hadd => ?_⟩
      · rw [hsn, hcreated]
        exact hT.sn
      · rw [hcreated]
        exact hrecords
      · rw [hcreated]
        by_cases hlast : p = T.next
        · rw [hlast, hnew] at hadd
          exact absurd hadd htype
        · exact hadded p hp hlast hadd

-- ============================================================================
-- The table
-- ============================================================================

/-- `p` has been added, and may have ended since. -/
def Timers.Added (T : Timers) (p : EventPtr) : Prop := p ∈ T.pending.map Prod.snd ∨ p ∈ T.zfreed

/-- What `timerDict` says of the time events. -/
structure Timers.Known (T : Timers) : Prop where
  ids_lt : ∀ e ∈ T.pending, e.1 < T.timeEventNextId
  ids_once : T.pending.Pairwise fun e e' => e.1 ≠ e'.1
  timer : ∀ e ∈ T.pending, e.2 ∈ T.created
  entry : ∀ e ∈ T.pending, T.timerDict.lookup (T.heap e.2).sn = some e.1
  /-- an entry is of a timer that was added, and of no other time event than its own -/
  owner : ∀ s id, T.timerDict.lookup s = some id → id < T.timeEventNextId ∧
    ∃ p ∈ T.created, (T.heap p).sn = s ∧ T.Added p ∧ ∀ e ∈ T.pending, e.1 = id → e.2 = p

/-- Time events may go, and records come. -/
theorem Timers.Known.shrink {T T' : Timers} (h : T.Known)
    (hheap : ∀ p ∈ T.created, T'.heap p = T.heap p) (hcreated : ∀ p ∈ T.created, p ∈ T'.created)
    (hdict : T'.timerDict = T.timerDict) (hnext : T'.timeEventNextId = T.timeEventNextId)
    (hpending : T'.pending.Sublist T.pending) (hadded : ∀ p, T.Added p → T'.Added p) :
    T'.Known := by
  have hmem : ∀ e ∈ T'.pending, e ∈ T.pending := fun e he => hpending.subset he
  refine ⟨fun e he => ?_, h.ids_once.sublist hpending, fun e he => ?_, fun e he => ?_,
    fun s id hlookup => ?_⟩
  · rw [hnext]
    exact h.ids_lt e (hmem e he)
  · exact hcreated _ (h.timer e (hmem e he))
  · rw [hdict, hheap _ (h.timer e (hmem e he))]
    exact h.entry e (hmem e he)
  · rw [hdict] at hlookup
    obtain ⟨hlt, p, hp, hsn, hadd, hown⟩ := h.owner s id hlookup
    rw [hnext]
    refine ⟨hlt, p, hcreated p hp, ?_, hadded p hadd, fun e he => hown e (hmem e he)⟩
    rw [hheap p hp]
    exact hsn

theorem aeDeleteTimeEvent_sublist (T : Timers) (id : Int) :
    (T.aeDeleteTimeEvent id).pending.Sublist T.pending := by
  rcases aeDeleteTimeEvent_cases T id with ⟨te, before, after, hsplit, -, -, heq⟩ | ⟨-, heq⟩
  · rw [heq]
    unfold Timers.pending
    rw [hsplit]
    exact (List.Sublist.append (List.Sublist.refl before) (List.sublist_cons_self te after)).map _
  · rw [heq]

theorem aeDeleteTimeEvent_added (T : Timers) (id : Int) {p : EventPtr} (h : T.Added p) :
    (T.aeDeleteTimeEvent id).Added p := by
  have hcount := aeDeleteTimeEvent_count T id p
  have hpos : 0 < (T.pending.map Prod.snd).count p + T.zfreed.count p := by
    rcases h with hmem | hmem
    · have := List.count_pos_iff.mpr hmem
      omega
    · have := List.count_pos_iff.mpr hmem
      omega
  rw [← hcount] at hpos
  by_cases hgone : p ∈ (T.aeDeleteTimeEvent id).pending.map Prod.snd
  · exact Or.inl hgone
  · rw [List.count_eq_zero.mpr hgone, Nat.zero_add] at hpos
    exact Or.inr (List.count_pos_iff.mp hpos)

/-- The time event goes, and no other. -/
theorem aeDeleteTimeEvent_pending {T : Timers}
    (honce : T.pending.Pairwise fun e e' => e.1 ≠ e'.1) {te : AeTimeEvent}
    (hte : te ∈ T.timeEventHead) :
    (T.aeDeleteTimeEvent te.id).pending.Sublist T.pending ∧
      ∀ e, e ∈ (T.aeDeleteTimeEvent te.id).pending ↔ e ∈ T.pending ∧ e.1 ≠ te.id := by
  rcases aeDeleteTimeEvent_cases T te.id with ⟨te', before, after, hsplit, hid, hbefore, heq⟩ |
    ⟨hnone, -⟩
  · rw [heq]
    unfold Timers.pending at honce ⊢
    rw [hsplit]
    refine ⟨((List.sublist_cons_self te' after).append_left before).map _, fun e => ?_⟩
    · simp only [List.map_append, List.map_cons, List.mem_append, List.mem_cons]
      rw [hsplit, List.map_append, List.map_cons, List.pairwise_append, List.pairwise_cons]
        at honce
      constructor
      · rintro (hmem | hmem)
        · obtain ⟨x, hx, rfl⟩ := List.mem_map.mp hmem
          exact ⟨Or.inl hmem, hbefore x hx⟩
        · exact ⟨Or.inr (Or.inr hmem), fun hsame => honce.2.1.1 e hmem (hid.trans hsame.symm)⟩
      · rintro ⟨hmem | rfl | hmem, hne⟩
        · exact Or.inl hmem
        · exact absurd hid hne
        · exact Or.inr hmem
  · exact absurd rfl (hnone te hte)

/-- A new entry is for a sn that has none. -/
theorem Timers.Known.lookup_none {T : Timers} (h : T.Known) (hnum : T.Numbered)
    (hfew : T.created.length < 2 ^ 31) {msg : EventPtr} (hmsg : msg ∈ T.created)
    (hnew : ¬ T.Added msg) : T.timerDict.lookup (T.heap msg).sn = none := by
  cases hlookup : T.timerDict.lookup (T.heap msg).sn with
  | none => rfl
  | some id =>
      obtain ⟨-, p, hp, hsn, hadded, -⟩ := h.owner _ id hlookup
      rw [hnum.sn_inj hfew hp hmsg hsn] at hadded
      exact absurd hadded hnew

theorem Timers.Known.add {T : Timers} (h : T.Known) {msg : EventPtr} (curSec curMs : Int)
    (htype : (T.heap msg).type = 0) (hmsg : msg ∈ T.created)
    (hnone : T.timerDict.lookup (T.heap msg).sn = none) :
    (T.emCallback msg curSec curMs).Known := by
  rw [emCallback_add T msg curSec curMs htype]
  have hdict : dictAdd T.timerDict (T.heap msg).sn T.timeEventNextId =
      T.timerDict ++ [((T.heap msg).sn, T.timeEventNextId)] := by
    unfold dictAdd
    rw [hnone]
    rfl
  have hself : (T.timerDict ++ [((T.heap msg).sn, T.timeEventNextId)]).lookup (T.heap msg).sn =
      some T.timeEventNextId := by
    rw [List.lookup_append, hnone, List.lookup_cons_self]
    rfl
  have hold : ∀ {s id}, T.timerDict.lookup s = some id →
      (T.timerDict ++ [((T.heap msg).sn, T.timeEventNextId)]).lookup s = some id := by
    intro s id hs
    rw [List.lookup_append, hs]
    rfl
  have hpending : ∀ e, e ∈ (T.timeEventNextId, msg) :: T.pending →
      e = (T.timeEventNextId, msg) ∨ e ∈ T.pending := fun e he => List.mem_cons.mp he
  simp only [hdict]
  refine ⟨fun e he => ?_, List.Pairwise.cons (fun e he => ?_) h.ids_once, fun e he => ?_,
    fun e he => ?_, fun s id hlookup => ?_⟩
  · show e.1 < T.timeEventNextId + 1
    rcases hpending e he with rfl | he
    · exact Int.lt_succ _
    · exact Int.lt_add_one_of_le (Int.le_of_lt (h.ids_lt e he))
  · exact Int.ne_of_gt (h.ids_lt e he)
  · rcases hpending e he with rfl | he
    · exact hmsg
    · exact h.timer e he
  · rcases hpending e he with rfl | he
    · exact hself
    · exact hold (h.entry e he)
  · show id < T.timeEventNextId + 1 ∧ ∃ p ∈ T.created, (T.heap p).sn = s ∧
      (p ∈ msg :: T.pending.map Prod.snd ∨ p ∈ T.zfreed) ∧
      ∀ e ∈ (T.timeEventNextId, msg) :: T.pending, e.1 = id → e.2 = p
    have hlookup : (T.timerDict ++ [((T.heap msg).sn, T.timeEventNextId)]).lookup s = some id :=
      hlookup
    cases hbefore : T.timerDict.lookup s with
    | some id' =>
        rw [hold hbefore] at hlookup
        cases hlookup
        obtain ⟨hlt, p, hp, hsn, hadded, hown⟩ := h.owner s id hbefore
        refine ⟨Int.lt_add_one_of_le (Int.le_of_lt hlt), p, hp, hsn,
          hadded.imp_left (List.mem_cons_of_mem _), fun e he heq => ?_⟩
        rcases hpending e he with rfl | he
        · exact absurd heq (Int.ne_of_gt hlt)
        · exact hown e he heq
    | none =>
        rw [List.lookup_append, hbefore] at hlookup
        have hs : s = (T.heap msg).sn ∧ T.timeEventNextId = id := by
          by_cases hs : s = (T.heap msg).sn
          · rw [hs, List.lookup_cons_self] at hlookup
            exact ⟨hs, Option.some.inj hlookup⟩
          · rw [List.lookup_cons, beq_false_of_ne hs] at hlookup
            cases hlookup
        obtain ⟨rfl, rfl⟩ := hs
        refine ⟨Int.lt_succ _, msg, hmsg, rfl, Or.inl List.mem_cons_self, fun e he heq => ?_⟩
        rcases hpending e he with rfl | he
        · rfl
        · exact absurd heq (Int.ne_of_lt (h.ids_lt e he))

theorem Timers.Known.delete {T : Timers} (h : T.Known) (id : Int) :
    (T.aeDeleteTimeEvent id).Known := by
  have hsame := aeDeleteTimeEvent_same T id
  refine h.shrink (fun p _ => by rw [hsame.heap]) (fun p hp => ?_) hsame.timerDict
    hsame.timeEventNextId (aeDeleteTimeEvent_sublist T id) fun p hp => aeDeleteTimeEvent_added T id hp
  rw [hsame.created]
  exact hp

/-- Time events may be given other times. -/
theorem Timers.Known.repeat {T T' : Timers} (h : T.Known) {head : List AeTimeEvent}
    (hhead : head.map (fun te => (te.id, te.clientData)) = T.pending)
    (hT' : T'.pending = head.map fun te => (te.id, te.clientData) := by rfl)
    (hheap : T'.heap = T.heap := by rfl) (hcreated : T'.created = T.created := by rfl)
    (hdict : T'.timerDict = T.timerDict := by rfl)
    (hnext : T'.timeEventNextId = T.timeEventNextId := by rfl)
    (hzfreed : T'.zfreed = T.zfreed := by rfl) : T'.Known := by
  have hpending : T'.pending = T.pending := hT'.trans hhead
  refine h.shrink (fun p _ => by rw [hheap]) (fun p hp => by rwa [hcreated]) hdict hnext
    (by rw [hpending]) fun p hp => ?_
  unfold Timers.Added at hp ⊢
  rw [hpending, hzfreed]
  exact hp

theorem Timers.not_added (T : Timers) {msg : EventPtr} (howned : T.owned msg ≤ 1)
    (hmsg : msg ∈ T.em) : ¬ T.Added msg := by
  have hem := List.count_pos_iff.mpr hmsg
  unfold Timers.owned at howned
  rintro (hpending | hfreed)
  · have hcount := List.count_pos_iff.mpr hpending
    omega
  · have hcount := List.count_pos_iff.mpr hfreed
    omega

theorem Timers.Known.recv {T : Timers} (h : T.Known) (hnum : T.Numbered)
    (hfew : T.created.length < 2 ^ 31) {msg : EventPtr} (curSec curMs : Int) (hlt : msg < T.next)
    (hnew : ¬ T.Added msg) : (T.emCallback msg curSec curMs).Known := by
  have hfree : ∀ {T : Timers}, T.Known → (T.zfree msg).Known := fun h =>
    h.shrink (fun p _ => rfl) (fun p hp => hp) rfl rfl (List.Sublist.refl _)
      fun p hp => hp.imp_right (List.mem_append_left _)
  by_cases hadd : (T.heap msg).type = 0
  · have hmsg := hnum.add msg hlt hadd
    exact h.add curSec curMs hadd hmsg (h.lookup_none hnum hfew hmsg hnew)
  · by_cases hcancel : (T.heap msg).type = 1
    · rcases emCallback_cancel T msg curSec curMs hcancel with ⟨id, -, heq⟩ | ⟨-, heq⟩
      · rw [heq]
        exact hfree (h.delete id)
      · rw [heq]
        exact hfree h
    · rw [emCallback_stop T msg curSec curMs hadd hcancel]
      exact (hfree h).shrink (fun p _ => rfl) (fun p hp => hp) rfl rfl (List.Sublist.refl _)
        fun p hp => hp

-- ============================================================================
-- Runs
-- ============================================================================

section Runs

variable {ι : Type} [DecidableEq ι] [Fintype ι] {loop : ι} {c : Config ι Timers TimerPc}

omit [Fintype ι] in
theorem timers_numbered (h : Reachable (fire timerPcStep) (timerInit loop) c) :
    c.shared.Numbered := by
  refine h.invariant (J := fun c : Config ι Timers TimerPc => c.shared.Numbered)
    ⟨rfl, (fun n p hn => by cases hn), fun p hp => absurd hp (Nat.not_lt_zero p)⟩
    fun c a c' hc hf => ?_
  obtain ⟨T', pc', hs, rfl⟩ := fire_eq_some.mp hf
  exact (timer_move hs).numbered hc

/-- Timers are only added to those created. -/
theorem TimerMove.created_le {T T' : Timers} {pc pc' : TimerPc} (h : TimerMove T pc T' pc') :
    T.created.length ≤ T'.created.length := by
  rcases h.records with hkeeps | ⟨event, -, -, ⟨hcreated, -⟩ | ⟨hcreated, -⟩⟩
  · rw [hkeeps.created]
  · rw [hcreated, List.length_append]
    exact Nat.le_add_right _ _
  · rw [hcreated]

theorem TimerMove.known {T T' : Timers} {pc pc' : TimerPc} (h : TimerMove T pc T' pc')
    (hT : T.Known) (hnum : T.Numbered) (hfew : T.created.length < 2 ^ 31)
    (howned : ∀ p, T.owned p ≤ 1) (hused : ∀ p ∈ T.em, p < T.next) : T'.Known := by
  cases h with
  | create dest time session noMore htime =>
      unfold Timers.timerTimeout
      rw [if_neg htime]
      exact hT.shrink (fun p hp => Function.update_of_ne (Nat.ne_of_lt (hnum.lt_next hp)) ..)
        (fun p hp => List.mem_append_left _ hp) rfl rfl (List.Sublist.refl _) fun p hp => hp
  | request event htype =>
      exact hT.shrink (fun p hp => Function.update_of_ne (Nat.ne_of_lt (hnum.lt_next hp)) ..)
        (fun p hp => hp) rfl rfl (List.Sublist.refl _) fun p hp => hp
  | refused event =>
      exact hT.shrink (fun p _ => rfl) (fun p hp => hp) rfl rfl (List.Sublist.refl _)
        fun p hp => hp.imp_right (List.mem_append_left _)
  | recv msg em curSec curMs hem =>
      have hmem : msg ∈ T.em := by
        rw [hem]
        exact List.mem_cons_self
      have hT₀ : ({ T with em := em } : Timers).Known :=
        hT.shrink (fun p _ => rfl) (fun p hp => hp) rfl rfl (List.Sublist.refl _) fun p hp => hp
      exact hT₀.recv ⟨hnum.sn, hnum.created, hnum.add⟩ hfew curSec curMs (hused msg hmem)
        (T.not_added (howned msg) hmem)
  | fire maxId k te ret curSec curMs hk =>
      obtain ⟨T₁, rfl, ⟨-, head, hhead, heq⟩ | ⟨-, heq⟩⟩ := runTimeEvent_cases T curSec curMs ret hk
      · rw [heq]
        exact hT.repeat hhead
      · rw [heq]
        have hsend : (T.zSend ⟨some te.clientData, (T.heap te.clientData).dest,
            (T.heap te.clientData).value⟩).Known :=
          hT.shrink (fun p _ => rfl) (fun p hp => hp) rfl rfl (List.Sublist.refl _) fun p hp => hp
        exact hsend.delete te.id
  | look head lastTime _ _ hhead hpc hpc' => exact hT.repeat hhead
  | pushed _ | now _ _ =>
      exact hT.shrink (fun p _ => rfl) (fun p hp => hp) rfl rfl (List.Sublist.refl _) fun p hp => hp

theorem timers_known (h : Reachable (fire timerPcStep) (timerInit loop) c)
    (hfew : c.shared.created.length < 2 ^ 31) : c.shared.Known := by
  have hboth := h.invariant (J := fun c : Config ι Timers TimerPc =>
    Reachable (fire timerPcStep) (timerInit loop) c ∧
      (c.shared.created.length < 2 ^ 31 → c.shared.Known)) ⟨Reachable.refl _, fun _ => ?_⟩
    fun c a c' hc hf => ⟨hc.1.tail hf, fun hfew => ?_⟩
  · exact hboth.2 hfew
  · exact ⟨(by rintro _ ⟨⟩), List.Pairwise.nil, (by rintro _ ⟨⟩), (by rintro _ ⟨⟩), by rintro _ _ ⟨⟩⟩
  · obtain ⟨T', pc', hs, rfl⟩ := fire_eq_some.mp hf
    have hmove := timer_move hs
    have hfew' := Nat.lt_of_le_of_lt hmove.created_le hfew
    refine hmove.known (hc.2 hfew') (timers_numbered hc.1) hfew' (timers_owned_le hc.1) fun p hp => ?_
    -- a record on its way is in use
    have howned := timers_owned hc.1 p
    have hcount := List.count_pos_iff.mpr hp
    by_contra hnot
    unfold Timers.used Timers.owned at howned
    rw [if_neg hnot] at howned
    omega

omit [DecidableEq ι] [Fintype ι] in
/-- The time event of the timer with the sn `s` is the one that `timerDict` names. -/
theorem Timers.Known.sn_iff {T : Timers} (h : T.Known) {s : Nat} {id : Int}
    (hlookup : T.timerDict.lookup s = some id) {te : AeTimeEvent} (hte : te ∈ T.timeEventHead) :
    (T.heap te.clientData).sn = s ↔ te.id = id := by
  have hmem := Timers.mem_pending hte
  constructor
  · intro hsn
    have hentry := h.entry _ hmem
    rw [hsn, hlookup] at hentry
    exact (Option.some.inj hentry).symm
  · intro hid
    obtain ⟨-, p, -, hsn, -, hown⟩ := h.owner s id hlookup
    rw [show te.clientData = p from hown _ hmem hid]
    exact hsn

omit [DecidableEq ι] [Fintype ι] in
theorem filter_split {α : Type} {P : α → Bool} {x : α} {before after : List α} (hx : P x = false)
    (hother : ∀ y ∈ before ++ after, P y = true) :
    (before ++ x :: after).filter P = before ++ after := by
  rw [List.filter_append, List.filter_cons_of_neg (Bool.eq_false_iff.mp hx), ← List.filter_append]
  exact List.filter_eq_self.mpr hother

omit [DecidableEq ι] [Fintype ι] in
theorem Timers.Known.cancel {T : Timers} (h : T.Known) (msg : EventPtr) (curSec curMs : Int)
    (htype : (T.heap msg).type = 1) :
    (T.emCallback msg curSec curMs).timeEventHead = T.timeEventHead.filter fun te =>
      (T.heap te.clientData).sn ≠ (T.heap msg).value := by
  rcases emCallback_cancel T msg curSec curMs htype with ⟨id, hlookup, heq⟩ | ⟨hlookup, heq⟩
  · rw [heq]
    show (T.aeDeleteTimeEvent id).timeEventHead = _
    rcases aeDeleteTimeEvent_cases T id with ⟨te, before, after, hsplit, hid, hbefore, hdel⟩ |
      ⟨hnone, hdel⟩
    · -- all others have other ids
      have honce := h.ids_once
      unfold Timers.pending at honce
      rw [hsplit, List.map_append, List.map_cons, List.pairwise_append, List.pairwise_cons] at honce
      have hafter : ∀ te' ∈ after, te'.id ≠ id := fun te' hte' heq =>
        honce.2.1.1 _ (List.mem_map_of_mem hte') (hid.trans heq.symm)
      rw [hdel]
      show before ++ after = _
      rw [hsplit]
      refine (filter_split ?_ fun te' hte' => ?_).symm
      · refine decide_eq_false (not_not.mpr ((h.sn_iff hlookup ?_).mpr hid))
        rw [hsplit]
        exact List.mem_append_right _ List.mem_cons_self
      · refine decide_eq_true fun hsn => ?_
        have hmem : te' ∈ T.timeEventHead := by
          rw [hsplit, List.mem_append, List.mem_cons]
          exact (List.mem_append.mp hte').imp_right Or.inr
        have hsame := (h.sn_iff hlookup hmem).mp hsn
        rcases List.mem_append.mp hte' with hte' | hte'
        · exact hbefore te' hte' hsame
        · exact hafter te' hte' hsame
    · rw [hdel]
      refine (List.filter_eq_self.mpr fun te hte => ?_).symm
      exact decide_eq_true fun hsn => hnone te hte ((h.sn_iff hlookup hte).mp hsn)
  · rw [heq]
    refine (List.filter_eq_self.mpr fun te hte => ?_).symm
    refine decide_eq_true fun hsn => ?_
    have hentry := h.entry _ (Timers.mem_pending hte)
    rw [hsn, hlookup] at hentry
    cases hentry

omit [DecidableEq ι] [Fintype ι] in
/-- Time events with the same id are the same. -/
theorem timeEvent_eq_of_id {T : Timers} (honce : T.pending.Pairwise fun e e' => e.1 ≠ e'.1)
    {te te' : AeTimeEvent} (hte : te ∈ T.timeEventHead) (hte' : te' ∈ T.timeEventHead)
    (hid : te.id = te'.id) : te = te' := by
  unfold Timers.pending at honce
  rw [List.pairwise_map] at honce
  have hnodup : (T.timeEventHead.map AeTimeEvent.id).Nodup := List.pairwise_map.mpr honce
  exact List.inj_on_of_nodup_map hnodup hte hte' hid

-- ============================================================================
-- Timers that have ended
-- ============================================================================

/-- What a step does to the timers that have ended, and who calls `zSend`. -/
structure Ends (T T' : Timers) : Prop where
  freed : (∀ p ∈ T.ended, p ∈ T.zfreed) → ∀ p ∈ T'.ended, p ∈ T'.zfreed
  stay : ∀ p ∈ T.ended, p ∈ T'.ended
  ticks : ∀ p, T'.ticks p = T.ticks p ∨ p ∈ T.pending.map Prod.snd

theorem Ends.refl {T T' : Timers} (hended : T'.ended = T.ended)
    (hzfreed : ∀ p ∈ T.zfreed, p ∈ T'.zfreed)
    (hticks : ∀ p, T'.ticks p = T.ticks p ∨ p ∈ T.pending.map Prod.snd) : Ends T T' where
  freed := fun h p hp => hzfreed p (h p (hended ▸ hp))
  stay := fun _ hp => hended ▸ hp
  ticks := hticks

theorem aeDeleteTimeEvent_ends (T : Timers) (id : Int) : Ends T (T.aeDeleteTimeEvent id) := by
  rcases aeDeleteTimeEvent_cases T id with ⟨te, before, after, -, -, -, heq⟩ | ⟨-, heq⟩
  · rw [heq]
    refine ⟨fun h p hp => ?_, fun p hp => List.mem_append_left _ hp, fun p => Or.inl rfl⟩
    rcases List.mem_append.mp hp with hold | hnew
    · exact List.mem_append_left _ (h p hold)
    · exact List.mem_append_right _ hnew
  · rw [heq]
    exact ⟨fun h => h, fun p hp => hp, fun p => Or.inl rfl⟩

theorem emCallback_ends (T : Timers) (em : List EventPtr) (msg : EventPtr) (curSec curMs : Int) :
    Ends T ({ T with em := em }.emCallback msg curSec curMs) := by
  have hfree : ∀ {T' : Timers}, Ends T T' → Ends T (T'.zfree msg) := fun h =>
    ⟨fun hsub p hp => List.mem_append_left _ (h.freed hsub p hp), h.stay, h.ticks⟩
  have hstill : Ends T { T with em := em } :=
    .refl rfl (fun p hp => hp) fun p => Or.inl rfl
  have hdelete : ∀ id, Ends T (({ T with em := em } : Timers).aeDeleteTimeEvent id) := fun id => by
    obtain ⟨hfreed, hstay, hticks⟩ := aeDeleteTimeEvent_ends { T with em := em } id
    exact ⟨hfreed, hstay, hticks⟩
  by_cases hadd : (T.heap msg).type = 0
  · rw [emCallback_add { T with em := em } msg curSec curMs hadd]
    exact .refl rfl (fun p hp => hp) fun p => Or.inl rfl
  · by_cases hcancel : (T.heap msg).type = 1
    · rcases emCallback_cancel { T with em := em } msg curSec curMs hcancel with
        ⟨id, -, heq⟩ | ⟨-, heq⟩
      · rw [heq]
        exact hfree (hdelete id)
      · rw [heq]
        exact hfree hstill
    · rw [emCallback_stop { T with em := em } msg curSec curMs hadd hcancel]
      obtain ⟨hfreed, hstay, hticks⟩ := hfree hstill
      exact ⟨hfreed, hstay, hticks⟩

theorem runTimeEvent_ends (T : Timers) {k : Nat} {te : AeTimeEvent} (ret curSec curMs : Int)
    (hk : T.timeEventHead[k]? = some te) : Ends T (T.runTimeEvent k te ret curSec curMs) := by
  have hticks : ∀ p, (T.zSend ⟨some te.clientData, (T.heap te.clientData).dest,
      (T.heap te.clientData).value⟩).ticks p = T.ticks p ∨ p ∈ T.pending.map Prod.snd := by
    intro p
    by_cases hp : te.clientData = p
    · refine Or.inr (List.mem_map.mpr ⟨_, Timers.mem_pending (List.mem_of_getElem? hk), hp⟩)
    · refine Or.inl ?_
      unfold Timers.ticks Timers.zSend
      rw [List.countP_append, List.countP_singleton, if_neg (by simpa using hp)]
      rfl
  obtain ⟨T₁, rfl, ⟨-, head, -, heq⟩ | ⟨-, heq⟩⟩ := runTimeEvent_cases T curSec curMs ret hk
  · rw [heq]
    exact .refl rfl (fun p hp => hp) hticks
  · obtain ⟨hfreed, hstay, -⟩ := aeDeleteTimeEvent_ends (T.zSend ⟨some te.clientData,
      (T.heap te.clientData).dest, (T.heap te.clientData).value⟩) te.id
    rw [heq]
    refine ⟨hfreed, hstay, fun p => ?_⟩
    unfold Timers.ticks at hticks ⊢
    rw [(aeDeleteTimeEvent_same _ te.id).sent]
    exact hticks p

theorem TimerMove.ends {T T' : Timers} {pc pc' : TimerPc} (h : TimerMove T pc T' pc') :
    Ends T T' := by
  cases h with
  | create dest time session noMore htime =>
      unfold Timers.timerTimeout
      rw [if_neg htime]
      exact .refl rfl (fun p hp => hp) fun p => Or.inl rfl
  | refused event => exact .refl rfl (fun p hp => List.mem_append_left _ hp) fun p => Or.inl rfl
  | recv msg em curSec curMs hem => exact emCallback_ends T em msg curSec curMs
  | fire maxId k te ret curSec curMs hk => exact runTimeEvent_ends T ret curSec curMs hk
  | now dest session =>
      refine .refl rfl (fun p hp => hp) fun p => Or.inl ?_
      unfold Timers.ticks Timers.zSend
      rw [List.countP_append]
      rfl
  | _ => exact .refl rfl (fun p hp => hp) fun p => Or.inl rfl

/-- What becomes of the timers: a cancellation by `s` removes the time event of the
    timer that was given the sn `s`, if there is one, and changes no other; a timer
    that has ended makes no further call of `zSend`; and no record is freed twice. -/
structure Identified (c : Config ι Timers TimerPc) : Prop where
  cancel : ∀ i msg em curSec curMs c', c.pcs i = .loop → c.shared.em = msg :: em →
    (c.shared.heap msg).type = 1 → fire timerPcStep c (i, .recv curSec curMs) = some c' →
    c'.shared.timeEventHead = c.shared.timeEventHead.filter fun te =>
      (c.shared.heap te.clientData).sn ≠ (c.shared.heap msg).value
  once : ∀ te ∈ c.shared.timeEventHead, ∀ te' ∈ c.shared.timeEventHead,
    (c.shared.heap te.clientData).sn = (c.shared.heap te'.clientData).sn → te = te'
  silent : ∀ as c', runFrom (fire timerPcStep) c as = some c' → ∀ p ∈ c.shared.ended,
    c'.shared.ticks p = c.shared.ticks p
  freed_once : ∀ p, c.shared.zfreed.count p ≤ 1

omit [Fintype ι] in
theorem timers_ended (h : Reachable (fire timerPcStep) (timerInit loop) c) :
    ∀ p ∈ c.shared.ended, p ∈ c.shared.zfreed := by
  refine h.invariant (J := fun c : Config ι Timers TimerPc =>
    ∀ p ∈ c.shared.ended, p ∈ c.shared.zfreed) (by rintro _ ⟨⟩) fun c a c' hc hf => ?_
  obtain ⟨T', pc', hs, rfl⟩ := fire_eq_some.mp hf
  exact (timer_move hs).ends.freed hc

/-- A timer that has ended is silent in every run from there on. -/
theorem timers_silent (h : Reachable (fire timerPcStep) (timerInit loop) c)
    {as : List (ι × TimerChoice)} {c' : Config ι Timers TimerPc}
    (hrun : runFrom (fire timerPcStep) c as = some c') {p : EventPtr} (hp : p ∈ c.shared.ended) :
    c'.shared.ticks p = c.shared.ticks p := by
  have hall := (Reachable.of_runFrom hrun).invariant (J := fun c' : Config ι Timers TimerPc =>
    Reachable (fire timerPcStep) (timerInit loop) c' ∧ p ∈ c'.shared.ended ∧
      c'.shared.ticks p = c.shared.ticks p) ⟨h, hp, rfl⟩ fun c₁ a c₂ hc hf => ?_
  · exact hall.2.2
  · obtain ⟨hr, hended, hticks⟩ := hc
    obtain ⟨T', pc', hs, rfl⟩ := fire_eq_some.mp hf
    obtain ⟨-, hstay, hsame⟩ := (timer_move hs).ends
    refine ⟨hr.tail hf, hstay p hended, ?_⟩
    rcases hsame p with heq | hpending
    · exact heq.trans hticks
    · -- its record is freed, so no time event has it
      have howned := timers_owned_le hr p
      have hfreed := List.count_pos_iff.mpr (timers_ended hr p hended)
      have hcount := List.count_pos_iff.mpr hpending
      unfold Timers.owned at howned
      omega

theorem timers_identified (h : Reachable (fire timerPcStep) (timerInit loop) c)
    (hfew : c.shared.created.length < 2 ^ 31) : Identified c := by
  have hknown := timers_known h hfew
  refine ⟨fun i msg em curSec curMs c' hpc hem htype hf => ?_, fun te hte te' hte' hsn => ?_,
    fun as c' hrun p hp => timers_silent h hrun hp, fun p => ?_⟩
  · have hbefore : ({ c.shared with em := em } : Timers).Known :=
      hknown.shrink (fun p _ => rfl) (fun p hp => hp) rfl rfl (List.Sublist.refl _) fun p hp => hp
    obtain ⟨T', pc', hs, rfl⟩ := fire_eq_some.mp hf
    simp only [hpc, timerPcStep, hem, Option.some.injEq, Prod.mk.injEq] at hs
    rw [← hs.1]
    exact hbefore.cancel msg curSec curMs htype
  · have hentry := hknown.entry _ (Timers.mem_pending hte)
    have hentry' := hknown.entry _ (Timers.mem_pending hte')
    simp only at hentry hentry'
    rw [hsn, hentry'] at hentry
    exact timeEvent_eq_of_id hknown.ids_once hte hte' (Option.some.inj hentry).symm
  · have howned := timers_owned_le h p
    unfold Timers.owned at howned
    omega

/-- Thread 1 asks for a repeating timer, which fires twice, and cancels it. -/
theorem timers_identified_cancel : ∃ c : Config (Fin 2) Timers TimerPc,
    c.shared.created = [0] ∧ c.shared.timeEventHead = [⟨0, 20, 20, 0⟩] ∧ c.shared.ticks 0 = 2 ∧
      Identified c ∧ ∃ c', fire timerPcStep c (0, .recv 30 0) = some c' ∧
        c'.shared.timeEventHead = [] := by
  let run : List (Fin 2 × TimerChoice) :=
    [(1, .timeout 5 20 7 1), (1, .pushed false), (0, .recv 10 0), (0, .process 20),
      (0, .look 20 0 0 20 0), (0, .look 20 0 0 0 0), (0, .look 20 0 0 0 0), (0, .process 20),
      (0, .look 20 30 0 20 0), (0, .look 20 0 0 0 0), (0, .look 20 0 0 0 0),
      (1, .cancel 1), (1, .pushed false)]
  have hrun : ∃ c, runFrom (fire timerPcStep) (timerInit 0) run = some c ∧
      c.shared.created = [0] ∧ c.shared.timeEventHead = [⟨0, 20, 20, 0⟩] ∧ c.shared.ticks 0 = 2 ∧
      ∃ c', fire timerPcStep c (0, .recv 30 0) = some c' ∧ c'.shared.timeEventHead = [] :=
    ⟨_, rfl, rfl, rfl, rfl, _, rfl, rfl⟩
  obtain ⟨c, hc, hcreated, hhead, hticks, hcancel⟩ := hrun
  exact ⟨c, hcreated, hhead, hticks,
    timers_identified ⟨run, hc⟩ (by rw [hcreated]; decide), hcancel⟩

end Runs

end Timer
end ZServer
