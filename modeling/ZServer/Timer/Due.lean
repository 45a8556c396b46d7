/-
  ZServer.Timer.Due

  Which timers of a service are still to tick, and what a step does to that.  A timer
  is armed from the push of its record to the end of its time event; it is due unless
  a cancellation is on its way behind it.
-/

import Mathlib.Data.List.TakeWhile
import ZServer.Timer.Identity

namespace ZServer
namespace Timer

open Lib

-- ============================================================================
-- Armed and due
-- ============================================================================

section Definitions

variable (T : Timers)

/-- The records that the timer thread has, or gets, but for those it has freed. -/
def Timers.held : List EventPtr := T.em ++ T.pending.map Prod.snd

/-- The record of a timer that ticks for the session `session` of the service `dest`. -/
def Timers.IsFor (dest : Int) (session : Nat) (p : EventPtr) : Prop :=
  (T.heap p).type = 0 ∧ (T.heap p).dest = dest ∧ (T.heap p).value = session

instance (dest : Int) (session : Nat) : DecidablePred (T.IsFor dest session) := fun p => by
  unfold Timers.IsFor
  infer_instance

def Timers.Armed (dest : Int) (session : Nat) (p : EventPtr) : Prop :=
  p ∈ T.held ∧ T.IsFor dest session p

/-- The records on their way that come after `p`, or all of them. -/
def Timers.behind (p : EventPtr) : List EventPtr := T.em.reverse.takeWhile (· ≠ p)

/-- The record is a cancellation by the sn of `p`. -/
def Timers.Cancels (r p : EventPtr) : Prop :=
  (T.heap r).type = 1 ∧ (T.heap r).value = (T.heap p).sn

instance (r p : EventPtr) : Decidable (T.Cancels r p) := by
  unfold Timers.Cancels
  infer_instance

/-- A cancellation of `p` is on its way. -/
def Timers.Doomed (p : EventPtr) : Prop := ∃ r ∈ T.behind p, T.Cancels r p

instance : DecidablePred T.Doomed := fun p => by
  unfold Timers.Doomed
  infer_instance

def Timers.Due (dest : Int) (session : Nat) (p : EventPtr) : Prop :=
  T.Armed dest session p ∧ ¬T.Doomed p

/-- How many timers are armed for the session. -/
def Timers.shots (dest : Int) (session : Nat) : Nat := T.held.countP (T.IsFor dest session)

end Definitions

theorem Timers.shots_pos {T : Timers} {dest : Int} {session : Nat} :
    0 < T.shots dest session ↔ ∃ p, T.Armed dest session p := by
  unfold Timers.shots
  rw [List.countP_pos_iff]
  exact exists_congr fun p => and_congr_right fun _ => decide_eq_true_iff

-- ============================================================================
-- The records behind another one
-- ============================================================================

section Behind

variable {T : Timers} {p msg r : EventPtr} {em : List EventPtr}

theorem takeWhile_ne_iff {l : List EventPtr} : l.takeWhile (fun x => x ≠ p) = l ↔ p ∉ l := by
  rw [List.takeWhile_eq_self_iff]
  constructor
  · intro hall hp
    exact absurd rfl (of_decide_eq_true (hall p hp))
  · intro hp x hx
    refine decide_eq_true ?_
    rintro rfl
    exact hp hx

/-- The first record on its way is behind those that are not on their way. -/
theorem mem_behind_cons (hem : T.em = msg :: em) :
    r ∈ T.behind p ↔ r ∈ ({ T with em := em } : Timers).behind p ∨ r = msg ∧ p ∉ T.em := by
  unfold Timers.behind
  rw [hem, List.reverse_cons, List.takeWhile_append]
  show _ ↔ r ∈ em.reverse.takeWhile _ ∨ _
  split
  · rename_i hlen
    have hself := (List.takeWhile_prefix _).eq_of_length hlen
    have hem' : p ∉ em := fun hp => takeWhile_ne_iff.mp hself (List.mem_reverse.mpr hp)
    rw [hself, List.mem_append]
    by_cases hmsg : msg = p
    · rw [List.takeWhile_cons_of_neg (by simpa using hmsg)]
      simp [hmsg]
    · rw [List.takeWhile_cons_of_pos (by simpa using hmsg)]
      simp [hem', Ne.symm hmsg]
  · rename_i hlen
    have hem' : p ∈ em := by
      by_contra hnot
      exact hlen (congrArg List.length (takeWhile_ne_iff.mpr fun hp => hnot (List.mem_reverse.mp hp)))
    simp [hem']

/-- A record that is pushed is behind all others. -/
theorem mem_behind_push (hp : r ≠ p) {x : EventPtr} :
    x ∈ ({ T with em := T.em ++ [r] } : Timers).behind p ↔ x = r ∨ x ∈ T.behind p := by
  unfold Timers.behind
  show x ∈ (T.em ++ [r]).reverse.takeWhile _ ↔ _
  rw [List.reverse_append, List.reverse_singleton, List.singleton_append,
    List.takeWhile_cons_of_pos (by simpa using hp), List.mem_cons]

end Behind

-- ============================================================================
-- Steps that arm no timer of the service
-- ============================================================================

/-- A step that arms no timer of the service, makes none due, and disarms those of
    `gone` at most. -/
structure Steady (dest : Int) (gone : EventPtr → Prop) (T T' : Timers) : Prop where
  armed : ∀ s p, T'.Armed dest s p → T.Armed dest s p
  record : ∀ s p, T.Armed dest s p → T'.heap p = T.heap p
  stays : ∀ s p, T.Armed dest s p → ¬gone p → T'.Armed dest s p
  due : ∀ s p, T'.Due dest s p → T.Due dest s p
  shots : ∀ s, T'.shots dest s ≤ T.shots dest s

section Steady

variable {T T' : Timers} {dest : Int}

/-- Only the records and where they are matter. -/
theorem Steady.same (hheap : T'.heap = T.heap) (hem : T'.em = T.em)
    (hpending : T'.pending = T.pending) : Steady dest (fun _ => False) T T' := by
  have hheld : T'.held = T.held := by
    unfold Timers.held
    rw [hem, hpending]
  have hfor : ∀ s p, T'.IsFor dest s p ↔ T.IsFor dest s p := fun s p => by
    unfold Timers.IsFor
    rw [hheap]
  have harmed : ∀ s p, T'.Armed dest s p ↔ T.Armed dest s p := fun s p => by
    unfold Timers.Armed
    rw [hheld, hfor]
  have hdoomed : ∀ p, T'.Doomed p ↔ T.Doomed p := fun p => by
    unfold Timers.Doomed Timers.behind Timers.Cancels
    rw [hem, hheap]
  refine ⟨fun s p => (harmed s p).mp, fun s p _ => by rw [hheap], fun s p h _ => (harmed s p).mpr h,
    fun s p h => ⟨(harmed s p).mp h.1, fun hd => h.2 ((hdoomed p).mpr hd)⟩, fun s => ?_⟩
  unfold Timers.shots
  rw [hheld]
  refine Nat.le_of_eq (List.countP_congr fun p _ => ?_)
  rw [decide_eq_true_iff, decide_eq_true_iff]
  exact hfor s p

theorem emCallback_em (T : Timers) (msg : EventPtr) (curSec curMs : Int) :
    (T.emCallback msg curSec curMs).em = T.em := by
  by_cases hadd : (T.heap msg).type = 0
  · rw [emCallback_add T msg curSec curMs hadd]
    rfl
  · by_cases hcancel : (T.heap msg).type = 1
    · rcases emCallback_cancel T msg curSec curMs hcancel with ⟨id, -, heq⟩ | ⟨-, heq⟩
      · rw [heq]
        exact (aeDeleteTimeEvent_same T id).em
      · rw [heq]
        rfl
    · rw [emCallback_stop T msg curSec curMs hadd hcancel]
      rfl

theorem emCallback_sent (T : Timers) (msg : EventPtr) (curSec curMs : Int) :
    (T.emCallback msg curSec curMs).sent = T.sent := by
  by_cases hadd : (T.heap msg).type = 0
  · rw [emCallback_add T msg curSec curMs hadd]
    rfl
  · by_cases hcancel : (T.heap msg).type = 1
    · rcases emCallback_cancel T msg curSec curMs hcancel with ⟨id, -, heq⟩ | ⟨-, heq⟩
      · rw [heq]
        exact (aeDeleteTimeEvent_same T id).sent
      · rw [heq]
        rfl
    · rw [emCallback_stop T msg curSec curMs hadd hcancel]
      rfl

/-- What the timer thread holds once it has taken up a record: a timer that was on
    its way is a time event, and a cancellation takes the timer that it is for. -/
theorem recv_held {msg : EventPtr} {em : List EventPtr} (hem : T.em = msg :: em)
    (hknown : T.Known) (curSec curMs : Int) :
    ({ T with em := em }.emCallback msg curSec curMs).held.Subperm T.held ∧
      ∀ p, (T.heap p).type = 0 → p ∈ T.held →
        (p ∈ ({ T with em := em }.emCallback msg curSec curMs).held ∨ p ∉ em ∧ T.Cancels msg p) := by
  have hT : ({ T with em := em } : Timers).Known :=
    hknown.shrink (fun p _ => rfl) (fun p hp => hp) rfl rfl (List.Sublist.refl _) fun p hp => hp
  unfold Timers.held
  rw [emCallback_em, hem]
  by_cases hadd : (T.heap msg).type = 0
  · rw [emCallback_add { T with em := em } msg curSec curMs hadd]
    have hperm : (em ++ msg :: T.pending.map Prod.snd).Perm (msg :: em ++ T.pending.map Prod.snd) :=
      List.perm_middle
    exact ⟨hperm.subperm, fun p _ hp => Or.inl (hperm.mem_iff.mpr hp)⟩
  · have hother : ∀ p, (T.heap p).type = 0 → p ≠ msg := by
      rintro p hp rfl
      exact hadd hp
    by_cases hcancel : (T.heap msg).type = 1
    · have hhead := hT.cancel msg curSec curMs hcancel
      have hsub : (({ T with em := em }.emCallback msg curSec curMs).pending.map Prod.snd).Sublist
          (T.pending.map Prod.snd) := by
        unfold Timers.pending
        rw [hhead]
        exact (List.filter_sublist.map _).map _
      refine ⟨(hsub.append_left em).subperm.trans (List.sublist_cons_self msg _).subperm,
        fun p htype hp => ?_⟩
      rw [List.cons_append, List.mem_cons, List.mem_append] at hp
      rcases hp with rfl | hp | hp
      · exact absurd rfl (hother p htype)
      · exact Or.inl (List.mem_append_left _ hp)
      · by_cases hcancels : T.Cancels msg p
        · by_cases hpem : p ∈ em
          · exact Or.inl (List.mem_append_left _ hpem)
          · exact Or.inr ⟨hpem, hcancels⟩
        · refine Or.inl (List.mem_append_right _ ?_)
          obtain ⟨e, he, rfl⟩ := List.mem_map.mp hp
          obtain ⟨te, hte, rfl⟩ := List.mem_map.mp he
          refine List.mem_map.mpr ⟨(te.id, te.clientData), Timers.mem_pending ?_, rfl⟩
          rw [hhead]
          exact List.mem_filter.mpr ⟨hte, decide_eq_true fun hsn => hcancels ⟨hcancel, hsn.symm⟩⟩
    · rw [emCallback_stop { T with em := em } msg curSec curMs hadd hcancel]
      refine ⟨(List.sublist_cons_self msg _).subperm, fun p htype hp => Or.inl ?_⟩
      rw [List.cons_append, List.mem_cons] at hp
      exact hp.resolve_left (hother p htype)

/-- A timer that is cancelled is no longer held. -/
theorem recv_cancelled {msg : EventPtr} {em : List EventPtr}
    (hknown : T.Known) (curSec curMs : Int) {p : EventPtr} (hp : p ∉ em) (hcancels : T.Cancels msg p) :
    p ∉ ({ T with em := em }.emCallback msg curSec curMs).held := by
  have hT : ({ T with em := em } : Timers).Known :=
    hknown.shrink (fun p _ => rfl) (fun p hp => hp) rfl rfl (List.Sublist.refl _) fun p hp => hp
  have hhead := hT.cancel msg curSec curMs hcancels.1
  unfold Timers.held Timers.pending
  rw [emCallback_em, hhead]
  intro hmem
  rcases List.mem_append.mp hmem with hmem | hmem
  · exact hp hmem
  · obtain ⟨e, he, rfl⟩ := List.mem_map.mp hmem
    obtain ⟨te, hte, rfl⟩ := List.mem_map.mp he
    exact of_decide_eq_true (List.mem_filter.mp hte).2 hcancels.2.symm

/-- The timer thread takes up a record. -/
theorem Steady.recv (dest : Int) {msg : EventPtr} {em : List EventPtr} (hem : T.em = msg :: em)
    (hknown : T.Known) (curSec curMs : Int) :
    Steady dest (fun p => p ∉ em ∧ T.Cancels msg p) T
      ({ T with em := em }.emCallback msg curSec curMs) := by
  obtain ⟨hsubperm, hstays⟩ := recv_held hem hknown curSec curMs
  have hheap : ({ T with em := em }.emCallback msg curSec curMs).heap = T.heap :=
    (emCallback_keeps { T with em := em } msg curSec curMs).heap
  have hfor : ∀ s p, ({ T with em := em }.emCallback msg curSec curMs).IsFor dest s p ↔
      T.IsFor dest s p := fun s p => by
    unfold Timers.IsFor
    rw [hheap]
  have harmed : ∀ s p, ({ T with em := em }.emCallback msg curSec curMs).Armed dest s p →
      T.Armed dest s p := fun s p h => ⟨hsubperm.subset h.1, (hfor s p).mp h.2⟩
  have hkept : ∀ s p, T.Armed dest s p → ¬(p ∉ em ∧ T.Cancels msg p) →
      ({ T with em := em }.emCallback msg curSec curMs).Armed dest s p := fun s p h hnot =>
    ⟨(hstays p h.2.1 h.1).resolve_right hnot, (hfor s p).mpr h.2⟩
  -- the cancellations that are behind a timer stay so, but for the one taken up
  have hdoomed : ∀ p, T.Doomed p →
      ({ T with em := em }.emCallback msg curSec curMs).Doomed p ∨ p ∉ em ∧ T.Cancels msg p := by
    rintro p ⟨r, hr, hrp⟩
    rcases (mem_behind_cons hem).mp hr with hr | ⟨rfl, hp⟩
    · refine Or.inl ⟨r, ?_, ?_⟩
      · unfold Timers.behind
        rw [emCallback_em]
        exact hr
      · unfold Timers.Cancels
        rw [hheap]
        exact hrp
    · rw [hem, List.mem_cons, not_or] at hp
      exact Or.inr ⟨hp.2, hrp⟩
  refine ⟨harmed, fun s p _ => by rw [hheap], hkept, fun s p h => ⟨harmed s p h.1, fun hdoom => ?_⟩,
    fun s => ?_⟩
  · rcases hdoomed p hdoom with hdoom | ⟨hp, hcancels⟩
    · exact h.2 hdoom
    · exact recv_cancelled hknown curSec curMs hp hcancels h.1.1
  · unfold Timers.shots
    refine Nat.le_trans (hsubperm.countP_le _) (Nat.le_of_eq (List.countP_congr fun p _ => ?_))
    rw [decide_eq_true_iff, decide_eq_true_iff]
    exact hfor s p

/-- The time event goes, and the others stay. -/
theorem delete_held (hknown : T.Known) {te : AeTimeEvent} (hte : te ∈ T.timeEventHead) :
    T.held.Perm (te.clientData :: (T.aeDeleteTimeEvent te.id).held) := by
  rcases aeDeleteTimeEvent_cases T te.id with ⟨te', before, after, hsplit, hid, -, heq⟩ | ⟨hnone, -⟩
  · have hsame : te' = te := by
      refine timeEvent_eq_of_id hknown.ids_once ?_ hte hid
      rw [hsplit]
      exact List.mem_append_right _ List.mem_cons_self
    rw [heq]
    unfold Timers.held Timers.pending
    rw [hsplit, hsame, List.map_append, List.map_append, List.map_cons, List.map_cons,
      List.map_append, List.map_append, ← List.append_assoc, ← List.append_assoc]
    exact List.perm_middle
  · exact absurd rfl (hnone te hte)

/-- A time event that is due calls `zSend`, and may end. -/
theorem Steady.fire (dest : Int) {k : Nat} {te : AeTimeEvent} (hk : T.timeEventHead[k]? = some te)
    (hknown : T.Known) (ret curSec curMs : Int) :
    Steady dest (fun p => p = te.clientData) T (T.runTimeEvent k te ret curSec curMs) ∧
      (timeProc (T.heap te.clientData) ret = AE_NOMORE → ∀ s, T.IsFor dest s te.clientData →
        (T.runTimeEvent k te ret curSec curMs).shots dest s < T.shots dest s) := by
  have hte := List.mem_of_getElem? hk
  obtain ⟨T₁, hT₁, ⟨hmore, head, hhead, heq⟩ | ⟨-, heq⟩⟩ := runTimeEvent_cases T curSec curMs ret hk
  · -- it is called again
    have hsame : Steady dest (fun _ => False) T (T.runTimeEvent k te ret curSec curMs) := by
      rw [heq, hT₁]
      exact .same rfl rfl hhead
    exact ⟨⟨hsame.armed, hsame.record, fun s p h _ => hsame.stays s p h id, hsame.due, hsame.shots⟩,
      fun hnomore => absurd hnomore hmore⟩
  · have hrecords : SameRecords T₁ (T₁.aeDeleteTimeEvent te.id) := aeDeleteTimeEvent_same T₁ te.id
    have hperm : T.held.Perm (te.clientData :: (T.runTimeEvent k te ret curSec curMs).held) := by
      have hknown₁ : T₁.Known := by
        rw [hT₁]
        exact hknown.shrink (fun p _ => rfl) (fun p hp => hp) rfl rfl (List.Sublist.refl _)
          fun p hp => hp
      rw [heq]
      have hheld : T₁.held = T.held := by rw [hT₁]; rfl
      rw [← hheld]
      exact delete_held hknown₁ (by rw [hT₁]; exact hte)
    have hheap : (T.runTimeEvent k te ret curSec curMs).heap = T.heap := by
      rw [heq, hrecords.heap, hT₁]
      rfl
    have hem : (T.runTimeEvent k te ret curSec curMs).em = T.em := by
      rw [heq, hrecords.em, hT₁]
      rfl
    have hfor : ∀ s p, (T.runTimeEvent k te ret curSec curMs).IsFor dest s p ↔ T.IsFor dest s p :=
      fun s p => by
        unfold Timers.IsFor
        rw [hheap]
    have harmed : ∀ s p, (T.runTimeEvent k te ret curSec curMs).Armed dest s p →
        T.Armed dest s p := fun s p h =>
      ⟨hperm.mem_iff.mpr (List.mem_cons_of_mem _ h.1), (hfor s p).mp h.2⟩
    have hcount : ∀ s, T.shots dest s = (T.runTimeEvent k te ret curSec curMs).shots dest s +
        if T.IsFor dest s te.clientData then 1 else 0 := by
      intro s
      unfold Timers.shots
      rw [hperm.countP_eq, List.countP_cons]
      simp only [decide_eq_true_iff]
      refine congrArg (· + _) (List.countP_congr fun p _ => ?_)
      rw [decide_eq_true_iff, decide_eq_true_iff]
      exact (hfor s p).symm
    refine ⟨⟨harmed, fun s p _ => by rw [hheap], fun s p h hne => ?_, fun s p h => ?_, fun s => ?_⟩,
      fun _ s hs => ?_⟩
    · exact ⟨(List.mem_cons.mp (hperm.mem_iff.mp h.1)).resolve_left hne, (hfor s p).mpr h.2⟩
    · refine ⟨harmed s p h.1, fun hdoom => h.2 ?_⟩
      unfold Timers.Doomed Timers.behind Timers.Cancels at hdoom ⊢
      rw [hem, hheap]
      exact hdoom
    · rw [hcount s]
      exact Nat.le_add_right _ _
    · rw [hcount s, if_pos hs]
      exact Nat.lt_succ_self _

theorem Steady.trans {T'' : Timers} (h : Steady dest (fun _ => False) T T')
    (h' : Steady dest (fun _ => False) T' T'') : Steady dest (fun _ => False) T T'' where
  armed := fun s p harmed => h.armed s p (h'.armed s p harmed)
  record := fun s p harmed => by
    rw [h'.record s p (h.stays s p harmed id), h.record s p harmed]
  stays := fun s p harmed _ => h'.stays s p (h.stays s p harmed id) id
  due := fun s p hdue => h.due s p (h'.due s p hdue)
  shots := fun s => Nat.le_trans (h'.shots s) (h.shots s)

/-- A record is filled in. -/
theorem Steady.alloc (hlt : ∀ p ∈ T.held, p < T.next) {event : TimerEvent}
    (hheap : T'.heap = Function.update T.heap T.next event) (hem : T'.em = T.em)
    (hpending : T'.pending = T.pending) : Steady dest (fun _ => False) T T' := by
  have hheld : T'.held = T.held := by
    unfold Timers.held
    rw [hem, hpending]
  have hrecord : ∀ p ∈ T.held, T'.heap p = T.heap p := fun p hp => by
    rw [hheap]
    exact Function.update_of_ne (Nat.ne_of_lt (hlt p hp)) _ _
  have hfor : ∀ s, ∀ p ∈ T.held, T'.IsFor dest s p ↔ T.IsFor dest s p := fun s p hp => by
    unfold Timers.IsFor
    rw [hrecord p hp]
  have harmed : ∀ s p, T'.Armed dest s p ↔ T.Armed dest s p := fun s p => by
    unfold Timers.Armed
    rw [hheld]
    exact and_congr_right fun hp => hfor s p hp
  refine ⟨fun s p => (harmed s p).mp, fun s p h => hrecord p h.1, fun s p h _ => (harmed s p).mpr h,
    fun s p h => ⟨(harmed s p).mp h.1, ?_⟩, fun s => ?_⟩
  · rintro ⟨r, hr, hcancels⟩
    refine h.2 ⟨r, ?_, ?_⟩
    · unfold Timers.behind
      rw [hem]
      exact hr
    · have hr' : r ∈ T.held :=
        List.mem_append_left _ (List.mem_reverse.mp ((List.takeWhile_prefix _).subset hr))
      unfold Timers.Cancels at hcancels ⊢
      rw [hrecord r hr', hrecord p (hheld ▸ h.1.1)]
      exact hcancels
  · unfold Timers.shots
    rw [hheld]
    refine Nat.le_of_eq (List.countP_congr fun p hp => ?_)
    rw [decide_eq_true_iff, decide_eq_true_iff]
    exact hfor s p hp

/-- A record that is no timer of the service is pushed. -/
theorem Steady.push {r : EventPtr} (hr : ∀ s, ¬T.IsFor dest s r) :
    Steady dest (fun _ => False) T { T with em := T.em ++ [r] } := by
  have hne : ∀ s p, T.IsFor dest s p → r ≠ p := by
    rintro s p hp rfl
    exact hr s hp
  have hheld : ∀ p, p ∈ ({ T with em := T.em ++ [r] } : Timers).held ↔ p = r ∨ p ∈ T.held :=
    fun p => by
      unfold Timers.held
      show p ∈ T.em ++ [r] ++ T.pending.map Prod.snd ↔ _
      simp only [List.mem_append, List.mem_singleton]
      tauto
  refine ⟨fun s p h => ⟨((hheld p).mp h.1).resolve_left (Ne.symm (hne s p h.2)), h.2⟩, fun _ _ _ => rfl,
    fun s p h _ => ⟨(hheld p).mpr (Or.inr h.1), h.2⟩, fun s p h => ?_, fun s => ?_⟩
  · refine ⟨⟨((hheld p).mp h.1.1).resolve_left (Ne.symm (hne s p h.1.2)), h.1.2⟩, ?_⟩
    rintro ⟨r', hr', hcancels⟩
    exact h.2 ⟨r', (mem_behind_push (hne s p h.1.2)).mpr (Or.inr hr'), hcancels⟩
  · refine Nat.le_of_eq ?_
    unfold Timers.shots Timers.held
    show (T.em ++ [r] ++ T.pending.map Prod.snd).countP _ = _
    rw [List.countP_append, List.countP_append, List.countP_append, List.countP_singleton,
      if_neg (by rw [decide_eq_true_iff]; exact hr s), Nat.add_zero]
    rfl

/-- The timers that a cancellation is for are not due any more. -/
theorem push_doomed {r p : EventPtr} (hp : (T.heap p).type = 0) (hcancels : T.Cancels r p) :
    ({ T with em := T.em ++ [r] } : Timers).Doomed p := by
  have hne : r ≠ p := by
    rintro rfl
    rw [hcancels.1] at hp
    cases hp
  exact ⟨r, (mem_behind_push hne).mpr (Or.inl rfl), hcancels⟩

/-- A timer of the service is armed. -/
theorem push_armed {p : EventPtr} (hp : p ∉ T.held) {session : Nat} (hfor : T.IsFor dest session p) :
    (∀ s q, ({ T with em := T.em ++ [p] } : Timers).Armed dest s q ↔
        T.Armed dest s q ∨ q = p ∧ s = session) ∧
      (∀ s q, ({ T with em := T.em ++ [p] } : Timers).Due dest s q →
        T.Due dest s q ∨ q = p ∧ s = session) ∧
      ∀ s, ({ T with em := T.em ++ [p] } : Timers).shots dest s =
        T.shots dest s + if s = session then 1 else 0 := by
  have harmed : ∀ s q, ({ T with em := T.em ++ [p] } : Timers).Armed dest s q ↔
      T.Armed dest s q ∨ q = p ∧ s = session := by
    intro s q
    unfold Timers.Armed Timers.held
    show q ∈ T.em ++ [p] ++ T.pending.map Prod.snd ∧ T.IsFor dest s q ↔ _
    simp only [List.mem_append, List.mem_singleton]
    constructor
    · rintro ⟨(hq | rfl) | hq, hs⟩
      · exact Or.inl ⟨Or.inl hq, hs⟩
      · exact Or.inr ⟨rfl, hs.2.2.symm.trans hfor.2.2⟩
      · exact Or.inl ⟨Or.inr hq, hs⟩
    · rintro (⟨hq | hq, hs⟩ | ⟨rfl, rfl⟩)
      · exact ⟨Or.inl (Or.inl hq), hs⟩
      · exact ⟨Or.inr hq, hs⟩
      · exact ⟨Or.inl (Or.inr rfl), hfor⟩
  refine ⟨harmed, fun s q h => ?_, fun s => ?_⟩
  · rcases (harmed s q).mp h.1 with hold | hnew
    · refine Or.inl ⟨hold, ?_⟩
      rintro ⟨r, hr, hcancels⟩
      have hne : p ≠ q := by
        rintro rfl
        exact hp hold.1
      exact h.2 ⟨r, (mem_behind_push hne).mpr (Or.inr hr), hcancels⟩
    · exact Or.inr hnew
  · unfold Timers.shots Timers.held
    show (T.em ++ [p] ++ T.pending.map Prod.snd).countP (fun q => decide (T.IsFor dest s q)) = _
    have hiff : T.IsFor dest s p ↔ s = session :=
      ⟨fun h => h.2.2.symm.trans hfor.2.2, fun h => h ▸ hfor⟩
    rw [List.countP_append, List.countP_append, List.countP_append, List.countP_singleton]
    simp only [decide_eq_true_iff, hiff]
    omega

/-- A step that arms a timer for the session, or none. -/
structure Arms (dest : Int) (session sn : Nat) (noMore : Int) (T T' : Timers) : Prop where
  armed : ∀ s p, T'.Armed dest s p → T.Armed dest s p ∨
    s = session ∧ (T'.heap p).sn = sn ∧ (T'.heap p).noMore = noMore
  record : ∀ s p, T.Armed dest s p → T'.heap p = T.heap p
  stays : ∀ s p, T.Armed dest s p → T'.Armed dest s p
  due : ∀ s p, s ≠ session → T'.Due dest s p → T.Due dest s p
  shots : ∀ s, s ≠ session → T'.shots dest s ≤ T.shots dest s

theorem Steady.arms (h : Steady dest (fun _ => False) T T') (session sn : Nat) (noMore : Int) :
    Arms dest session sn noMore T T' where
  armed := fun s p harmed => Or.inl (h.armed s p harmed)
  record := h.record
  stays := fun s p harmed => h.stays s p harmed id
  due := fun s p _ hdue => h.due s p hdue
  shots := fun s _ => h.shots s

theorem Steady.then_arms {T'' : Timers} {session sn : Nat} {noMore : Int}
    (h : Steady dest (fun _ => False) T T') (h' : Arms dest session sn noMore T' T'') :
    Arms dest session sn noMore T T'' where
  armed := fun s p harmed => (h'.armed s p harmed).imp_left (h.armed s p)
  record := fun s p harmed => by
    rw [h'.record s p (h.stays s p harmed id), h.record s p harmed]
  stays := fun s p harmed => h'.stays s p (h.stays s p harmed id)
  due := fun s p hne hdue => h.due s p (h'.due s p hne hdue)
  shots := fun s hne => Nat.le_trans (h'.shots s hne) (h.shots s)

end Steady

-- ============================================================================
-- Runs
-- ============================================================================

section Runs

variable {ι : Type} [DecidableEq ι] [Fintype ι] {loop : ι} {c : Config ι Timers TimerPc}

theorem held_lt (h : Reachable (fire timerPcStep) (timerInit loop) c) :
    ∀ p ∈ c.shared.held, p < c.shared.next := by
  intro p hp
  have howned := timers_owned h p
  have hcount : 0 < c.shared.em.count p + (c.shared.pending.map Prod.snd).count p := by
    rw [← List.count_append]
    exact List.count_pos_iff.mpr hp
  by_contra hnot
  unfold Timers.used Timers.owned at howned
  rw [if_neg hnot] at howned
  omega

/-- The record that a thread pushes is in use, and nowhere else. -/
theorem push_owned (h : Reachable (fire timerPcStep) (timerInit loop) c) {i : ι} {event : EventPtr}
    (hpc : c.pcs i = .push event) : event < c.shared.next ∧ event ∉ c.shared.held := by
  have howned := timers_owned h event
  have hone : 1 ≤ ∑ j, (c.pcs j).owned event := by
    refine Nat.le_trans ?_ (Finset.single_le_sum (fun j _ => Nat.zero_le _) (Finset.mem_univ i))
    rw [hpc]
    exact Nat.le_of_eq List.count_singleton_self.symm
  have hused : event < c.shared.next := by
    by_contra hnot
    unfold Timers.used at howned
    rw [if_neg hnot] at howned
    omega
  refine ⟨hused, fun hheld => ?_⟩
  have hcount : 0 < c.shared.em.count event + (c.shared.pending.map Prod.snd).count event := by
    rw [← List.count_append]
    exact List.count_pos_iff.mpr hheld
  unfold Timers.used Timers.owned at howned
  rw [if_pos hused] at howned
  omega

end Runs

end Timer
end ZServer
