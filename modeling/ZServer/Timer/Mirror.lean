/-
  ZServer.Timer.Mirror

  Whether `timerDict` mirrors the pending timers.  Its entries are added with the
  time events and never removed, so the two agree until a timer that has an entry
  ends: fires as a one shot, fails to send, or is cancelled.  A timer whose sn was in
  the table before it came has no entry of its own.
-/

import ZServer.Timer.Identity

namespace ZServer
namespace Timer

open Lib

-- ============================================================================
-- The mirror
-- ============================================================================

/-- The sn of the timer of a time event. -/
def Timers.snOf (T : Timers) (te : AeTimeEvent) : Nat := (T.heap te.clientData).sn

/-- The keys of `timerDict` are the sns of the pending timers, there are no more of
    them than timers, and no entry is that of a timer that has ended. -/
structure Mirrors (T : Timers) : Prop where
  keys : ∀ s, s ∈ T.timerDict.map Prod.fst ↔ ∃ te ∈ T.timeEventHead, T.snOf te = s
  size : T.timerDict.length ≤ T.timeEventHead.length
  alive : ∀ e ∈ T.timerDict, ∃ te ∈ T.timeEventHead, te.id = e.2

/-- `timerDict` has an entry for the time event. -/
def Timers.Entered (T : Timers) (te : AeTimeEvent) : Prop :=
  T.timerDict.lookup (T.snOf te) = some te.id

/-- The condition on a step: it ends no timer that has an entry.  A timer that a
    cancellation finds has one. -/
def Timers.EndsNone (T : Timers) (pc : TimerPc) (choice : TimerChoice) : Prop :=
  match pc, choice with
  | .loop, .recv _ _ => ∀ msg, T.em.head? = some msg → (T.heap msg).type = 1 →
      ∀ te ∈ T.timeEventHead, T.timerDict.lookup (T.heap msg).value ≠ some te.id
  | .scan maxId k, .look nowSec nowMs ret _ _ => ∀ te, T.timeEventHead[k]? = some te →
      te.id ≤ maxId → te.due nowSec nowMs = true →
      timeProc (T.heap te.clientData) ret = AE_NOMORE → ¬T.Entered te
  | _, _ => True

def EndsNone {ι : Type} (c : Config ι Timers TimerPc) (a : ι × TimerChoice) : Prop :=
  c.shared.EndsNone (c.pcs a.1) a.2

-- ============================================================================
-- Entries and time events
-- ============================================================================

/-- The ids and the keys are different, the ids older than the next one, and each
    entry belongs to a time event and has its timer's sn. -/
structure Timers.Paired (T : Timers) : Prop where
  ids_lt : ∀ e ∈ T.pending, e.1 < T.timeEventNextId
  ids_once : T.pending.Pairwise fun e e' => e.1 ≠ e'.1
  keys_once : (T.timerDict.map Prod.fst).Nodup
  owner : ∀ e ∈ T.timerDict, ∃ p, (e.2, p) ∈ T.pending ∧ (T.heap p).sn = e.1
  key : ∀ e ∈ T.pending, (T.heap e.2).sn ∈ T.timerDict.map Prod.fst

theorem mem_of_lookup {dict : List (Nat × Int)} {s : Nat} {id : Int}
    (h : dict.lookup s = some id) : (s, id) ∈ dict := by
  obtain ⟨before, after, hsplit, -⟩ := List.lookup_eq_some_iff.mp h
  rw [hsplit]
  exact List.mem_append_right _ List.mem_cons_self

theorem lookup_of_mem {dict : List (Nat × Int)} (hnodup : (dict.map Prod.fst).Nodup)
    {e : Nat × Int} (he : e ∈ dict) : dict.lookup e.1 = some e.2 := by
  obtain ⟨before, after, hsplit⟩ := List.append_of_mem he
  rw [hsplit, List.map_append, List.map_cons, List.nodup_middle, List.nodup_cons] at hnodup
  refine List.lookup_eq_some_iff.mpr ⟨before, after, hsplit, fun p hp => ?_⟩
  rw [bne_iff_ne]
  exact fun heq => hnodup.1 (List.mem_append_left _ (List.mem_map.mpr ⟨p, hp, heq.symm⟩))

/-- A key that is in the table already keeps its entry. -/
theorem dictAdd_cases (dict : List (Nat × Int)) (s : Nat) (id : Int) :
    s ∈ dict.map Prod.fst ∧ dictAdd dict s id = dict ∨
      s ∉ dict.map Prod.fst ∧ dictAdd dict s id = dict ++ [(s, id)] := by
  unfold dictAdd
  by_cases hs : s ∈ dict.map Prod.fst
  · obtain ⟨e, he, rfl⟩ := List.mem_map.mp hs
    refine Or.inl ⟨hs, if_pos ?_⟩
    exact List.lookup_isSome_iff.mpr ⟨e, he, by rw [beq_self_eq_true]⟩
  · refine Or.inr ⟨hs, if_neg fun hsome => hs ?_⟩
    obtain ⟨id', hid'⟩ := Option.isSome_iff_exists.mp hsome
    exact List.mem_map.mpr ⟨_, mem_of_lookup hid', rfl⟩

theorem Timers.exists_of_mem_pending {T : Timers} {e : Int × EventPtr} (he : e ∈ T.pending) :
    ∃ te ∈ T.timeEventHead, te.id = e.1 ∧ te.clientData = e.2 := by
  obtain ⟨te, hte, rfl⟩ := List.mem_map.mp he
  exact ⟨te, hte, rfl, rfl⟩

theorem Timers.Paired.mirrors {T : Timers} (h : T.Paired) : Mirrors T := by
  have hkeys : ∀ s, s ∈ T.timerDict.map Prod.fst ↔ ∃ te ∈ T.timeEventHead, T.snOf te = s := by
    intro s
    constructor
    · intro hs
      obtain ⟨e, he, rfl⟩ := List.mem_map.mp hs
      obtain ⟨p, hp, hsn⟩ := h.owner e he
      obtain ⟨te, hte, -, hdata⟩ := Timers.exists_of_mem_pending hp
      exact ⟨te, hte, (congrArg (fun p => (T.heap p).sn) hdata).trans hsn⟩
    · rintro ⟨te, hte, rfl⟩
      exact h.key _ (Timers.mem_pending hte)
  refine ⟨hkeys, ?_, fun e he => ?_⟩
  · have hsub : T.timerDict.map Prod.fst ⊆ T.timeEventHead.map T.snOf := fun s hs =>
      List.mem_map.mpr ((hkeys s).mp hs)
    have hlength := (List.subperm_of_subset h.keys_once hsub).length_le
    rwa [List.length_map, List.length_map] at hlength
  · obtain ⟨p, hp, -⟩ := h.owner e he
    obtain ⟨te, hte, hid, -⟩ := Timers.exists_of_mem_pending hp
    exact ⟨te, hte, hid⟩

-- ============================================================================
-- Steps
-- ============================================================================

/-- What a step does to the table and the list; `ok` is its `EndsNone`. -/
inductive SnMove (T T' : Timers) (ok : Prop) : Prop where
  | same (hok : ok) (hdict : T'.timerDict = T.timerDict)
      (hnext : T'.timeEventNextId = T.timeEventNextId) (hpending : T'.pending = T.pending)
      (hheap : ∀ e ∈ T.pending, T'.heap e.2 = T.heap e.2)
  | add (msg : EventPtr) (hok : ok)
      (hdict : T'.timerDict = dictAdd T.timerDict (T.heap msg).sn T.timeEventNextId)
      (hnext : T'.timeEventNextId = T.timeEventNextId + 1)
      (hpending : T'.pending = (T.timeEventNextId, msg) :: T.pending) (hheap : T'.heap = T.heap)
  | delete (te : AeTimeEvent) (hte : te ∈ T.timeEventHead) (hok : ok ↔ ¬T.Entered te)
      (hdict : T'.timerDict = T.timerDict) (hnext : T'.timeEventNextId = T.timeEventNextId)
      (hsub : T'.pending.Sublist T.pending)
      (hpending : ∀ e, e ∈ T'.pending ↔ e ∈ T.pending ∧ e.1 ≠ te.id) (hheap : T'.heap = T.heap)

/-- The time event that an entry names has the entry's sn. -/
theorem Timers.Paired.entered {T : Timers} (h : T.Paired) {te : AeTimeEvent}
    (hte : te ∈ T.timeEventHead) {s : Nat} (hlookup : T.timerDict.lookup s = some te.id) :
    T.Entered te := by
  obtain ⟨p, hp, hsn⟩ := h.owner _ (mem_of_lookup hlookup)
  obtain ⟨te', hte', hid, hdata⟩ := Timers.exists_of_mem_pending hp
  have heq := timeEvent_eq_of_id h.ids_once hte' hte hid
  unfold Timers.Entered Timers.snOf
  rw [← heq, hdata, hsn, hlookup, heq]

theorem emCallback_sn {T : Timers} (h : T.Paired) {msg : EventPtr} {em : List EventPtr}
    (hem : T.em = msg :: em) (curSec curMs : Int) :
    SnMove T ({ T with em := em }.emCallback msg curSec curMs)
      (T.EndsNone .loop (.recv curSec curMs)) := by
  have hhead : ∀ {msg'}, T.em.head? = some msg' → msg' = msg := by
    intro msg' hmsg'
    rw [hem] at hmsg'
    exact (Option.some.inj hmsg').symm
  by_cases hadd : (T.heap msg).type = 0
  · rw [emCallback_add { T with em := em } msg curSec curMs hadd]
    refine .add msg (fun msg' hmsg' htype => ?_) rfl rfl rfl rfl
    rw [hhead hmsg', hadd] at htype
    cases htype
  · by_cases hcancel : (T.heap msg).type = 1
    · rcases emCallback_cancel { T with em := em } msg curSec curMs hcancel with
        ⟨id, hlookup, heq⟩ | ⟨hlookup, heq⟩
      · have hlookup : T.timerDict.lookup (T.heap msg).value = some id := hlookup
        obtain ⟨p, hp, -⟩ := h.owner _ (mem_of_lookup hlookup)
        obtain ⟨te, hte, rfl, -⟩ := Timers.exists_of_mem_pending hp
        have hsame := aeDeleteTimeEvent_same { T with em := em } te.id
        obtain ⟨hsub, hpending⟩ := aeDeleteTimeEvent_pending (T := { T with em := em })
          h.ids_once hte
        rw [heq]
        refine .delete te hte ⟨fun hok => ?_, fun hnot => ?_⟩ hsame.timerDict
          hsame.timeEventNextId hsub hpending hsame.heap
        · exact absurd hlookup (hok msg (by rw [hem]; rfl) hcancel te hte)
        · exact absurd (h.entered hte hlookup) hnot
      · rw [heq]
        refine .same (fun msg' hmsg' _ te hte hlookup' => ?_) rfl rfl rfl fun _ _ => rfl
        rw [hhead hmsg', show T.timerDict.lookup (T.heap msg).value = none from hlookup] at hlookup'
        cases hlookup'
    · rw [emCallback_stop { T with em := em } msg curSec curMs hadd hcancel]
      refine .same (fun msg' hmsg' htype => ?_) rfl rfl rfl fun _ _ => rfl
      rw [hhead hmsg'] at htype
      exact absurd htype hcancel

theorem runTimeEvent_sn {T : Timers} (h : T.Paired) {k : Nat} {te : AeTimeEvent}
    (ret curSec curMs : Int) (hk : T.timeEventHead[k]? = some te) :
    SnMove T (T.runTimeEvent k te ret curSec curMs)
      (timeProc (T.heap te.clientData) ret = AE_NOMORE → ¬T.Entered te) := by
  have hte := List.mem_of_getElem? hk
  obtain ⟨T₁, rfl, ⟨hmore, head, hhead, heq⟩ | ⟨hnomore, heq⟩⟩ :=
    runTimeEvent_cases T curSec curMs ret hk
  · rw [heq]
    exact .same (fun hnomore => absurd hnomore hmore) rfl rfl hhead fun _ _ => rfl
  · have hsame := aeDeleteTimeEvent_same (T.zSend ⟨some te.clientData,
      (T.heap te.clientData).dest, (T.heap te.clientData).value⟩) te.id
    obtain ⟨hsub, hpending⟩ := aeDeleteTimeEvent_pending (T := T.zSend ⟨some te.clientData,
      (T.heap te.clientData).dest, (T.heap te.clientData).value⟩) h.ids_once hte
    rw [heq]
    exact .delete te hte ⟨fun hok => hok hnomore, fun hnot _ => hnot⟩ hsame.timerDict
      hsame.timeEventNextId hsub hpending hsame.heap

/-- The condition on a step that calls `timeProc` on `te`. -/
theorem endsNone_look {T : Timers} {maxId nowSec nowMs ret curSec curMs : Int} {k : Nat}
    {te : AeTimeEvent} (hk : T.timeEventHead[k]? = some te) (hid : te.id ≤ maxId)
    (hdue : te.due nowSec nowMs = true) :
    T.EndsNone (.scan maxId k) (.look nowSec nowMs ret curSec curMs) ↔
      (timeProc (T.heap te.clientData) ret = AE_NOMORE → ¬T.Entered te) := by
  refine ⟨fun h => h te hk hid hdue, fun h te' hk' _ _ => ?_⟩
  rw [Option.some.inj (hk'.symm.trans hk)]
  exact h

/-- One step, when the records of the time events are in use. -/
theorem timerPcStep_sn {T T' : Timers} {pc pc' : TimerPc} {choice : TimerChoice}
    (hs : timerPcStep T pc choice = some (T', pc')) (h : T.Paired)
    (hused : ∀ e ∈ T.pending, e.2 < T.next) : SnMove T T' (T.EndsNone pc choice) := by
  have hmalloc : ∀ event, ∀ e ∈ T.pending,
      (T.zmalloc event).heap e.2 = T.heap e.2 := fun event e he =>
    Function.update_of_ne (Nat.ne_of_lt (hused e he)) _ _
  cases pc with
  | user =>
      cases choice with
      | timeout dest time session noMore =>
          simp only [timerPcStep, Timers.timerTimeout] at hs
          split at hs
          · cases hs
            exact .same trivial rfl rfl rfl fun _ _ => rfl
          · cases hs
            exact .same trivial rfl rfl rfl (hmalloc _)
      | cancel sn =>
          cases hs
          exact .same trivial rfl rfl rfl (hmalloc _)
      | stop =>
          cases hs
          exact .same trivial rfl rfl rfl (hmalloc _)
      | _ => cases hs
  | push event =>
      cases choice with
      | pushed full => cases full <;> cases hs <;> exact .same trivial rfl rfl rfl fun _ _ => rfl
      | _ => cases hs
  | loop =>
      cases choice with
      | recv curSec curMs =>
          simp only [timerPcStep] at hs
          split at hs
          · cases hs
          · rename_i msg em hem
            cases hs
            exact emCallback_sn h hem curSec curMs
      | process now =>
          cases hs
          refine .same trivial rfl rfl ?_ fun _ _ => rfl
          unfold Timers.pending
          simp only
          split
          · rw [List.map_map]
            rfl
          · rfl
      | _ => cases hs
  | scan maxId k =>
      cases choice with
      | look nowSec nowMs ret curSec curMs =>
          have hstill : (∀ te, T.timeEventHead[k]? = some te → te.id ≤ maxId →
              te.due nowSec nowMs = true → timeProc (T.heap te.clientData) ret = AE_NOMORE →
              ¬T.Entered te) → SnMove T T (T.EndsNone (.scan maxId k)
                (.look nowSec nowMs ret curSec curMs)) :=
            fun hok => .same hok rfl rfl rfl fun _ _ => rfl
          simp only [timerPcStep] at hs
          split at hs
          · rename_i hnone
            cases hs
            exact hstill fun te hte => by rw [hnone] at hte; cases hte
          · rename_i te hk
            have hthis : ∀ {te'}, T.timeEventHead[k]? = some te' → te' = te := fun hte' =>
              Option.some.inj (hte'.symm.trans hk)
            split at hs
            · rename_i hnew
              cases hs
              refine hstill fun te' hte' hle => ?_
              rw [hthis hte'] at hle
              omega
            · rename_i hold
              split at hs
              · rename_i hdue
                cases hs
                rw [endsNone_look hk (by omega) hdue]
                exact runTimeEvent_sn h ret curSec curMs hk
              · rename_i hdue
                cases hs
                refine hstill fun te' hte' _ hdue' => ?_
                rw [hthis hte'] at hdue'
                exact absurd hdue' hdue
      | _ => cases hs
  | stopped => cases hs

theorem SnMove.paired {T T' : Timers} {ok : Prop} (hmove : SnMove T T' ok) (h : T.Paired)
    (hok : ok) : T'.Paired := by
  obtain ⟨hlt, honce, hkeys, howner, hkey⟩ := h
  cases hmove with
  | same _ hdict hnext hpending hheap =>
      constructor
      · rwa [hpending, hnext]
      · rwa [hpending]
      · rwa [hdict]
      · rw [hdict, hpending]
        intro e he
        obtain ⟨p, hp, hsn⟩ := howner e he
        exact ⟨p, hp, by rw [hheap _ hp]; exact hsn⟩
      · rw [hdict, hpending]
        intro e he
        rw [hheap e he]
        exact hkey e he
  | add msg _ hdict hnext hpending hheap =>
      have hold : ∀ e ∈ T.timerDict, ∃ p, (e.2, p) ∈ T'.pending ∧ (T'.heap p).sn = e.1 := by
        intro e he
        obtain ⟨p, hp, hsn⟩ := howner e he
        rw [hpending, hheap]
        exact ⟨p, List.mem_cons_of_mem _ hp, hsn⟩
      constructor
      · rw [hpending, hnext]
        rintro e (- | ⟨-, he⟩)
        · exact Int.lt_succ _
        · exact Int.lt_trans (hlt e he) (Int.lt_succ _)
      · rw [hpending]
        exact List.pairwise_cons.mpr ⟨fun e he => (Int.ne_of_lt (hlt e he)).symm, honce⟩
      all_goals
        rw [hdict]
        rcases dictAdd_cases T.timerDict (T.heap msg).sn T.timeEventNextId with
          ⟨hin, heq⟩ | ⟨hnotin, heq⟩ <;> rw [heq]
      · exact hkeys
      · rw [List.map_append]
        exact List.nodup_append.mpr ⟨hkeys, List.nodup_singleton _, fun s hs s' hs' => by
          rw [List.mem_singleton.mp hs']
          rintro rfl
          exact hnotin hs⟩
      · exact hold
      · intro e he
        rcases List.mem_append.mp he with he | he
        · exact hold e he
        · rw [List.mem_singleton.mp he, hpending, hheap]
          exact ⟨msg, List.mem_cons_self, rfl⟩
      · rw [hpending, hheap]
        rintro e (- | ⟨-, he⟩)
        · exact hin
        · exact hkey e he
      · rw [hpending, hheap, List.map_append]
        rintro e (- | ⟨-, he⟩)
        · exact List.mem_append_right _ (List.mem_singleton_self _)
        · exact List.mem_append_left _ (hkey e he)
  | delete te hte hiff hdict hnext hsub hpending hheap =>
      constructor
      · rw [hnext]
        exact fun e he => hlt e (hsub.subset he)
      · exact honce.sublist hsub
      · rwa [hdict]
      · rw [hdict, hheap]
        intro e he
        obtain ⟨p, hp, hsn⟩ := howner e he
        refine ⟨p, (hpending _).mpr ⟨hp, fun hid => hiff.mp hok ?_⟩, hsn⟩
        -- otherwise the entry is that of `te`
        refine Timers.Paired.entered ⟨hlt, honce, hkeys, howner, hkey⟩ hte (s := e.1) ?_
        rw [← show e.2 = te.id from hid]
        exact lookup_of_mem hkeys he
      · rw [hdict, hheap]
        exact fun e he => hkey e (hsub.subset he)

/-- A step that ends a timer with an entry leaves the entry behind. -/
theorem SnMove.ok_of_mirrors {T T' : Timers} {ok : Prop} (hmove : SnMove T T' ok)
    (h : Mirrors T') : ok := by
  cases hmove with
  | same hok => exact hok
  | add _ hok => exact hok
  | delete te hte hiff hdict hnext hsub hpending hheap =>
      refine hiff.mpr fun hentered => ?_
      obtain ⟨te', hte', hid⟩ := h.alive (T.snOf te, te.id) (by
        rw [hdict]
        exact mem_of_lookup hentered)
      exact ((hpending _).mp (Timers.mem_pending hte')).2 hid

-- ============================================================================
-- Runs
-- ============================================================================

section Runs

variable {ι : Type} [DecidableEq ι] [Fintype ι] {loop : ι} {c : Config ι Timers TimerPc}

theorem timers_used (h : Reachable (fire timerPcStep) (timerInit loop) c) :
    ∀ e ∈ c.shared.pending, e.2 < c.shared.next := by
  intro e he
  have howned := timers_owned h e.2
  have hcount := List.count_pos_iff.mpr (List.mem_map_of_mem (f := Prod.snd) he)
  by_contra hnot
  unfold Timers.used Timers.owned at howned
  rw [if_neg hnot] at howned
  omega

omit [Fintype ι] in
theorem timerInit_paired : (timerInit loop).shared.Paired :=
  ⟨by rintro _ ⟨⟩, List.Pairwise.nil, List.nodup_nil, by rintro _ ⟨⟩, by rintro _ ⟨⟩⟩

/-- The table mirrors the pending timers throughout a run exactly when no step of it
    ends a timer that has an entry. -/
theorem timerDict_mirrors_iff (as : List (ι × TimerChoice)) :
    Always (fire timerPcStep) (fun c => Mirrors c.shared) (timerInit loop) as ↔
      AllSteps (fire timerPcStep) EndsNone (timerInit loop) as := by
  refine always_iff_allSteps (J := fun c : Config ι Timers TimerPc =>
    Reachable (fire timerPcStep) (timerInit loop) c ∧ c.shared.Paired)
    (fun c hc => hc.2.mirrors) (fun c a c' hc hf hok => ⟨hc.1.tail hf, ?_⟩)
    (fun c a c' hc hf hmirrors => ?_) ⟨Reachable.refl _, timerInit_paired⟩
  all_goals
    obtain ⟨T', pc', hs, rfl⟩ := fire_eq_some.mp hf
    have hmove := timerPcStep_sn hs hc.2 (timers_used hc.1)
  · exact hmove.paired hc.2 hok
  · exact hmove.ok_of_mirrors hmirrors

/-- A one shot that has fired stays in the table. -/
theorem timerDict_keeps_fired : ∃ as : List (Fin 2 × TimerChoice), ∃ c,
    runFrom (fire timerPcStep) (timerInit 0) as = some c ∧ c.shared.timeEventHead = [] ∧
      c.shared.timerDict = [(1, 0)] ∧ ¬Mirrors c.shared := by
  refine ⟨[(1, .timeout 5 20 7 0), (1, .pushed false), (0, .recv 10 0), (0, .process 20),
    (0, .look 20 0 0 20 0)], _, rfl, rfl, rfl, fun h => ?_⟩
  obtain ⟨te, hte, -⟩ := h.alive (1, 0) List.mem_cons_self
  cases hte

end Runs

end Timer
end ZServer
