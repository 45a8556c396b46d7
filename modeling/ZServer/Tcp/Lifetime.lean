/-
  ZServer.Tcp.Lifetime

  What the owner of a connection is told: data, then at most one
  `MSG_TYPE_SOCK_CLOSE`.  The story of an id is read off the log, where every call of
  `close` stands, also one for a descriptor that is not open.
-/

import ZServer.Tcp.Unrecycled

namespace ZServer.Tcp

open Lib

-- ============================================================================
-- The story of an id
-- ============================================================================

/-- Data or a close for the id, its start, or a call of `close` for its slot. -/
def Effect.about (e : Effect) (id : Int) : Prop :=
  match e with
  | .notice n => (n.kind = .data ∨ n.kind = .close) ∧ n.id = id
  | .started id' _ _ | .closed id' _ _ _ => id' = id
  | .wrote _ _ | .opened _ | .freed _ => False

/-- A close for the id, or a call of `close` for its slot. -/
def Effect.ends (e : Effect) (id : Int) : Prop :=
  match e with
  | .notice n => n.kind = .close ∧ n.id = id
  | .closed id' _ _ _ => id' = id
  | .started _ _ _ | .wrote _ _ | .opened _ | .freed _ => False

theorem Effect.ends.about {e : Effect} {id : Int} (h : e.ends id) : e.about id := by
  cases e with
  | notice n => exact ⟨Or.inr h.1, h.2⟩
  | closed => exact h
  | started | wrote | opened | freed => exact False.elim h

/-- While a connection is open its owner gets data, and its descriptor is not closed. -/
def StaysOpen (id fd fromId : Int) (log : List Effect) : Prop :=
  ∀ e ∈ log, (e.about id → ∃ body, e = .notice ⟨fromId, 0, .data, .bytes body, id⟩) ∧
    ∀ id' readable writable, e ≠ .closed id' fd readable writable

/-- No slot that is in use has the id. -/
def World.Gone (w : World) (id : Int) : Prop :=
  ∀ i, (w.sockets i).state ≠ .kSocketDisconnected → (w.sockets i).id ≠ id

/-- What follows the start of a connection. -/
inductive Life (w : World) (id fd fromId : Int) (log : List Effect) : Prop where
  | live (i : Nat) (hs : (w.sockets i).state = .kSocketConnected)
      (hid : (w.sockets i).id = id) (hfd : (w.sockets i).fd = fd)
      (hfrom : (w.sockets i).fromId = fromId) (hopen : StaysOpen id fd fromId log) :
      Life w id fd fromId log
  | ended (before after : List Effect) (hlog : log = before ++ closing id fd fromId ++ after)
      (hopen : StaysOpen id fd fromId before) (hafter : ∀ e ∈ after, ¬ e.about id)
      (hgone : w.Gone id) : Life w id fd fromId log

/-- Nothing is heard of a connection before it is started, and every one that was started
    lives so. -/
def World.Lives (w : World) : Prop :=
  ∀ before after id fd fromId, w.log = before ++ .started id fd fromId :: after →
    (∀ e ∈ before, ¬ e.about id) ∧ Life w id fd fromId after

/-- Every close comes right after that of the descriptor, which is the first, and both are
    the last of their id. -/
def World.Ends (w : World) : Prop :=
  ∀ before after n, w.log = before ++ .notice n :: after → n.kind = .close →
    (∃ rest fd, before = rest ++ [.closed n.id fd false false] ∧ ∀ e ∈ rest, ¬ e.ends n.id) ∧
      (∀ e ∈ after, ¬ e.about n.id) ∧ w.Gone n.id

-- ============================================================================
-- The invariant
-- ============================================================================

structure World.Story (w : World) : Prop where
  plain : ∀ i, (w.sockets i).state ≠ .kSocketDisConnecting
  unheard : ∀ id, (w.drawn : Int) < id ∨ id ∈ w.claims → ∀ e ∈ w.log, ¬ e.about id
  connecting : ∀ i, (w.sockets i).state = .kSocketConnecting →
    ∀ e ∈ w.log, ¬ e.about (w.sockets i).id
  connected : ∀ i, (w.sockets i).state = .kSocketConnected →
    ∀ e ∈ w.log, ¬ e.ends (w.sockets i).id
  reserved : ∀ i, (w.sockets i).fd < 0 → ∀ e ∈ w.log, ¬ e.about (w.sockets i).id
  lives : w.Lives
  ends : w.Ends

theorem tcpInit_story (setsize : Nat) (aeSetsize : Int) : (tcpInit setsize aeSetsize).Story where
  plain := by rintro _ ⟨⟩
  unheard := by rintro _ _ _ ⟨⟩
  connecting := by rintro _ ⟨⟩
  connected := by rintro _ ⟨⟩
  reserved := by rintro _ ⟨⟩
  lives := by
    intro before after id fd fromId hlog
    exact absurd hlog.symm (by simp [tcpInit])
  ends := by
    intro before after n hlog
    exact absurd hlog.symm (by simp [tcpInit])

-- ============================================================================
-- What a move appends to the log
-- ============================================================================

/-- An entry that concerns no connection. -/
def Effect.Neutral (e : Effect) : Prop :=
  (∀ id, ¬ e.about id) ∧ ∀ id fd readable writable, e ≠ .closed id fd readable writable

inductive LogMove (w w' : World) : Prop where
  | neutral (new : List Effect) (hlog : w'.log = w.log ++ new) (hnew : ∀ e ∈ new, e.Neutral)
      (hkept : ∀ j, (w.sockets j).state = .kSocketConnected →
        (w'.sockets j).state = .kSocketConnected)
  | data (i : Nat) (body : List UInt8) (hs : (w.sockets i).state = .kSocketConnected)
      (hlog : w'.log = w.log ++
        [.notice ⟨(w.sockets i).fromId, 0, .data, .bytes body, (w.sockets i).id⟩])
      (hsockets : w'.sockets = w.sockets)
  | started (i : Nat) (hs : (w.sockets i).state = .kSocketConnecting)
      (hlog : w'.log = w.log ++
        [.started (w.sockets i).id (w.sockets i).fd (w.sockets i).fromId])
      (hself : w'.sockets i = { w.sockets i with state := .kSocketConnected })
      (hkept : ∀ j, j ≠ i → w'.sockets j = w.sockets j)
  | closed (i : Nat) (hs : (w.sockets i).state ≠ .kSocketDisconnected)
      (hlog : w'.log = w.log ++
        closing (w.sockets i).id (w.sockets i).fd (w.sockets i).fromId)
      (hself : w'.sockets i = (w.sockets i).freed)
      (hkept : ∀ j, j ≠ i → w'.sockets j = w.sockets j)
  | stopped (i : Nat) (hs : (w.sockets i).state = .kSocketConnecting) (readable writable : Bool)
      (hlog : w'.log = w.log ++
        [.closed (w.sockets i).id (w.sockets i).fd readable writable])
      (hself : w'.sockets i = (w.sockets i).freed)
      (hkept : ∀ j, j ≠ i → w'.sockets j = w.sockets j)

section

variable {opens tidy unrecycled : Prop} {w w' : World}

theorem Effect.neutral_of_isQuiet {e : Effect} (he : e.isQuiet = true) : e.Neutral := by
  cases e with
  | notice n =>
      simp only [Effect.isQuiet, decide_eq_true_eq] at he
      exact ⟨fun id habout => habout.1.elim he.1 he.2, by rintro _ _ _ _ ⟨⟩⟩
  | wrote | freed => exact ⟨fun _ habout => habout, by rintro _ _ _ _ ⟨⟩⟩
  | opened | closed | started => cases he

theorem opened_neutral (fd : Int) : (Effect.opened fd).Neutral :=
  ⟨fun _ habout => habout, by rintro _ _ _ _ ⟨⟩⟩

/-- Nothing is written to the log. -/
theorem LogMove.silent (hlog : w'.log = w.log)
    (hkept : ∀ j, (w.sockets j).state = .kSocketConnected →
      (w'.sockets j).state = .kSocketConnected) : LogMove w w' :=
  .neutral [] (by rw [hlog, List.append_nil]) (by rintro _ ⟨⟩) hkept

theorem World.state_modify (w : World) (j : Nat) {f : Socket → Socket}
    (hf : ∀ s, (f s).state = s.state) (i : Nat) :
    ((w.modify j f).sockets i).state = (w.sockets i).state := by
  by_cases hi : i = j
  · subst hi
    rw [World.modify_self, hf]
  · rw [World.modify_of_ne w hi]

theorem stopSlot_log {i : Nat} (hs : (w.sockets i).state = .kSocketConnecting) :
    LogMove w (w.stopSlot i) := by
  have hself := stopSlot_self w i
  have hkept : ∀ j, j ≠ i → (w.stopSlot i).sockets j = w.sockets j := fun j hj => stopSlot_of_ne w hj
  by_cases hpos : 0 < (w.sockets i).fd
  · refine .stopped i hs (w.events (w.sockets i).fd).readable (w.events (w.sockets i).fd).writable
      ?_ hself hkept
    unfold World.stopSlot
    rw [if_pos hpos]
    rfl
  · refine .silent ?_ fun j hj => ?_
    · unfold World.stopSlot
      rw [if_neg hpos]
      rfl
    · have hne : j ≠ i := by
        rintro rfl
        rw [hs] at hj
        cases hj
      rw [hkept j hne]
      exact hj

theorem Move.log (hok : w.Ok) (hm : Move opens tidy unrecycled w w') : LogMove w w' := by
  cases hm with
  | note e he =>
      refine .neutral [e] rfl (fun e' he' => ?_) fun _ hs => hs
      rw [List.mem_singleton.mp he']
      exact Effect.neutral_of_isQuiet he
  | data i body hs => exact .data i body hs rfl rfl
  | reserve h =>
      obtain ⟨a, d, hres⟩ := tcpGetReserveId_reserved h
      refine .silent (by rw [hres.eq]; rfl) fun j hs => ?_
      rw [hres.eq, World.state_modify]
      · exact hs
      · exact fun _ => rfl
  | free j hj =>
      refine .silent rfl fun i hs => ?_
      rw [World.state_modify]
      · exact hs
      · exact fun _ => rfl
  | own j fromId hj =>
      refine .silent rfl fun i hs => ?_
      rw [World.state_modify]
      · exact hs
      · exact fun _ => rfl
  | buffers j f hbuf hf =>
      refine .silent rfl fun i hs => ?_
      rw [World.state_modify]
      · exact hs
      · exact fun s => by rw [hf]
  | leak hopen hb =>
      obtain ⟨-, -, rfl⟩ := openFd_eq_some hopen
      refine .neutral [_] rfl (fun e he => ?_) fun _ hs => hs
      rw [List.mem_singleton.mp he]
      exact opened_neutral _
  | establish j s ho hopen hidle hindex hid hstate htype hclaim =>
      obtain ⟨-, -, rfl⟩ := openFd_eq_some hopen
      refine .neutral [_] rfl (fun e he => ?_) fun j' hs => ?_
      · rw [List.mem_singleton.mp he]
        exact opened_neutral _
      · have hne : j' ≠ j := by
          rintro rfl
          rw [hidle] at hs
          cases hs
        rw [World.modify_of_ne _ hne]
        exact hs
  | accept j hj hcreate =>
      obtain ⟨-, -, -, rfl⟩ := aeCreateFileEvent_eq hcreate
      exact .silent rfl fun _ hs => hs
  | start j ho hj hcreate =>
      obtain ⟨-, -, -, rfl⟩ := aeCreateFileEvent_eq hcreate
      exact .started j hj rfl (World.modify_self w j fun s => { s with state := .kSocketConnected })
        fun i hi => World.modify_of_ne w hi fun s => { s with state := .kSocketConnected }
  | write j hj hcreate =>
      obtain ⟨-, -, -, rfl⟩ := aeCreateFileEvent_eq hcreate
      exact .silent rfl fun _ hs => hs
  | unwrite fd =>
      refine .silent (aeDeleteFileEvent_log w fd .writable) fun j hs => ?_
      rw [aeDeleteFileEvent_sockets]
      exact hs
  | close j hj =>
      exact .closed j hj (closeSlot_log (hok.range _)) (closeSlot_self w j) fun i hi =>
        closeSlot_of_ne w hi
  | stop j hj hb => exact stopSlot_log hj

/-- What is new in the log concerns a slot that was in use. -/
theorem LogMove.append (hl : LogMove w w') : ∃ new, w'.log = w.log ++ new ∧
    ∀ e ∈ new, ∀ id, e.about id → ∃ i, (w.sockets i).state ≠ .kSocketDisconnected ∧
      (w.sockets i).id = id ∧ (w'.sockets i).state ≠ .kSocketConnecting ∧
      (e.ends id → (w'.sockets i).state = .kSocketDisconnected) := by
  cases hl with
  | neutral new hlog hnew hkept =>
      exact ⟨new, hlog, fun e he id habout => absurd habout ((hnew e he).1 id)⟩
  | data i body hs hlog hsockets =>
      refine ⟨_, hlog, fun e he id habout => ⟨i, by rw [hs]; decide, ?_, ?_, fun hends => ?_⟩⟩
      · rw [List.mem_singleton.mp he] at habout
        exact habout.2
      · rw [hsockets, hs]
        decide
      · rw [List.mem_singleton.mp he] at hends
        cases hends.1
  | started i hs hlog hself hkept =>
      refine ⟨_, hlog, fun e he id habout => ⟨i, by rw [hs]; decide, ?_, ?_, fun hends => ?_⟩⟩
      · rw [List.mem_singleton.mp he] at habout
        exact habout
      · rw [hself]
        rintro ⟨⟩
      · rw [List.mem_singleton.mp he] at hends
        exact False.elim hends
  | closed i hs hlog hself hkept =>
      have hend : (w'.sockets i).state = .kSocketDisconnected := by
        rw [hself]
        rfl
      refine ⟨_, hlog, fun e he id habout => ⟨i, hs, ?_, ?_, fun _ => hend⟩⟩
      · unfold closing at he
        rcases List.mem_cons.mp he with rfl | he
        · exact habout
        · rw [List.mem_singleton.mp he] at habout
          exact habout.2
      · rw [hend]
        decide
  | stopped i hs readable writable hlog hself hkept =>
      have hend : (w'.sockets i).state = .kSocketDisconnected := by
        rw [hself]
        rfl
      refine ⟨_, hlog, fun e he id habout => ⟨i, by rw [hs]; decide, ?_, ?_, fun _ => hend⟩⟩
      · rw [List.mem_singleton.mp he] at habout
        exact habout
      · rw [hend]
        decide

/-- Two slots in use have different ids. -/
theorem World.Ok.same_slot (hok : w.Ok) {i j : Nat}
    (hi : (w.sockets i).state ≠ .kSocketDisconnected)
    (hj : (w.sockets j).state ≠ .kSocketDisconnected)
    (hid : (w.sockets i).id = (w.sockets j).id) : i = j := by
  rw [← (hok.index_of_state hi).2, hid, (hok.index_of_state hj).2]

theorem World.Ok.fd_nonneg (hok : w.Ok) {i : Nat}
    (hi : (w.sockets i).state ≠ .kSocketDisconnected) : 0 ≤ (w.sockets i).fd :=
  hok.nonneg _ (hok.busy i hi)

end

-- ============================================================================
-- What keeps the invariant
-- ============================================================================

section

variable {opens tidy : Prop} {w w' : World} (hstory : w.Story) (hu : w.Unrecycled) (hok : w.Ok)
  (hm : Move opens tidy True w w')

include hok hm in
/-- What is new in the log does not concern an id that is about to be used. -/
theorem Move.not_about {id : Int} {new : List Effect} (hlog : w'.log = w.log ++ new)
    (hnone : ∀ i, (w.sockets i).state ≠ .kSocketDisconnected → (w.sockets i).id = id →
      (w'.sockets i).state = .kSocketConnecting) : ∀ e ∈ new, ¬ e.about id := by
  intro e he habout
  obtain ⟨new', hlog', hnew⟩ := (hm.log hok).append
  have heq : new = new' := List.append_cancel_left (hlog.symm.trans hlog')
  obtain ⟨i, hs, hid, hconnecting, -⟩ := hnew e (heq ▸ he) id habout
  exact hconnecting (hnone i hs hid)

include hok hm in
theorem Move.unheard {id : Int} (h : ∀ e ∈ w.log, ¬ e.about id)
    (hnone : ∀ i, (w.sockets i).state ≠ .kSocketDisconnected → (w.sockets i).id = id →
      (w'.sockets i).state = .kSocketConnecting) : ∀ e ∈ w'.log, ¬ e.about id := by
  obtain ⟨new, hlog, -⟩ := (hm.log hok).append
  intro e he
  rw [hlog, List.mem_append] at he
  rcases he with he | he
  · exact h e he
  · exact Move.not_about hok hm hlog hnone e he

include hok hm in
/-- A slot in use and one that will be in use, with one id. -/
theorem Move.same_slot {i j : Nat} (hi : (w.sockets i).state ≠ .kSocketDisconnected)
    (hj : (w'.sockets j).state ≠ .kSocketDisconnected)
    (hid : (w.sockets i).id = (w'.sockets j).id) : i = j := by
  have hj' := ((hok.move hm).index_of_state hj).2
  rw [hm.index] at hj'
  rw [← (hok.index_of_state hi).2, hid, hj']

include hstory hm in
theorem Move.plain (i : Nat) : (w'.sockets i).state ≠ .kSocketDisConnecting := by
  have hbefore := hstory.plain i
  cases hm.slot i with
  | kept hid hstate => rwa [hstate]
  | reserved h hi hs hself =>
      rw [hself]
      exact hbefore
  | established hs hid hstate =>
      rw [hstate]
      decide
  | started hs hself =>
      rw [hself]
      rintro ⟨⟩
  | freed hs hself =>
      rw [hself]
      rintro ⟨⟩

include hstory hu hok hm in
theorem Move.still_unheard {id : Int} (h : (w'.drawn : Int) < id ∨ id ∈ w'.claims) :
    ∀ e ∈ w'.log, ¬ e.about id := by
  have hdrawn := hm.drawn_le
  rw [hm.claims] at h
  have hbefore : (w.drawn : Int) < id ∨ id ∈ w.claims := by
    refine h.imp (fun hlt => ?_) fun hid => hid
    omega
  refine Move.unheard hok hm (hstory.unheard id hbefore) fun i hs hid => ?_
  -- no slot in use has the id
  rcases hbefore with hlt | hclaim
  · have hle := hu.drawn i
    omega
  · have hget : tcpGetSocket w id = some i := by
      have hindex := (hok.index_of_state hs).2
      rw [hid] at hindex
      unfold tcpGetSocket
      rw [hindex, if_pos hid]
    exact absurd (hu.waiting id hclaim i hget).1 hs

include hstory hok hm in
theorem Move.connecting {j : Nat} (hj : (w'.sockets j).state = .kSocketConnecting) :
    ∀ e ∈ w'.log, ¬ e.about (w'.sockets j).id := by
  have hbefore : ∀ e ∈ w.log, ¬ e.about (w'.sockets j).id := by
    cases hm.slot j with
    | kept hid hstate =>
        rw [hid]
        exact hstory.connecting j (hstate.symm.trans hj)
    | reserved h hi hs hself =>
        rw [hself] at hj
        exact absurd ((hok.free j (Or.inl hs)).symm.trans hj) (by decide)
    | established hs hid hstate hclaim =>
        rw [hid]
        exact hstory.reserved j (hclaim trivial).2
    | started hs hself =>
        rw [hself] at hj
        cases hj
    | freed hs hself =>
        rw [hself] at hj
        cases hj
  refine Move.unheard hok hm hbefore fun i hs hid => ?_
  rw [Move.same_slot hok hm hs (by rw [hj]; decide) hid]
  exact hj

include hstory hok hm in
theorem Move.connected {j : Nat} (hj : (w'.sockets j).state = .kSocketConnected) :
    ∀ e ∈ w'.log, ¬ e.ends (w'.sockets j).id := by
  intro e he hends
  obtain ⟨new, hlog, hnew⟩ := (hm.log hok).append
  rw [hlog, List.mem_append] at he
  rcases he with he | he
  · cases hm.slot j with
    | kept hid' hstate =>
        rw [hid'] at hends
        exact hstory.connected j (hstate.symm.trans hj) e he hends
    | reserved h hi hs hself =>
        rw [hself] at hj
        exact absurd ((hok.free j (Or.inl hs)).symm.trans hj) (by decide)
    | established hs hid' hstate hclaim =>
        rw [hj] at hstate
        cases hstate
    | started hs hself =>
        rw [hself] at hends
        exact hstory.connecting j hs e he hends.about
    | freed hs hself =>
        rw [hself] at hj
        cases hj
  · -- only a slot that is being closed writes this
    obtain ⟨i, hs, hid', -, hend⟩ := hnew e he _ hends.about
    have hij := Move.same_slot hok hm hs (by rw [hj]; decide) hid'
    have hend' := hend hends
    rw [hij, hj] at hend'
    cases hend'

include hstory in
/-- The id of a slot in use has not ended. -/
theorem World.Story.not_ended {i : Nat} (hs : (w.sockets i).state ≠ .kSocketDisconnected) :
    ∀ e ∈ w.log, ¬ e.ends (w.sockets i).id := by
  intro e he hends
  cases hstate : (w.sockets i).state with
  | kSocketDisconnected => exact hs hstate
  | kSocketConnecting => exact hstory.connecting i hstate e he hends.about
  | kSocketConnected => exact hstory.connected i hstate e he hends
  | kSocketDisConnecting => exact hstory.plain i hstate

include hstory hu hok hm in
theorem Move.reserved {j : Nat} (hfresh : w'.Fresh) (hj : (w'.sockets j).fd < 0) :
    ∀ e ∈ w'.log, ¬ e.about (w'.sockets j).id := by
  cases hm.slot j with
  | kept hid hstate hfd =>
      rw [hid]
      rw [hfd] at hj
      refine Move.unheard hok hm (hstory.reserved j hj) fun i hs hid' => ?_
      have hij : i = j := by
        rw [← (hok.index_of_state hs).2, hid', hu.placed j hj]
      exact absurd (hij ▸ hok.fd_nonneg hs) (not_le.mpr hj)
  | @reserved id h hi hs hself =>
      obtain ⟨hid, -, hlt⟩ := hu.reserve h hfresh
      rw [hself]
      refine Move.unheard hok hm (hstory.unheard id (Or.inl (by omega))) fun i hs' hid' => ?_
      have hle := hu.drawn i
      have hnew : (w.sockets i).id = id := hid'
      omega
  | established hs hid hstate =>
      have hbusy : (w'.sockets j).state ≠ .kSocketDisconnected := by rw [hstate]; decide
      exact absurd ((hok.move hm).fd_nonneg hbusy) (not_le.mpr hj)
  | started hs hself =>
      rw [hself] at hj
      exact absurd (hok.fd_nonneg (by rw [hs]; decide)) (not_le.mpr hj)
  | freed hs hself =>
      rw [hself] at hj
      exact absurd (hok.fd_nonneg hs) (not_le.mpr hj)

-- ============================================================================
-- The lives of the connections
-- ============================================================================

theorem StaysOpen.append {id fd fromId : Int} {log new : List Effect}
    (h : StaysOpen id fd fromId log) (hnew : StaysOpen id fd fromId new) :
    StaysOpen id fd fromId (log ++ new) := by
  intro e he
  rw [List.mem_append] at he
  exact he.elim (h e) (hnew e)

theorem StaysOpen.singleton {id fd fromId : Int} {e : Effect}
    (habout : e.about id → ∃ body, e = .notice ⟨fromId, 0, .data, .bytes body, id⟩)
    (hclosed : ∀ id' readable writable, e ≠ .closed id' fd readable writable) :
    StaysOpen id fd fromId [e] := by
  intro e' he'
  rw [List.mem_singleton.mp he']
  exact ⟨habout, hclosed⟩

include hok hm in
/-- A connected slot stays as it is, or is closed. -/
theorem Move.live {i : Nat} (hi : (w.sockets i).state = .kSocketConnected) :
    (∃ new, w'.log = w.log ++ new ∧
      StaysOpen (w.sockets i).id (w.sockets i).fd (w.sockets i).fromId new ∧
      (w'.sockets i).state = .kSocketConnected) ∨
    w'.log = w.log ++ closing (w.sockets i).id (w.sockets i).fd (w.sockets i).fromId ∧
      w'.sockets i = (w.sockets i).freed := by
  have hbusy : (w.sockets i).state ≠ .kSocketDisconnected := by rw [hi]; decide
  -- the descriptor of another slot is another one
  have hfd : ∀ j, (w.sockets j).state ≠ .kSocketDisconnected → i ≠ j →
      (w.sockets j).fd ≠ (w.sockets i).fd :=
    fun j hj hne hfd => hne (hok.apart i j hbusy hj hfd.symm)
  cases hm.log hok with
  | neutral new hlog hnew hkept =>
      refine Or.inl ⟨new, hlog, fun e he => ?_, hkept i hi⟩
      exact ⟨fun habout => absurd habout ((hnew e he).1 _), fun id' => (hnew e he).2 id' _⟩
  | data j body hs hlog hsockets =>
      refine Or.inl ⟨_, hlog, .singleton (fun habout => ⟨body, ?_⟩) (by rintro _ _ _ ⟨⟩), ?_⟩
      · have hij : i = j := hok.same_slot hbusy (by rw [hs]; decide) habout.2.symm
        rw [hij]
      · rw [hsockets]
        exact hi
  | started j hs hlog hself hkept =>
      have hne : i ≠ j := by
        rintro rfl
        rw [hi] at hs
        cases hs
      refine Or.inl ⟨_, hlog, .singleton (fun habout => ?_) (by rintro _ _ _ ⟨⟩), ?_⟩
      · exact absurd (hok.same_slot hbusy (by rw [hs]; decide) habout.symm) hne
      · rw [hkept i hne]
        exact hi
  | closed j hs hlog hself hkept =>
      by_cases hij : i = j
      · subst hij
        exact Or.inr ⟨hlog, hself⟩
      · refine Or.inl ⟨_, hlog, fun e he => ?_, by rw [hkept i hij]; exact hi⟩
        unfold closing at he
        rcases List.mem_cons.mp he with rfl | he
        · refine ⟨fun habout => ?_, fun _ _ _ heq => hfd j hs hij (Effect.closed.inj heq).2.1⟩
          exact absurd (hok.same_slot hbusy hs habout.symm) hij
        · rw [List.mem_singleton.mp he]
          refine ⟨fun habout => ?_, by rintro _ _ _ ⟨⟩⟩
          exact absurd (hok.same_slot hbusy hs habout.2.symm) hij
  | stopped j hs readable writable hlog hself hkept =>
      have hne : i ≠ j := by
        rintro rfl
        rw [hi] at hs
        cases hs
      have hbusy' : (w.sockets j).state ≠ .kSocketDisconnected := by rw [hs]; decide
      refine Or.inl ⟨_, hlog, .singleton (fun habout => ?_) ?_, ?_⟩
      · exact absurd (hok.same_slot hbusy hbusy' habout.symm) hne
      · exact fun _ _ _ heq => hfd j hbusy' hne (Effect.closed.inj heq).2.1
      · rw [hkept i hne]
        exact hi

include hstory hok hm in
/-- An id that has been heard of and is gone stays gone. -/
theorem Move.gone {id : Int} {e : Effect} (hheard : e ∈ w.log) (habout : e.about id)
    (hgone : w.Gone id) : w'.Gone id := by
  intro j hj hid
  cases hm.slot j with
  | kept hid' hstate =>
      rw [hstate] at hj
      exact hgone j hj (hid'.symm.trans hid)
  | reserved h hi hs hself =>
      rw [hself] at hj
      exact hj (hok.free j (Or.inl hs))
  | established hs hid' hstate hclaim =>
      rw [hid.symm.trans hid'] at habout
      exact hstory.reserved j (hclaim trivial).2 e hheard habout
  | started hs hself =>
      rw [hself] at hid
      exact hgone j (by rw [hs]; decide) hid
  | freed hs hself =>
      rw [hself] at hj
      exact hj rfl

include hstory hok hm in
theorem Move.life {id fd fromId : Int} {after new : List Effect}
    (hstarted : .started id fd fromId ∈ w.log) (hlog : w'.log = w.log ++ new)
    (h : Life w id fd fromId after) : Life w' id fd fromId (after ++ new) := by
  cases h with
  | live i hs hid hfd hfrom hopen =>
      rcases Move.live hok hm hs with ⟨new', hlog', hopen', hs'⟩ | ⟨hlog', hself⟩
      · rw [List.append_cancel_left (hlog.symm.trans hlog')]
        rw [hid, hfd, hfrom] at hopen'
        cases hm.slot i with
        | kept hid' hstate hfd' hfrom' =>
            exact .live i hs' (hid'.trans hid) (hfd'.trans hfd) ((hfrom' hs).trans hfrom)
              (hopen.append hopen')
        | reserved h hi hs'' hself =>
            exact absurd ((hok.free i (Or.inl hs'')).symm.trans hs) (by decide)
        | established hs'' => rw [hs] at hs''; cases hs''
        | started hs'' => rw [hs] at hs''; cases hs''
        | freed hs'' hself => rw [hself] at hs'; cases hs'
      · rw [List.append_cancel_left (hlog.symm.trans hlog'), hid, hfd, hfrom]
        refine .ended after [] (List.append_nil _).symm hopen (by rintro _ ⟨⟩) fun j hj hid' => ?_
        -- another slot with this id would be the same slot
        have hbusy : (w.sockets i).state ≠ .kSocketDisconnected := by rw [hs]; decide
        have hij := Move.same_slot hok hm hbusy hj (hid.trans hid'.symm)
        rw [← hij, hself] at hj
        exact hj rfl
  | ended before rest hafter hopen hrest hgone =>
      refine .ended before (rest ++ new) ?_ hopen (fun e he => ?_)
        (Move.gone hstory hok hm hstarted rfl hgone)
      · rw [hafter, List.append_assoc]
      · rw [List.mem_append] at he
        rcases he with he | he
        · exact hrest e he
        · exact Move.not_about hok hm hlog (fun i hs hid => absurd hid (hgone i hs)) e he

include hok hm in
/-- A start is the only entry a move writes. -/
theorem Move.started {id fd fromId : Int} {before after : List Effect}
    (hlog : w'.log = w.log ++ (before ++ .started id fd fromId :: after)) :
    before = [] ∧ after = [] ∧ ∃ i, (w.sockets i).state = .kSocketConnecting ∧ (w.sockets i).id = id ∧
      (w.sockets i).fd = fd ∧ (w.sockets i).fromId = fromId ∧
      w'.sockets i = { w.sockets i with state := .kSocketConnected } := by
  have hmem : ∀ new, w'.log = w.log ++ new → .started id fd fromId ∈ new := by
    intro new hlog'
    rw [← List.append_cancel_left (hlog.symm.trans hlog')]
    exact List.mem_append_right _ List.mem_cons_self
  cases hm.log hok with
  | neutral new hlog' hneutral => exact absurd rfl ((hneutral _ (hmem new hlog')).1 id)
  | data i body hs hlog' => cases List.mem_singleton.mp (hmem _ hlog')
  | started i hs hlog' hself =>
      have hnew := List.append_cancel_left (hlog.symm.trans hlog')
      cases before with
      | nil =>
          cases hnew
          exact ⟨rfl, rfl, i, hs, rfl, rfl, rfl, hself⟩
      | cons e before =>
          have hlen := congrArg List.length hnew
          simp at hlen
  | closed i hs hlog' =>
      have hstarted := hmem _ hlog'
      unfold closing at hstarted
      rcases List.mem_cons.mp hstarted with heq | hstarted
      · cases heq
      · cases List.mem_singleton.mp hstarted
  | stopped i hs readable writable hlog' => cases List.mem_singleton.mp (hmem _ hlog')

include hstory hok hm in
theorem Move.lives : w'.Lives := by
  obtain ⟨new, hlog, -⟩ := (hm.log hok).append
  intro before after id fd fromId hsplit
  -- a connection that has just been started
  have hfirst : ∀ mid, before = w.log ++ mid → new = mid ++ .started id fd fromId :: after →
      (∀ e ∈ before, ¬ e.about id) ∧ Life w' id fd fromId after := by
    intro mid hbefore hnew
    rw [hnew] at hlog
    obtain ⟨hmid, hafter, i, hs, hid, hfd, hfrom, hself⟩ := Move.started hok hm hlog
    refine ⟨?_, .live i (by rw [hself]) ?_ ?_ ?_ ?_⟩
    · rw [hbefore, hmid, List.append_nil, ← hid]
      exact hstory.connecting i hs
    · rw [hself]
      exact hid
    · rw [hself]
      exact hfd
    · rw [hself]
      exact hfrom
    · rw [hafter]
      rintro _ ⟨⟩
  rw [hlog, List.append_eq_append_iff] at hsplit
  rcases hsplit with ⟨mid, hbefore, hnew⟩ | ⟨mid, hold, hafter⟩
  · exact hfirst mid hbefore hnew
  · cases mid with
    | nil =>
        rw [List.append_nil] at hold
        exact hfirst [] (by rw [hold, List.append_nil]) hafter.symm
    | cons e mid =>
        cases hafter
        have hstarted : Effect.started id fd fromId ∈ w.log := by
          rw [hold]
          exact List.mem_append_right _ List.mem_cons_self
        obtain ⟨hsilent, hlife⟩ := hstory.lives before mid id fd fromId hold
        exact ⟨hsilent, Move.life hstory hok hm hstarted hlog hlife⟩

include hstory hok hm in
/-- A close is written right after that of the descriptor, and is the last entry. -/
theorem Move.closed {n : Notice} {before after : List Effect} (hclose : n.kind = .close)
    (hlog : w'.log = w.log ++ (before ++ .notice n :: after)) :
    after = [] ∧ (∃ fd, before = [.closed n.id fd false false]) ∧ (∀ e ∈ w.log, ¬ e.ends n.id) ∧
      w'.Gone n.id := by
  have hmem : ∀ new, w'.log = w.log ++ new → .notice n ∈ new := by
    intro new hlog'
    rw [← List.append_cancel_left (hlog.symm.trans hlog')]
    exact List.mem_append_right _ List.mem_cons_self
  cases hm.log hok with
  | neutral new hlog' hneutral =>
      exact absurd ⟨Or.inr hclose, rfl⟩ ((hneutral _ (hmem new hlog')).1 n.id)
  | data i body hs hlog' =>
      cases List.mem_singleton.mp (hmem _ hlog')
      cases hclose
  | started i hs hlog' hself => cases List.mem_singleton.mp (hmem _ hlog')
  | closed i hs hlog' hself =>
      have hnew := List.append_cancel_left (hlog.symm.trans hlog')
      unfold closing at hnew
      cases before with
      | nil => cases hnew
      | cons e before =>
          cases before with
          | nil =>
              cases hnew
              refine ⟨rfl, ⟨_, rfl⟩, hstory.not_ended hs, fun j hj hid => ?_⟩
              have hij := Move.same_slot hok hm hs hj hid.symm
              rw [← hij, hself] at hj
              exact hj rfl
          | cons e' before =>
              have hlen := congrArg List.length hnew
              simp at hlen
  | stopped i hs readable writable hlog' => cases List.mem_singleton.mp (hmem _ hlog')

include hstory hok hm in
theorem Move.ends : w'.Ends := by
  obtain ⟨new, hlog, -⟩ := (hm.log hok).append
  intro before after n hsplit hclose
  -- a close that has just been written
  have hfirst : ∀ mid, before = w.log ++ mid → new = mid ++ .notice n :: after →
      (∃ rest fd, before = rest ++ [.closed n.id fd false false] ∧ ∀ e ∈ rest, ¬ e.ends n.id) ∧
        (∀ e ∈ after, ¬ e.about n.id) ∧ w'.Gone n.id := by
    intro mid hbefore hnew
    rw [hnew] at hlog
    obtain ⟨hafter, ⟨fd, hmid⟩, hnever, hgone⟩ := Move.closed hstory hok hm hclose hlog
    refine ⟨⟨w.log, fd, by rw [hbefore, hmid], hnever⟩, ?_, hgone⟩
    rw [hafter]
    rintro _ ⟨⟩
  rw [hlog, List.append_eq_append_iff] at hsplit
  rcases hsplit with ⟨mid, hbefore, hnew⟩ | ⟨mid, hold, hafter⟩
  · exact hfirst mid hbefore hnew
  · cases mid with
    | nil =>
        rw [List.append_nil] at hold
        exact hfirst [] (by rw [hold, List.append_nil]) hafter.symm
    | cons e mid =>
        cases hafter
        obtain ⟨hbefore, hrest, hgone⟩ := hstory.ends before mid n hold hclose
        have hheard : Effect.notice n ∈ w.log := by
          rw [hold]
          exact List.mem_append_right _ List.mem_cons_self
        refine ⟨hbefore, fun e he => ?_,
          Move.gone hstory hok hm hheard ⟨Or.inr hclose, rfl⟩ hgone⟩
        rcases List.mem_append.mp he with he | he
        · exact hrest e he
        · exact Move.not_about hok hm hlog (fun i hs hid => absurd hid (hgone i hs)) e he

include hstory hu hok hm in
theorem World.Story.move (hfresh : w'.Fresh) : w'.Story where
  plain := Move.plain hstory hm
  unheard := fun _ h => Move.still_unheard hstory hu hok hm h
  connecting := fun _ hj => Move.connecting hstory hok hm hj
  connected := fun _ hj => Move.connected hstory hok hm hj
  reserved := fun _ hj => Move.reserved hstory hu hok hm hfresh hj
  lives := Move.lives hstory hok hm
  ends := Move.ends hstory hok hm

end

-- ============================================================================
-- Runs
-- ============================================================================

section

variable {opens tidy : Prop} {w w' : World}

theorem World.Story.moves (hstory : w.Story) (hu : w.Unrecycled) (hok : w.Ok)
    (hm : Moves opens tidy True w w') (hfresh : w'.Fresh) : w'.Story := by
  induction hm with
  | refl => exact hstory
  | tail hbefore hlast ih =>
      have hfresh' := lt_of_le_of_lt hlast.drawn_le hfresh
      exact (ih hfresh').move (hu.moves hok hbefore hfresh') (hok.moves hbefore) hlast hfresh

/-- Only the queue changes; what waits now was waiting, or has just been drawn. -/
theorem World.Story.of_em (hstory : w.Story) (em : List TcpRequest)
    (hclaims : ∀ id ∈ World.claims { w with em := em }, ∀ e ∈ w.log, ¬ e.about id) :
    World.Story { w with em := em } where
  plain := hstory.plain
  unheard := fun id h => h.elim (fun hlt => hstory.unheard id (Or.inl hlt)) (hclaims id)
  connecting := hstory.connecting
  connected := hstory.connected
  reserved := hstory.reserved
  lives := fun before after id fd fromId hlog => by
    obtain ⟨hsilent, hlife⟩ := hstory.lives before after id fd fromId hlog
    refine ⟨hsilent, ?_⟩
    cases hlife with
    | live i hs hid hfd hfrom hopen => exact .live i hs hid hfd hfrom hopen
    | ended before after hafter hopen hrest hgone => exact .ended before after hafter hopen hrest hgone
  ends := hstory.ends

theorem World.Story.step_moves (hstory : w.Story) (hu : w.Unrecycled) (hok : w.Ok)
    (hm : StepMoves opens tidy True w w') (hfresh : w'.Fresh) : w'.Story := by
  cases hm with
  | moved hm => exact hstory.moves hu hok hm hfresh
  | posted req hreq =>
      refine hstory.of_em _ fun id hid => hstory.unheard id (Or.inr ?_)
      rw [claims_append, hreq] at hid
      exact (List.mem_append.mp hid).elim (fun hid => hid) (by rintro ⟨⟩)
  | @claimed w₁ id req h hreq =>
      have hm : Move opens tidy True w w₁ := .reserve h
      have hstory₁ : w₁.Story := hstory.move hu hok hm hfresh
      obtain ⟨hid, -, hlt⟩ := hu.reserve h hfresh
      have hlog : w₁.log = w.log := by
        obtain ⟨a, d, hres⟩ := tcpGetReserveId_reserved h
        rw [hres.eq]
        rfl
      refine hstory₁.of_em _ fun id' hid' => ?_
      rw [claims_append, hreq] at hid'
      rcases List.mem_append.mp hid' with hid' | hid'
      · exact hstory₁.unheard id' (Or.inr hid')
      · rw [hlog, List.mem_singleton.mp hid']
        exact hstory.unheard id (Or.inl (by omega))
  | handled req rest hem hm =>
      have hrest : World.Ok { w with em := rest } :=
        hok.of_same (fun _ => Socket.Same.refl _) rfl rfl rfl rfl
      have hstory' : World.Story { w with em := rest } :=
        hstory.of_em rest fun id hid => hstory.unheard id (Or.inr ((claims_rest hem).subset hid))
      exact hstory'.moves (hu.of_em rest (claims_rest hem)) hrest hm hfresh

structure World.Told (w : World) : Prop where
  ok : w.Ok
  unrecycled : w.Unrecycled
  story : w.Story

theorem World.Told.step {op : TcpOp} (h : w.Told) (hstep : tcpStep w op = some w')
    (hfresh : w'.Fresh) : w'.Told := by
  have hm := h.unrecycled.step h.ok hstep hfresh
  exact ⟨h.ok.step_moves hm, h.unrecycled.step_moves h.ok hm hfresh,
    h.story.step_moves h.unrecycled h.ok hm hfresh⟩

end

theorem tcpInit_told (setsize : Nat) (aeSetsize : Int) : (tcpInit setsize aeSetsize).Told :=
  ⟨tcpInit_ok _ _, tcpInit_unrecycled _ _, tcpInit_story _ _⟩

/-- As long as ids are new, the owner of a connection gets its data and at most one
    close, apart from errors.  Just before it `close` is called for the descriptor, for
    the first and the last time on behalf of the connection. -/
theorem connections_are_told (setsize : Nat) (aeSetsize : Int) (ops : List TcpOp)
    (hfresh : Always tcpStep World.Fresh (tcpInit setsize aeSetsize) ops) :
    Always tcpStep (fun w => w.Lives ∧ w.Ends) (tcpInit setsize aeSetsize) ops :=
  always_of_always (fun _ h => ⟨h.story.lives, h.story.ends⟩) (fun _ _ _ h => h.step)
    (tcpInit_told setsize aeSetsize) hfresh

/-- A connection that is made, started, and ended by a read error. -/
def brokenConnection : List TcpOp :=
  [.connect 1 1 "127.0.0.1" 80 false, .handle { fd := 7 }, .start 1 1 false, .handle {},
    .event 7 .readable { read := .error ECONNRESET }]

theorem broken_connection_is_told :
    Always tcpStep (fun w => w.Lives ∧ w.Ends) (tcpInit 4 64) brokenConnection :=
  connections_are_told 4 64 brokenConnection (by decide)

/-- Its owner is told about it: data and closes only. -/
def World.OnlyDataAndClose (w : World) : Prop :=
  ∀ before after id fd fromId, w.log = before ++ .started id fd fromId :: after →
    ∀ n, .notice n ∈ after → n.dest = fromId → n.id = id → n.kind = .data ∨ n.kind = .close

/-- The read error is reported after the close.  And a listening socket that is
    started again in vain is closed with its event registered, without a word. -/
theorem errors_are_told_too :
    (∃ w, runFrom tcpStep (tcpInit 4 64) brokenConnection = some w ∧ ¬ w.OnlyDataAndClose) ∧
    ∃ w, runFrom tcpStep (tcpInit 4 64)
      [.listen 1 1 "0.0.0.0" 80 false, .handle { fd := 7 }, .start 1 1 false, .handle {},
        .start 1 1 false, .handle { registered := false }] = some w ∧
      .closed 1 7 true false ∈ w.log ∧ ∀ n, .notice n ∈ w.log → n.kind ≠ .close := by
  constructor
  · have hlog : (runFrom tcpStep (tcpInit 4 64) brokenConnection).map World.log =
        some [.opened 7, .started 1 7 1, .closed 1 7 false false, .notice ⟨1, 0, .close, .null, 1⟩,
          .notice ⟨1, 0, .error, .text "error(104) error str: ", 1⟩] := by decide
    obtain ⟨w, hrun, hw⟩ := Option.map_eq_some_iff.mp hlog
    refine ⟨w, hrun, fun honly => ?_⟩
    have hkind := honly [.opened 7] _ 1 7 1 hw ⟨1, 0, .error, .text "error(104) error str: ", 1⟩
      (by decide) rfl rfl
    rcases hkind with hkind | hkind <;> cases hkind
  · have hlog : (runFrom tcpStep (tcpInit 4 64)
        [.listen 1 1 "0.0.0.0" 80 false, .handle { fd := 7 }, .start 1 1 false, .handle {},
          .start 1 1 false, .handle { registered := false }]).map World.log =
        some [.opened 7, .closed 1 7 true false,
          .notice ⟨1, 0, .error, .text "start sockfd (1) fail", 1⟩] := by decide
    obtain ⟨w, hrun, hw⟩ := Option.map_eq_some_iff.mp hlog
    refine ⟨w, hrun, ?_, fun n hn hclose => ?_⟩
    · rw [hw]
      decide
    · rw [hw] at hn
      have hmem : n ∈ [(⟨1, 0, .error, .text "start sockfd (1) fail", 1⟩ : Notice)] := by
        simpa using hn
      rw [List.mem_singleton.mp hmem] at hclose
      cases hclose

end ZServer.Tcp
