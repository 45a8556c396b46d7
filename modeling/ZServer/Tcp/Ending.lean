/-
  ZServer.Tcp.Ending

  What one step of the event loop keeps, with workers reserving slots meanwhile.

  `handleClose` and its like free the slot before they build the notice from it,
  `tcpRecoverId` does not look whose id the slot has, and neither do the handlers
  that put a connection in it.  Each of these steps has what it needs as a
  hypothesis.
-/

import ZServer.Tcp.Reserving

namespace ZServer.Tcp

open Lib

section Loop

variable {s s' : Table} {w w' : World} {i : Nat}

-- ============================================================================
-- What a step of the event loop keeps
-- ============================================================================

structure Table.Advances (s s' : Table) (pc : LoopPc) : Prop where
  ok : s'.Ok
  reaches : s'.AtLoop pc
  taken : s'.taken = s.taken
  index : getIndex s'.world = getIndex s.world

theorem Table.Settled.congr (h : ∀ j, s'.entry j = s.entry j) {j : Nat} (hj : s.Settled j) :
    s'.Settled j := by
  unfold Table.Settled
  rw [h]
  exact hj

theorem Table.Ready.congr (h : ∀ j, s'.entry j = s.entry j) {e : Ending} {tells : List Tell}
    (hr : s.Ready e tells) : s'.Ready e tells := by
  unfold Table.Ready
  rw [h]
  exact hr

theorem Table.Closing.congr (h : ∀ j, s'.entry j = s.entry j) {e : Ending} (hc : s.Closing e) :
    s'.Closing e where
  settled := fun j => (hc.settled j).congr h
  busy := by
    rw [h]
    exact hc.busy
  ready := hc.ready.congr h

theorem Table.Same.taken (h : s.Same s') : s'.taken = s.taken :=
  funext fun j => congrArg Entry.taken (h.entries j)

/-- Nothing changes that the invariant is about. -/
theorem Table.Same.advances (hs : s.Ok) (h : s.Same s') {pc : LoopPc} (hpc : s'.AtLoop pc) :
    s.Advances s' pc :=
  ⟨hs.of_same h, hpc, h.taken, h.index⟩

theorem Table.Advances.of_same {v : Table} (h : s.Same s') {pc : LoopPc} (ha : s'.Advances v pc) :
    s.Advances v pc :=
  ⟨ha.ok, ha.reaches, ha.taken.trans h.taken, ha.index.trans h.index⟩

/-- The connection `id` is put in slot `i`. -/
structure Table.Puts (s s' : Table) (i : Nat) (id : Int) : Prop where
  others : ∀ j, j ≠ i → s'.entry j = s.entry j
  inUse : (s'.entry i).InUse
  state : (s'.entry i).state = .kSocketConnecting
  index : getIndex s.world id = i
  natural : 0 ≤ id
  named : (s'.entry i).id = id
  conn : (s'.entry i).conn = id
  untaken : (s'.entry i).taken = none
  holders : (s'.entry i).holders = [] ∨ (s'.entry i).holders = [id]
  told : s'.told = s.told
  taken : s'.taken = s.taken
  same : getIndex s'.world = getIndex s.world

theorem Table.Puts.advances {id : Int} (hs : s.Ok) (hsettled : ∀ j, s.Settled j)
    (h : s.Puts s' i id) : s.Advances s' .idle := by
  refine ⟨hs.of_entry i h.others ?_ h.told h.same, fun j => ?_, h.taken, h.same⟩
  · refine ⟨?_, fun _ => ?_, fun _ => h.inUse, fun id' htaken => ?_, fun hnone => ?_, fun _ => ?_⟩
    · rw [h.named]
      exact h.natural
    · rw [h.named]
      exact ⟨h.index, h.conn⟩
    · rw [h.untaken] at htaken
      cases htaken
    · exact absurd hnone h.inUse.1
    · rw [h.named]
      exact h.holders
  · by_cases hj : j = i
    · subst hj
      intro _
      rw [h.state]
      decide
    · unfold Table.Settled
      rw [h.others j hj]
      exact hsettled j

/-- The owner and the state of a slot change; the slot keeps its connection. -/
theorem Table.Ok.of_owner (hs : s.Ok) (i : Nat) (hothers : ∀ j, j ≠ i → s'.entry j = s.entry j)
    {state : SocketState} {fromId : Int}
    (hi : s'.entry i = { s.entry i with state := state, fromId := fromId })
    (hstate : state ≠ .kSocketDisconnected → (s.entry i).state ≠ .kSocketDisconnected)
    (htold : s'.told = s.told) (hindex : getIndex s'.world = getIndex s.world) : s'.Ok := by
  refine hs.of_entry i hothers ?_ htold hindex
  have hok := hs.entries i
  rw [hi]
  exact ⟨hok.natural, hok.used, fun hne => hok.busy (hstate hne), hok.taken, hok.free, hok.held⟩

theorem Table.settled_of_owner (hsettled : ∀ j, s.Settled j)
    (hothers : ∀ j, j ≠ i → s'.entry j = s.entry j) {state : SocketState} {fromId : Int}
    (hi : s'.entry i = { s.entry i with state := state, fromId := fromId })
    (hstate : (s.entry i).state ≠ .kSocketDisconnected → state ≠ .kSocketDisconnected) (j : Nat) :
    s'.Settled j := by
  unfold Table.Settled
  by_cases hj : j = i
  · subst hj
    rw [hi]
    exact fun hused => hstate (hsettled j hused)
  · rw [hothers j hj]
    exact hsettled j

-- ============================================================================
-- The beginning of an end
-- ============================================================================

/-- A tell whose notice is made of the id and the owner in the slot. -/
def Tell.own : Tell → Bool
  | .close | .error _ => true
  | _ => false

theorem Table.closing_own (hs : s.Ok) (hsettled : ∀ j, s.Settled j) {e : Ending}
    (hbusy : (s.entry e.slot).state ≠ .kSocketDisconnected) (hid : e.id = s.conn e.slot)
    (hfrom : e.fromId = (s.slot e.slot).fromId) (htells : ∀ t ∈ e.tells, t.own = true) :
    s.Closing e := by
  refine ⟨hsettled, hbusy, fun t ht => ?_⟩
  have hok := hs.entries e.slot
  have hconn : (s.entry e.slot).id = e.id := by
    rw [hid]
    exact (hok.used (hok.busy hbusy)).2.symm
  cases t with
  | close => exact ⟨hconn, hfrom.symm⟩
  | error err => exact ⟨hconn, hfrom.symm⟩
  | connectFail dest err => cases htells _ ht
  | startFail dest id err => cases htells _ ht

theorem Table.state_ne {state : SocketState} (hstate : (s.slot i).state = state)
    (hne : state ≠ .kSocketDisconnected) : (s.entry i).state ≠ .kSocketDisconnected := by
  show (s.slot i).state ≠ _
  rw [hstate]
  exact hne

/-- The end of the connection in a slot that is connected or connecting. -/
theorem Table.closing_ending (hs : s.Ok) (hsettled : ∀ j, s.Settled j)
    (hbusy : (s.entry i).state ≠ .kSocketDisconnected) (tells : List Tell)
    (htells : ∀ t ∈ tells, t.own = true) : s.Closing (s.ending i tells) :=
  Table.closing_own hs hsettled (e := s.ending i tells) hbusy rfl rfl htells

theorem errorTells_own (errno : Nat) : ∀ t ∈ errorTells errno, t.own = true := by
  intro t ht
  rcases List.mem_cons.mp ht with rfl | ht
  · rfl
  · rw [List.mem_singleton.mp ht]
    rfl

theorem close_own : ∀ t ∈ [Tell.close], t.own = true := by
  intro t ht
  rw [List.mem_singleton.mp ht]
  rfl

theorem Table.forceClose_reaches (hs : s.Ok) (hsettled : ∀ j, s.Settled j)
    (hindex : getIndex s.world (s.slot i).id = i) : s.AtLoop (s.forceClose i) := by
  unfold Table.forceClose
  split
  · rename_i hstate
    refine Table.closing_ending hs hsettled ?_ [.close] close_own
    rcases hstate with hstate | hstate
    · exact Table.state_ne hstate (by decide)
    · exact Table.state_ne hstate (by decide)
  · -- nobody is told
    exact ⟨fun j _ => hsettled j, hindex, fun hne => absurd rfl hne, by rintro _ ⟨⟩⟩

-- ============================================================================
-- Handlers that are one step
-- ============================================================================

/-- What the handlers of a listen and a connect request do. -/
structure Placing (w w' : World) (id : Int) (k : Kernel) : Prop where
  setsize : w'.setsize = w.setsize
  refused : tcpGetSocket w id = none ∨ k.fd = -1 → w'.sockets = w.sockets
  placed : ∀ i, tcpGetSocket w id = some i → k.fd ≠ -1 →
    ∃ f, w'.sockets = (w.modify i f).sockets ∧ (∀ s, (f s).id = s.id) ∧
      (∀ s, (f s).state = .kSocketConnecting) ∧
      ∀ s, (f s).type ≠ .kSocketNoneType ∧ (f s).type ≠ .kReserveType

theorem handleTcpSocketListen_placing {fromId id protoType : Int} {addr : String} {port : Int}
    {k : Kernel} (h : handleTcpSocketListen w fromId id protoType addr port k = some w') :
    Placing w w' id k := by
  unfold handleTcpSocketListen at h
  split at h
  · rename_i hfd
    cases h
    exact ⟨rfl, fun _ => rfl, fun _ _ hne => absurd hfd hne⟩
  · rename_i hfd
    obtain ⟨w₁, hopen, h⟩ := Option.bind_eq_some_iff.mp h
    obtain ⟨-, -, rfl⟩ := openFd_eq_some hopen
    have hget : tcpGetSocket (w.opened k.fd) id = tcpGetSocket w id := rfl
    rw [hget] at h
    split at h
    · rename_i hnone
      cases h
      exact ⟨rfl, fun _ => rfl, fun i hsome => by rw [hnone] at hsome; cases hsome⟩
    · rename_i i hsome
      cases h
      refine ⟨rfl, ?_, fun j hj _ => ?_⟩
      · rintro (hnone | hfail)
        · rw [hsome] at hnone
          cases hnone
        · exact absurd hfail hfd
      · rw [hsome] at hj
        cases hj
        exact ⟨fun s => { s with
          state := .kSocketConnecting, type := .kAcceptType, fd := k.fd, protoType := protoType },
          rfl, fun _ => rfl, fun _ => rfl, fun _ => ⟨by rintro ⟨⟩, by rintro ⟨⟩⟩⟩

theorem handleTcpSocketConnect_placing {fromId id protoType : Int} {addr : String} {port : Int}
    {k : Kernel} (h : handleTcpSocketConnect w fromId id protoType addr port k = some w') :
    Placing w w' id k := by
  unfold handleTcpSocketConnect at h
  split at h
  · rename_i hnone
    cases h
    exact ⟨rfl, fun _ => rfl, fun i hsome => by rw [hnone] at hsome; cases hsome⟩
  · rename_i i hsome
    split at h
    · rename_i hfd
      cases h
      exact ⟨rfl, fun _ => rfl, fun _ _ hne => absurd hfd hne⟩
    · rename_i hfd
      obtain ⟨w₁, hopen, h⟩ := Option.bind_eq_some_iff.mp h
      obtain ⟨-, -, rfl⟩ := openFd_eq_some hopen
      cases h
      refine ⟨rfl, ?_, fun j hj _ => ?_⟩
      · rintro (hnone | hfail)
        · rw [hsome] at hnone
          cases hnone
        · exact absurd hfail hfd
      · rw [hsome] at hj
        cases hj
        exact ⟨fun s => { s with
          type := .kConnectType, protoType := protoType, state := .kSocketConnecting, fd := k.fd },
          rfl, fun _ => rfl, fun _ => rfl, fun _ => ⟨by rintro ⟨⟩, by rintro ⟨⟩⟩⟩

theorem Placing.advances {id : Int} {k : Kernel} (hs : s.Ok) (hsettled : ∀ j, s.Settled j)
    (htaken : ∀ i, tcpGetSocket s.world id = some i → s.taken i = none)
    (h : Placing s.world w id k) : s.Advances (s.placed id k w) .idle := by
  have hrefused : tcpGetSocket s.world id = none ∨ k.fd = -1 →
      s.Advances { s with world := w } .idle := fun hr =>
    have hsame := s.same_world (h.refused hr) h.setsize
    hsame.advances hs fun j => (hsettled j).congr hsame.entries
  unfold Table.placed
  split
  · rename_i hnone
    exact hrefused (Or.inl hnone)
  · rename_i i hsome
    split
    · rename_i hfd
      exact hrefused (Or.inr hfd)
    · rename_i hfd
      obtain ⟨f, hsockets, hid, hstate, htype⟩ := h.placed i hsome hfd
      obtain ⟨hindex, hsame⟩ := tcpGetSocket_eq_some hsome
      have hslot : w.sockets i = f (s.slot i) := by
        rw [hsockets]
        exact World.modify_self ..
      have hslotid : (w.sockets i).id = id := by
        rw [hslot, hid]
        exact hsame
      have huntaken := htaken i hsome
      have hput : s.Puts (s.connect i id w) i id := by
        refine ⟨fun j hj => ?_, ?_, ?_, hindex, ?_, hslotid, Function.update_self .., huntaken, ?_,
          rfl, rfl, getIndex_congr h.setsize⟩
        · exact Table.entry_congr (Table.slot_of_ne hsockets hj) (Function.update_of_ne hj ..) rfl rfl
        · show (w.sockets i).type ≠ _ ∧ (w.sockets i).type ≠ _
          rw [hslot]
          exact htype _
        · show (w.sockets i).state = _
          rw [hslot]
          exact hstate _
        · rw [← hsame]
          exact (hs.entries i).natural
        · rw [← hsame]
          exact (hs.entries i).held huntaken
      exact hput.advances hs hsettled

theorem onAccept_cases {k : Kernel} (h : onAccept w i k = some w') :
    w'.setsize = w.setsize ∧ (k.fd = -1 ∧ w'.sockets = w.sockets ∨
      ∃ v id, k.fd ≠ -1 ∧ tcpGetReserveId w = some (v, id) ∧ 0 ≤ id ∧
        (w.sockets (getIndex w id)).type = .kSocketNoneType ∧
        ∃ f, w'.sockets = (w.modify (getIndex w id) f).sockets ∧
          ∀ s, (f s).id = id ∧ (f s).state = .kSocketConnecting ∧ (f s).type = .kSocketType) := by
  unfold onAccept at h
  split at h
  · rename_i hfd
    cases h
    exact ⟨rfl, Or.inl ⟨hfd, rfl⟩⟩
  · rename_i hfd
    obtain ⟨w₁, hopen, h⟩ := Option.bind_eq_some_iff.mp h
    obtain ⟨-, -, rfl⟩ := openFd_eq_some hopen
    obtain ⟨⟨w₂, id⟩, hreserve, h⟩ := Option.bind_eq_some_iff.mp h
    obtain ⟨j, hget, h⟩ := Option.bind_eq_some_iff.mp h
    -- the slot might as well have been reserved before the descriptor was opened
    unfold tcpGetReserveId at hreserve
    rw [reserveFrom_opened] at hreserve
    obtain ⟨⟨v, id'⟩, hreserve', heq⟩ := Option.map_eq_some_iff.mp hreserve
    cases heq
    obtain ⟨a, d, hv⟩ := tcpGetReserveId_reserved (show tcpGetReserveId w = some (v, id') from hreserve')
    obtain ⟨hj, -⟩ := tcpGetSocket_eq_some hget
    have hindex : getIndex w id' = j := by
      rw [← hj, hv.eq]
      rfl
    let g : Socket → Socket := fun s => { s with
      fromId := 0, fd := k.fd, protoType := (v.sockets i).protoType,
      type := .kSocketType, state := .kSocketConnecting,
      readBuffer := s.readBuffer.map fun _ => [], sendBuffer := s.sendBuffer.map fun _ => [] }
    have hsetsize : v.setsize = w.setsize := by
      rw [hv.eq]
      rfl
    have hsockets : (v.modify j g).sockets =
        (w.modify (getIndex w id') (g ∘ Socket.reserved id')).sockets := by
      rw [hv.eq, hindex, World.modify_modify]
      rfl
    cases h
    exact ⟨hsetsize, Or.inr ⟨v, id', hfd, hreserve', hv.nonneg, hv.was_free, _, hsockets,
      fun _ => ⟨rfl, rfl, rfl⟩⟩⟩

theorem Table.accepted_advances {k : Kernel} (hs : s.Ok) (hsettled : ∀ j, s.Settled j)
    (h : onAccept s.world i k = some w) : s.Advances (s.accepted k w) .idle := by
  obtain ⟨hsetsize, ⟨hfd, hsockets⟩ | ⟨v, id, hfd, hreserve, hnat, hfree, f, hsockets, hf⟩⟩ :=
    onAccept_cases h
  · have hsame : s.Same (s.accepted k w) := by
      unfold Table.accepted
      split
      · exact s.same_world hsockets hsetsize
      · rw [if_pos hfd]
        exact s.same_world hsockets hsetsize
    exact hsame.advances hs fun j => (hsettled j).congr hsame.entries
  · unfold Table.accepted
    rw [hreserve]
    simp only [if_neg hfd]
    have hok := hs.entries (getIndex s.world id)
    have hslot : w.sockets (getIndex s.world id) = f (s.slot (getIndex s.world id)) := by
      rw [hsockets]
      exact World.modify_self ..
    obtain ⟨hid, hstate, htype⟩ := hf (s.slot (getIndex s.world id))
    rw [← hslot] at hid hstate htype
    have hput : s.Puts { s.connect (getIndex s.world id) id w with
        holders := Function.update s.holders (getIndex s.world id)
          (id :: s.holders (getIndex s.world id)) } (getIndex s.world id) id := by
      refine ⟨fun j hj => ?_, ?_, hstate, rfl, hnat, hid, Function.update_self .., ?_, Or.inr ?_, rfl,
        rfl, getIndex_congr hsetsize⟩
      · exact Table.entry_congr (Table.slot_of_ne hsockets hj) (Function.update_of_ne hj ..) rfl
          (Function.update_of_ne hj ..)
      · show (w.sockets _).type ≠ _ ∧ (w.sockets _).type ≠ _
        rw [htype]
        exact ⟨by decide, by decide⟩
      · exact hok.untaken fun hreserved => absurd (hfree.symm.trans hreserved) (by decide)
      · show Function.update s.holders _ _ _ = _
        rw [Function.update_self, show s.holders _ = [] from hok.free hfree]
    exact hput.advances hs hsettled

/-- Starting leaves a slot connecting or connected. -/
theorem startByType_sockets {registered started : Bool}
    (hstate : (w.sockets i).state ≠ .kSocketDisconnected)
    (h : startByType w i registered = some (w', started)) :
    w'.setsize = w.setsize ∧ ∃ state, state ≠ .kSocketDisconnected ∧
      w'.sockets = (w.modify i fun s => { s with state := state }).sockets := by
  have hsame : w'.sockets = w.sockets → ∃ state, state ≠ .kSocketDisconnected ∧
      w'.sockets = (w.modify i fun s => { s with state := state }).sockets := fun heq =>
    ⟨_, hstate, heq.trans (Function.update_eq_self i w.sockets).symm⟩
  rcases startByType_cases h with ⟨-, hcreate⟩ | ⟨w₁, hcreate, heq⟩ | ⟨-, htype⟩
  · rcases aeCreateFileEvent_cases w (w.sockets i).fd .readable .onAccept i registered with heq | heq
    · rw [hcreate] at heq
      cases heq
      exact ⟨rfl, hsame rfl⟩
    · rw [hcreate] at heq
      cases heq
      exact ⟨rfl, hsame rfl⟩
  · have hw' : w'.setsize = w₁.setsize ∧ w'.sockets = w₁.sockets := by
      rw [heq]
      split
      · exact ⟨rfl, rfl⟩
      · exact ⟨rfl, rfl⟩
    rw [hw'.1, hw'.2]
    rcases aeCreateFileEvent_cases (w.modify i fun s => { s with state := .kSocketConnected })
      (w.sockets i).fd .readable .onRead i registered with heq | heq
    · rw [hcreate] at heq
      cases heq
      exact ⟨rfl, .kSocketConnected, by decide, rfl⟩
    · rw [hcreate] at heq
      cases heq
      exact ⟨rfl, .kSocketConnected, by decide, rfl⟩
  · -- a slot of another type is left as it is
    unfold startByType at h
    rcases htype with htype | htype
    · rw [htype] at h
      cases h
      exact ⟨rfl, hsame rfl⟩
    · rw [htype] at h
      cases h
      exact ⟨rfl, hsame rfl⟩

-- ============================================================================
-- Handlers that may end a connection
-- ============================================================================

theorem Table.tcpError_same (s : Table) (dest id : Int) (err : String) :
    s.Same (s.tcpError dest id err) :=
  s.same_world rfl rfl

variable {pc pc' : LoopPc} {k : Kernel}

theorem Table.start_advances {fromId id : Int} (hs : s.Ok) (hsettled : ∀ j, s.Settled j)
    (h : s.start fromId id k = some (s', pc')) : s.Advances s' pc' := by
  have herror : ∀ err, s.Advances (s.tcpError fromId id err) .idle := fun err =>
    have hsame := s.tcpError_same fromId id err
    hsame.advances hs fun j => (hsettled j).congr hsame.entries
  unfold Table.start at h
  split at h
  · cases h
    exact herror _
  · rename_i i hsome
    obtain ⟨-, hslotid⟩ := tcpGetSocket_eq_some hsome
    split at h
    · cases h
      exact herror _
    · rename_i hstate
      obtain ⟨⟨w, started⟩, hstart, heq⟩ := Option.map_eq_some_iff.mp h
      have hbusy : (s.entry i).state ≠ .kSocketDisconnected :=
        Table.state_ne (not_not.mp hstate) (by decide)
      have hbusy' : ((s.world.modify i fun s => { s with fromId := fromId }).sockets i).state ≠
          .kSocketDisconnected := by
        rw [World.modify_self]
        exact hbusy
      obtain ⟨hsetsize, state, hne, hsockets⟩ := startByType_sockets hbusy' hstart
      rw [World.modify_modify] at hsockets
      have hothers : ∀ j, j ≠ i → ({ s with world := w } : Table).entry j = s.entry j := fun j hj =>
        Table.entry_congr (Table.slot_of_ne hsockets hj) rfl rfl rfl
      have hslot : w.sockets i = { s.slot i with state := state, fromId := fromId } := by
        rw [hsockets]
        exact World.modify_self ..
      have hentry : ({ s with world := w } : Table).entry i =
          { s.entry i with state := state, fromId := fromId } := by
        unfold Table.entry
        show (⟨(w.sockets i).type, (w.sockets i).state, (w.sockets i).id, (w.sockets i).fromId,
          s.conn i, s.taken i, s.holders i⟩ : Entry) = _
        rw [hslot]
      have hindex : getIndex w = getIndex s.world := getIndex_congr hsetsize
      have hok : ({ s with world := w } : Table).Ok :=
        hs.of_owner i hothers hentry (fun _ => hbusy) rfl hindex
      have hsettled' : ∀ j, ({ s with world := w } : Table).Settled j :=
        Table.settled_of_owner hsettled hothers hentry fun _ => hne
      cases started with
      | true =>
          cases heq
          exact ⟨hok, hsettled', rfl, hindex⟩
      | false =>
          cases heq
          refine ⟨hok, ⟨hsettled', ?_, fun t ht => ?_⟩, rfl, hindex⟩
          · show (({ s with world := w } : Table).entry i).state ≠ _
            rw [hentry]
            exact hne
          · rw [List.mem_singleton.mp ht]
            have hconn := ((hs.entries i).used ((hs.entries i).busy hbusy)).2
            refine ⟨hslotid.symm.trans hconn.symm, ?_⟩
            show fromId = (w.sockets i).fromId
            rw [hslot]

/-- The failure of a connect that has been asked for. -/
theorem Table.freeing_connectFail {fromId id : Int} {err : String} {e : Ending} (hs : s.Ok)
    (hsettled : ∀ j, s.Settled j) (hget : tcpGetSocket s.world id = some e.slot)
    (hid : e.id = id) (hfrom : e.fromId = fromId) (htells : e.tells = [.connectFail fromId err]) :
    s.Freeing e id := by
  obtain ⟨hindex, hslotid⟩ := tcpGetSocket_eq_some hget
  refine ⟨fun j _ => hsettled j, ?_, hindex, fun t ht => ?_⟩
  · rw [← hslotid]
    exact (hs.entries e.slot).natural
  · rw [htells] at ht
    rw [List.mem_singleton.mp ht]
    exact ⟨hid.symm, hfrom.symm⟩

theorem Table.asyncConnect_advances {fromId id protoType : Int} {addr : String} {port : Int}
    (hs : s.Ok) (hsettled : ∀ j, s.Settled j)
    (htaken : ∀ i, tcpGetSocket s.world id = some i → s.taken i = none)
    (h : s.asyncConnect fromId id protoType addr port k = some (s', pc')) :
    s.Advances s' pc' := by
  unfold Table.asyncConnect at h
  split at h
  · cases h
    have hsame := s.tcpError_same fromId id
      ("asyncconnect sockfd (" ++ toString id ++ ") fail, id not found")
    exact hsame.advances hs fun j => (hsettled j).congr hsame.entries
  · rename_i i hsome
    obtain ⟨hindex, hslotid⟩ := tcpGetSocket_eq_some hsome
    obtain ⟨w₁, hopen, h⟩ := Option.bind_eq_some_iff.mp h
    -- so far the slot has a new owner
    have hw₁ : w₁.setsize = s.world.setsize ∧
        w₁.sockets = (s.world.modify i fun s => { s with fromId := fromId }).sockets := by
      split at hopen
      · cases hopen
        exact ⟨rfl, rfl⟩
      · obtain ⟨-, -, rfl⟩ := openFd_eq_some hopen
        exact ⟨rfl, rfl⟩
    have howner : ∀ {w : World}, w.setsize = w₁.setsize → w.sockets = w₁.sockets → ∀ e : Ending,
        e.slot = i → e.id = id → e.fromId = fromId →
        (∃ err, e.tells = [.connectFail fromId err]) →
        s.Advances { s with world := w } (.recover e id) := by
      intro w hsize hsock e hslot hid hfrom htells
      obtain ⟨err, htells⟩ := htells
      have hsockets := hsock.trans hw₁.2
      have hself : w.sockets i = { s.slot i with fromId := fromId } := by
        rw [hsockets]
        exact World.modify_self ..
      have hothers : ∀ j, j ≠ i → ({ s with world := w } : Table).entry j = s.entry j :=
        fun j hj => Table.entry_congr (Table.slot_of_ne hsockets hj) rfl rfl rfl
      have hentry : ({ s with world := w } : Table).entry i =
          { s.entry i with state := (s.entry i).state, fromId := fromId } := by
        show (⟨(w.sockets i).type, (w.sockets i).state, (w.sockets i).id, (w.sockets i).fromId,
          s.conn i, s.taken i, s.holders i⟩ : Entry) = _
        rw [hself]
        rfl
      have hsame : getIndex w = getIndex s.world := getIndex_congr (hsize.trans hw₁.1)
      have hok : ({ s with world := w } : Table).Ok :=
        hs.of_owner i hothers hentry (fun hne => hne) rfl hsame
      have hsettled' := Table.settled_of_owner hsettled hothers hentry fun hne => hne
      refine ⟨hok, Table.freeing_connectFail hok hsettled' ?_ hid hfrom htells, rfl, hsame⟩
      unfold tcpGetSocket
      show (if (w.sockets (getIndex w id)).id = id then some (getIndex w id) else none) = _
      rw [hsame, hindex, if_pos (by rw [hself]; exact hslotid), hslot]
    simp only [pure] at h
    split at h
    · cases h
      exact howner rfl rfl _ rfl rfl rfl ⟨_, rfl⟩
    · have hconnect := aeCreateFileEvent_cases w₁ (w₁.sockets i).fd .writable .onConnecting i
        k.registered
      unfold socketConnect at h
      rcases hconnect with heq | heq
      · rw [heq] at h
        cases h
        exact howner rfl rfl _ rfl rfl rfl ⟨_, rfl⟩
      · rw [heq] at h
        cases h
        let f : Socket → Socket := fun s => { s with
          state := .kSocketConnecting, fd := k.fd, type := .kConnectType, protoType := protoType }
        let w₂ := w₁.registered (w₁.sockets i).fd .writable .onConnecting i
        have hsockets : (w₂.modify i f).sockets =
            (s.world.modify i (f ∘ fun s => { s with fromId := fromId })).sockets := by
          rw [← World.modify_modify]
          show Function.update w₁.sockets i _ = Function.update _ i _
          rw [← hw₁.2]
          rfl
        have hself : (w₂.modify i f).sockets i = f { s.slot i with fromId := fromId } := by
          rw [hsockets]
          exact World.modify_self ..
        have huntaken := htaken i hsome
        have hput : s.Puts (s.connect i id (w₂.modify i f)) i id := by
          refine ⟨fun j hj => ?_, ?_, ?_, hindex, ?_, ?_, Function.update_self .., huntaken, ?_, rfl,
            rfl, getIndex_congr hw₁.1⟩
          · exact Table.entry_congr (Table.slot_of_ne hsockets hj) (Function.update_of_ne hj ..) rfl
              rfl
          · show ((w₂.modify i f).sockets i).type ≠ _ ∧ ((w₂.modify i f).sockets i).type ≠ _
            rw [hself]
            exact ⟨by rintro ⟨⟩, by rintro ⟨⟩⟩
          · show ((w₂.modify i f).sockets i).state = _
            rw [hself]
          · rw [← hslotid]
            exact (hs.entries i).natural
          · show ((w₂.modify i f).sockets i).id = _
            rw [hself]
            exact hslotid
          · rw [← hslotid]
            exact (hs.entries i).held huntaken
        exact hput.advances hs hsettled

-- ============================================================================
-- Steps of the event loop
-- ============================================================================

/-- The slot a request finds for the id it reserved is not one that a worker has
    taken for another id. -/
def Table.Vacant (s : Table) : Prop :=
  ∀ id ∈ (s.world.em.head?.bind TcpRequest.claim), ∀ i ∈ tcpGetSocket s.world id, s.taken i = none

theorem Table.handle_advances {req : TcpRequest} (hs : s.Ok) (hsettled : ∀ j, s.Settled j)
    (hvacant : ∀ id, req.claim = some id → ∀ i, tcpGetSocket s.world id = some i →
      s.taken i = none)
    (h : s.handle k req = some (s', pc')) : s.Advances s' pc' := by
  cases req with
  | listen fromId id protoType addr port =>
      obtain ⟨w, hw, heq⟩ := Option.map_eq_some_iff.mp h
      cases heq
      exact (handleTcpSocketListen_placing hw).advances hs hsettled (hvacant id rfl)
  | start fromId id => exact Table.start_advances hs hsettled h
  | connect fromId id protoType addr port =>
      obtain ⟨w, hw, heq⟩ := Option.map_eq_some_iff.mp h
      cases heq
      exact (handleTcpSocketConnect_placing hw).advances hs hsettled (hvacant id rfl)
  | asyncConnect fromId id protoType addr port =>
      exact Table.asyncConnect_advances hs hsettled (hvacant id rfl) h
  | close fromId id =>
      simp only [Table.handle] at h
      split at h
      · cases h
        have hsame := s.tcpError_same fromId id
          ("close sockfd (" ++ toString id ++ ") fail, id not found")
        exact hsame.advances hs fun j => (hsettled j).congr hsame.entries
      · rename_i i hsome
        cases h
        obtain ⟨hindex, hslotid⟩ := tcpGetSocket_eq_some hsome
        refine s.same_refl.advances hs (Table.forceClose_reaches hs hsettled ?_)
        rw [show (s.slot i).id = id from hslotid]
        exact hindex
  | send fromId ids data =>
      cases data with
      | none =>
          cases h
          exact s.same_refl.advances hs hsettled
      | some data =>
          cases h
          exact s.same_refl.advances hs hsettled
  | stop =>
      cases h
      exact s.same_refl.advances hs hsettled

/-- A notice is told that is right. -/
theorem Table.tell_ok {e : Ending} {t : Tell} (hs : s.Ok)
    (ht : t.Right e (s.entry e.slot).fromId (s.entry e.slot).id) :
    (s.tell e t).Ok ∧ ∀ j, (s.tell e t).entry j = s.entry j := by
  refine ⟨⟨hs.entries, fun u hu => ?_⟩, fun _ => rfl⟩
  rcases List.mem_append.mp hu with hu | hu
  · exact hs.told u hu
  · rw [List.mem_singleton.mp hu]
    exact ht.told

/-- A connect has come through: the slot goes on connecting. -/
theorem Table.connecting_advances (hs : s.Ok) (hsettled : ∀ j, s.Settled j)
    (hbusy : (s.entry i).state ≠ .kSocketDisconnected)
    (hsockets : w.sockets =
      (s.world.modify i fun s => { s with state := .kSocketConnecting }).sockets)
    (hindex : getIndex w = getIndex s.world) : s.Advances { s with world := w } .idle := by
  have hothers : ∀ j, j ≠ i → ({ s with world := w } : Table).entry j = s.entry j := fun j hj =>
    Table.entry_congr (Table.slot_of_ne hsockets hj) rfl rfl rfl
  have hself : w.sockets i = { s.slot i with state := .kSocketConnecting } := by
    rw [hsockets]
    exact World.modify_self ..
  have hentry : ({ s with world := w } : Table).entry i =
      { s.entry i with state := .kSocketConnecting, fromId := (s.entry i).fromId } := by
    show (⟨(w.sockets i).type, (w.sockets i).state, (w.sockets i).id, (w.sockets i).fromId,
      s.conn i, s.taken i, s.holders i⟩ : Entry) = _
    rw [hself]
    rfl
  exact ⟨hs.of_owner i hothers hentry (fun _ => hbusy) rfl hindex,
    Table.settled_of_owner hsettled hothers hentry fun _ => by decide, rfl, hindex⟩

theorem Table.callback_advances {choice : Choice} (hs : s.Ok) (hsettled : ∀ j, s.Settled j)
    (hvacant : (∃ k, choice = .handle k) → s.Vacant)
    (h : s.callback choice = some (s', pc')) : s.Advances s' pc' := by
  have hend : ∀ i tells, (s.slot i).state = .kSocketConnected → (∀ t ∈ tells, t.own = true) →
      s.Advances s (.deleteReadable (s.ending i tells)) := fun i tells hstate htells =>
    s.same_refl.advances hs
      (Table.closing_ending hs hsettled (Table.state_ne hstate (by decide)) tells htells)
  unfold Table.callback at h
  split at h
  case h_1 i =>
    split at h
    · rename_i hstate
      cases h
      exact hend i _ hstate close_own
    · cases h
  case h_2 i errno =>
    split at h
    · rename_i hstate
      cases h
      exact hend i _ hstate (errorTells_own errno)
    · cases h
  case h_3 i errno =>
    split at h
    · rename_i hstate
      cases h
      exact hend i _ hstate (errorTells_own errno)
    · cases h
  case h_4 i =>
    split at h
    · rename_i hstate
      cases h
      have hbusy : (s.entry i).state ≠ .kSocketDisconnected := Table.state_ne hstate (by decide)
      have hused := (hs.entries i).used ((hs.entries i).busy hbusy)
      exact s.same_refl.advances hs (Table.forceClose_reaches hs hsettled hused.1)
    · cases h
  case h_5 i k =>
    split at h
    · cases h
    · rename_i hbusy
      let v : Table := { s with world := aeDeleteFileEvent s.world (s.slot i).fd .writable }
      have hsame : s.Same v := s.same_world (aeDeleteFileEvent_sockets ..)
        (aeDeleteFileEvent_setsize ..)
      split at h
      · cases h
        have hsockets : (v.world.modify i fun s => { s with state := .kSocketConnecting }).sockets =
            (s.world.modify i fun s => { s with state := .kSocketConnecting }).sockets := by
          unfold World.modify
          rw [show v.world.sockets = s.world.sockets from aeDeleteFileEvent_sockets ..]
        exact Table.connecting_advances hs hsettled hbusy hsockets hsame.index
      · cases h
        have hclosing : s.Closing (s.ending i []) :=
          Table.closing_ending hs hsettled hbusy [] (by rintro _ ⟨⟩)
        have hconn := (hs.entries i).used ((hs.entries i).busy hbusy)
        have htell : Tell.Right (s.ending i []) (v.entry i).fromId (v.entry i).id
            (.error "socket connect fail") := by
          rw [hsame.entries i]
          exact ⟨hconn.2.symm, rfl⟩
        obtain ⟨hok, hentries⟩ := Table.tell_ok (hs.of_same hsame) htell
        exact ⟨hok, hclosing.congr fun j => (hentries j).trans (hsame.entries j), rfl, hsame.index⟩
  case h_6 i k =>
    obtain ⟨w, hw, heq⟩ := Option.map_eq_some_iff.mp h
    cases heq
    exact Table.accepted_advances hs hsettled hw
  case h_7 k =>
    split at h
    · cases h
    · rename_i req rest hem
      have hsame : s.Same { s with world := { s.world with em := rest } } := s.same_world rfl rfl
      refine .of_same hsame (Table.handle_advances (hs.of_same hsame)
        (fun j => (hsettled j).congr hsame.entries) (fun id hclaim i hget => ?_) h)
      refine hvacant ⟨k, rfl⟩ id ?_ i hget
      rw [hem]
      exact hclaim
  case h_8 => cases h

/-- The slot is disconnected: it still has its id and its owner. -/
theorem Table.disconnect_advances {e : Ending} (hs : s.Ok) (hc : s.Closing e) :
    s.Advances { s with
      world := s.world.modify e.slot fun s => { s with state := .kSocketDisconnected } }
      (.readId e) := by
  let v : Table := { s with
    world := s.world.modify e.slot fun s => { s with state := .kSocketDisconnected } }
  have hothers : ∀ j, j ≠ e.slot → v.entry j = s.entry j := fun j hj =>
    Table.entry_congr (Table.slot_of_ne rfl hj) rfl rfl rfl
  have hself : v.world.sockets e.slot = { s.slot e.slot with state := .kSocketDisconnected } :=
    s.world.modify_self e.slot fun s => { s with state := .kSocketDisconnected }
  have hentry : v.entry e.slot = { s.entry e.slot with
      state := .kSocketDisconnected, fromId := (s.entry e.slot).fromId } := by
    unfold Table.entry
    rw [show v.slot e.slot = _ from hself]
  have hused := (hs.entries e.slot).busy hc.busy
  refine ⟨hs.of_owner e.slot hothers hentry (fun hne => absurd rfl hne) rfl rfl,
    ⟨fun j hj => ?_, ?_, fun _ => ?_, ?_⟩, rfl, rfl⟩
  · show v.Settled j
    unfold Table.Settled
    rw [hothers j hj]
    exact hc.settled j
  · show getIndex s.world (v.entry e.slot).id = _
    rw [hentry]
    exact ((hs.entries e.slot).used hused).1
  · show (v.entry e.slot).InUse
    rw [hentry]
    exact hused
  · show v.Ready e e.tells
    unfold Table.Ready
    rw [hentry]
    exact hc.ready

/-- A slot is freed that has the id it is freed by, and that no worker has taken. -/
theorem Table.release_advances {e : Ending} {id : Int} (hs : s.Ok) (hf : s.Freeing e id)
    (hidle : (s.entry e.slot).state = .kSocketDisconnected)
    (hid : (s.slot (getIndex s.world id)).id = id)
    (htaken : s.taken (getIndex s.world id) = none) :
    s.Advances (s.freed id
      (s.world.modify (getIndex s.world id) fun s => { s with type := .kSocketNoneType }))
      (.notify e e.tells) := by
  rw [hf.index] at hid htaken ⊢
  have hfreed : s.freed id (s.world.modify e.slot fun s => { s with type := .kSocketNoneType }) =
      { s with
        world := s.world.modify e.slot fun s => { s with type := .kSocketNoneType }
        holders := Function.update s.holders e.slot ((s.holders e.slot).erase id) } := by
    unfold Table.freed
    rw [hf.index]
  rw [hfreed]
  let v : Table := { s with
    world := s.world.modify e.slot fun s => { s with type := .kSocketNoneType }
    holders := Function.update s.holders e.slot ((s.holders e.slot).erase id) }
  have hothers : ∀ j, j ≠ e.slot → v.entry j = s.entry j := fun j hj =>
    Table.entry_congr (Table.slot_of_ne rfl hj) rfl rfl (Function.update_of_ne hj ..)
  -- whoever held the slot held it by this id
  have hnil : (s.holders e.slot).erase id = [] := by
    rcases (hs.entries e.slot).held htaken with hnone | hone
    · rw [show s.holders e.slot = [] from hnone]
      rfl
    · rw [show s.holders e.slot = [(s.slot e.slot).id] from hone, hid]
      exact List.erase_cons_head ..
  have hself : v.slot e.slot = { s.slot e.slot with type := .kSocketNoneType } :=
    s.world.modify_self e.slot fun s => { s with type := .kSocketNoneType }
  have hentry : v.entry e.slot = { s.entry e.slot with type := .kSocketNoneType, holders := [] } := by
    unfold Table.entry
    rw [hself, show v.holders e.slot = [] from (Function.update_self ..).trans hnil]
  have hfree : ¬ (v.entry e.slot).InUse := by
    rw [hentry]
    exact fun hused => hused.1 rfl
  refine ⟨hs.of_entry e.slot hothers ?_ rfl rfl, ⟨fun j => ?_, fun t ht => ?_⟩, rfl, rfl⟩
  · show (v.entry e.slot).Ok _ _
    have hok := hs.entries e.slot
    rw [hentry]
    refine ⟨hok.natural, fun hused => absurd rfl hused.1, fun hne => absurd hidle hne, fun id' ht => ?_,
      fun _ => rfl, fun _ => Or.inl rfl⟩
    exact absurd (htaken.symm.trans ht) (by rintro ⟨⟩)
  · show v.Settled j
    by_cases hj : j = e.slot
    · subst hj
      exact fun hused => absurd hused hfree
    · unfold Table.Settled
      rw [hothers j hj]
      exact hf.settled j hj
  · show t.Right e (v.entry e.slot).fromId (v.entry e.slot).id
    rw [hentry, show (s.entry e.slot).id = id from hid]
    exact hf.ready t ht

theorem loopStep_advances {choice : Choice} (hs : s.Ok) (hpc : s.AtLoop pc)
    (hvacant : pc = .idle → (∃ k, choice = .handle k) → s.Vacant)
    (hrelease : ∀ e id, pc = .release e id → (s.slot (getIndex s.world id)).id = id ∧
      s.taken (getIndex s.world id) = none)
    (h : loopStep s pc choice = some (s', pc')) : s.Advances s' pc' := by
  unfold loopStep at h
  split at h
  case h_1 => exact Table.callback_advances hs hpc (hvacant rfl) h
  case h_2 fromId =>
    cases h
    exact s.same_refl.advances hs hpc
  case h_3 fromId id ids broken =>
    split at h
    · cases h
      have hsame := s.tcpError_same fromId id
        ("send sockfd (" ++ toString id ++ ") fail, id not found")
      exact hsame.advances hs fun j => (hpc j).congr hsame.entries
    · split at h
      · cases h
        exact s.same_refl.advances hs hpc
      · split at h
        · rename_i i hsome _ errno hstate
          cases h
          refine s.same_refl.advances hs ?_
          exact Table.closing_own hs hpc (e := { s.ending i (errorTells errno) with
            rest := some (fromId, ids) }) (Table.state_ne hstate (by decide)) rfl rfl
            (errorTells_own errno)
        · cases h
          exact s.same_refl.advances hs hpc
  case h_4 e =>
    cases h
    have hsame : s.Same { s with
        world := aeDeleteFileEvent s.world (s.slot e.slot).fd .readable } :=
      s.same_world (aeDeleteFileEvent_sockets ..) (aeDeleteFileEvent_setsize ..)
    exact hsame.advances hs (hpc.congr hsame.entries)
  case h_5 e =>
    cases h
    have hsame : s.Same { s with
        world := aeDeleteFileEvent s.world (s.slot e.slot).fd .writable } :=
      s.same_world (aeDeleteFileEvent_sockets ..) (aeDeleteFileEvent_setsize ..)
    exact hsame.advances hs (hpc.congr hsame.entries)
  case h_6 e =>
    cases h
    have hsame : s.Same { s with world := s.world.closeFd (s.slot e.slot).id (s.slot e.slot).fd } :=
      s.same_world (World.closeFd_sockets ..) (World.closeFd_setsize ..)
    exact hsame.advances hs (hpc.congr hsame.entries)
  case h_7 e =>
    cases h
    have hsame : s.Same { s with
        world := if 0 < (s.slot e.slot).fd then
          s.world.closeFd (s.slot e.slot).id (s.slot e.slot).fd else s.world } := by
      split
      · exact s.same_world (World.closeFd_sockets ..) (World.closeFd_setsize ..)
      · exact s.same_refl
    exact hsame.advances hs (hpc.congr hsame.entries)
  case h_8 e =>
    cases h
    exact Table.disconnect_advances hs hpc
  case h_9 e =>
    cases h
    exact s.same_refl.advances hs
      ⟨hpc.settled, (hs.entries e.slot).natural, hpc.index, hpc.ready⟩
  case h_10 e id =>
    split at h
    · rename_i hneg
      exact absurd hpc.natural (not_le.mpr hneg)
    · split at h
      · rename_i hidle
        cases h
        rw [hpc.index] at hidle
        exact s.same_refl.advances hs ⟨hpc, hidle⟩
      · cases h
  case h_11 e id =>
    cases h
    obtain ⟨hid, htaken⟩ := hrelease e id rfl
    exact Table.release_advances hs hpc.1 hpc.2 hid htaken
  case h_12 e =>
    cases h
    refine s.same_refl.advances hs ?_
    split
    · exact hpc.1
    · exact hpc.1
  case h_13 e t ts =>
    cases h
    obtain ⟨hok, hentries⟩ := Table.tell_ok hs (hpc.2 t List.mem_cons_self)
    refine ⟨hok, ⟨fun j => (hpc.1 j).congr hentries, ?_⟩, rfl, rfl⟩
    exact fun u hu => hpc.2 u (List.mem_cons_of_mem t hu)
  case h_14 => cases h

end Loop

end ZServer.Tcp
