/-
  ZServer.Tcp.Agreement

  Descriptors and slots agree: what is registered with a slot is registered for
  the descriptor of that slot, and an open descriptor belongs to one slot.

  `agree_iff` says which requests keep this up.  An asynchronous connect that
  gets a descriptor never does: the event is created before `socket->fd` is set.
-/

import ZServer.Lib.Transition
import ZServer.Tcp.Moves

namespace ZServer.Tcp

open Lib

-- ============================================================================
-- The invariant
-- ============================================================================

/-- Slot `i` is not free and has the descriptor `fd`. -/
def World.Holds (w : World) (i : Nat) (fd : Int) : Prop :=
  (w.sockets i).type ≠ .kSocketNoneType ∧ (w.sockets i).fd = fd

structure World.Agree (w : World) : Prop where
  registered : ∀ fd, (w.events fd).isNone = false →
    0 ≤ fd ∧ w.Holds (w.events fd).clientData fd
  owned : ∀ fd, w.isOpen fd = true → ∃! i, w.Holds i fd

theorem tcpInit_agree (setsize : Nat) (aeSetsize : Int) : (tcpInit setsize aeSetsize).Agree where
  registered := by rintro _ ⟨⟩
  owned := by rintro _ ⟨⟩

section

variable {w w' : World} {i j : Nat} {fd : Int}

theorem World.Holds.of_eq (h : w.Holds i fd) (heq : w'.sockets i = w.sockets i) :
    w'.Holds i fd := by
  unfold World.Holds
  rw [heq]
  exact h

theorem World.Ok.holds (h : w.Ok) (hs : (w.sockets i).state ≠ .kSocketDisconnected) :
    w.Holds i (w.sockets i).fd :=
  ⟨h.taken hs, rfl⟩

/-- A slot that is not in use has no descriptor. -/
theorem World.Ok.not_holds (h : w.Ok) (hs : (w.sockets i).state = .kSocketDisconnected)
    (hfd : 0 ≤ fd) : ¬ w.Holds i fd := by
  rintro ⟨ht, rfl⟩
  exact absurd hfd (not_le.mpr (h.idle i ht hs))

/-- Nobody has a descriptor that is not open. -/
theorem World.Ok.not_holds_closed (h : w.Ok) (hfd : 0 ≤ fd) (hclosed : w.isOpen fd = false) :
    ¬ w.Holds i fd := by
  intro hi
  have hs : (w.sockets i).state ≠ .kSocketDisconnected := fun hs => h.not_holds hs hfd hi
  have hopen := h.busy i hs
  rw [hi.2, hclosed] at hopen
  cases hopen

/-- The slot found for a registered event is in use. -/
theorem World.Agree.busy (ha : w.Agree) (h : w.Ok) (hfd : (w.events fd).isNone = false) :
    (w.sockets (w.events fd).clientData).state ≠ .kSocketDisconnected :=
  fun hs => h.not_holds hs (ha.registered fd hfd).1 (ha.registered fd hfd).2

theorem World.Agree.unique (ha : w.Agree) (hopen : w.isOpen fd = true) (hi : w.Holds i fd)
    (hj : w.Holds j fd) : i = j :=
  (ha.owned fd hopen).unique hi hj

end

-- ============================================================================
-- What keeps it
-- ============================================================================

section

variable {w w' : World}

theorem World.holds_modify (w : World) (i : Nat) {f : Socket → Socket}
    (hf : ∀ s, (f s).type = s.type ∧ (f s).fd = s.fd) (j : Nat) (fd : Int) :
    (w.modify i f).Holds j fd ↔ w.Holds j fd := by
  unfold World.Holds
  by_cases hj : j = i
  · subst hj
    rw [World.modify_self, (hf _).1, (hf _).2]
  · rw [World.modify_of_ne w hj]

theorem World.Agree.of_holds (ha : w.Agree) (hholds : ∀ i fd, w'.Holds i fd ↔ w.Holds i fd)
    (hopen : w'.isOpen = w.isOpen) (hevents : w'.events = w.events) : w'.Agree := by
  constructor
  · intro fd
    rw [hevents, hholds]
    exact ha.registered fd
  · intro fd
    simp only [hopen, hholds]
    exact ha.owned fd

/-- One slot changes; it holds nothing before and after. -/
theorem World.Agree.modify (ha : w.Agree) (i : Nat) (f : Socket → Socket)
    (hbefore : ∀ fd, 0 ≤ fd → ¬ w.Holds i fd) (hafter : ∀ fd, 0 ≤ fd → ¬ (w.modify i f).Holds i fd)
    (hnonneg : ∀ fd, w.isOpen fd = true → 0 ≤ fd) : (w.modify i f).Agree := by
  have hholds : ∀ fd, 0 ≤ fd → ∀ j, (w.modify i f).Holds j fd ↔ w.Holds j fd := by
    intro fd hfd j
    by_cases hj : j = i
    · subst hj
      exact iff_of_false (hafter fd hfd) (hbefore fd hfd)
    · unfold World.Holds
      rw [World.modify_of_ne w hj]
  constructor
  · intro fd hfd
    obtain ⟨hpos, hheld⟩ := ha.registered fd hfd
    exact ⟨hpos, (hholds fd hpos _).mpr hheld⟩
  · intro fd hopen
    simp only [hholds fd (hnonneg fd hopen)]
    exact ha.owned fd hopen

/-- A new descriptor, and the slot that gets it. -/
theorem World.Agree.establish (ha : w.Agree) (h : w.Ok) (i : Nat) (s : Socket) (hfd : 0 ≤ s.fd)
    (hclosed : w.isOpen s.fd = false) (hidle : (w.sockets i).state = .kSocketDisconnected)
    (htype : s.type ≠ .kSocketNoneType) : ((w.opened s.fd).modify i fun _ => s).Agree := by
  have hself : ((w.opened s.fd).modify i fun _ => s).Holds i s.fd := by
    unfold World.Holds
    rw [World.modify_self]
    exact ⟨htype, rfl⟩
  have hother : ∀ j, j ≠ i → ∀ fd, ((w.opened s.fd).modify i fun _ => s).Holds j fd ↔
      w.Holds j fd := by
    intro j hj fd
    unfold World.Holds
    rw [World.modify_of_ne _ hj]
    exact Iff.rfl
  have hnew : ∀ fd, ((w.opened s.fd).modify i fun _ => s).Holds i fd → fd = s.fd := by
    rintro fd ⟨-, hi⟩
    rw [World.modify_self] at hi
    exact hi.symm
  constructor
  · intro fd hfd'
    obtain ⟨hpos, hheld⟩ := ha.registered fd hfd'
    refine ⟨hpos, (hother _ ?_ fd).mpr hheld⟩
    intro heq
    exact ha.busy h hfd' (heq ▸ hidle)
  · intro fd hopen
    by_cases heq : fd = s.fd
    · subst heq
      refine ⟨i, hself, fun j hj => ?_⟩
      by_contra hji
      exact h.not_holds_closed hfd hclosed ((hother j hji _).mp hj)
    · have hopen' : w.isOpen fd = true := by
        have hupdate : Function.update w.isOpen s.fd true fd = true := hopen
        rwa [Function.update_of_ne heq] at hupdate
      obtain ⟨j, hj, huniq⟩ := ha.owned fd hopen'
      have hji : j ≠ i := by
        rintro rfl
        exact h.not_holds hidle (h.nonneg fd hopen') hj
      refine ⟨j, (hother j hji fd).mpr hj, fun k hk => ?_⟩
      by_cases hki : k = i
      · subst hki
        exact absurd (hnew fd hk) heq
      · exact huniq k ((hother k hki fd).mp hk)

/-- An event is registered for the descriptor of a slot in use. -/
theorem World.Agree.registered' (ha : w.Agree) (h : w.Ok) {fd : Int} {mask : AeMask}
    {proc : FileProc} {i : Nat} (hopen : w.isOpen fd = true) (hi : w.Holds i fd) :
    (w.registered fd mask proc i).Agree := by
  constructor
  · intro fd' hfd'
    by_cases heq : fd' = fd
    · subst heq
      refine ⟨h.nonneg fd' hopen, ?_⟩
      have hclient : ((w.registered fd' mask proc i).events fd').clientData = i := by
        rw [show (w.registered fd' mask proc i).events fd' = (w.events fd').add mask proc i from
          Function.update_self ..]
        cases mask <;> rfl
      rw [hclient]
      exact hi
    · have hevent : (w.registered fd mask proc i).events fd' = w.events fd' :=
        Function.update_of_ne heq ..
      rw [hevent] at hfd' ⊢
      exact ha.registered fd' hfd'
  · exact ha.owned

theorem World.Agree.deleteFileEvent (ha : w.Agree) (h : w.Ok) (fd : Int) (mask : AeMask) :
    (aeDeleteFileEvent w fd mask).Agree := by
  have hholds : ∀ i fd', (aeDeleteFileEvent w fd mask).Holds i fd' ↔ w.Holds i fd' := by
    intro i fd'
    unfold World.Holds
    rw [aeDeleteFileEvent_sockets]
  constructor
  · intro fd' hfd'
    rw [hholds]
    rw [aeDeleteFileEvent_events w fd mask (h.range fd), Function.update_apply] at hfd' ⊢
    split at hfd'
    · rename_i heq
      subst heq
      rw [if_pos rfl]
      -- what is still registered was registered before
      have hfd'' : (w.events fd').isNone = false := by
        rw [Bool.eq_false_iff]
        intro hnone
        rw [AeFileEvent.remove_of_isNone hnone, hnone] at hfd'
        cases hfd'
      have hclient : ((w.events fd').remove mask).clientData = (w.events fd').clientData := by
        cases mask <;> rfl
      rw [hclient]
      exact ha.registered fd' hfd''
    · rename_i hne
      rw [if_neg hne]
      exact ha.registered fd' hfd'
  · intro fd'
    simp only [hholds, aeDeleteFileEvent_isOpen]
    exact ha.owned fd'

/-- A descriptor is closed for which nothing is registered, and its slot is freed. -/
theorem World.Agree.freed_closeFd (ha : w.Agree) {i : Nat}
    (hnone : (w.events (w.sockets i).fd).isNone = true) :
    ((w.closeFd (w.sockets i).id (w.sockets i).fd).modify i Socket.freed).Agree := by
  have hother : ∀ j, j ≠ i → ∀ fd,
      ((w.closeFd (w.sockets i).id (w.sockets i).fd).modify i Socket.freed).Holds j fd ↔
        w.Holds j fd := by
    intro j hj fd
    unfold World.Holds
    rw [World.modify_of_ne _ hj, World.closeFd_sockets]
  have hself : ∀ fd,
      ¬ ((w.closeFd (w.sockets i).id (w.sockets i).fd).modify i Socket.freed).Holds i fd := by
    rintro fd ⟨ht, -⟩
    rw [World.modify_self] at ht
    exact ht rfl
  constructor
  · intro fd hfd
    have hevents : ((w.closeFd (w.sockets i).id (w.sockets i).fd).modify i Socket.freed).events =
        w.events := rfl
    rw [hevents] at hfd ⊢
    obtain ⟨hpos, hheld⟩ := ha.registered fd hfd
    refine ⟨hpos, (hother _ ?_ fd).mpr hheld⟩
    intro heq
    rw [heq] at hheld
    rw [← hheld.2, hnone] at hfd
    cases hfd
  · intro fd hopen
    have hopen' : (w.closeFd (w.sockets i).id (w.sockets i).fd).isOpen fd = true := hopen
    rw [World.closeFd_isOpen, Function.update_apply] at hopen'
    split at hopen'
    · cases hopen'
    · rename_i hne
      obtain ⟨j, hj, huniq⟩ := ha.owned fd hopen'
      have hji : j ≠ i := by
        rintro rfl
        exact hne hj.2.symm
      refine ⟨j, (hother j hji fd).mpr hj, fun k hk => ?_⟩
      by_cases hki : k = i
      · subst hki
        exact absurd hk (hself fd)
      · exact huniq k ((hother k hki fd).mp hk)

theorem World.Agree.move {opens unrecycled : Prop} (ha : w.Agree) (h : w.Ok)
    (hm : Move opens True unrecycled w w') : w'.Agree := by
  cases hm with
  | note e he => exact ha.of_holds (fun _ _ => Iff.rfl) rfl rfl
  | data i body hs => exact ha.of_holds (fun _ _ => Iff.rfl) rfl rfl
  | reserve hreserve =>
      obtain ⟨a, d, rfl, hfree, -, -, -⟩ := tcpGetReserveId_reserved hreserve
      have hcount : ({ w with allocId := a, drawn := d } : World).Agree :=
        ha.of_holds (fun _ _ => Iff.rfl) rfl rfl
      refine hcount.modify _ _ (fun fd _ hi => hi.1 hfree) (fun fd hfd hi => ?_) h.nonneg
      have hfd' := hi.2
      rw [World.modify_self] at hfd'
      rw [← hfd'] at hfd
      exact absurd hfd (by rintro ⟨⟩)
  | free i hs =>
      refine ha.modify i _ (fun fd hfd => h.not_holds hs hfd) (fun fd _ hi => ?_) h.nonneg
      have ht := hi.1
      rw [World.modify_self] at ht
      exact ht rfl
  | own i fromId hs => exact ha.of_holds (w.holds_modify i fun _ => ⟨rfl, rfl⟩) rfl rfl
  | buffers i f hbuf hf =>
      refine ha.of_holds (w.holds_modify i fun s => ?_) rfl rfl
      rw [hf]
      exact ⟨rfl, rfl⟩
  | leak hopen hb => exact absurd trivial hb
  | establish i s ho hopen hidle hindex hid hstate htype hclaim =>
      obtain ⟨hfd, hclosed, rfl⟩ := openFd_eq_some hopen
      exact ha.establish h i s hfd hclosed hidle htype.1
  | accept i hs hcreate =>
      obtain ⟨-, hopen, -, rfl⟩ := aeCreateFileEvent_eq hcreate
      exact ha.registered' h hopen (h.holds (by rw [hs]; decide))
  | start i ho hs hcreate =>
      obtain ⟨-, hopen, -, rfl⟩ := aeCreateFileEvent_eq hcreate
      have hreg : (w.registered (w.sockets i).fd .readable .onRead i).Agree :=
        ha.registered' h hopen (h.holds (by rw [hs]; decide))
      exact hreg.of_holds (w.holds_modify i (f := fun s => { s with state := .kSocketConnected })
        fun _ => ⟨rfl, rfl⟩) rfl rfl
  | write i hs hcreate =>
      obtain ⟨-, hopen, -, rfl⟩ := aeCreateFileEvent_eq hcreate
      exact ha.registered' h hopen (h.holds (by rw [hs]; decide))
  | unwrite fd => exact ha.deleteFileEvent h fd .writable
  | close i hs =>
      have ha' : (w.unregister (w.sockets i).fd).Agree :=
        (ha.deleteFileEvent h _ .readable).deleteFileEvent (h.deleteFileEvent _ .readable) _
          .writable
      have hclosed := ha'.freed_closeFd (i := i) (by rw [World.unregister_sockets]; exact unregister_isNone (h.range _))
      rw [World.unregister_sockets] at hclosed
      exact hclosed.of_holds (fun _ _ => Iff.rfl) rfl rfl
  | stop i hs hb =>
      obtain ⟨hpos, hnone⟩ := hb trivial
      unfold World.stopSlot
      rw [if_pos hpos]
      exact ha.freed_closeFd hnone

theorem World.Agree.moves {opens unrecycled : Prop} (ha : w.Agree) (h : w.Ok)
    (hm : Moves opens True unrecycled w w') : w'.Agree := by
  induction hm with
  | refl => exact ha
  | tail hbefore hlast ih => exact ih.move (h.moves hbefore) hlast

theorem World.Agree.step_moves {opens unrecycled : Prop} (ha : w.Agree) (h : w.Ok)
    (hm : StepMoves opens True unrecycled w w') : w'.Agree := by
  cases hm with
  | moved hm => exact ha.moves h hm
  | posted req hreq => exact ha.of_holds (fun _ _ => Iff.rfl) rfl rfl
  | claimed req hreserve hreq =>
      have hm : Move opens True unrecycled w _ := .reserve hreserve
      exact (ha.move h hm).of_holds (fun _ _ => Iff.rfl) rfl rfl
  | handled req rest hem hm =>
      have ha' : World.Agree { w with em := rest } := ha.of_holds (fun _ _ => Iff.rfl) rfl rfl
      have h' : World.Ok { w with em := rest } :=
        h.of_same (fun _ => Socket.Same.refl _) rfl rfl rfl rfl
      exact ha'.moves h' hm

end

-- ============================================================================
-- What breaks it
-- ============================================================================

section

variable {w w' : World} {i : Nat} {fd : Int}

/-- An open descriptor that no other slot has is the descriptor of slot `i`. -/
theorem World.Agree.holds_of_others (ha : w'.Agree) (hopen : w'.isOpen fd = true)
    (hothers : ∀ j, j ≠ i → w'.sockets j = w.sockets j) (hnone : ∀ j, j ≠ i → ¬ w.Holds j fd) :
    w'.Holds i fd := by
  obtain ⟨j, hj, -⟩ := ha.owned fd hopen
  by_cases hji : j = i
  · rw [← hji]
    exact hj
  · exact absurd (hj.of_eq (hothers j hji).symm) (hnone j hji)

/-- A new descriptor that is still open is that of the slot that changed. -/
theorem World.Agree.holds_new (ha : w'.Agree) (h : w.Ok) (hfd : 0 ≤ fd)
    (hclosed : w.isOpen fd = false) (hopen : w'.isOpen fd = true)
    (hothers : ∀ j, j ≠ i → w'.sockets j = w.sockets j) : w'.Holds i fd :=
  ha.holds_of_others hopen hothers fun _ _ => h.not_holds_closed hfd hclosed

/-- A slot in use that keeps its descriptor open keeps the descriptor. -/
theorem World.Agree.holds_old (ha' : w'.Agree) (ha : w.Agree) (h : w.Ok)
    (hs : (w.sockets i).state ≠ .kSocketDisconnected)
    (hopen : w'.isOpen (w.sockets i).fd = true)
    (hothers : ∀ j, j ≠ i → w'.sockets j = w.sockets j) : w'.Holds i (w.sockets i).fd :=
  ha'.holds_of_others hopen hothers fun _ hj hheld =>
    hj (ha.unique (h.busy i hs) hheld (h.holds hs))

/-- A slot that is given a new descriptor had none. -/
theorem World.Agree.was_idle {f : Socket → Socket} (ha : w.Agree) (h : w.Ok)
    (hclosed : w.isOpen fd = false) (hf : ∀ s, (f s).fd = fd)
    (ha' : ((w.opened fd).modify i f).Agree) :
    (w.sockets i).state = .kSocketDisconnected := by
  by_contra hs
  have hold := h.busy i hs
  have hopen : ((w.opened fd).modify i f).isOpen (w.sockets i).fd = true := by
    show Function.update w.isOpen fd true (w.sockets i).fd = true
    rw [Function.update_apply, hold, ite_self]
  obtain ⟨-, hfd⟩ := ha'.holds_old ha h hs hopen fun j hj => World.modify_of_ne _ hj f
  rw [World.modify_self, hf] at hfd
  rw [← hfd, hclosed] at hold
  cases hold

theorem handleTcpSocketListen_agree {fromId id protoType : Int} {addr : String} {port : Int}
    {k : Kernel} (ha : w.Agree) (h : w.Ok)
    (hstep : handleTcpSocketListen w fromId id protoType addr port k = some w')
    (ha' : w'.Agree) : Vacant w k (.listen fromId id protoType addr port) ∧
      Tidy w k (.listen fromId id protoType addr port) := by
  unfold handleTcpSocketListen at hstep
  split at hstep
  · rename_i hfail
    exact ⟨fun i _ hfd => absurd hfail hfd, fun hfd => absurd hfail hfd⟩
  · obtain ⟨w₁, hopen, hstep⟩ := Option.bind_eq_some_iff.mp hstep
    obtain ⟨hpos, hclosed, rfl⟩ := openFd_eq_some hopen
    have hget : tcpGetSocket (w.opened k.fd) id = tcpGetSocket w id := rfl
    rw [hget] at hstep
    split at hstep
    · -- the descriptor belongs to nobody
      cases hstep
      have hheld := ha'.holds_new (i := 0) h hpos hclosed (Function.update_self ..)
        fun j _ => rfl
      exact absurd hheld (h.not_holds_closed hpos hclosed)
    · rename_i i hsome
      cases hstep
      refine ⟨fun j hj _ => ?_, fun _ => by rw [hsome]; rintro ⟨⟩⟩
      rw [hsome] at hj
      cases hj
      exact ha.was_idle h hclosed (fun _ => rfl) ha'

theorem handleTcpSocketConnect_agree {fromId id protoType : Int} {addr : String} {port : Int}
    {k : Kernel} (ha : w.Agree) (h : w.Ok)
    (hstep : handleTcpSocketConnect w fromId id protoType addr port k = some w')
    (ha' : w'.Agree) : Vacant w k (.connect fromId id protoType addr port) := by
  intro i hsome hfd
  unfold handleTcpSocketConnect at hstep
  rw [hsome] at hstep
  simp only [if_neg hfd] at hstep
  obtain ⟨w₁, hopen, hstep⟩ := Option.bind_eq_some_iff.mp hstep
  obtain ⟨-, hclosed, rfl⟩ := openFd_eq_some hopen
  cases hstep
  exact ha.was_idle h hclosed (fun _ => rfl) ha'

/-- A slot that is recovered does not have the new descriptor. -/
theorem World.Agree.not_recovered {w₂ : World} {id : Int} {f : Socket → Socket} (h : w.Ok)
    (hpos : 0 ≤ fd) (hclosed : w.isOpen fd = false) (hid : 0 ≤ id) (hindex : getIndex w id = i)
    (hrecover : tcpRecoverId ((w.opened fd).modify i f) id = some w₂) : ¬ w₂.Agree := by
  intro hagree
  have hindex' : getIndex ((w.opened fd).modify i f) id = i := hindex
  have hs := tcpRecoverId_state hid hrecover
  rw [hindex'] at hs
  rw [tcpRecoverId_eq hid hindex' hs, World.modify_modify] at hrecover
  cases hrecover
  obtain ⟨ht, -⟩ := hagree.holds_new (i := i) h hpos hclosed (Function.update_self ..)
    fun j hj => World.modify_of_ne _ hj _
  rw [World.modify_self] at ht
  exact ht rfl

/-- The descriptor of an asynchronous connect reaches no slot. -/
theorem handleTcpSocketAsyncConnect_agree {fromId id protoType : Int} {addr : String}
    {port : Int} {k : Kernel} (h : w.Ok)
    (hreserved : ∀ i, tcpGetSocket w id = some i → (w.sockets i).fd < 0)
    (hstep : handleTcpSocketAsyncConnect w fromId id protoType addr port k = some w')
    (ha' : w'.Agree) : k.fd ≠ -1 → tcpGetSocket w id = none := by
  intro hfd
  rw [Option.eq_none_iff_forall_ne_some]
  intro i hsome
  obtain ⟨hindex, hid⟩ := tcpGetSocket_eq_some hsome
  have hnat : 0 ≤ id := hid ▸ h.natural i
  unfold handleTcpSocketAsyncConnect at hstep
  rw [hsome] at hstep
  simp only [if_neg hfd] at hstep
  obtain ⟨w₁, hopen, hstep⟩ := Option.bind_eq_some_iff.mp hstep
  obtain ⟨hpos, hclosed, hw₁⟩ := openFd_eq_some hopen
  have heq : w₁ = (w.opened k.fd).modify i fun s => { s with fromId := fromId } := hw₁
  rw [heq] at hstep
  have hrecovered : ∀ w₂ dest text,
      tcpRecoverId ((w.opened k.fd).modify i fun s => { s with fromId := fromId }) id = some w₂ →
        ¬ (tcpError w₂ fromId dest text).Agree := by
    intro w₂ dest text hrecover hagree
    exact World.Agree.not_recovered h hpos hclosed hnat hindex hrecover
      (hagree.of_holds (fun _ _ => Iff.rfl) rfl rfl)
  split at hstep
  · obtain ⟨w₂, hrecover, hstep⟩ := Option.bind_eq_some_iff.mp hstep
    cases hstep
    exact hrecovered w₂ _ _ hrecover ha'
  · -- the event is created for the descriptor that the slot has had so far
    have hv : ((w.opened k.fd).modify i fun s => { s with fromId := fromId }).Ok :=
      (h.opened hpos).of_same (World.same_modify _ i fun _ => ⟨rfl, rfl, rfl, rfl⟩) rfl rfl rfl rfl
    have hfd' : (((w.opened k.fd).modify i fun s => { s with fromId := fromId }).sockets i).fd <
        0 := by
      rw [World.modify_self]
      exact hreserved i hsome
    rw [socketConnect, hv.refused hfd'] at hstep
    obtain ⟨w₂, hrecover, hstep⟩ := Option.bind_eq_some_iff.mp hstep
    cases hstep
    exact hrecovered w₂ _ _ hrecover ha'

/-- The slot an asynchronous connect finds is as its reservation left it. -/
def Reserves (w : World) (_ : Kernel) : TcpRequest → Prop
  | .asyncConnect _ id _ _ _ => ∀ i, tcpGetSocket w id = some i → (w.sockets i).fd < 0
  | _ => True

/-- A slot that is stopped had a descriptor to close and nothing registered. -/
theorem World.Agree.stopSlot (ha : w.Agree) (h : w.Ok)
    (hs : (w.sockets i).state ≠ .kSocketDisconnected) (ha' : (w.stopSlot i).Agree) :
    0 < (w.sockets i).fd ∧ (w.events (w.sockets i).fd).isNone = true := by
  have hheld := h.holds hs
  have hothers : ∀ j, j ≠ i → (w.stopSlot i).sockets j = w.sockets j := by
    intro j hj
    unfold World.stopSlot
    rw [World.modify_of_ne _ hj]
    split
    · rw [World.closeFd_sockets]
    · rfl
  have hfreed : ∀ fd, ¬ (w.stopSlot i).Holds i fd := by
    rintro fd ⟨ht, -⟩
    unfold World.stopSlot at ht
    rw [World.modify_self] at ht
    exact ht rfl
  constructor
  · by_contra hzero
    -- descriptor 0 is not closed
    refine hfreed _ (ha'.holds_old ha h hs ?_ hothers)
    unfold World.stopSlot
    rw [if_neg hzero]
    exact h.busy i hs
  · by_contra hsome
    -- the event still refers to the slot
    have hsome' : (w.events (w.sockets i).fd).isNone = false := Bool.eq_false_of_not_eq_true hsome
    have hevents : (w.stopSlot i).events = w.events := by
      unfold World.stopSlot
      split
      · rfl
      · rfl
    have hclient := ha.unique (h.busy i hs) (ha.registered _ hsome').2 hheld
    have hreg := (ha'.registered _ (by rw [hevents]; exact hsome')).2
    rw [hevents, hclient] at hreg
    exact hfreed _ hreg

theorem handleTcpSocketStart_agree {fromId id : Int} {k : Kernel} (ha : w.Agree) (h : w.Ok)
    (hstep : handleTcpSocketStart w fromId id k = some w') (ha' : w'.Agree) :
    Tidy w k (.start fromId id) := by
  intro i hsome hs hrefuse
  have hown : ((w.modify i fun s => { s with fromId := fromId }).sockets i).fd =
      (w.sockets i).fd := by
    rw [World.modify_self]
  have h₁ : (w.modify i fun s => { s with fromId := fromId }).Ok :=
    h.of_same (w.same_modify i fun _ => ⟨rfl, rfl, rfl, rfl⟩) rfl rfl rfl rfl
  rcases handleTcpSocketStart_cases h hsome hs hstep with hstart | ⟨-, rfl⟩
  · have hnot := startByType_started h₁ (by rw [World.modify_self]; exact hs) hstart
    rw [hown] at hnot
    exact absurd hrefuse hnot
  · have ha₁ : (w.modify i fun s => { s with fromId := fromId }).Agree :=
      ha.of_holds (w.holds_modify i fun _ => ⟨rfl, rfl⟩) rfl rfl
    have hstopped := ha₁.stopSlot h₁ (i := i) (by rw [World.modify_self]; rw [hs]; decide)
      (ha'.of_holds (fun _ _ => Iff.rfl) rfl rfl)
    rw [hown] at hstopped
    exact hstopped

theorem handleEvent_agree {k : Kernel} {req : TcpRequest} (ha : w.Agree) (h : w.Ok)
    (hreserved : Reserves w k req) (hstep : handleEvent w k req = some w') (ha' : w'.Agree) :
    Vacant w k req ∧ Tidy w k req := by
  cases req with
  | listen => exact handleTcpSocketListen_agree ha h hstep ha'
  | start => exact ⟨trivial, handleTcpSocketStart_agree ha h hstep ha'⟩
  | connect => exact ⟨handleTcpSocketConnect_agree ha h hstep ha', trivial⟩
  | asyncConnect =>
      have hnone := handleTcpSocketAsyncConnect_agree h hreserved hstep ha'
      refine ⟨fun i hsome hfd => ?_, hnone⟩
      rw [hnone hfd] at hsome
      cases hsome
  | close => exact ⟨trivial, trivial⟩
  | send => exact ⟨trivial, trivial⟩
  | stop => exact ⟨trivial, trivial⟩

end

-- ============================================================================
-- Runs
-- ============================================================================

/-- What every request has to meet. -/
def Fits (w : World) (k : Kernel) (req : TcpRequest) : Prop := Vacant w k req ∧ Tidy w k req

section

variable {w w' : World} {op : TcpOp}

theorem World.Ok.fits_step (h : w.Ok) (hstep : tcpStep w op = some w')
    (hfits : w.AtRequest Fits op) : StepMoves True True False w w' := by
  refine tcp_step_moves h ?_ (fun _ => ?_) False.elim False.elim hstep
  · cases op with
    | handle k => exact fun req rest hem => (hfits req rest hem).1
    | _ => trivial
  · cases op with
    | handle k => exact fun req rest hem => (hfits req rest hem).2
    | _ => trivial

theorem World.Agree.step (h : w.Ok ∧ w.Agree) (hstep : tcpStep w op = some w')
    (hfits : w.AtRequest Fits op) : w'.Ok ∧ w'.Agree :=
  have hm := h.1.fits_step hstep hfits
  ⟨h.1.step_moves hm, h.2.step_moves h.1 hm⟩

/-- A step that leaves them in agreement took a request that fits. -/
theorem World.Agree.fits (h : w.Ok ∧ w.Agree) (hstep : tcpStep w op = some w')
    (hreserved : w.AtRequest Reserves op) (ha' : w'.Agree) : w.AtRequest Fits op := by
  cases op with
  | handle k =>
      intro req rest hem
      simp only [tcpStep, hem] at hstep
      have ha : World.Agree { w with em := rest } := h.2.of_holds (fun _ _ => Iff.rfl) rfl rfl
      have hok : World.Ok { w with em := rest } :=
        h.1.of_same (fun _ => Socket.Same.refl _) rfl rfl rfl rfl
      exact handleEvent_agree ha hok (hreserved req rest hem) hstep ha'
  | _ => trivial

theorem fits_of_agree {ops : List TcpOp} (h : w.Ok ∧ w.Agree)
    (hreserved : AllSteps tcpStep (fun w op => w.AtRequest Reserves op) w ops)
    (hagree : Always tcpStep World.Agree w ops) :
    AllSteps tcpStep (fun w op => w.AtRequest Fits op) w ops := by
  induction ops generalizing w with
  | nil => trivial
  | cons op ops ih =>
      intro w' hstep
      have hrest := hagree.2 w' hstep
      have hfits := World.Agree.fits h hstep (hreserved w' hstep).1 hrest.head
      exact ⟨hfits, ih (World.Agree.step h hstep hfits) (hreserved w' hstep).2 hrest⟩

end

theorem tcpInit_ok_agree (setsize : Nat) (aeSetsize : Int) :
    (tcpInit setsize aeSetsize).Ok ∧ (tcpInit setsize aeSetsize).Agree :=
  ⟨tcpInit_ok setsize aeSetsize, tcpInit_agree setsize aeSetsize⟩

/-- Descriptors and slots agree throughout a run whose requests all fit; and the
    requests fit if they do, as long as an asynchronous connect finds its slot as
    it was reserved. -/
theorem agree_iff_fits (setsize : Nat) (aeSetsize : Int) (ops : List TcpOp) :
    (AllSteps tcpStep (fun w op => w.AtRequest Fits op) (tcpInit setsize aeSetsize) ops →
      Always tcpStep World.Agree (tcpInit setsize aeSetsize) ops) ∧
    (AllSteps tcpStep (fun w op => w.AtRequest Reserves op) (tcpInit setsize aeSetsize) ops →
      Always tcpStep World.Agree (tcpInit setsize aeSetsize) ops →
        AllSteps tcpStep (fun w op => w.AtRequest Fits op) (tcpInit setsize aeSetsize) ops) := by
  have hinit := tcpInit_ok_agree setsize aeSetsize
  constructor
  · exact always_of_allSteps (fun _ h => h.2) (fun _ _ _ h => World.Agree.step h) hinit
  · exact fits_of_agree hinit

/-- An asynchronous connect that is under way. -/
theorem asyncConnect_disagrees : ¬ Always tcpStep World.Agree (tcpInit 4 64)
    [.asyncConnect 1 1 "127.0.0.1" 80 false, .handle { fd := 7, errno := EINPROGRESS }] := by
  intro hagree
  have hlast := ((hagree.2 _ rfl).2 _ rfl).head
  obtain ⟨i, ⟨ht, hfd⟩, -⟩ := hlast.owned 7 rfl
  by_cases hi : i = 1
  · subst hi
    exact ht rfl
  · -- every other slot is as it was at first
    change (Function.update (Function.update (Function.update (fun _ => socketInit) 1 _) 1 _) 1 _ i
      : Socket).fd = 7 at hfd
    rw [Function.update_of_ne hi, Function.update_of_ne hi, Function.update_of_ne hi] at hfd
    cases hfd

end ZServer.Tcp
