/-
  ZServer.Tcp.Table

  The table, the file events and the kernel fit together: `World.Ok`.  A
  connected or connecting slot has an open descriptor of its own, and the
  callbacks that read and write belong to connected slots.

  Also here: what closing, stopping and reserving a slot leave, each as an
  equation, and what they and the primitives do to `World.Ok`.
-/

import ZServer.Tcp.Requests

namespace ZServer.Tcp

open Lib

-- ============================================================================
-- The invariant
-- ============================================================================

structure World.Ok (w : World) : Prop where
  natural : ∀ i, 0 ≤ (w.sockets i).id
  index : ∀ i, (w.sockets i).type ≠ .kSocketNoneType → getIndex w (w.sockets i).id = i
  free : ∀ i, (w.sockets i).type = .kSocketNoneType ∨ (w.sockets i).type = .kReserveType →
    (w.sockets i).state = .kSocketDisconnected
  idle : ∀ i, (w.sockets i).type ≠ .kSocketNoneType →
    (w.sockets i).state = .kSocketDisconnected → (w.sockets i).fd < 0
  busy : ∀ i, (w.sockets i).state ≠ .kSocketDisconnected → w.isOpen (w.sockets i).fd = true
  apart : ∀ i j, (w.sockets i).state ≠ .kSocketDisconnected →
    (w.sockets j).state ≠ .kSocketDisconnected → (w.sockets i).fd = (w.sockets j).fd → i = j
  nonneg : ∀ fd, w.isOpen fd = true → 0 ≤ fd
  range : ∀ fd, w.aeSetsize ≤ fd → (w.events fd).isNone = true
  reading : ∀ fd, (w.events fd).readable = true → (w.events fd).rfileProc = .onRead →
    (w.sockets (w.events fd).clientData).state = .kSocketConnected ∧
      (w.sockets (w.events fd).clientData).fd = fd
  accepting : ∀ fd, (w.events fd).readable = true →
    (w.events fd).rfileProc = .onRead ∨ (w.events fd).rfileProc = .onAccept
  writing : ∀ fd, (w.events fd).writable = true → (w.events fd).wfileProc = .onWrite ∧
    (w.sockets (w.events fd).clientData).state = .kSocketConnected ∧
      (w.sockets (w.events fd).clientData).fd = fd

theorem World.Ok.taken {w : World} (h : w.Ok) {i : Nat}
    (hs : (w.sockets i).state ≠ .kSocketDisconnected) :
    (w.sockets i).type ≠ .kSocketNoneType :=
  fun ht => hs (h.free i (Or.inl ht))

theorem World.Ok.index_of_state {w : World} (h : w.Ok) {i : Nat}
    (hs : (w.sockets i).state ≠ .kSocketDisconnected) :
    0 ≤ (w.sockets i).id ∧ getIndex w (w.sockets i).id = i :=
  ⟨h.natural i, h.index i (h.taken hs)⟩

theorem tcpInit_ok (setsize : Nat) (aeSetsize : Int) : (tcpInit setsize aeSetsize).Ok where
  natural := fun _ => le_refl 0
  index := fun _ ht => absurd rfl ht
  free := fun _ _ => rfl
  idle := fun _ ht => absurd rfl ht
  busy := fun _ hs => absurd rfl hs
  apart := fun _ _ hs => absurd rfl hs
  nonneg := by rintro _ ⟨⟩
  range := fun _ _ => rfl
  reading := by rintro _ ⟨⟩
  accepting := by rintro _ ⟨⟩
  writing := by rintro _ ⟨⟩

-- ============================================================================
-- Closing a slot
-- ============================================================================

def Socket.disconnected (s : Socket) : Socket := { s with state := .kSocketDisconnected }

def Socket.freed (s : Socket) : Socket :=
  { s with state := .kSocketDisconnected, type := .kSocketNoneType }

/-- Both events of a descriptor deleted. -/
def World.unregister (w : World) (fd : Int) : World :=
  aeDeleteFileEvent (aeDeleteFileEvent w fd .readable) fd .writable

/-- What `handleClose` leaves. -/
def World.closeSlot (w : World) (i : Nat) : World :=
  zSendx
    (((w.unregister (w.sockets i).fd).closeFd (w.sockets i).id (w.sockets i).fd).modify i Socket.freed)
    (w.sockets i).fromId 0 .close .null (w.sockets i).id

/-- What `socketStop` leaves. -/
def World.stopSlot (w : World) (i : Nat) : World :=
  (if 0 < (w.sockets i).fd then w.closeFd (w.sockets i).id (w.sockets i).fd else w).modify i
    Socket.freed

@[simp] theorem World.unregister_sockets (w : World) (fd : Int) :
    (w.unregister fd).sockets = w.sockets := by
  simp [World.unregister]

@[simp] theorem World.unregister_isOpen (w : World) (fd : Int) :
    (w.unregister fd).isOpen = w.isOpen := by
  simp [World.unregister]

@[simp] theorem World.unregister_log (w : World) (fd : Int) : (w.unregister fd).log = w.log := by
  simp [World.unregister]

@[simp] theorem World.unregister_setsize (w : World) (fd : Int) :
    (w.unregister fd).setsize = w.setsize := by
  simp [World.unregister]

/-- Nothing is registered for the descriptor any more. -/
theorem unregister_isNone {w : World} {fd : Int}
    (hrange : w.aeSetsize ≤ fd → (w.events fd).isNone = true) :
    ((w.unregister fd).events fd).isNone = true := by
  have hread := aeDeleteFileEvent_events w fd .readable hrange
  have hrange' : (aeDeleteFileEvent w fd .readable).aeSetsize ≤ fd →
      ((aeDeleteFileEvent w fd .readable).events fd).isNone = true := by
    intro hout
    rw [aeDeleteFileEvent_aeSetsize] at hout
    rw [hread, Function.update_self, AeFileEvent.remove_of_isNone (hrange hout)]
    exact hrange hout
  unfold World.unregister
  rw [aeDeleteFileEvent_events _ fd .writable hrange', Function.update_self, hread,
    Function.update_self]
  rfl

theorem closeSlot_of_ne (w : World) {i j : Nat} (hj : j ≠ i) :
    (w.closeSlot i).sockets j = w.sockets j := by
  unfold World.closeSlot
  show ((World.modify _ i Socket.freed).sockets j) = _
  rw [World.modify_of_ne _ hj, World.closeFd_sockets, World.unregister_sockets]

theorem closeSlot_self (w : World) (i : Nat) :
    (w.closeSlot i).sockets i = (w.sockets i).freed := by
  unfold World.closeSlot
  show ((World.modify _ i Socket.freed).sockets i) = _
  rw [World.modify_self, World.closeFd_sockets, World.unregister_sockets]

theorem stopSlot_of_ne (w : World) {i j : Nat} (hj : j ≠ i) :
    (w.stopSlot i).sockets j = w.sockets j := by
  unfold World.stopSlot
  rw [World.modify_of_ne _ hj]
  split
  · exact congrFun (w.closeFd_sockets _ _) j
  · rfl

theorem stopSlot_self (w : World) (i : Nat) : (w.stopSlot i).sockets i = (w.sockets i).freed := by
  unfold World.stopSlot
  rw [World.modify_self]
  split
  · rw [World.closeFd_sockets]
  · rfl

/-- The end: the descriptor is closed with nothing registered, the owner is told. -/
def closing (id fd fromId : Int) : List Effect :=
  [.closed id fd false false, .notice ⟨fromId, 0, .close, .null, id⟩]

/-- The log of a close: nothing was registered any more. -/
theorem closeSlot_log {w : World} {i : Nat}
    (hrange : w.aeSetsize ≤ (w.sockets i).fd → (w.events (w.sockets i).fd).isNone = true) :
    (w.closeSlot i).log =
      w.log ++ closing (w.sockets i).id (w.sockets i).fd (w.sockets i).fromId := by
  obtain ⟨hr, hw⟩ := Bool.and_eq_true_iff.mp (unregister_isNone hrange)
  have hclosed : ((w.unregister (w.sockets i).fd).closeFd (w.sockets i).id (w.sockets i).fd).log =
      w.log ++ [.closed (w.sockets i).id (w.sockets i).fd false false] := by
    rw [World.closeFd_log, World.unregister_log, Bool.not_eq_true' _ |>.mp hr,
      Bool.not_eq_true' _ |>.mp hw]
  show ((w.unregister (w.sockets i).fd).closeFd (w.sockets i).id (w.sockets i).fd).log ++ [_] = _
  rw [hclosed, List.append_assoc]
  rfl

theorem tcpRecoverId_eq {w : World} {i : Nat} {id : Int} (hid : 0 ≤ id) (hindex : getIndex w id = i)
    (hs : (w.sockets i).state = .kSocketDisconnected) :
    tcpRecoverId w id = some (w.modify i fun s => { s with type := .kSocketNoneType }) := by
  subst hindex
  unfold tcpRecoverId
  rw [if_neg (not_lt.mpr hid), if_pos hs]

/-- A slot is recovered through its own id. -/
theorem tcpRecoverId_disconnected {w : World} {i : Nat} (hid : 0 ≤ (w.sockets i).id)
    (hindex : getIndex w (w.sockets i).id = i) :
    tcpRecoverId (w.modify i Socket.disconnected) ((w.modify i Socket.disconnected).sockets i).id =
      some (w.modify i Socket.freed) := by
  have hself : (w.modify i Socket.disconnected).sockets i = (w.sockets i).disconnected :=
    w.modify_self i _
  have hindex' : getIndex (w.modify i Socket.disconnected) (w.sockets i).id = i := hindex
  have hstate : ((w.modify i Socket.disconnected).sockets i).state = .kSocketDisconnected := by
    rw [hself]
    rfl
  rw [hself, show (w.sockets i).disconnected.id = (w.sockets i).id from rfl,
    tcpRecoverId_eq hid hindex' hstate, World.modify_modify]
  rfl

theorem handleClose_eq {w : World} {i : Nat} (hid : 0 ≤ (w.sockets i).id)
    (hindex : getIndex w (w.sockets i).id = i) : handleClose w i = some (w.closeSlot i) := by
  let v := (w.unregister (w.sockets i).fd).closeFd (w.sockets i).id (w.sockets i).fd
  have hsockets : v.sockets = w.sockets := by simp [v]
  have hsetsize : v.setsize = w.setsize := by simp [v]
  have hindex' : getIndex v (v.sockets i).id = i := by
    rw [hsockets]
    unfold getIndex
    rw [hsetsize]
    exact hindex
  have hrecover := tcpRecoverId_disconnected (hsockets ▸ hid) hindex'
  have hclose : handleClose w i =
      (tcpRecoverId (v.modify i Socket.disconnected)
        ((v.modify i Socket.disconnected).sockets i).id).bind fun w =>
          some (zSendx w (w.sockets i).fromId 0 .close .null (w.sockets i).id) := by
    unfold handleClose
    simp only [aeDeleteFileEvent_sockets]
    rfl
  rw [hclose, hrecover, Option.bind_some, World.modify_self, hsockets]
  rfl

theorem socketStop_eq {w : World} {i : Nat} (hid : 0 ≤ (w.sockets i).id)
    (hindex : getIndex w (w.sockets i).id = i) : socketStop w i = some (w.stopSlot i) := by
  unfold socketStop World.stopSlot
  split
  · exact tcpRecoverId_disconnected (by simpa using hid) (by simpa using hindex)
  · exact tcpRecoverId_disconnected hid hindex

-- ============================================================================
-- Reserving a slot
-- ============================================================================

theorem nextId_nonneg (allocId : Nat) : 0 ≤ (nextId allocId).1 := by
  unfold nextId
  split
  · exact Int.natCast_nonneg _
  · rename_i h
    exact not_lt.mp h

/-- Before the counter overflows, the ids drawn are 1, 2, 3 and so on. -/
theorem nextId_of_lt {n : Nat} (h : n + 1 < 2 ^ 31) :
    nextId (n + 1) = (((n + 1 : Nat) : Int), n + 2) := by
  have hint : intOf (n + 1) = ((n + 1 : Nat) : Int) := if_pos h
  unfold nextId
  rw [hint, if_neg (not_lt.mpr (Int.natCast_nonneg _)), Nat.mod_eq_of_lt (by omega)]

/-- What `tcpGetReserveId` does; `d` ids have been drawn after it. -/
structure Reserved (w w' : World) (id : Int) (a d : Nat) : Prop where
  eq : w' = ({ w with allocId := a, drawn := d }).modify (getIndex w id) (Socket.reserved id)
  was_free : (w.sockets (getIndex w id)).type = .kSocketNoneType
  nonneg : 0 ≤ id
  drawn_lt : w.drawn < d
  unrecycled : w.allocId = w.drawn + 1 → d < 2 ^ 31 → id = d ∧ a = d + 1

theorem reserveFrom_free {w : World} {rounds : Nat} (hfree : ((drawId w).1.sockets
    (getIndex (drawId w).1 (drawId w).2)).type = .kSocketNoneType) :
    reserveFrom w (rounds + 1) = some ((drawId w).1.modify (getIndex (drawId w).1 (drawId w).2)
      (Socket.reserved (drawId w).2), (drawId w).2) :=
  if_pos hfree

theorem reserveFrom_taken {w : World} {rounds : Nat} (htaken : ¬ ((drawId w).1.sockets
    (getIndex (drawId w).1 (drawId w).2)).type = .kSocketNoneType) :
    reserveFrom w (rounds + 1) = reserveFrom (drawId w).1 rounds :=
  if_neg htaken

theorem reserveFrom_reserved {w w' : World} {id : Int} {rounds : Nat}
    (h : reserveFrom w rounds = some (w', id)) : ∃ a d, Reserved w w' id a d := by
  induction rounds generalizing w with
  | zero => cases h
  | succ rounds ih =>
      by_cases hfree : ((drawId w).1.sockets
          (getIndex (drawId w).1 (drawId w).2)).type = .kSocketNoneType
      · rw [reserveFrom_free hfree] at h
        cases h
        refine ⟨_, _, rfl, hfree, nextId_nonneg _, Nat.lt_succ_self _, fun halloc hd => ?_⟩
        unfold drawId
        rw [halloc, nextId_of_lt hd]
        exact ⟨rfl, rfl⟩
      · -- the slot is taken: one id more has been drawn
        rw [reserveFrom_taken hfree] at h
        obtain ⟨a, d, hr⟩ := ih h
        refine ⟨a, d, hr.eq, hr.was_free, hr.nonneg, Nat.lt_of_succ_lt hr.drawn_lt,
          fun halloc hd => hr.unrecycled ?_ hd⟩
        have hlt : w.drawn + 1 < 2 ^ 31 := lt_trans hr.drawn_lt hd
        show (nextId w.allocId).2 = w.drawn + 1 + 1
        rw [halloc, nextId_of_lt hlt]

theorem tcpGetReserveId_reserved {w w' : World} {id : Int}
    (h : tcpGetReserveId w = some (w', id)) : ∃ a d, Reserved w w' id a d :=
  reserveFrom_reserved h

theorem openFd_eq_some {w w' : World} {fd : Int} (h : w.openFd fd = some w') :
    0 ≤ fd ∧ w.isOpen fd = false ∧ w' = w.opened fd := by
  unfold World.openFd at h
  split at h
  · rename_i hfd
    cases h
    exact ⟨hfd.1, hfd.2, rfl⟩
  · cases h

theorem aeCreateFileEvent_cases (w : World) (fd : Int) (mask : AeMask) (proc : FileProc) (i : Nat)
    (ok : Bool) : aeCreateFileEvent w fd mask proc i ok = (w, false) ∨
      aeCreateFileEvent w fd mask proc i ok = (w.registered fd mask proc i, true) := by
  unfold aeCreateFileEvent
  split
  · exact Or.inl rfl
  · split
    · exact Or.inr rfl
    · exact Or.inl rfl

theorem aeCreateFileEvent_eq {w w' : World} {fd : Int} {mask : AeMask} {proc : FileProc}
    {i : Nat} {ok : Bool} (h : aeCreateFileEvent w fd mask proc i ok = (w', true)) :
    fd < w.aeSetsize ∧ w.isOpen fd = true ∧ (w.epoll fd = !(w.events fd).isNone) ∧
      w' = w.registered fd mask proc i := by
  unfold aeCreateFileEvent at h
  split at h
  · cases h
  · rename_i hrange
    split at h
    · rename_i hctl
      cases h
      simp only [aeApiAddEvent, Bool.and_eq_true, beq_iff_eq] at hctl
      exact ⟨not_le.mp hrange, hctl.1.2, hctl.2, rfl⟩
    · cases h

-- ============================================================================
-- What keeps the invariant
-- ============================================================================

/-- What `Ok` looks at. -/
structure Socket.Same (s t : Socket) : Prop where
  type : t.type = s.type
  id : t.id = s.id
  state : t.state = s.state
  fd : t.fd = s.fd

theorem Socket.Same.refl (s : Socket) : s.Same s := ⟨rfl, rfl, rfl, rfl⟩

theorem World.same_modify (w : World) (i : Nat) {f : Socket → Socket} (hf : ∀ s, Socket.Same s (f s))
    (j : Nat) : (w.sockets j).Same ((w.modify i f).sockets j) := by
  by_cases hj : j = i
  · subst hj
    rw [World.modify_self]
    exact hf _
  · rw [World.modify_of_ne w hj]
    exact Socket.Same.refl _

theorem World.Ok.of_same {w w' : World} (h : w.Ok)
    (hsockets : ∀ i, (w.sockets i).Same (w'.sockets i)) (hsetsize : w'.setsize = w.setsize)
    (hopen : w'.isOpen = w.isOpen) (hae : w'.aeSetsize = w.aeSetsize)
    (hevents : w'.events = w.events) : w'.Ok where
  natural := fun i => by
    rw [(hsockets i).id]
    exact h.natural i
  index := fun i ht => by
    unfold getIndex
    rw [(hsockets i).id, hsetsize]
    exact h.index i ((hsockets i).type ▸ ht)
  free := fun i ht => by
    rw [(hsockets i).state]
    exact h.free i ((hsockets i).type ▸ ht)
  idle := fun i ht hs => by
    rw [(hsockets i).fd]
    exact h.idle i ((hsockets i).type ▸ ht) ((hsockets i).state ▸ hs)
  busy := fun i hs => by
    rw [(hsockets i).fd, hopen]
    exact h.busy i ((hsockets i).state ▸ hs)
  apart := fun i j hi hj hfd => by
    rw [(hsockets i).fd, (hsockets j).fd] at hfd
    exact h.apart i j ((hsockets i).state ▸ hi) ((hsockets j).state ▸ hj) hfd
  nonneg := by
    rw [hopen]
    exact h.nonneg
  range := by
    rw [hae, hevents]
    exact h.range
  reading := fun fd hr hproc => by
    rw [hevents] at hr hproc ⊢
    rw [(hsockets _).state, (hsockets _).fd]
    exact h.reading fd hr hproc
  accepting := by
    rw [hevents]
    exact h.accepting
  writing := fun fd hw => by
    rw [hevents] at hw ⊢
    rw [(hsockets _).state, (hsockets _).fd]
    exact h.writing fd hw

/-- The events that read and write belong to other slots. -/
def World.Unwatched (w : World) (i : Nat) : Prop :=
  ∀ fd, (w.events fd).readable = true ∧ (w.events fd).rfileProc = .onRead ∨
    (w.events fd).writable = true → (w.events fd).clientData ≠ i

theorem World.Ok.unwatched {w : World} (h : w.Ok) {i : Nat}
    (hs : (w.sockets i).state ≠ .kSocketConnected) : w.Unwatched i := by
  rintro fd (⟨hr, hproc⟩ | hw) rfl
  · exact hs (h.reading fd hr hproc).1
  · exact hs (h.writing fd hw).2.1

/-- A slot changes that nothing is read or written for. -/
theorem World.Ok.modify {w : World} (h : w.Ok) (i : Nat) (f : Socket → Socket)
    (hs : w.Unwatched i)
    (hid : 0 ≤ (f (w.sockets i)).id)
    (hindex : (f (w.sockets i)).type ≠ .kSocketNoneType → getIndex w (f (w.sockets i)).id = i)
    (hfree : (f (w.sockets i)).type = .kSocketNoneType ∨ (f (w.sockets i)).type = .kReserveType →
      (f (w.sockets i)).state = .kSocketDisconnected)
    (hidle : (f (w.sockets i)).type ≠ .kSocketNoneType →
      (f (w.sockets i)).state = .kSocketDisconnected → (f (w.sockets i)).fd < 0)
    (hbusy : (f (w.sockets i)).state ≠ .kSocketDisconnected →
      w.isOpen (f (w.sockets i)).fd = true ∧ ∀ j, j ≠ i →
        (w.sockets j).state ≠ .kSocketDisconnected →
          (w.sockets j).fd ≠ (f (w.sockets i)).fd) :
    (w.modify i f).Ok := by
  constructor
  · intro j
    by_cases hj : j = i
    · subst hj
      rw [World.modify_self]
      exact hid
    · rw [World.modify_of_ne w hj]
      exact h.natural j
  · intro j ht
    by_cases hj : j = i
    · subst hj
      rw [World.modify_self] at ht ⊢
      exact hindex ht
    · rw [World.modify_of_ne w hj] at ht ⊢
      exact h.index j ht
  · intro j ht
    by_cases hj : j = i
    · subst hj
      rw [World.modify_self] at ht ⊢
      exact hfree ht
    · rw [World.modify_of_ne w hj] at ht ⊢
      exact h.free j ht
  · intro j ht hd
    by_cases hj : j = i
    · subst hj
      rw [World.modify_self] at ht hd ⊢
      exact hidle ht hd
    · rw [World.modify_of_ne w hj] at ht hd ⊢
      exact h.idle j ht hd
  · intro j hd
    by_cases hj : j = i
    · subst hj
      rw [World.modify_self] at hd ⊢
      exact (hbusy hd).1
    · rw [World.modify_of_ne w hj] at hd ⊢
      exact h.busy j hd
  · intro j k hj hk hfd
    by_cases hji : j = i
    · subst hji
      by_cases hkj : k = j
      · exact hkj.symm
      · rw [World.modify_self] at hj hfd
        rw [World.modify_of_ne w hkj] at hk hfd
        exact absurd hfd.symm ((hbusy hj).2 k hkj hk)
    · rw [World.modify_of_ne w hji] at hj hfd
      by_cases hki : k = i
      · subst hki
        rw [World.modify_self] at hk hfd
        exact absurd hfd ((hbusy hk).2 j hji hj)
      · rw [World.modify_of_ne w hki] at hk hfd
        exact h.apart j k hj hk hfd
  · exact h.nonneg
  · exact h.range
  · intro fd hr hproc
    have hread := h.reading fd hr hproc
    rw [show (w.modify i f).events = w.events from rfl,
      World.modify_of_ne w (hs fd (Or.inl ⟨hr, hproc⟩))]
    exact hread
  · exact h.accepting
  · intro fd hw
    have hwrite := h.writing fd hw
    refine ⟨hwrite.1, ?_⟩
    rw [show (w.modify i f).events = w.events from rfl,
      World.modify_of_ne w (hs fd (Or.inr hw))]
    exact hwrite.2

theorem World.Ok.opened {w : World} (h : w.Ok) {fd : Int} (hfd : 0 ≤ fd) : (w.opened fd).Ok := by
  have hopen : ∀ fd', w.isOpen fd' = true → (w.opened fd).isOpen fd' = true := by
    intro fd' h'
    show Function.update w.isOpen fd true fd' = true
    rw [Function.update_apply]
    split
    · rfl
    · exact h'
  refine { h with busy := fun i hs => hopen _ (h.busy i hs), nonneg := fun fd' h' => ?_ }
  have h'' : Function.update w.isOpen fd true fd' = true := h'
  rw [Function.update_apply] at h''
  split at h''
  · rename_i heq
    exact heq ▸ hfd
  · exact h.nonneg fd' h''

/-- A file event is registered for the descriptor of a slot. -/
theorem World.Ok.registered {w : World} (h : w.Ok) {fd : Int} {mask : AeMask} {proc : FileProc}
    {i : Nat} (hrange : fd < w.aeSetsize)
    (hread : mask = .readable → proc = .onRead ∨ proc = .onAccept)
    (hwrite : mask = .writable → proc = .onWrite)
    (hslot : (w.sockets i).state = .kSocketConnected ∧ (w.sockets i).fd = fd ∨
      proc = .onAccept ∧ (w.events fd).writable = false) : (w.registered fd mask proc i).Ok := by
  have hself : (w.registered fd mask proc i).events fd = (w.events fd).add mask proc i :=
    Function.update_self ..
  have hne : ∀ fd', fd' ≠ fd → (w.registered fd mask proc i).events fd' = w.events fd' :=
    fun fd' hfd => Function.update_of_ne hfd ..
  refine { h with range := ?_, reading := ?_, accepting := ?_, writing := ?_ }
  · intro fd' hfd'
    rw [hne fd' (by rintro rfl; exact absurd hrange (not_lt.mpr hfd'))]
    exact h.range fd' hfd'
  · intro fd' hr hproc
    by_cases heq : fd' = fd
    · subst heq
      rw [hself] at hr hproc ⊢
      cases mask with
      | readable =>
          -- the callback is the new one
          rcases hslot with hslot | ⟨haccept, -⟩
          · exact hslot
          · exact absurd (hproc.symm.trans haccept) (by decide)
      | writable =>
          rcases hslot with hslot | ⟨haccept, -⟩
          · exact hslot
          · exact absurd ((hwrite rfl).symm.trans haccept) (by decide)
    · rw [hne fd' heq] at hr hproc ⊢
      exact h.reading fd' hr hproc
  · intro fd' hr
    by_cases heq : fd' = fd
    · subst heq
      rw [hself] at hr ⊢
      cases mask with
      | readable => exact hread rfl
      | writable => exact h.accepting fd' hr
    · rw [hne fd' heq] at hr ⊢
      exact h.accepting fd' hr
  · intro fd' hw
    by_cases heq : fd' = fd
    · subst heq
      rw [hself] at hw ⊢
      cases mask with
      | readable =>
          rcases hslot with hslot | ⟨-, hnone⟩
          · exact ⟨(h.writing fd' hw).1, hslot⟩
          · exact absurd (hw.symm.trans hnone) (by decide)
      | writable =>
          rcases hslot with hslot | ⟨haccept, -⟩
          · exact ⟨hwrite rfl, hslot⟩
          · exact absurd ((hwrite rfl).symm.trans haccept) (by decide)
    · rw [hne fd' heq] at hw ⊢
      exact h.writing fd' hw

/-- Nothing is written to the descriptor of a slot that is not connected. -/
theorem World.Ok.not_writable {w : World} (h : w.Ok) {i : Nat}
    (hs : (w.sockets i).state = .kSocketConnecting) :
    (w.events (w.sockets i).fd).writable = false := by
  rw [Bool.eq_false_iff]
  intro hw
  obtain ⟨-, hstate, hfd⟩ := h.writing _ hw
  have heq := h.apart _ i (by rw [hstate]; decide) (by rw [hs]; decide) hfd
  rw [heq, hs] at hstate
  cases hstate

theorem World.Ok.closeFd {w : World} (h : w.Ok) (id : Int) {fd : Int}
    (hfree : ∀ i, (w.sockets i).state ≠ .kSocketDisconnected → (w.sockets i).fd ≠ fd) :
    (w.closeFd id fd).Ok := by
  have hopen : ∀ fd', fd' ≠ fd → (w.closeFd id fd).isOpen fd' = w.isOpen fd' := by
    intro fd' hfd
    rw [World.closeFd_isOpen, Function.update_of_ne hfd]
  have hclosed : (w.closeFd id fd).isOpen fd = false := by
    rw [World.closeFd_isOpen, Function.update_self]
  constructor
  · rw [World.closeFd_sockets]
    exact h.natural
  · intro i
    rw [World.closeFd_sockets, getIndex_closeFd]
    exact h.index i
  · rw [World.closeFd_sockets]
    exact h.free
  · rw [World.closeFd_sockets]
    exact h.idle
  · intro i hs
    rw [World.closeFd_sockets] at hs ⊢
    rw [hopen _ (hfree i hs)]
    exact h.busy i hs
  · rw [World.closeFd_sockets]
    exact h.apart
  · intro fd' hfd'
    by_cases heq : fd' = fd
    · rw [heq, hclosed] at hfd'
      cases hfd'
    · rw [hopen _ heq] at hfd'
      exact h.nonneg fd' hfd'
  · rw [World.closeFd_events, World.closeFd_aeSetsize]
    exact h.range
  · rw [World.closeFd_sockets, World.closeFd_events]
    exact h.reading
  · rw [World.closeFd_events]
    exact h.accepting
  · rw [World.closeFd_sockets, World.closeFd_events]
    exact h.writing

theorem World.Ok.deleteFileEvent {w : World} (h : w.Ok) (fd : Int) (mask : AeMask) :
    (aeDeleteFileEvent w fd mask).Ok := by
  have hevents := aeDeleteFileEvent_events w fd mask (h.range fd)
  have hfe : ∀ fd', (aeDeleteFileEvent w fd mask).events fd' = w.events fd' ∨
      (aeDeleteFileEvent w fd mask).events fd' = (w.events fd').remove mask := by
    intro fd'
    rw [hevents, Function.update_apply]
    split
    · rename_i heq
      exact Or.inr (by rw [heq])
    · exact Or.inl rfl
  constructor
  · rw [aeDeleteFileEvent_sockets]
    exact h.natural
  · intro i
    rw [aeDeleteFileEvent_sockets, getIndex_aeDeleteFileEvent]
    exact h.index i
  · rw [aeDeleteFileEvent_sockets]
    exact h.free
  · rw [aeDeleteFileEvent_sockets]
    exact h.idle
  · rw [aeDeleteFileEvent_sockets, aeDeleteFileEvent_isOpen]
    exact h.busy
  · rw [aeDeleteFileEvent_sockets]
    exact h.apart
  · rw [aeDeleteFileEvent_isOpen]
    exact h.nonneg
  · intro fd' hfd'
    rw [aeDeleteFileEvent_aeSetsize] at hfd'
    rcases hfe fd' with heq | heq
    · rw [heq]
      exact h.range fd' hfd'
    · rw [heq, AeFileEvent.remove_of_isNone (h.range fd' hfd')]
      exact h.range fd' hfd'
  · intro fd' hr hproc
    rw [aeDeleteFileEvent_sockets]
    rcases hfe fd' with heq | heq
    · rw [heq] at hr hproc ⊢
      exact h.reading fd' hr hproc
    · rw [heq] at hr hproc ⊢
      cases mask with
      | readable => cases hr
      | writable => exact h.reading fd' hr hproc
  · intro fd' hr
    rcases hfe fd' with heq | heq
    · rw [heq] at hr ⊢
      exact h.accepting fd' hr
    · rw [heq] at hr ⊢
      cases mask with
      | readable => cases hr
      | writable => exact h.accepting fd' hr
  · intro fd' hw
    rw [aeDeleteFileEvent_sockets]
    rcases hfe fd' with heq | heq
    · rw [heq] at hw ⊢
      exact h.writing fd' hw
    · rw [heq] at hw ⊢
      cases mask with
      | readable => exact h.writing fd' hw
      | writable => cases hw

theorem World.closeFd_modify (w : World) (id fd : Int) (i : Nat) (f : Socket → Socket) :
    (w.closeFd id fd).modify i f = (w.modify i f).closeFd id fd := rfl

/-- A slot is freed; its descriptor may go on being open. -/
theorem World.Ok.freed {w : World} (h : w.Ok) {i : Nat} (hs : w.Unwatched i) :
    (w.modify i Socket.freed).Ok :=
  h.modify i Socket.freed hs (h.natural i) (fun ht => absurd rfl ht) (fun _ => rfl) (fun ht => absurd rfl ht)
    (fun hd => absurd rfl hd)

/-- After a slot has been freed nobody else has its descriptor. -/
theorem World.Ok.freed_closeFd {w : World} (h : w.Ok) {i : Nat} (hs : w.Unwatched i)
    (hbusy : (w.sockets i).state ≠ .kSocketDisconnected) :
    ((w.modify i Socket.freed).closeFd (w.sockets i).id (w.sockets i).fd).Ok := by
  refine (h.freed hs).closeFd _ fun j hj hfd => ?_
  by_cases hji : j = i
  · subst hji
    rw [World.modify_self] at hj
    exact hj rfl
  · rw [World.modify_of_ne w hji] at hj hfd
    exact hji (h.apart j i hj hbusy hfd)

theorem World.Ok.closeSlot {w : World} (h : w.Ok) {i : Nat}
    (hs : (w.sockets i).state ≠ .kSocketDisconnected) : (w.closeSlot i).Ok := by
  let v := w.unregister (w.sockets i).fd
  have hv : v.Ok := (h.deleteFileEvent _ .readable).deleteFileEvent _ .writable
  have hsockets : v.sockets = w.sockets := w.unregister_sockets _
  have hunwatched : v.Unwatched i := by
    rintro fd hbit hclient
    -- an event of this slot would be one of its descriptor
    have hfd : (w.sockets i).fd = fd := by
      rcases hbit with ⟨hr, hproc⟩ | hw
      · rw [← hsockets, ← hclient]
        exact (hv.reading fd hr hproc).2
      · rw [← hsockets, ← hclient]
        exact (hv.writing fd hw).2.2
    have hnone := unregister_isNone (h.range (w.sockets i).fd)
    rw [hfd] at hnone
    have hnone' : (v.events fd).isNone = true := by
      show ((w.unregister (w.sockets i).fd).events fd).isNone = true
      rw [hfd]
      exact hnone
    obtain ⟨hr, hw⟩ := Bool.and_eq_true_iff.mp hnone'
    rcases hbit with ⟨hr', -⟩ | hw'
    · rw [hr'] at hr
      cases hr
    · rw [hw'] at hw
      cases hw
  have hclosed := hv.freed_closeFd hunwatched (by rw [hsockets]; exact hs)
  rw [hsockets, ← World.closeFd_modify] at hclosed
  exact hclosed.of_same (fun _ => Socket.Same.refl _) rfl rfl rfl rfl

theorem World.Ok.stopSlot {w : World} (h : w.Ok) {i : Nat}
    (hs : (w.sockets i).state = .kSocketConnecting) : (w.stopSlot i).Ok := by
  have hunwatched : w.Unwatched i := h.unwatched (by rw [hs]; decide)
  unfold World.stopSlot
  split
  · rw [World.closeFd_modify]
    exact h.freed_closeFd hunwatched (by rw [hs]; decide)
  · exact h.freed hunwatched

end ZServer.Tcp
