/-
  ZServer.Tcp.Moves

  What a step can do to the socket table.  Every handler and every callback is a
  sequence of the moves below; `tcp_step_moves` is the only place where they are
  taken apart.

  The moves that lose a descriptor are not `tidy`; `unrecycled` says that an id
  is put to use only when no other request that reserved it is waiting; only where
  a slot `opens` is it given a descriptor or started.
-/

import Mathlib.Logic.Relation
import ZServer.Tcp.Table

namespace ZServer.Tcp

open Lib

-- ============================================================================
-- Moves
-- ============================================================================

/-- Entries that say nothing about the life of a connection. -/
def Effect.isQuiet : Effect → Bool
  | .notice n => n.kind ≠ .data ∧ n.kind ≠ .close
  | .wrote _ _ | .freed _ => true
  | .opened _ | .closed _ _ _ _ | .started _ _ _ => false

/-- The id that was reserved for a request. -/
def TcpRequest.claim : TcpRequest → Option Int
  | .listen _ id _ _ _ | .connect _ id _ _ _ | .asyncConnect _ id _ _ _ => some id
  | .start _ _ | .close _ _ | .send _ _ _ | .stop => none

/-- The ids reserved for requests that are still waiting. -/
def World.claims (w : World) : List Int := w.em.filterMap TcpRequest.claim

inductive Move (opens tidy unrecycled : Prop) (w : World) : World → Prop where
  | note (e : Effect) (he : e.isQuiet = true) : Move opens tidy unrecycled w (w.record e)
  | data (i : Nat) (body : List UInt8) (hs : (w.sockets i).state = .kSocketConnected) :
      Move opens tidy unrecycled w (protoMessageCallback w i body)
  | reserve {w' : World} {id : Int} (h : tcpGetReserveId w = some (w', id)) :
      Move opens tidy unrecycled w w'
  | free (i : Nat) (hs : (w.sockets i).state = .kSocketDisconnected) :
      Move opens tidy unrecycled w (w.modify i fun s => { s with type := .kSocketNoneType })
  | own (i : Nat) (fromId : Int) (hs : (w.sockets i).state ≠ .kSocketConnected) :
      Move opens tidy unrecycled w (w.modify i fun s => { s with fromId := fromId })
  | buffers (i : Nat) (f : Socket → Socket)
      (hs : (w.sockets i).state = .kSocketConnected)
      (hf : ∀ s, f s = { s with readBuffer := (f s).readBuffer, sendBuffer := (f s).sendBuffer }) :
      Move opens tidy unrecycled w (w.modify i f)
  /-- a new descriptor for which there is no slot -/
  | leak {fd : Int} {w' : World} (hopen : w.openFd fd = some w') (hb : ¬ tidy) :
      Move opens tidy unrecycled w w'
  /-- a new descriptor for a slot that has none -/
  | establish (i : Nat) (s : Socket) {w' : World} (ho : opens) (hopen : w.openFd s.fd = some w')
      (hidle : (w.sockets i).state = .kSocketDisconnected)
      (hindex : getIndex w (w.sockets i).id = i)
      (hid : s.id = (w.sockets i).id) (hstate : s.state = .kSocketConnecting)
      (htype : s.type ≠ .kSocketNoneType ∧ s.type ≠ .kReserveType)
      (hclaim : unrecycled → (w.sockets i).id ∉ w.claims ∧ (w.sockets i).fd < 0) :
      Move opens tidy unrecycled w (w'.modify i fun _ => s)
  | accept (i : Nat) {ok : Bool} {w' : World} (hs : (w.sockets i).state = .kSocketConnecting)
      (h : aeCreateFileEvent w (w.sockets i).fd .readable .onAccept i ok = (w', true)) :
      Move opens tidy unrecycled w w'
  | start (i : Nat) {ok : Bool} {w' : World} (ho : opens)
      (hs : (w.sockets i).state = .kSocketConnecting)
      (h : aeCreateFileEvent (w.modify i fun s => { s with state := .kSocketConnected })
        (w.sockets i).fd .readable .onRead i ok = (w', true)) :
      Move opens tidy unrecycled w
        (w'.record (.started (w.sockets i).id (w.sockets i).fd (w.sockets i).fromId))
  | write (i : Nat) {ok : Bool} {w' : World} (hs : (w.sockets i).state = .kSocketConnected)
      (h : aeCreateFileEvent w (w.sockets i).fd .writable .onWrite i ok = (w', true)) :
      Move opens tidy unrecycled w w'
  | unwrite (fd : Int) : Move opens tidy unrecycled w (aeDeleteFileEvent w fd .writable)
  | close (i : Nat) (hs : (w.sockets i).state ≠ .kSocketDisconnected) :
      Move opens tidy unrecycled w (w.closeSlot i)
  | stop (i : Nat) (hs : (w.sockets i).state = .kSocketConnecting)
      (hb : tidy → 0 < (w.sockets i).fd ∧ (w.events (w.sockets i).fd).isNone = true) :
      Move opens tidy unrecycled w (w.stopSlot i)

theorem World.Ok.move {opens tidy unrecycled : Prop} {w w' : World} (h : w.Ok)
    (hm : Move opens tidy unrecycled w w') : w'.Ok := by
  cases hm with
  | note e he => exact h.of_same (fun _ => Socket.Same.refl _) rfl rfl rfl rfl
  | data i body hs => exact h.of_same (fun _ => Socket.Same.refl _) rfl rfl rfl rfl
  | reserve hreserve =>
      obtain ⟨a, d, rfl, hfree, hid, -, -⟩ := tcpGetReserveId_reserved hreserve
      have hcount : ({ w with allocId := a, drawn := d } : World).Ok :=
        h.of_same (fun _ => Socket.Same.refl _) rfl rfl rfl rfl
      have hdisc := h.free _ (Or.inl hfree)
      refine hcount.modify _ _ (hcount.unwatched ?_) hid (fun _ => rfl) ?_ ?_ ?_
      · show (w.sockets _).state ≠ _
        rw [hdisc]
        decide
      · exact fun _ => hdisc
      · exact fun _ _ => (by decide : (-1 : Int) < 0)
      · exact fun hs => absurd hdisc hs
  | free i hs =>
      refine h.modify i _ (h.unwatched (by rw [hs]; decide)) (h.natural i)
        (fun ht => absurd rfl ht) (fun _ => hs) (fun ht => absurd rfl ht) (fun hd => absurd hs hd)
  | own i fromId hs =>
      exact h.of_same (w.same_modify i fun s => ⟨rfl, rfl, rfl, rfl⟩) rfl rfl rfl rfl
  | buffers i f hs hf =>
      refine h.of_same (w.same_modify i fun s => ?_) rfl rfl rfl rfl
      rw [hf]
      exact ⟨rfl, rfl, rfl, rfl⟩
  | leak hopen hb =>
      obtain ⟨hfd, -, rfl⟩ := openFd_eq_some hopen
      exact h.opened hfd
  | establish i s ho hopen hidle hindex hid hstate htype hclaim =>
      obtain ⟨hfd, hclosed, rfl⟩ := openFd_eq_some hopen
      have hw := h.opened hfd
      refine hw.modify i _ (hw.unwatched ?_) ?_ (fun _ => ?_)
        (fun ht => ht.elim (absurd · htype.1) (absurd · htype.2)) ?_ ?_
      · show (w.sockets i).state ≠ _
        rw [hidle]
        decide
      · rw [hid]
        exact h.natural i
      · rw [hid]
        exact hindex
      · intro _ hd
        rw [hstate] at hd
        cases hd
      · refine fun _ => ⟨Function.update_self .., fun j hj hbusy hsame => ?_⟩
        -- the descriptor is new, that of another slot was open before
        have hopen' := h.busy j hbusy
        have hsame' : (w.sockets j).fd = s.fd := hsame
        rw [hsame', hclosed] at hopen'
        cases hopen'
  | accept i hs hcreate =>
      obtain ⟨hrange, -, -, rfl⟩ := aeCreateFileEvent_eq hcreate
      exact h.registered hrange (fun _ => Or.inr rfl) (by rintro ⟨⟩)
        (Or.inr ⟨rfl, h.not_writable hs⟩)
  | start i ho hs hcreate =>
      obtain ⟨hrange, -, -, rfl⟩ := aeCreateFileEvent_eq hcreate
      have hbusy : (w.sockets i).state ≠ .kSocketDisconnected := by
        rw [hs]
        decide
      have hw : (w.modify i fun s => { s with state := .kSocketConnected }).Ok := by
        refine h.modify i _ (h.unwatched (by rw [hs]; decide)) (h.natural i)
          (fun _ => h.index i (h.taken hbusy))
          (fun ht => absurd (h.free i ht) hbusy) ?_
          (fun _ => ⟨h.busy i hbusy, fun j hj hj' hfd => hj (h.apart j i hj' hbusy hfd)⟩)
        rintro _ ⟨⟩
      have hslot : ((w.modify i fun s => { s with state := .kSocketConnected }).sockets i).state =
          .kSocketConnected ∧
          ((w.modify i fun s => { s with state := .kSocketConnected }).sockets i).fd =
            (w.sockets i).fd := by
        rw [World.modify_self]
        exact ⟨rfl, rfl⟩
      exact (hw.registered hrange (fun _ => Or.inl rfl) (by rintro ⟨⟩) (Or.inl hslot)).of_same
        (fun _ => Socket.Same.refl _) rfl rfl rfl rfl
  | write i hs hcreate =>
      obtain ⟨hrange, -, -, rfl⟩ := aeCreateFileEvent_eq hcreate
      exact h.registered hrange (by rintro ⟨⟩) (fun _ => rfl) (Or.inl ⟨hs, rfl⟩)
  | unwrite fd => exact h.deleteFileEvent fd .writable
  | close i hs => exact h.closeSlot hs
  | stop i hs hb => exact h.stopSlot hs

-- ============================================================================
-- Sequences of moves
-- ============================================================================

abbrev Moves (opens tidy unrecycled : Prop) : World → World → Prop :=
  Relation.ReflTransGen (Move opens tidy unrecycled)

theorem World.Ok.moves {opens tidy unrecycled : Prop} {w w' : World} (h : w.Ok)
    (hm : Moves opens tidy unrecycled w w') : w'.Ok := by
  induction hm with
  | refl => exact h
  | tail _ hlast ih => exact ih.move hlast

section Functions

variable {opens tidy unrecycled : Prop} {w w' : World} {i : Nat}

theorem Moves.note (e : Effect) (he : e.isQuiet = true) : Moves opens tidy unrecycled w (w.record e) :=
  .single (.note e he)

theorem Moves.tcpError (dest id : Int) (err : String) :
    Moves opens tidy unrecycled w (tcpError w dest id err) :=
  .note _ rfl

theorem tcpRecoverId_moves {id : Int} (h : tcpRecoverId w id = some w') :
    Moves opens tidy unrecycled w w' := by
  unfold tcpRecoverId at h
  split at h
  · cases h
    exact .refl
  · split at h
    · rename_i hs
      cases h
      exact .single (.free _ hs)
    · cases h

theorem handleClose_moves (hok : w.Ok) (hs : (w.sockets i).state ≠ .kSocketDisconnected)
    (h : handleClose w i = some w') : Moves opens tidy unrecycled w w' := by
  obtain ⟨hid, hindex⟩ := hok.index_of_state hs
  rw [handleClose_eq hid hindex] at h
  cases h
  exact .single (.close i hs)

theorem handleError_moves {errno : Nat} (hok : w.Ok)
    (hs : (w.sockets i).state ≠ .kSocketDisconnected)
    (h : handleError w i errno = some w') : Moves opens tidy unrecycled w w' := by
  obtain ⟨w₁, hclose, herr⟩ := Option.bind_eq_some_iff.mp h
  cases herr
  exact (handleClose_moves hok hs hclose).trans (Moves.tcpError ..)

theorem socketForceClose_moves (hok : w.Ok) (h : socketForceClose w i = some w') :
    Moves opens tidy unrecycled w w' := by
  unfold socketForceClose at h
  split at h
  · rename_i hs
    refine handleClose_moves hok ?_ h
    rcases hs with hs | hs <;> rw [hs] <;> decide
  · exact tcpRecoverId_moves h

-- ============================================================================
-- Incoming data
-- ============================================================================

/-- The frames are delivered one by one. -/
theorem deliver_moves (frames : List (List UInt8))
    (hs : (w.sockets i).state = .kSocketConnected) :
    Moves opens tidy unrecycled w (frames.foldl (fun w body => protoMessageCallback w i body) w) ∧
      (frames.foldl (fun w body => protoMessageCallback w i body) w).sockets = w.sockets := by
  induction frames generalizing w with
  | nil => exact ⟨.refl, rfl⟩
  | cons body frames ih =>
      have hrest := ih (w := protoMessageCallback w i body) hs
      exact ⟨.head (.data i body hs) hrest.1, hrest.2⟩

theorem headMessageCallbackOn_moves (hok : w.Ok) (hs : (w.sockets i).state = .kSocketConnected)
    (h : headMessageCallbackOn w i = some w') : Moves opens tidy unrecycled w w' := by
  simp only [headMessageCallbackOn] at h
  obtain ⟨hdeliver, hsockets⟩ : Moves opens tidy unrecycled w _ ∧ _ := deliver_moves
    (headMessageCallback (bufferBytes (w.sockets i).readBuffer)).frames hs
  have hread := hdeliver.tail (.buffers i (fun s => { s with
    readBuffer := some (headMessageCallback (bufferBytes (w.sockets i).readBuffer)).rest })
    (by rw [hsockets]; exact hs) fun _ => rfl)
  split at h
  · exact hread.trans (socketForceClose_moves (hok.moves hread) h)
  · cases h
    exact hread

theorem onMessageCallback_moves (hok : w.Ok) (hs : (w.sockets i).state = .kSocketConnected)
    (h : onMessageCallback w i = some w') : Moves opens tidy unrecycled w w' := by
  unfold onMessageCallback at h
  split at h
  · exact headMessageCallbackOn_moves hok hs h
  · split at h
    · cases h
      have hdata : Moves opens tidy unrecycled w
          (protoMessageCallback w i (bufferBytes (w.sockets i).readBuffer)) := .single (.data i _ hs)
      exact hdata.tail (.buffers i (fun s => { s with readBuffer := some [] }) hs fun _ => rfl)
    · cases h

theorem socketRead_moves (chunk : List UInt8) (hs : (w.sockets i).state = .kSocketConnected) :
    Moves opens tidy unrecycled w (socketRead w i chunk) ∧
      ((socketRead w i chunk).sockets i).state = (w.sockets i).state := by
  refine ⟨.single (.buffers i _ hs fun _ => rfl), ?_⟩
  unfold socketRead
  rw [World.modify_self]

theorem onRead_moves {read : ReadResult} (hok : w.Ok)
    (hs : (w.sockets i).state = .kSocketConnected) (h : onRead w i read = some w') :
    Moves opens tidy unrecycled w w' := by
  have hread : ∀ chunk, Moves opens tidy unrecycled w (socketRead w i chunk) ∧
      ((socketRead w i chunk).sockets i).state = (w.sockets i).state :=
    fun chunk => socketRead_moves chunk hs
  have hbusy : ∀ chunk, ((socketRead w i chunk).sockets i).state ≠ .kSocketDisconnected := by
    intro chunk
    rw [(hread chunk).2, hs]
    decide
  unfold onRead at h
  split at h
  · exact (hread _).1.trans (handleClose_moves (hok.moves (hread _).1) (hbusy _) h)
  · rename_i chunk _
    exact (hread chunk).1.trans
      (onMessageCallback_moves (hok.moves (hread chunk).1) ((hread chunk).2.trans hs) h)
  · exact (hread _).1.trans (handleError_moves (hok.moves (hread _).1) (hbusy _) h)

-- ============================================================================
-- Outgoing data
-- ============================================================================

theorem drain_moves {sends : List WriteResult} {complete : Bool} (hok : w.Ok)
    (hs : (w.sockets i).state = .kSocketConnected)
    (h : drain w i sends = some (w', complete)) : Moves opens tidy unrecycled w w' ∧
      (complete = true → (w'.sockets i).state = .kSocketConnected) := by
  induction sends generalizing w with
  | nil => cases h
  | cons result sends ih =>
      cases result with
      | ok n =>
          simp only [drain] at h
          split at h
          · cases h
            exact ⟨.refl, fun _ => hs⟩
          · have hsent : Moves opens tidy unrecycled w
                ((w.record (.wrote (w.sockets i).fd ((bufferBytes (w.sockets i).sendBuffer).take n))).modify
                  i fun s => { s with
                    sendBuffer := some ((bufferBytes (w.sockets i).sendBuffer).drop n) }) :=
              (Moves.note _ rfl).tail (.buffers i _ hs fun _ => rfl)
            have hs' : (((w.record (.wrote (w.sockets i).fd
                ((bufferBytes (w.sockets i).sendBuffer).take n))).modify i fun s => { s with
                  sendBuffer := some ((bufferBytes (w.sockets i).sendBuffer).drop n) }).sockets
                    i).state = .kSocketConnected := by
              rw [World.modify_self]
              exact hs
            split at h
            · cases h
              exact ⟨hsent, fun _ => hs'⟩
            · obtain ⟨hm, hcomplete⟩ := ih (hok.moves hsent) hs' h
              exact ⟨hsent.trans hm, hcomplete⟩
      | error errno =>
          simp only [drain] at h
          split at h
          · cases h
            exact ⟨.refl, fun _ => hs⟩
          · obtain ⟨w₁, herr, heq⟩ := Option.map_eq_some_iff.mp h
            cases heq
            exact ⟨handleError_moves hok (by rw [hs]; decide) herr, by rintro ⟨⟩⟩

theorem onWrite_moves {sends : List WriteResult} (hok : w.Ok)
    (hs : (w.sockets i).state = .kSocketConnected) (h : onWrite w i sends = some w') :
    Moves opens tidy unrecycled w w' := by
  unfold onWrite at h
  split at h
  · cases h
  · obtain ⟨⟨w₁, complete⟩, hdrain, heq⟩ := Option.map_eq_some_iff.mp h
    obtain ⟨hm, hcomplete⟩ : Moves opens tidy unrecycled w w₁ ∧ _ := drain_moves hok hs hdrain
    cases complete with
    | false =>
        cases heq
        exact hm
    | true =>
        cases heq
        exact (hm.tail (.buffers i _ (hcomplete rfl) fun _ => rfl)).tail (.unwrite _)

theorem createWrite_moves (registered : Bool) (hs : (w.sockets i).state = .kSocketConnected) :
    Moves opens tidy unrecycled w
      (aeCreateFileEvent w (w.sockets i).fd .writable .onWrite i registered).1 := by
  rcases aeCreateFileEvent_cases w (w.sockets i).fd .writable .onWrite i registered with
    hfail | hdone
  · rw [hfail]
  · rw [hdone]
    exact .single (.write i hs hdone)

theorem appendRemaining_moves (remaining : List UInt8) (registered : Bool)
    (hs : (w.sockets i).state = .kSocketConnected) :
    Moves opens tidy unrecycled w (appendRemaining w i remaining registered) := by
  unfold appendRemaining
  split
  · exact .refl
  · have hm : Moves opens tidy unrecycled w (w.modify i fun s => { s with
        sendBuffer := some (bufferBytes s.sendBuffer ++ remaining) }) :=
      .single (.buffers i _ hs fun _ => rfl)
    have hs' : ((w.modify i fun s => { s with
        sendBuffer := some (bufferBytes s.sendBuffer ++ remaining) }).sockets i).state =
        .kSocketConnected := by
      rw [World.modify_self]
      exact hs
    exact hm.trans (createWrite_moves registered hs')

theorem socketWrite_moves {data : List UInt8} {a : WriteAnswer} {ret : Int} (hok : w.Ok)
    (h : socketWrite w i data a = some (w', ret)) : Moves opens tidy unrecycled w w' := by
  simp only [socketWrite] at h
  split at h
  · cases h
    exact .refl
  · rename_i hs
    have hs := not_not.mp hs
    split at h
    · cases h
      exact appendRemaining_moves _ _ hs
    · have hwrote : Moves opens tidy unrecycled w
          (w.record (.wrote (w.sockets i).fd (writtenBytes data a.result))) := Moves.note _ rfl
      split at h
      · obtain ⟨w₁, herr, heq⟩ := Option.map_eq_some_iff.mp h
        cases heq
        refine hwrote.trans (handleError_moves (hok.moves hwrote) ?_ herr)
        show (w.sockets i).state ≠ _
        rw [hs]
        decide
      · cases h
        exact hwrote.trans (appendRemaining_moves _ _ hs)

-- ============================================================================
-- New connections
-- ============================================================================

/-- Which slot is reserved does not depend on the kernel. -/
theorem reserveFrom_opened (w : World) (fd : Int) (rounds : Nat) :
    reserveFrom (w.opened fd) rounds =
      (reserveFrom w rounds).map fun r => (r.1.opened fd, r.2) := by
  induction rounds generalizing w with
  | zero => rfl
  | succ rounds ih =>
      by_cases hfree : ((drawId w).1.sockets
          (getIndex (drawId w).1 (drawId w).2)).type = .kSocketNoneType
      · rw [reserveFrom_free hfree, reserveFrom_free (w := w.opened fd) hfree]
        rfl
      · rw [reserveFrom_taken hfree, reserveFrom_taken (w := w.opened fd) hfree, ← ih]
        rfl

theorem onAccept_moves {k : Kernel} (ho : opens) (hok : w.Ok)
    (hnew : unrecycled → ∀ w₁ id, tcpGetReserveId w = some (w₁, id) → w₁.drawn ≤ w'.drawn →
      id ∉ w.claims)
    (h : onAccept w i k = some w') : Moves opens tidy unrecycled w w' := by
  unfold onAccept at h
  split at h
  · cases h
    exact Moves.tcpError ..
  · obtain ⟨w₁, hopen, h⟩ := Option.bind_eq_some_iff.mp h
    obtain ⟨hfd, hclosed, rfl⟩ := openFd_eq_some hopen
    obtain ⟨⟨w₂, id⟩, hreserve, h⟩ := Option.bind_eq_some_iff.mp h
    obtain ⟨j, hget, h⟩ := Option.bind_eq_some_iff.mp h
    -- the slot might as well have been reserved before the descriptor was opened
    unfold tcpGetReserveId at hreserve
    rw [reserveFrom_opened] at hreserve
    obtain ⟨⟨v, id'⟩, hreserve', heq⟩ := Option.map_eq_some_iff.mp hreserve
    cases heq
    have hres : tcpGetReserveId w = some (v, id') := hreserve'
    obtain ⟨a, d, hv⟩ := tcpGetReserveId_reserved hres
    have hmv : Moves opens tidy unrecycled w v := .single (.reserve hres)
    have hsock : v.sockets (getIndex v id') = (w.sockets (getIndex w id')).reserved id' := by
      rw [hv.eq]
      exact World.modify_self ..
    have hj : getIndex v id' = j := by
      unfold tcpGetSocket at hget
      split at hget
      · exact Option.some.inj hget
      · cases hget
    rw [hj] at hsock
    have hidle : (v.sockets j).state = .kSocketDisconnected := by
      rw [hsock]
      exact hok.free _ (Or.inl hv.was_free)
    have hid : (v.sockets j).id = id' := by
      rw [hsock]
      rfl
    have hopen' : v.openFd k.fd = some (v.opened k.fd) := by
      refine if_pos ⟨hfd, ?_⟩
      rw [hv.eq]
      exact hclosed
    cases h
    refine (hmv.tail (.establish j _ ho hopen' hidle ?_ ?_ rfl ?_ fun hu => ?_)).trans
      (Moves.note _ rfl)
    · rw [hid]
      exact hj
    · rfl
    · exact ⟨by rintro ⟨⟩, by rintro ⟨⟩⟩
    · refine ⟨?_, ?_⟩
      · rw [hid, hv.eq]
        exact hnew hu v id' hres (le_refl _)
      · rw [hsock]
        exact (by decide : (-1 : Int) < 0)

-- ============================================================================
-- Requests
-- ============================================================================

theorem tcpGetSocket_eq_some {id : Int} (h : tcpGetSocket w id = some i) :
    getIndex w id = i ∧ (w.sockets i).id = id := by
  unfold tcpGetSocket at h
  split at h
  · rename_i hid
    cases h
    exact ⟨rfl, hid⟩
  · cases h

/-- The slot that has the id is given a descriptor. -/
theorem Moves.establish {w₁ : World} {id fd : Int} (f : Socket → Socket) (ho : opens)
    (hget : tcpGetSocket w id = some i) (hopen : w.openFd fd = some w₁)
    (hidle : (w.sockets i).state = .kSocketDisconnected) (hfd : ∀ s, (f s).fd = fd)
    (hid : ∀ s, (f s).id = s.id) (hstate : ∀ s, (f s).state = .kSocketConnecting)
    (htype : ∀ s, (f s).type ≠ .kSocketNoneType ∧ (f s).type ≠ .kReserveType)
    (hclaim : unrecycled → id ∉ w.claims ∧ (w.sockets i).fd < 0) :
    Moves opens tidy unrecycled w (w₁.modify i f) := by
  obtain ⟨hindex, hsame⟩ := tcpGetSocket_eq_some hget
  have hw₁ : w₁.sockets = w.sockets := by
    obtain ⟨-, -, rfl⟩ := openFd_eq_some hopen
    rfl
  have heq : w₁.modify i f = w₁.modify i fun _ => f (w.sockets i) := by
    rw [← hw₁]
    rfl
  rw [heq]
  refine .single (.establish i _ ho ?_ hidle ?_ (hid _) (hstate _) (htype _) ?_)
  · rw [hfd]
    exact hopen
  · rw [hsame]
    exact hindex
  · rw [hsame]
    exact hclaim

theorem handleTcpSocketListen_moves {fromId id protoType : Int} {addr : String} {port : Int}
    {k : Kernel} (ho : opens)
    (hvacant : ∀ i, tcpGetSocket w id = some i → k.fd ≠ -1 →
      (w.sockets i).state = .kSocketDisconnected)
    (htidy : tidy → k.fd ≠ -1 → tcpGetSocket w id ≠ none)
    (hclaim : unrecycled → id ∉ w.claims ∧
      ∀ i, tcpGetSocket w id = some i → (w.sockets i).fd < 0)
    (h : handleTcpSocketListen w fromId id protoType addr port k = some w') :
    Moves opens tidy unrecycled w w' := by
  unfold handleTcpSocketListen at h
  split at h
  · cases h
    exact Moves.tcpError ..
  · rename_i hfd
    obtain ⟨w₁, hopen, h⟩ := Option.bind_eq_some_iff.mp h
    obtain ⟨-, -, heq⟩ := openFd_eq_some hopen
    have hget : tcpGetSocket w₁ id = tcpGetSocket w id := by
      rw [heq]
      rfl
    rw [hget] at h
    split at h
    · rename_i hnone
      cases h
      exact (Relation.ReflTransGen.single
        (.leak hopen fun ht => htidy ht hfd hnone)).trans (Moves.tcpError ..)
    · rename_i i hsome
      cases h
      exact .establish _ ho hsome hopen (hvacant i hsome hfd) (fun _ => rfl) (fun _ => rfl)
        (fun _ => rfl) (fun _ => ⟨by rintro ⟨⟩, by rintro ⟨⟩⟩)
        (fun hu => ⟨(hclaim hu).1, (hclaim hu).2 i hsome⟩)

theorem handleTcpSocketConnect_moves {fromId id protoType : Int} {addr : String} {port : Int}
    {k : Kernel} (ho : opens)
    (hvacant : ∀ i, tcpGetSocket w id = some i → k.fd ≠ -1 →
      (w.sockets i).state = .kSocketDisconnected)
    (hclaim : unrecycled → id ∉ w.claims ∧
      ∀ i, tcpGetSocket w id = some i → (w.sockets i).fd < 0)
    (h : handleTcpSocketConnect w fromId id protoType addr port k = some w') :
    Moves opens tidy unrecycled w w' := by
  unfold handleTcpSocketConnect at h
  split at h
  · cases h
    exact Moves.tcpError ..
  · rename_i i hsome
    split at h
    · cases h
      exact Moves.tcpError ..
    · rename_i hfd
      obtain ⟨w₁, hopen, h⟩ := Option.bind_eq_some_iff.mp h
      cases h
      exact .establish _ ho hsome hopen (hvacant i hsome hfd) (fun _ => rfl) (fun _ => rfl)
        (fun _ => rfl) (fun _ => ⟨by rintro ⟨⟩, by rintro ⟨⟩⟩)
        (fun hu => ⟨(hclaim hu).1, (hclaim hu).2 i hsome⟩)

/-- Nothing can be registered for a slot that has no descriptor. -/
theorem World.Ok.refused (hok : w.Ok) {fd : Int} (hfd : fd < 0) (mask : AeMask) (proc : FileProc)
    (i : Nat) (ok : Bool) : aeCreateFileEvent w fd mask proc i ok = (w, false) := by
  rcases aeCreateFileEvent_cases w fd mask proc i ok with hfail | hdone
  · exact hfail
  · obtain ⟨-, hopen, -, -⟩ := aeCreateFileEvent_eq hdone
    exact absurd (hok.nonneg _ hopen) (not_le.mpr hfd)

theorem tcpRecoverId_state {id : Int} (hid : 0 ≤ id) (h : tcpRecoverId w id = some w') :
    (w.sockets (getIndex w id)).state = .kSocketDisconnected := by
  unfold tcpRecoverId at h
  rw [if_neg (not_lt.mpr hid)] at h
  split at h
  · assumption
  · cases h

theorem handleTcpSocketAsyncConnect_moves {fromId id protoType : Int} {addr : String} {port : Int}
    {k : Kernel} (hok : w.Ok)
    (hvacant : ∀ i, tcpGetSocket w id = some i → k.fd ≠ -1 →
      (w.sockets i).state = .kSocketDisconnected ∧ (w.sockets i).fd < 0)
    (htidy : tidy → k.fd ≠ -1 → tcpGetSocket w id = none)
    (h : handleTcpSocketAsyncConnect w fromId id protoType addr port k = some w') :
    Moves opens tidy unrecycled w w' := by
  unfold handleTcpSocketAsyncConnect at h
  split at h
  · cases h
    exact Moves.tcpError ..
  · rename_i i hsome
    obtain ⟨hindex, hid⟩ := tcpGetSocket_eq_some hsome
    have hnat : 0 ≤ id := hid ▸ hok.natural i
    obtain ⟨w₁, hopen, h⟩ := Option.bind_eq_some_iff.mp h
    by_cases hfd : k.fd = -1
    · -- no connection: the slot is recovered
      rw [if_pos hfd] at hopen
      cases hopen
      rw [if_pos (Or.inl hfd)] at h
      obtain ⟨w₂, hrecover, h⟩ := Option.bind_eq_some_iff.mp h
      have hs := tcpRecoverId_state hnat hrecover
      rw [getIndex_modify, hindex, World.modify_self] at hs
      have hs' : (w.sockets i).state ≠ .kSocketConnected := by
        rw [show (w.sockets i).state = _ from hs]
        decide
      cases h
      have hown : Moves opens tidy unrecycled w (w.modify i fun s => { s with fromId := fromId }) :=
        .single (.own i fromId hs')
      exact (hown.trans (tcpRecoverId_moves hrecover)).trans (Moves.tcpError ..)
    · rw [if_neg hfd] at hopen
      obtain ⟨hs, hneg⟩ := hvacant i hsome hfd
      have hown : Moves opens tidy unrecycled w (w.modify i fun s => { s with fromId := fromId }) :=
        .single (.own i fromId (by rw [hs]; decide))
      have hleak := hown.tail (.leak hopen fun ht => by
        have hnone := htidy ht hfd
        rw [hsome] at hnone
        cases hnone)
      have hfd₁ : (w₁.sockets i).fd < 0 := by
        obtain ⟨-, -, rfl⟩ := openFd_eq_some hopen
        show ((w.modify i fun s => { s with fromId := fromId }).sockets i).fd < 0
        rw [World.modify_self]
        exact hneg
      split at h
      · obtain ⟨w₂, hrecover, h⟩ := Option.bind_eq_some_iff.mp h
        cases h
        exact (hleak.trans (tcpRecoverId_moves hrecover)).trans (Moves.tcpError ..)
      · -- the event is created on a slot without a descriptor
        rw [socketConnect, (hok.moves hleak).refused hfd₁] at h
        obtain ⟨w₂, hrecover, h⟩ := Option.bind_eq_some_iff.mp h
        cases h
        exact (hleak.trans (tcpRecoverId_moves hrecover)).trans (Moves.tcpError ..)

theorem handleTcpSocketClose_moves {fromId id : Int} (hok : w.Ok)
    (h : handleTcpSocketClose w fromId id = some w') : Moves opens tidy unrecycled w w' := by
  unfold handleTcpSocketClose at h
  split at h
  · cases h
    exact Moves.tcpError ..
  · exact socketForceClose_moves hok h

theorem sendToAll_moves {fromId : Int} {data : List UInt8} {ids : List Int}
    {answers : List WriteAnswer} (hok : w.Ok)
    (h : sendToAll w fromId data ids answers = some w') : Moves opens tidy unrecycled w w' := by
  induction ids generalizing w answers with
  | nil =>
      cases h
      exact .refl
  | cons id ids ih =>
      cases answers with
      | nil => cases h
      | cons a answers =>
          unfold sendToAll at h
          split at h
          · have hm : Moves opens tidy unrecycled w (tcpError w fromId id
                ("send sockfd (" ++ toString id ++ ") fail, id not found")) := Moves.tcpError ..
            exact hm.trans (ih (hok.moves hm) h)
          · obtain ⟨⟨w₁, ret⟩, hwrite, h⟩ := Option.bind_eq_some_iff.mp h
            have hm : Moves opens tidy unrecycled w w₁ := socketWrite_moves hok hwrite
            exact hm.trans (ih (hok.moves hm) h)

theorem handleTcpSocketSend_moves {fromId : Int} {ids : List Int} {data : Option (List UInt8)}
    {answers : List WriteAnswer} (hok : w.Ok)
    (h : handleTcpSocketSend w fromId ids data answers = some w') :
    Moves opens tidy unrecycled w w' := by
  unfold handleTcpSocketSend at h
  split at h
  · cases h
    exact .refl
  · obtain ⟨w₁, hsend, heq⟩ := Option.map_eq_some_iff.mp h
    cases heq
    exact (sendToAll_moves hok hsend).trans (Moves.note _ rfl)

/-- `aeCreateFileEvent` fails. -/
def World.refuses (w : World) (fd : Int) (ok : Bool) : Prop :=
  w.aeSetsize ≤ fd ∨ aeApiAddEvent w fd ok = false

theorem aeCreateFileEvent_refuses {fd : Int} {mask : AeMask} {proc : FileProc} {ok created : Bool}
    (h : aeCreateFileEvent w fd mask proc i ok = (w', created)) :
    (created = false ↔ w.refuses fd ok) ∧ (created = false → w' = w) := by
  unfold World.refuses
  unfold aeCreateFileEvent at h
  split at h
  · rename_i hrange
    cases h
    exact ⟨iff_of_true rfl (Or.inl hrange), fun _ => rfl⟩
  · rename_i hrange
    split at h
    · rename_i hctl
      cases h
      exact ⟨by simp [hrange, hctl], by rintro ⟨⟩⟩
    · rename_i hctl
      cases h
      exact ⟨iff_of_true rfl (Or.inr (Bool.eq_false_of_not_eq_true hctl)), fun _ => rfl⟩

/-- What `startByType` does, by the type of the slot. -/
theorem startByType_cases {registered started : Bool}
    (h : startByType w i registered = some (w', started)) :
    (w.sockets i).type = .kAcceptType ∧
      aeCreateFileEvent w (w.sockets i).fd .readable .onAccept i registered = (w', started) ∨
    (∃ w₁, aeCreateFileEvent (w.modify i fun s => { s with state := .kSocketConnected })
        (w.sockets i).fd .readable .onRead i registered = (w₁, started) ∧
      w' = if started then w₁.record (.started (w.sockets i).id (w.sockets i).fd
        (w.sockets i).fromId) else w₁) ∨
    started = false ∧
      ((w.sockets i).type = .kSocketNoneType ∨ (w.sockets i).type = .kReserveType) := by
  have hstart : (socketStart w i registered).map (fun r => if r.2 then
      (r.1.record (.started (w.sockets i).id (w.sockets i).fd (w.sockets i).fromId), true)
      else r) = some (w', started) →
      ∃ w₁, aeCreateFileEvent (w.modify i fun s => { s with state := .kSocketConnected })
        (w.sockets i).fd .readable .onRead i registered = (w₁, started) ∧
      w' = if started then w₁.record (.started (w.sockets i).id (w.sockets i).fd
        (w.sockets i).fromId) else w₁ := by
    intro h
    obtain ⟨⟨w₁, created⟩, hstart, heq⟩ := Option.map_eq_some_iff.mp h
    unfold socketStart at hstart
    split at hstart
    · cases hstart
    · have hcreate := Option.some.inj hstart
      rw [World.modify_self] at hcreate
      cases created with
      | true =>
          cases heq
          exact ⟨w₁, hcreate, rfl⟩
      | false =>
          cases heq
          exact ⟨w', hcreate, rfl⟩
  unfold startByType at h
  split at h
  · rename_i htype
    unfold socketAccept at h
    split at h
    · cases h
    · exact Or.inl ⟨htype, Option.some.inj h⟩
  · exact Or.inr (Or.inl (hstart h))
  · exact Or.inr (Or.inl (hstart h))
  · rename_i hne₁ hne₂ hne₃
    cases h
    refine Or.inr (Or.inr ⟨rfl, ?_⟩)
    cases htype : (w.sockets i).type with
    | kSocketNoneType => exact Or.inl rfl
    | kReserveType => exact Or.inr rfl
    | kAcceptType => exact absurd htype hne₁
    | kSocketType => exact absurd htype hne₂
    | kConnectType => exact absurd htype hne₃

section Connecting

variable {registered : Bool} (hok : w.Ok) (hs : (w.sockets i).state = .kSocketConnecting)

include hok hs in
theorem World.Ok.typed : ¬ ((w.sockets i).type = .kSocketNoneType ∨
    (w.sockets i).type = .kReserveType) := by
  intro ht
  have hidle := hok.free i ht
  rw [hs] at hidle
  cases hidle

include hok hs in
/-- A start that does not succeed has at most made the slot connected. -/
theorem startByType_failed (h : startByType w i registered = some (w', false)) :
    w.refuses (w.sockets i).fd registered ∧
      (w' = w ∨ w' = w.modify i fun s => { s with state := .kSocketConnected }) := by
  rcases startByType_cases h with ⟨-, hcreate⟩ | ⟨w₁, hcreate, heq⟩ | ⟨-, ht⟩
  · obtain ⟨hrefuse, hsame⟩ := aeCreateFileEvent_refuses hcreate
    exact ⟨hrefuse.mp rfl, Or.inl (hsame rfl)⟩
  · obtain ⟨hrefuse, hsame⟩ := aeCreateFileEvent_refuses hcreate
    exact ⟨hrefuse.mp rfl, Or.inr (heq.trans (hsame rfl))⟩
  · exact absurd ht (hok.typed hs)

include hok hs in
theorem startByType_started (h : startByType w i registered = some (w', true)) :
    ¬ w.refuses (w.sockets i).fd registered := by
  rcases startByType_cases h with ⟨-, hcreate⟩ | ⟨w₁, hcreate, heq⟩ | ⟨-, ht⟩
  · intro hrefuse
    cases (aeCreateFileEvent_refuses hcreate).1.mpr hrefuse
  · intro hrefuse
    cases (aeCreateFileEvent_refuses hcreate).1.mpr hrefuse
  · exact absurd ht (hok.typed hs)

include hok hs in
theorem startByType_moves (ho : opens) (h : startByType w i registered = some (w', true)) :
    Moves opens tidy unrecycled w w' := by
  rcases startByType_cases h with ⟨-, hcreate⟩ | ⟨w₁, hcreate, heq⟩ | ⟨-, ht⟩
  · exact .single (.accept i hs hcreate)
  · rw [heq]
    exact .single (.start i ho hs hcreate)
  · exact absurd ht (hok.typed hs)

end Connecting

theorem World.stopSlot_modify (f : Socket → Socket) (hfreed : ∀ s, (f s).freed = s.freed) :
    (w.modify i f).stopSlot i = w.stopSlot i := by
  have hfd : (f (w.sockets i)).fd = (w.sockets i).fd := by
    have h := congrArg Socket.fd (hfreed (w.sockets i))
    exact h
  have hid : (f (w.sockets i)).id = (w.sockets i).id := by
    have h := congrArg Socket.id (hfreed (w.sockets i))
    exact h
  have hcomp : Socket.freed ∘ f = Socket.freed := funext hfreed
  unfold World.stopSlot
  rw [World.modify_self, hfd, hid]
  split
  · rw [← World.closeFd_modify, World.modify_modify, hcomp]
  · rw [World.modify_modify, hcomp]

/-- A start of a connecting slot succeeds, or the slot is stopped. -/
theorem handleTcpSocketStart_cases {fromId id : Int} {k : Kernel} (hok : w.Ok)
    (hsome : tcpGetSocket w id = some i) (hs : (w.sockets i).state = .kSocketConnecting)
    (h : handleTcpSocketStart w fromId id k = some w') :
    startByType (w.modify i fun s => { s with fromId := fromId }) i k.registered =
        some (w', true) ∨
      w.refuses (w.sockets i).fd k.registered ∧
        w' = tcpError ((w.modify i fun s => { s with fromId := fromId }).stopSlot i) fromId id
          ("start sockfd (" ++ toString id ++ ") fail") := by
  unfold handleTcpSocketStart at h
  simp only [hsome] at h
  rw [if_neg (not_not.mpr hs)] at h
  have hok₁ : (w.modify i fun s => { s with fromId := fromId }).Ok :=
    hok.of_same (w.same_modify i fun _ => ⟨rfl, rfl, rfl, rfl⟩) rfl rfl rfl rfl
  have hs₁ : ((w.modify i fun s => { s with fromId := fromId }).sockets i).state =
      .kSocketConnecting := by
    rw [World.modify_self]
    exact hs
  obtain ⟨⟨w₂, started⟩, hstart, h⟩ := Option.bind_eq_some_iff.mp h
  cases started with
  | true =>
      cases h
      exact Or.inl hstart
  | false =>
      obtain ⟨hrefuse, hw₂⟩ := startByType_failed hok₁ hs₁ hstart
      rw [World.modify_self] at hrefuse
      obtain ⟨hid, hindex⟩ := hok₁.index_of_state (i := i) (by rw [hs₁]; decide)
      obtain ⟨w₃, hstop, h⟩ := Option.bind_eq_some_iff.mp h
      cases h
      have heq : w₃ = (w.modify i fun s => { s with fromId := fromId }).stopSlot i := by
        rcases hw₂ with rfl | rfl
        · rw [socketStop_eq hid hindex] at hstop
          exact (Option.some.inj hstop).symm
        · rw [socketStop_eq (by rw [World.modify_self]; exact hid)
            (by rw [World.modify_self]; exact hindex)] at hstop
          rw [← Option.some.inj hstop]
          exact World.stopSlot_modify (fun s => { s with state := .kSocketConnected }) fun _ => rfl
      exact Or.inr ⟨hrefuse, by rw [heq]⟩

theorem handleTcpSocketStart_moves {fromId id : Int} {k : Kernel} (ho : opens) (hok : w.Ok)
    (htidy : tidy → ∀ i, tcpGetSocket w id = some i → (w.sockets i).state = .kSocketConnecting →
      w.refuses (w.sockets i).fd k.registered →
        0 < (w.sockets i).fd ∧ (w.events (w.sockets i).fd).isNone = true)
    (h : handleTcpSocketStart w fromId id k = some w') : Moves opens tidy unrecycled w w' := by
  cases hget : tcpGetSocket w id with
  | none =>
      unfold handleTcpSocketStart at h
      rw [hget] at h
      cases h
      exact Moves.tcpError ..
  | some i =>
      by_cases hs : (w.sockets i).state = .kSocketConnecting
      · have hown : Moves opens tidy unrecycled w (w.modify i fun s => { s with fromId := fromId }) :=
          .single (.own i fromId (by rw [hs]; decide))
        have hs₁ : ((w.modify i fun s => { s with fromId := fromId }).sockets i).state =
            .kSocketConnecting := by
          rw [World.modify_self]
          exact hs
        rcases handleTcpSocketStart_cases hok hget hs h with hstart | ⟨hrefuse, rfl⟩
        · exact hown.trans (startByType_moves (hok.moves hown) hs₁ ho hstart)
        · refine (hown.tail (.stop i hs₁ fun ht => ?_)).trans (Moves.tcpError ..)
          rw [World.modify_self]
          exact htidy ht i hget hs hrefuse
      · unfold handleTcpSocketStart at h
        simp only [hget] at h
        rw [if_pos hs] at h
        cases h
        exact Moves.tcpError ..

-- ============================================================================
-- Steps
-- ============================================================================

/-- A request that opens a descriptor finds its slot without one. -/
def Vacant (w : World) (k : Kernel) : TcpRequest → Prop
  | .listen _ id _ _ _ | .connect _ id _ _ _ => ∀ i, tcpGetSocket w id = some i → k.fd ≠ -1 →
      (w.sockets i).state = .kSocketDisconnected
  | .asyncConnect _ id _ _ _ => ∀ i, tcpGetSocket w id = some i → k.fd ≠ -1 →
      (w.sockets i).state = .kSocketDisconnected ∧ (w.sockets i).fd < 0
  | .start _ _ | .close _ _ | .send _ _ _ | .stop => True

instance Vacant.decidable (w : World) (k : Kernel) : DecidablePred (Vacant w k)
  | .listen _ id _ _ _ | .connect _ id _ _ _ =>
      inferInstanceAs (Decidable (∀ i ∈ tcpGetSocket w id, k.fd ≠ -1 →
        (w.sockets i).state = .kSocketDisconnected))
  | .asyncConnect _ id _ _ _ =>
      inferInstanceAs (Decidable (∀ i ∈ tcpGetSocket w id, k.fd ≠ -1 →
        (w.sockets i).state = .kSocketDisconnected ∧ (w.sockets i).fd < 0))
  | .start _ _ | .close _ _ | .send _ _ _ | .stop => isTrue trivial

/-- A request that opens a descriptor finds its slot, and keeps the descriptor
    in it; a start that fails closes the descriptor of the slot. -/
def Tidy (w : World) (k : Kernel) : TcpRequest → Prop
  | .listen _ id _ _ _ => k.fd ≠ -1 → tcpGetSocket w id ≠ none
  | .asyncConnect _ id _ _ _ => k.fd ≠ -1 → tcpGetSocket w id = none
  | .start _ id => ∀ i, tcpGetSocket w id = some i → (w.sockets i).state = .kSocketConnecting →
      w.refuses (w.sockets i).fd k.registered →
        0 < (w.sockets i).fd ∧ (w.events (w.sockets i).fd).isNone = true
  | .connect _ _ _ _ _ | .close _ _ | .send _ _ _ | .stop => True

theorem handleEvent_moves {k : Kernel} {req : TcpRequest} (hok : w.Ok) (hvacant : Vacant w k req)
    (htidy : tidy → Tidy w k req)
    (hclaim : unrecycled → ∀ id, req.claim = some id → id ∉ w.claims ∧
      ∀ i, tcpGetSocket w id = some i → (w.sockets i).fd < 0)
    (h : handleEvent w k req = some w') : Moves True tidy unrecycled w w' := by
  cases req with
  | listen => exact handleTcpSocketListen_moves trivial hvacant htidy (fun hu => hclaim hu _ rfl) h
  | start => exact handleTcpSocketStart_moves trivial hok htidy h
  | connect => exact handleTcpSocketConnect_moves trivial hvacant (fun hu => hclaim hu _ rfl) h
  | asyncConnect => exact handleTcpSocketAsyncConnect_moves hok hvacant htidy h
  | close => exact handleTcpSocketClose_moves hok h
  | send => exact handleTcpSocketSend_moves hok h
  | stop =>
      cases h
      exact .refl

/-- The callback belongs to a slot in the state it is for. -/
theorem aeProcessEvent_moves {fd : Int} {mask : AeMask} {k : Kernel} (hok : w.Ok)
    (hnew : unrecycled → ∀ w₁ id, tcpGetReserveId w = some (w₁, id) → w₁.drawn ≤ w'.drawn →
      id ∉ w.claims)
    (h : aeProcessEvent w fd mask k = some w') : Moves True tidy unrecycled w w' := by
  cases mask with
  | readable =>
      simp only [aeProcessEvent] at h
      split at h
      · rename_i hr
        rcases hok.accepting fd hr with hproc | hproc
        · rw [hproc] at h
          exact onRead_moves hok (hok.reading fd hr hproc).1 h
        · rw [hproc] at h
          exact onAccept_moves trivial hok hnew h
      · cases h
  | writable =>
      simp only [aeProcessEvent] at h
      split at h
      · rename_i hw
        obtain ⟨hproc, hs, -⟩ := hok.writing fd hw
        rw [hproc] at h
        exact onWrite_moves hok hs h
      · cases h

/-- What a step is made of. -/
inductive StepMoves (opens tidy unrecycled : Prop) (w : World) : World → Prop where
  | moved {w' : World} (hm : Moves opens tidy unrecycled w w') : StepMoves opens tidy unrecycled w w'
  | posted (req : TcpRequest) (hreq : req.claim = none) :
      StepMoves opens tidy unrecycled w { w with em := w.em ++ [req] }
  | claimed {w' : World} {id : Int} (req : TcpRequest) (h : tcpGetReserveId w = some (w', id))
      (hreq : req.claim = some id) :
      StepMoves opens tidy unrecycled w { w' with em := w'.em ++ [req] }
  | handled {w' : World} (req : TcpRequest) (rest : List TcpRequest) (hem : w.em = req :: rest)
      (hm : Moves opens tidy unrecycled { w with em := rest } w') : StepMoves opens tidy unrecycled w w'

theorem tcpPostRequest_moves {id : Int} {req : TcpRequest} {full : Bool} (hreq : req.claim = none)
    (h : (tcpPostRequest w id req full).map Prod.fst = some w') :
    StepMoves opens tidy unrecycled w w' := by
  unfold tcpPostRequest at h
  split at h
  · obtain ⟨⟨w₁, ret⟩, hpost, heq⟩ := Option.map_eq_some_iff.mp h
    obtain ⟨w₂, hrecover, heq'⟩ := Option.map_eq_some_iff.mp hpost
    cases heq'
    cases heq
    exact .moved (tcpRecoverId_moves hrecover)
  · cases h
    exact .posted req hreq

theorem reserveAndPost_moves {r : Int → TcpRequest} {full : Bool}
    (hreq : ∀ id, (r id).claim = some id)
    (h : ((tcpGetReserveId w).bind fun p => tcpPostRequest p.1 p.2 (r p.2) full).map Prod.fst =
      some w') : StepMoves opens tidy unrecycled w w' := by
  obtain ⟨⟨w₃, ret⟩, hbind, heq⟩ := Option.map_eq_some_iff.mp h
  obtain ⟨⟨w₁, id⟩, hreserve, hpost⟩ := Option.bind_eq_some_iff.mp hbind
  unfold tcpPostRequest at hpost
  split at hpost
  · obtain ⟨w₂, hrecover, heq'⟩ := Option.map_eq_some_iff.mp hpost
    cases heq'
    cases heq
    exact .moved ((Relation.ReflTransGen.single (.reserve hreserve)).trans
      (tcpRecoverId_moves hrecover))
  · cases hpost
    cases heq
    exact .claimed _ hreserve (hreq id)

/-- The condition a step of the event loop puts on the next request. -/
def World.AtRequest (w : World) (P : World → Kernel → TcpRequest → Prop) : TcpOp → Prop
  | .handle k => ∀ req rest, w.em = req :: rest → P { w with em := rest } k req
  | _ => True

instance World.AtRequest.decidable {P : World → Kernel → TcpRequest → Prop}
    [∀ w k, DecidablePred (P w k)] (w : World) : DecidablePred (w.AtRequest P)
  | .handle k =>
      match h : w.em with
      | [] => isTrue fun req rest hem => by rw [h] at hem; cases hem
      | req :: rest =>
          decidable_of_iff (P { w with em := rest } k req)
            ⟨fun hP req' rest' hem => by rw [h] at hem; cases hem; exact hP, fun hP => hP req rest h⟩
  | .listen .. | .start .. | .connect .. | .asyncConnect .. | .close .. | .send .. | .stop _
  | .event .. => isTrue trivial

theorem tcp_step_moves {op : TcpOp} (hok : w.Ok) (hvacant : w.AtRequest Vacant op)
    (htidy : tidy → w.AtRequest Tidy op)
    (hclaims : unrecycled → w.claims.Nodup ∧
      ∀ id ∈ w.claims, ∀ i, tcpGetSocket w id = some i → (w.sockets i).fd < 0)
    (hnew : unrecycled → ∀ w₁ id, tcpGetReserveId w = some (w₁, id) → w₁.drawn ≤ w'.drawn →
      id ∉ w.claims)
    (h : tcpStep w op = some w') : StepMoves True tidy unrecycled w w' := by
  cases op with
  | listen => exact reserveAndPost_moves (r := fun id => .listen _ id _ _ _) (fun _ => rfl) h
  | start => exact tcpPostRequest_moves rfl h
  | connect => exact reserveAndPost_moves (r := fun id => .connect _ id _ _ _) (fun _ => rfl) h
  | asyncConnect =>
      exact reserveAndPost_moves (r := fun id => .asyncConnect _ id _ _ _) (fun _ => rfl) h
  | close => exact tcpPostRequest_moves rfl h
  | send => exact tcpPostRequest_moves rfl h
  | stop => exact tcpPostRequest_moves rfl h
  | handle k =>
      simp only [tcpStep] at h
      split at h
      · cases h
      · rename_i req rest hem
        have hrest : World.Ok { w with em := rest } :=
          hok.of_same (fun _ => Socket.Same.refl _) rfl rfl rfl rfl
        refine .handled req rest hem (handleEvent_moves hrest (hvacant req rest hem)
          (fun ht => htidy ht req rest hem) (fun hu id hid => ?_) h)
        -- the request is no longer among those that wait
        obtain ⟨hnodup, hwaiting⟩ := hclaims hu
        unfold World.claims at hnodup hwaiting
        rw [hem, List.filterMap_cons_some hid] at hnodup hwaiting
        exact ⟨(List.nodup_cons.mp hnodup).1, hwaiting id List.mem_cons_self⟩
  | event fd mask k => exact .moved (aeProcessEvent_moves hok hnew h)

theorem World.Ok.step_moves (hok : w.Ok) (hm : StepMoves opens tidy unrecycled w w') : w'.Ok := by
  cases hm with
  | moved hm => exact hok.moves hm
  | posted req hreq => exact hok.of_same (fun _ => Socket.Same.refl _) rfl rfl rfl rfl
  | claimed req h hreq =>
      have hm : Move opens tidy unrecycled w _ := .reserve h
      exact (hok.move hm).of_same (fun _ => Socket.Same.refl _) rfl rfl rfl rfl
  | handled req rest hem hm =>
      have hrest : World.Ok { w with em := rest } :=
        hok.of_same (fun _ => Socket.Same.refl _) rfl rfl rfl rfl
      exact hrest.moves hm

end Functions

end ZServer.Tcp
