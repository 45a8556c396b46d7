/-
  ZServer.Tcp.QueueFull

  Calls whose `emPush` fails because the queue is full.  `tcpPostRequest` recovers
  the id it was given, whether the call has reserved it or has only been told it.
-/

import ZServer.Lib.Transition
import ZServer.Tcp.Moves

namespace ZServer.Tcp

open Lib

-- ============================================================================
-- Calls
-- ============================================================================

/-- A call of a service that posts a request. -/
inductive TcpCall where
  | listen (fromId protoType : Int) (addr : String) (port : Int)
  | start (fromId id : Int)
  | connect (fromId protoType : Int) (addr : String) (port : Int)
  | asyncConnect (fromId protoType : Int) (addr : String) (port : Int)
  | close (fromId id : Int)
  | send (fromId : Int) (ids : List Int) (data : Option (List UInt8))
  deriving DecidableEq, Repr

def TcpCall.run (w : World) (full : Bool) : TcpCall → Option (World × Int)
  | .listen fromId protoType addr port => tcpSocketListen w fromId protoType addr port full
  | .start fromId id => tcpSocketStart w fromId id full
  | .connect fromId protoType addr port => tcpSocketConnect w fromId protoType addr port full
  | .asyncConnect fromId protoType addr port =>
      tcpSocketAsyncConnect w fromId protoType addr port full
  | .close fromId id => tcpSocketClose w fromId id full
  | .send fromId ids data => tcpSocketSend w fromId ids data full

/-- Whether the call reserves an id. -/
def TcpCall.reserves : TcpCall → Bool
  | .listen _ _ _ _ | .connect _ _ _ _ | .asyncConnect _ _ _ _ => true
  | .start _ _ | .close _ _ | .send _ _ _ => false

/-- The slot the call reserves. -/
def TcpCall.slot (w : World) (call : TcpCall) : Option Nat :=
  if call.reserves then (tcpGetReserveId w).map fun r => getIndex w r.2 else none

/-- The payload the call takes over. -/
def TcpCall.payload : TcpCall → Option (List UInt8)
  | .send _ _ data => data
  | .listen _ _ _ _ | .start _ _ | .connect _ _ _ _ | .asyncConnect _ _ _ _ | .close _ _ => none

/-- The call gets as far as `emPush`: there is a slot for the id it reserves. -/
def TcpCall.Posts (w : World) (call : TcpCall) : Prop :=
  call.reserves = true → tcpGetReserveId w ≠ none

/-- What a failed call leaves as it was. -/
structure Undone (w w' : World) (call : TcpCall) : Prop where
  reserved : ∀ i, call.slot w = some i →
    (w.sockets i).type = .kSocketNoneType ∧ (w'.sockets i).type = .kSocketNoneType
  others : ∀ i, call.slot w ≠ some i → w'.sockets i = w.sockets i
  freed : ∀ data, call.payload = some data → .freed data ∈ w'.log.drop w.log.length

/-- The queue is full, and the call fails without a trace. -/
def FailsCleanly (w : World) (call : TcpCall) : Prop :=
  ∃ w' ret, call.run w true = some (w', ret) ∧ ret < 0 ∧ Undone w w' call

/-- The slot that is recovered is one nobody uses, and there is no payload. -/
def TcpCall.Harmless (w : World) : TcpCall → Prop
  | .listen _ _ _ _ | .connect _ _ _ _ | .asyncConnect _ _ _ _ =>
      ∀ r, tcpGetReserveId w = some r →
        (w.sockets (getIndex w r.2)).state = .kSocketDisconnected
  | .start _ id | .close _ id => id < 0 ∨
      (w.sockets (getIndex w id)).state = .kSocketDisconnected ∧
        (w.sockets (getIndex w id)).type = .kSocketNoneType
  | .send _ _ data => data = none

-- ============================================================================
-- When a call fails cleanly
-- ============================================================================

section

variable {w : World}

/-- The id was only named by the call. -/
theorem named_fails_cleanly_iff {call : TcpCall} {id : Int} {r : TcpRequest}
    (hreserves : call.reserves = false) (hpayload : call.payload = none)
    (hrun : call.run w true = tcpPostRequest w id r true) :
    FailsCleanly w call ↔ id < 0 ∨
      (w.sockets (getIndex w id)).state = .kSocketDisconnected ∧
        (w.sockets (getIndex w id)).type = .kSocketNoneType := by
  have hslot : call.slot w = none := by
    unfold TcpCall.slot
    rw [hreserves]
    rfl
  unfold FailsCleanly
  rw [hrun]
  unfold tcpPostRequest
  rw [if_pos rfl]
  constructor
  · rintro ⟨w', ret, hrecover, -, hundone⟩
    by_cases hid : id < 0
    · exact Or.inl hid
    · obtain ⟨w₁, hfree, heq⟩ := Option.map_eq_some_iff.mp hrecover
      cases heq
      have hs := tcpRecoverId_state (not_lt.mp hid) hfree
      rw [tcpRecoverId_eq (not_lt.mp hid) rfl hs] at hfree
      cases hfree
      -- the slot has been freed, and it is as it was
      have hsame := hundone.others (getIndex w id) (by rw [hslot]; rintro ⟨⟩)
      rw [World.modify_self] at hsame
      exact Or.inr ⟨hs, (congrArg Socket.type hsame).symm⟩
  · intro h
    have hundone : ∀ w', (∀ i, w'.sockets i = w.sockets i) → Undone w w' call := by
      intro w' hsockets
      refine ⟨fun i hi => ?_, fun i _ => hsockets i, fun data hdata => ?_⟩
      · rw [hslot] at hi
        cases hi
      · rw [hpayload] at hdata
        cases hdata
    rcases h with hid | ⟨hs, ht⟩
    · have hrecover : tcpRecoverId w id = some w := if_pos hid
      exact ⟨w, -1, by rw [hrecover]; rfl, by decide, hundone w fun _ => rfl⟩
    · by_cases hid : id < 0
      · have hrecover : tcpRecoverId w id = some w := if_pos hid
        exact ⟨w, -1, by rw [hrecover]; rfl, by decide, hundone w fun _ => rfl⟩
      · refine ⟨_, -1, by rw [tcpRecoverId_eq (not_lt.mp hid) rfl hs]; rfl, by decide,
          hundone _ fun i => ?_⟩
        by_cases hi : i = getIndex w id
        · subst hi
          rw [World.modify_self, ← ht]
        · exact World.modify_of_ne w hi _

/-- The id was reserved by the call. -/
theorem reserved_fails_cleanly_iff {call : TcpCall} {r : Int → TcpRequest}
    (hreserves : call.reserves = true) (hpayload : call.payload = none)
    (hrun : call.run w true =
      (tcpGetReserveId w).bind fun p => tcpPostRequest p.1 p.2 (r p.2) true)
    (hposts : call.Posts w) :
    FailsCleanly w call ↔ ∀ p, tcpGetReserveId w = some p →
      (w.sockets (getIndex w p.2)).state = .kSocketDisconnected := by
  obtain ⟨⟨w₁, id⟩, hreserve⟩ := Option.ne_none_iff_exists'.mp (hposts hreserves)
  obtain ⟨a, d, hres⟩ := tcpGetReserveId_reserved hreserve
  have hslot : call.slot w = some (getIndex w id) := by
    unfold TcpCall.slot
    rw [hreserves, hreserve]
    rfl
  have hindex : getIndex w₁ id = getIndex w id := by
    rw [hres.eq]
    rfl
  have hself : w₁.sockets (getIndex w id) = (w.sockets (getIndex w id)).reserved id := by
    rw [hres.eq]
    exact World.modify_self ..
  have hother : ∀ i, i ≠ getIndex w id → w₁.sockets i = w.sockets i := by
    intro i hi
    rw [hres.eq]
    exact World.modify_of_ne _ hi _
  have hpost : call.run w true = (tcpRecoverId w₁ id).map fun w => (w, -1) := by
    rw [hrun, hreserve]
    rfl
  unfold FailsCleanly
  rw [hpost]
  constructor
  · rintro ⟨w', ret, hrecover, -, -⟩ p hp
    cases hreserve.symm.trans hp
    obtain ⟨w₂, hfree, -⟩ := Option.map_eq_some_iff.mp hrecover
    have hs := tcpRecoverId_state hres.nonneg hfree
    rw [hindex, hself] at hs
    exact hs
  · intro hidle
    have hs : (w₁.sockets (getIndex w id)).state = .kSocketDisconnected := by
      rw [hself]
      exact hidle _ hreserve
    refine ⟨_, -1, by rw [tcpRecoverId_eq hres.nonneg hindex hs]; rfl, by decide, ?_, ?_, ?_⟩
    · intro i hi
      cases hslot.symm.trans hi
      refine ⟨hres.was_free, ?_⟩
      rw [World.modify_self]
    · intro i hi
      have hne : i ≠ getIndex w id := by
        rintro rfl
        exact hi hslot
      rw [World.modify_of_ne _ hne, hother i hne]
    · intro data hdata
      rw [hpayload] at hdata
      cases hdata

/-- The payload of a send is nobody's any more. -/
theorem send_fails_cleanly_iff (fromId : Int) (ids : List Int) (data : Option (List UInt8)) :
    FailsCleanly w (.send fromId ids data) ↔ data = none := by
  have hrun : (TcpCall.send fromId ids data).run w true = some (w, -1) := rfl
  unfold FailsCleanly
  rw [hrun]
  constructor
  · rintro ⟨w', ret, heq, -, hundone⟩
    cases heq
    rw [Option.eq_none_iff_forall_ne_some]
    intro payload hdata
    have hfreed := hundone.freed payload hdata
    rw [List.drop_length] at hfreed
    cases hfreed
  · intro hdata
    refine ⟨w, -1, rfl, by decide, ?_, fun _ _ => rfl, ?_⟩
    · intro i hi
      cases hi
    · intro payload hpayload
      rw [show (TcpCall.send fromId ids data).payload = data from rfl, hdata] at hpayload
      cases hpayload

/-- Ids that a call has reserved itself are recovered. -/
theorem World.Ok.harmless (h : w.Ok) {call : TcpCall} (hreserves : call.reserves = true) :
    call.Harmless w := by
  have hidle : ∀ r, tcpGetReserveId w = some r →
      (w.sockets (getIndex w r.2)).state = .kSocketDisconnected := by
    intro r hr
    obtain ⟨a, d, hres⟩ := tcpGetReserveId_reserved hr
    exact h.free _ (Or.inl hres.was_free)
  cases call with
  | listen | connect | asyncConnect => exact hidle
  | start | close | send => cases hreserves

theorem fails_cleanly_iff (w : World) (call : TcpCall) (hposts : call.Posts w) :
    FailsCleanly w call ↔ call.Harmless w := by
  cases call with
  | listen => exact reserved_fails_cleanly_iff (r := fun id => .listen _ id _ _ _) rfl rfl rfl hposts
  | connect =>
      exact reserved_fails_cleanly_iff (r := fun id => .connect _ id _ _ _) rfl rfl rfl hposts
  | asyncConnect =>
      exact reserved_fails_cleanly_iff (r := fun id => .asyncConnect _ id _ _ _) rfl rfl rfl hposts
  | start fromId id =>
      exact named_fails_cleanly_iff (r := .start fromId id) rfl rfl rfl
  | close fromId id =>
      exact named_fails_cleanly_iff (r := .close fromId id) rfl rfl rfl
  | send => exact send_fails_cleanly_iff ..

end

theorem fails_cleanly_iff_free : FailsCleanly (tcpInit 4 64) (.close 1 1) ↔
    TcpCall.Harmless (tcpInit 4 64) (.close 1 1) :=
  fails_cleanly_iff _ _ (by rintro ⟨⟩)

/-- A service closes a connection that is under way. -/
theorem close_fails_uncleanly : ¬ ∀ (w : World) (call : TcpCall),
    Reachable tcpStep (tcpInit 4 64) w → call.Posts w → FailsCleanly w call := by
  intro h
  let ops : List TcpOp := [.connect 1 1 "127.0.0.1" 80 false, .handle { fd := 7 }]
  obtain ⟨w', ret, hrun, -⟩ := h _ (.close 1 1) ⟨ops, rfl⟩ (by rintro ⟨⟩)
  cases hrun

end ZServer.Tcp
