/-
  ZServer.Game.NewestWins

  Of two connections of a user the newest one wins: the other is told to close, and its
  close does not touch the player any more.

  `CMD.data` tells the newest one to close, and `CMD.close` does not look at the
  connection that the player is bound to.  So this holds in a run of the hall just in
  case no data arrives for a user that is bound to another connection, and no player is
  removed while a connection of the user is there.
-/

import ZServer.Game.Hall

namespace ZServer
namespace Game

open Lib

variable {V : Type}

-- ============================================================================
-- Statements
-- ============================================================================

structure NewestWins (H : Hall V) : Prop where
  /-- the old connection is told to close, and the player bound to the new one -/
  told : ∀ k ∈ H.kicks, k.told = [k.old] ∧ k.bound = some k.new
  /-- the close of a connection that has been kicked does nothing -/
  late : ∀ l ∈ H.lates, l.saved = false
  /-- a user has one connection at most, and the player is bound to it -/
  one : ∀ uid sockfd, (uid, sockfd) ∈ H.opens → H.bound uid = some sockfd

/-- The user is bound to no other connection when data arrives, and has no connection
    when its player is removed. -/
def KeepsOne (H : Hall V) : HallEvent V → Prop
  | .data sockfd uid _ _ _ => ∀ old, H.bound uid = some old → old = sockfd
  | .close _ _ _ => True
  | .answer co answer => ∀ player uid, H.handlers co = some (.save player uid) →
      answer ≠ .error → ∀ sockfd, (uid, sockfd) ∉ H.opens

-- ============================================================================
-- What data and a close do
-- ============================================================================

section Handlers

variable {H : Hall V} {sockfd : Sockfd} {uid : Uid}

theorem bound_eq_some {s : Sockfd} (h : H.bound uid = some s) :
    ∃ player, H.gPlayerManager uid = some player ∧ (H.players player).sockfd = s :=
  Option.map_eq_some_iff.mp h

theorem cmdData_bound (h : H.bound uid = some sockfd) (called : Bool) (data : Option (Tables V))
    (errno : Option Int) : SamePlayers H (H.cmdData sockfd uid called data errno) := by
  obtain ⟨player, hplayer, hsockfd⟩ := bound_eq_some h
  unfold Hall.cmdData Hall.getPlayer
  simp only [hplayer]
  unfold Hall.bindSocket
  rw [if_neg (not_not.mpr hsockfd)]
  exact onMessage_same H player sockfd uid called data errno

/-- A new player is bound to the connection. -/
theorem cmdData_new (h : H.gPlayerManager uid = none) (called : Bool) (data : Option (Tables V))
    (errno : Option Int) :
    SamePlayers { H.setPlayer H.next ⟨sockfd, 0, fun _ => none, uid⟩ with
        gPlayerManager := Function.update H.gPlayerManager uid (some H.next)
        next := H.next + 1
        touched := Function.update H.touched H.next true }
      (H.cmdData sockfd uid called data errno) := by
  unfold Hall.cmdData Hall.getPlayer
  simp only [h]
  unfold Hall.bindSocket
  rw [if_neg ?_]
  · exact onMessage_same _ H.next sockfd uid called data errno
  · refine not_not.mpr ?_
    show (Function.update H.players H.next _ H.next).sockfd = _
    rw [Function.update_self]

/-- The newest connection is told to close. -/
theorem cmdData_other {old : Sockfd} (h : H.bound uid = some old) (hne : old ≠ sockfd)
    (called : Bool) (data : Option (Tables V)) (errno : Option Int) :
    (H.cmdData sockfd uid called data errno).socketClosed = H.socketClosed ++ [sockfd] ∧
      (H.cmdData sockfd uid called data errno).kicks = H.kicks := by
  obtain ⟨player, hplayer, hsockfd⟩ := bound_eq_some h
  unfold Hall.cmdData Hall.getPlayer
  simp only [hplayer]
  unfold Hall.bindSocket
  rw [if_pos (by rw [hsockfd]; exact hne)]
  have hsame := onMessage_same { H.setPlayer player { H.players player with sockfd := sockfd } with
    socketClosed := H.socketClosed ++ [sockfd] } player sockfd uid called data errno
  exact ⟨hsame.socketClosed, hsame.kicks⟩

end Handlers

-- ============================================================================
-- Runs
-- ============================================================================

/-- Nobody has been kicked. -/
structure KeptOne (H : Hall V) : Prop where
  kicks : H.kicks = []
  lates : H.lates = []
  one : ∀ uid sockfd, (uid, sockfd) ∈ H.opens → H.bound uid = some sockfd
  lt : ∀ uid player, H.gPlayerManager uid = some player → player < H.next

section Runs

variable {H H' : Hall V}

theorem KeptOne.newestWins (h : KeptOne H) : NewestWins H := by
  refine ⟨?_, ?_, h.one⟩
  · rw [h.kicks]
    rintro _ ⟨⟩
  · rw [h.lates]
    rintro _ ⟨⟩

/-- The user is bound to the connection, and nobody has been told to close. -/
structure BoundTo (H H' : Hall V) (sockfd : Sockfd) (uid : Uid) : Prop where
  opens : H'.opens = H.opens
  kicks : H'.kicks = []
  lates : H'.lates = []
  self : H'.bound uid = some sockfd
  others : ∀ u s, H.bound u = some s → H'.bound u = some s
  lt : ∀ u player, H'.gPlayerManager u = some player → player < H'.next

theorem KeptOne.boundTo_known (h : KeptOne H) {sockfd : Sockfd} {uid : Uid}
    (hself : H.bound uid = some sockfd) (called : Bool) (data : Option (Tables V))
    (errno : Option Int) :
    BoundTo H (H.cmdData sockfd uid called data errno) sockfd uid := by
  have hsame := cmdData_bound hself called data errno
  exact ⟨hsame.opens, hsame.kicks.trans h.kicks, hsame.lates.trans h.lates,
    (hsame.bound uid).trans hself, fun u s hs => (hsame.bound u).trans hs, hsame.lt h.lt⟩

theorem KeptOne.boundTo_new (h : KeptOne H) {uid : Uid} (hplayer : H.gPlayerManager uid = none)
    (sockfd : Sockfd) (called : Bool) (data : Option (Tables V)) (errno : Option Int) :
    BoundTo H (H.cmdData sockfd uid called data errno) sockfd uid := by
  have hsame := @cmdData_new V H sockfd uid hplayer called data errno
  have hothers : ∀ u, u ≠ uid → (H.cmdData sockfd uid called data errno).bound u = H.bound u := by
    intro u hu
    rw [hsame.bound]
    unfold Hall.bound
    show (Function.update H.gPlayerManager uid (some H.next) u).map _ = _
    rw [Function.update_of_ne hu]
    cases hp : H.gPlayerManager u with
    | none => rfl
    | some p =>
        have hne : p ≠ H.next := Nat.ne_of_lt (h.lt u p hp)
        show some (Function.update H.players H.next _ p).sockfd = _
        rw [Function.update_of_ne hne]
        rfl
  refine ⟨hsame.opens, hsame.kicks.trans h.kicks, hsame.lates.trans h.lates, ?_, fun u s hs => ?_,
    hsame.lt (players_lt_new h.lt uid)⟩
  · rw [hsame.bound]
    unfold Hall.bound
    show (Function.update H.gPlayerManager uid (some H.next) uid).map _ = _
    rw [Function.update_self]
    show some (Function.update H.players H.next _ H.next).sockfd = _
    rw [Function.update_self]
  · have hu : u ≠ uid := by
      rintro rfl
      unfold Hall.bound at hs
      rw [hplayer] at hs
      cases hs
    rw [hothers u hu, hs]

/-- Data of a user that is bound to the connection, or to none. -/
theorem KeptOne.data (h : KeptOne H) {sockfd : Sockfd} {uid : Uid}
    (hbound : ∀ old, H.bound uid = some old → old = sockfd) (called : Bool)
    (data : Option (Tables V)) (errno : Option Int) :
    KeptOne ((H.cmdData sockfd uid called data errno).noteData H sockfd uid) := by
  have hafter : BoundTo H (H.cmdData sockfd uid called data errno) sockfd uid := by
    cases hplayer : H.gPlayerManager uid with
    | none => exact h.boundTo_new hplayer sockfd called data errno
    | some player =>
        have hsome : H.bound uid = some (H.players player).sockfd := by
          unfold Hall.bound
          rw [hplayer]
          rfl
        exact h.boundTo_known (by rw [hsome, hbound _ hsome]) called data errno
  refine ⟨?_, hafter.lates, fun u s hmem => ?_, hafter.lt⟩
  · unfold Hall.noteData
    simp only [hafter.kicks]
    cases hb : H.bound uid with
    | none => rfl
    | some old =>
        simp only
        rw [if_neg (not_not.mpr (hbound old hb))]
  · show (H.cmdData sockfd uid called data errno).bound u = some s
    rcases List.mem_cons.mp (List.mem_filter.mp hmem).1 with heq | hmem
    · cases heq
      exact hafter.self
    · rw [hafter.opens] at hmem
      exact hafter.others u s (h.one u s hmem)

theorem KeptOne.close (h : KeptOne H) (sockfd : Sockfd) (uid : Uid) (called : Bool) :
    KeptOne ((H.cmdClose uid called).noteClose H sockfd uid) := by
  have hlates : ∀ H₁ : Hall V, H₁.kicks = [] → H₁.lates = [] →
      (H₁.noteClose H sockfd uid).lates = [] := by
    intro H₁ hkicks hlates
    unfold Hall.noteClose
    simp only [hkicks, hlates]
    rw [if_neg]
    rintro ⟨⟨k, hk, -⟩, -⟩
    cases hk
  rcases cmdClose_cases H uid called with heq | ⟨player, -, heq⟩
  · rw [heq]
    exact ⟨h.kicks, hlates _ h.kicks h.lates,
      fun u s hmem => h.one u s (List.mem_filter.mp hmem).1, h.lt⟩
  · rw [heq]
    exact ⟨h.kicks, hlates _ h.kicks h.lates,
      fun u s hmem => h.one u s (List.mem_filter.mp hmem).1, h.lt⟩

theorem KeptOne.same (h : KeptOne H) (hsame : SamePlayers H H') : KeptOne H' := by
  refine ⟨hsame.kicks.trans h.kicks, hsame.lates.trans h.lates, fun u s hmem => ?_, hsame.lt h.lt⟩
  rw [hsame.opens] at hmem
  exact (hsame.bound u).trans (h.one u s hmem)

/-- The player of a user without a connection is removed. -/
theorem KeptOne.remove (h : KeptOne H) {uid : Uid} (hnone : ∀ sockfd, (uid, sockfd) ∉ H.opens)
    (handlers : CoId → Option HallWait) :
    KeptOne { H with
      handlers := handlers
      gPlayerManager := Function.update H.gPlayerManager uid none } := by
  refine ⟨h.kicks, h.lates, fun u s hmem => ?_, players_lt_removed h.lt uid⟩
  have hu : u ≠ uid := by
    rintro rfl
    exact hnone s hmem
  unfold Hall.bound
  show (Function.update H.gPlayerManager uid none u).map _ = _
  rw [Function.update_of_ne hu]
  exact h.one u s hmem

theorem KeptOne.step (h : KeptOne H) {e : HallEvent V} (hs : hallStep H e = some H')
    (hok : KeepsOne H e) : KeptOne H' := by
  cases e with
  | data sockfd uid called data errno =>
      cases hs
      exact h.data hok called data errno
  | close sockfd uid called =>
      cases hs
      exact h.close sockfd uid called
  | answer co answer =>
      rcases hallStep_answer hs with hsame | ⟨player, uid, hw, herror, rfl⟩
      · exact h.same hsame
      · exact h.remove (hok player uid hw herror) _

/-- A step that does not keep to one connection breaks it. -/
theorem NewestWins.keepsOne (hwins : NewestWins H') {e : HallEvent V}
    (hs : hallStep H e = some H') : KeepsOne H e := by
  cases e with
  | data sockfd uid called data errno =>
      cases hs
      intro old hold
      by_contra hne
      obtain ⟨hclosed, hkicks⟩ := cmdData_other hold hne called data errno
      have hkick : (⟨uid, old, sockfd, [sockfd], (H.cmdData sockfd uid called data errno).bound uid⟩ :
          Kick) ∈ ((H.cmdData sockfd uid called data errno).noteData H sockfd uid).kicks := by
        unfold Hall.noteData
        simp only [hold, if_pos hne, hclosed, List.drop_left]
        exact List.mem_append_right _ (List.mem_singleton_self _)
      have htold := (hwins.told _ hkick).1
      exact hne (List.singleton_inj.mp htold).symm
  | close sockfd uid called => trivial
  | answer co answer =>
      intro player uid hw herror sockfd hmem
      simp only [hallStep, hw] at hs
      cases answer with
      | error => exact herror rfl
      | ret ret data now =>
          cases hs
          have hone := hwins.one uid sockfd hmem
          unfold Hall.bound at hone
          have hnone : (Function.update H.gPlayerManager uid none uid).map
              (fun player => (H.players player).sockfd) = some sockfd := hone
          rw [Function.update_self] at hnone
          cases hnone

/-- The newest connection wins throughout a run of the hall just in case every step of
    the run keeps to one connection. -/
theorem newestWins_iff (es : List (HallEvent V)) :
    Always hallStep NewestWins hallInit es ↔ AllSteps hallStep KeepsOne hallInit es :=
  always_iff_allSteps (J := KeptOne) (fun _ h => h.newestWins) (fun _ _ _ h hs hok => h.step hs hok)
    (fun _ _ _ _ hs hwins => hwins.keepsOne hs) ⟨rfl, rfl, by rintro _ _ ⟨⟩, by rintro _ _ ⟨⟩⟩

end Runs

/-- A user logs in again on connection 2: this one is told to close, and the close of
    connection 1 saves and removes the player that is bound to connection 2. -/
theorem newest_loses : ∃ H H' : Hall Nat,
    runFrom hallStep hallInit [.data 1 7 true none none, .data 2 7 true none none] = some H ∧
      H.socketClosed = [2] ∧ H.bound 7 = some 2 ∧ ¬NewestWins H ∧
      runFrom hallStep H [.close 1 7 true, .answer 1 (.ret true (fun _ => none) 0)] = some H' ∧
      H'.lates = [⟨7, 1, true⟩] ∧ H'.gPlayerManager 7 = none := by
  refine ⟨_, _, rfl, rfl, rfl, fun hwins => ?_, rfl, rfl, rfl⟩
  have htold := (hwins.told ⟨7, 1, 2, [2], some 2⟩ (List.mem_singleton_self _)).1
  exact absurd htold (by decide)

end Game
end ZServer
