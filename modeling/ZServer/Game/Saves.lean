/-
  ZServer.Game.Saves

  No update of a player is lost: when a player is removed, or replaced by another one,
  what has last been sent to be saved for the user is the data of the player.

  `CMD.close` sends the data of the player, waits for db_srv, and removes whatever
  player the user has then.  Meanwhile the connection may send data: a module changes
  the player, or the user logs in again with a new player.  No update is lost in a run
  of the hall in which this does not happen.
-/

import ZServer.Game.Hall

namespace ZServer
namespace Game

open Lib

variable {V : Type}

-- ============================================================================
-- Statements
-- ============================================================================

/-- A player that the step removes, or replaces, has been sent to be saved as it is. -/
def KeepsUpdates (H : Hall V) (e : HallEvent V) : Prop :=
  ∀ H', hallStep H e = some H' → ∀ uid player, H.gPlayerManager uid = some player →
    H'.gPlayerManager uid ≠ some player →
      ∃ save, H.lastSave uid = some save ∧ save.data = (H.players player).data

/-- When a close has been answered, the player of the user is the one that was last sent
    to be saved, and nothing has changed its data since. -/
def SavedLast (H : Hall V) : HallEvent V → Prop
  | .data _ _ _ _ _ => True
  | .close _ _ _ => True
  | .answer co answer => ∀ sent uid, H.handlers co = some (.save sent uid) → answer ≠ .error →
      ∀ player, H.gPlayerManager uid = some player →
        ∃ save, H.lastSave uid = some save ∧ save.player = player ∧ H.touched player = false

-- ============================================================================
-- What has been sent
-- ============================================================================

/-- What was last sent of a player that nothing has changed since is its data. -/
structure Saved (H : Hall V) : Prop where
  data : ∀ uid save, H.lastSave uid = some save → H.touched save.player = false →
    save.data = (H.players save.player).data
  owner : ∀ save ∈ H.saves, save.uid = (H.players save.player).uid ∧ save.player < H.next
  lt : ∀ uid player, H.gPlayerManager uid = some player → player < H.next

section Saved

variable {H H' : Hall V}

theorem lastSave_mem {uid : Uid} {save : Save V} (h : H.lastSave uid = some save) :
    save ∈ H.saves ∧ save.uid = uid := by
  have hmem : save ∈ H.saves.filter fun s => s.uid = uid := List.mem_of_getLast? h
  rw [List.mem_filter, decide_eq_true_eq] at hmem
  exact hmem

theorem lastSave_congr (h : H'.saves = H.saves) (uid : Uid) : H'.lastSave uid = H.lastSave uid := by
  unfold Hall.lastSave
  rw [h]

theorem Saved.same (h : Saved H) (hsame : SamePlayers H H') : Saved H' := by
  refine ⟨fun uid save hlast htouched => ?_, fun save hmem => ?_, hsame.lt h.lt⟩
  · rw [lastSave_congr hsame.saves] at hlast
    obtain ⟨hbefore, hdata⟩ := hsame.data save.player htouched
    rw [hdata]
    exact h.data uid save hlast hbefore
  · rw [hsame.saves] at hmem
    rw [hsame.uid, hsame.next]
    exact h.owner save hmem

/-- A new player has not been sent. -/
theorem Saved.getPlayer (h : Saved H) (sockfd : Sockfd) (uid : Uid) :
    Saved (H.getPlayer sockfd uid).1 := by
  unfold Hall.getPlayer
  split
  · exact h
  · refine ⟨fun u save hlast htouched => ?_, fun save hmem => ?_, players_lt_new h.lt uid⟩
    · have hlast : H.lastSave u = some save := hlast
      have hne : save.player ≠ H.next := Nat.ne_of_lt (h.owner save (lastSave_mem hlast).1).2
      have htouched : Function.update H.touched H.next true save.player = false := htouched
      rw [Function.update_of_ne hne] at htouched
      show _ = (Function.update H.players H.next _ save.player).data
      rw [Function.update_of_ne hne]
      exact h.data u save hlast htouched
    · obtain ⟨howner, hlt⟩ := h.owner save hmem
      show save.uid = (Function.update H.players H.next _ save.player).uid ∧ _
      rw [Function.update_of_ne (Nat.ne_of_lt hlt)]
      exact ⟨howner, Nat.lt_succ_of_lt hlt⟩

theorem Saved.bindSocket (h : Saved H) (player : PlayerRef) (sockfd : Sockfd) :
    Saved (H.bindSocket player sockfd) := by
  unfold Hall.bindSocket
  split
  · have hfield := @setPlayer_field V H player { H.players player with sockfd := sockfd }
    refine ⟨fun u save hlast htouched => ?_, fun save hmem => ?_, h.lt⟩
    · exact (h.data u save hlast htouched).trans (hfield Player.data rfl save.player).symm
    · obtain ⟨howner, hlt⟩ := h.owner save hmem
      exact ⟨howner.trans (hfield Player.uid rfl save.player).symm, hlt⟩
  · exact h

theorem Saved.cmdData (h : Saved H) (sockfd : Sockfd) (uid : Uid) (called : Bool)
    (data : Option (Tables V)) (errno : Option Int) :
    Saved (H.cmdData sockfd uid called data errno) :=
  ((h.getPlayer sockfd uid).bindSocket _ sockfd).same
    (onMessage_same _ (H.getPlayer sockfd uid).2 sockfd uid called data errno)

/-- The player that is sent is the last one of its user; other users' are other players. -/
theorem Saved.sent (h : Saved H) {player : PlayerRef} (hlt : player < H.next) (w : HallWait) :
    Saved { H.wait w with
      saves := H.saves ++ [⟨(H.players player).uid, player, (H.players player).data⟩]
      touched := Function.update H.touched player false } := by
  refine ⟨fun uid save hlast htouched => ?_, fun save hmem => ?_, h.lt⟩
  · have hlast : List.getLast? (List.filter (fun s : Save V => s.uid = uid)
        (H.saves ++ [⟨(H.players player).uid, player, (H.players player).data⟩])) = some save :=
      hlast
    rw [List.filter_append] at hlast
    by_cases huid : (H.players player).uid = uid
    · rw [List.filter_cons_of_pos (by simpa using huid), List.filter_nil,
        List.getLast?_concat] at hlast
      cases hlast
      rfl
    · rw [List.filter_cons_of_neg (by simpa using huid), List.filter_nil, List.append_nil] at hlast
      have hbefore : H.lastSave uid = some save := hlast
      have hne : save.player ≠ player := by
        rintro rfl
        obtain ⟨hmem, rfl⟩ := lastSave_mem hbefore
        exact huid (h.owner save hmem).1.symm
      have htouched : Function.update H.touched player false save.player = false := htouched
      rw [Function.update_of_ne hne] at htouched
      exact h.data uid save hbefore htouched
  · rcases List.mem_append.mp hmem with hold | hnew
    · exact h.owner save hold
    · rw [List.mem_singleton] at hnew
      subst hnew
      exact ⟨rfl, hlt⟩

theorem Saved.cmdClose (h : Saved H) (uid : Uid) (called : Bool) :
    Saved (H.cmdClose uid called) := by
  rcases cmdClose_cases H uid called with heq | ⟨player, hplayer, heq⟩
  · rw [heq]
    exact h
  · rw [heq]
    exact h.sent (h.lt uid player hplayer) _

theorem Saved.step (h : Saved H) {e : HallEvent V} (hs : hallStep H e = some H') : Saved H' := by
  cases e with
  | data sockfd uid called data errno =>
      cases hs
      obtain ⟨hdata, howner, hlt⟩ := h.cmdData sockfd uid called data errno
      exact ⟨hdata, howner, hlt⟩
  | close sockfd uid called =>
      cases hs
      obtain ⟨hdata, howner, hlt⟩ := h.cmdClose uid called
      exact ⟨hdata, howner, hlt⟩
  | answer co answer =>
      rcases hallStep_answer hs with hsame | ⟨player, uid, -, -, rfl⟩
      · exact h.same hsame
      · exact ⟨h.data, h.owner, players_lt_removed h.lt uid⟩

end Saved

-- ============================================================================
-- Runs
-- ============================================================================

section Runs

variable {H : Hall V}

/-- Data of a connection leaves the players where they are. -/
theorem cmdData_keeps (sockfd : Sockfd) (uid : Uid) (called : Bool) (data : Option (Tables V))
    (errno : Option Int) {u : Uid} {player : PlayerRef}
    (hplayer : H.gPlayerManager u = some player) :
    (H.cmdData sockfd uid called data errno).gPlayerManager u = some player := by
  have hbind : ∀ (H₁ : Hall V) p, (H₁.bindSocket p sockfd).gPlayerManager = H₁.gPlayerManager := by
    intro H₁ p
    unfold Hall.bindSocket
    split
    · rfl
    · rfl
  unfold Hall.cmdData
  rw [(onMessage_same _ _ sockfd uid called data errno).gPlayerManager, hbind]
  unfold Hall.getPlayer
  split
  case h_1 => exact hplayer
  case h_2 hnone =>
    have hu : u ≠ uid := by
      rintro rfl
      rw [hnone] at hplayer
      cases hplayer
    show Function.update H.gPlayerManager uid (some H.next) u = _
    rw [Function.update_of_ne hu, hplayer]

theorem Saved.keepsUpdates (h : Saved H) {e : HallEvent V} (hok : SavedLast H e) :
    KeepsUpdates H e := by
  intro H' hs u player hplayer hgone
  cases e with
  | data sockfd uid called data errno =>
      cases hs
      exact absurd (cmdData_keeps sockfd uid called data errno hplayer) hgone
  | close sockfd uid called =>
      cases hs
      refine absurd ?_ hgone
      show (H.cmdClose uid called).gPlayerManager u = _
      rcases cmdClose_cases H uid called with heq | ⟨_, -, heq⟩
      · rw [heq, hplayer]
      · rw [heq]
        exact hplayer
  | answer co answer =>
      rcases hallStep_answer hs with hsame | ⟨sent, uid, hw, herror, rfl⟩
      · rw [hsame.gPlayerManager] at hgone
        exact absurd hplayer hgone
      · have hu : u = uid := by
          by_contra hu
          refine hgone ?_
          show Function.update H.gPlayerManager uid none u = _
          rw [Function.update_of_ne hu, hplayer]
        subst hu
        obtain ⟨save, hlast, rfl, htouched⟩ := hok sent u hw herror player hplayer
        exact ⟨save, hlast, h.data u save hlast htouched⟩

/-- No update is lost in a run in which nothing changes a player between the last time
    it is sent and its removal. -/
theorem updates_kept (es : List (HallEvent V)) (hok : AllSteps hallStep SavedLast hallInit es) :
    AllSteps hallStep KeepsUpdates hallInit es :=
  hok.imp (J := Saved) (fun _ _ _ h hs => h.step hs) (fun _ _ h hok => h.keepsUpdates hok)
    ⟨by rintro _ _ ⟨⟩, by rintro _ ⟨⟩, by rintro _ _ ⟨⟩⟩

end Runs

/-- A table `user` with one field. -/
def userTables (key : String) (value : Nat) : Tables Nat :=
  Function.update (fun _ => none) "user" (some (Function.update (fun _ => none) key (some value)))

/-- A user logs in, plays and leaves. -/
theorem updates_kept_once : AllSteps hallStep KeepsUpdates hallInit
    [.data 1 7 true none none, .answer 0 (.ret true (userTables "gold" 1) 100),
      .data 1 7 true (some (userTables "gold" 2)) none, .close 1 7 true,
      .answer 1 (.ret true (fun _ => none) 101)] := by
  refine updates_kept _ ?_
  rintro H₁ ⟨⟩
  refine ⟨trivial, ?_⟩
  rintro H₂ ⟨⟩
  refine ⟨(fun sent uid hw => by cases hw), ?_⟩
  rintro H₃ ⟨⟩
  refine ⟨trivial, ?_⟩
  rintro H₄ ⟨⟩
  refine ⟨trivial, ?_⟩
  rintro H₅ ⟨⟩
  refine ⟨?_, trivial⟩
  rintro sent uid ⟨⟩ - player ⟨⟩
  exact ⟨_, rfl, rfl, rfl⟩

/-- The user plays on while the data that the close has sent is saved: the player is
    removed with other data. -/
theorem update_lost : ¬AllSteps hallStep KeepsUpdates hallInit
    [.data 1 7 true none none, .answer 0 (.ret true (userTables "gold" 1) 100),
      .close 1 7 true, .data 1 7 true (some (userTables "gold" 2)) none,
      .answer 1 (.ret true (fun _ => none) 101)] := by
  intro hkept
  obtain ⟨-, hkept⟩ := hkept _ rfl
  obtain ⟨-, hkept⟩ := hkept _ rfl
  obtain ⟨-, hkept⟩ := hkept _ rfl
  obtain ⟨-, hkept⟩ := hkept _ rfl
  obtain ⟨hkept, -⟩ := hkept _ rfl
  obtain ⟨save, hlast, hdata⟩ := hkept _ rfl 7 0 rfl (by rintro ⟨⟩)
  cases hlast
  have hgold := congrArg (fun data => (data "user").bind fun user => user "gold") hdata
  exact absurd hgold (by decide)

end Game
end ZServer
