/-
  ZServer.Game.Hall

  `game/hall_srv.lua` with the players of `game/hall_srv/player/player.lua`.

  A handler runs until it waits for db_srv, in `load_data` or `save_data`; meanwhile
  other messages are handled.  `hallStep` is the dispatch of one message: client data
  or the close of a connection, from an agent, or the answer of db_srv to a handler.

  What the function of a module does to the data of its player, and what it replies, is
  up to the environment; so is whether a call to db_srv goes out.  `srv_state` is left
  out: the hall passes `E_SRV_STATE_HALL`, a global that nothing sets, so it is nil.
-/

import ZServer.Game.Agent

namespace ZServer
namespace Game

open Lib

-- ============================================================================
-- Players
-- ============================================================================

/-- The data of a player: tables, with their fields. -/
abbrev Tables (V : Type) := String → Option (String → Option V)

/-- The address of a player object. -/
abbrev PlayerRef := Nat

/-- An object of `PlayerClass`. -/
structure Player (V : Type) where
  sockfd : Sockfd
  /-- 0: no data, 1: loading, 2: loaded, 3: a new user -/
  state : Nat
  data : Tables V
  uid : Uid

/-- What is sent to db_srv to be saved, for which object. -/
structure Save (V : Type) where
  uid : Uid
  player : PlayerRef
  data : Tables V

/-- The reply of a handler, which the agent hands on to the connection. -/
structure Forward where
  sockfd : Sockfd
  uid : Uid
  errno : Int
  deriving DecidableEq, Repr

/-- Client data of a user that was bound to another connection. -/
structure Kick where
  uid : Uid
  old : Sockfd
  new : Sockfd
  /-- the connections that were told to close -/
  told : List Sockfd
  /-- the one that the user is bound to now -/
  bound : Option Sockfd
  deriving DecidableEq, Repr

/-- The close of a connection that has been kicked. -/
structure LateClose where
  uid : Uid
  sockfd : Sockfd
  saved : Bool
  deriving DecidableEq, Repr

-- ============================================================================
-- The hall
-- ============================================================================

/-- A handler that waits for db_srv. -/
inductive HallWait where
  /-- in `load_data`, for a message of the connection -/
  | load (player : PlayerRef) (sockfd : Sockfd) (uid : Uid)
  /-- in `save_data`, called by `CMD.close` -/
  | save (player : PlayerRef) (uid : Uid)
  deriving DecidableEq, Repr

/-- `g_player_manager`, the objects, the handlers, and the history of the hall. -/
structure Hall (V : Type) where
  gPlayerManager : Uid → Option PlayerRef
  players : PlayerRef → Player V
  next : PlayerRef
  handlers : CoId → Option HallWait
  nextHandler : CoId
  /-- the calls of `socket_close` -/
  socketClosed : List Sockfd
  saves : List (Save V)
  forwards : List Forward
  /-- the connections of users that have sent data, and have neither closed nor been
      told to close since -/
  opens : List (Uid × Sockfd)
  kicks : List Kick
  lates : List LateClose
  /-- the data of the player has been changed since it was last sent to be saved -/
  touched : PlayerRef → Bool

/-- The answer of db_srv. -/
inductive DbAnswer (V : Type) where
  /-- `z.call` raises an error -/
  | error
  /-- what it returns, and what `os.time()` is then -/
  | ret (ret : Bool) (data : Tables V) (now : V)

inductive HallEvent (V : Type) where
  /-- `called`: the call of `load_data` goes out, if there is one; `data`: what the
      function of a module sets the data of the player to; `errno`: its reply -/
  | data (sockfd : Sockfd) (uid : Uid) (called : Bool) (data : Option (Tables V))
      (errno : Option Int)
  | close (sockfd : Sockfd) (uid : Uid) (called : Bool)
  | answer (co : CoId) (answer : DbAnswer V)

variable {V : Type}

def hallInit : Hall V where
  gPlayerManager := fun _ => none
  players := fun _ => ⟨0, 0, fun _ => none, 0⟩
  next := 0
  handlers := fun _ => none
  nextHandler := 0
  socketClosed := []
  saves := []
  forwards := []
  opens := []
  kicks := []
  lates := []
  touched := fun _ => true

section Handlers

variable (H : Hall V)

/-- The connection that the user is bound to. -/
def Hall.bound (uid : Uid) : Option Sockfd :=
  (H.gPlayerManager uid).map fun player => (H.players player).sockfd

/-- What has last been sent to be saved for the user. -/
def Hall.lastSave (uid : Uid) : Option (Save V) := (H.saves.filter fun s => s.uid = uid).getLast?

def Hall.setPlayer (player : PlayerRef) (value : Player V) : Hall V :=
  { H with players := Function.update H.players player value }

def Hall.setState (player : PlayerRef) (state : Nat) : Hall V :=
  H.setPlayer player { H.players player with state := state }

def Hall.setData (player : PlayerRef) (data : Tables V) : Hall V :=
  { H.setPlayer player { H.players player with data := data } with
    touched := Function.update H.touched player true }

def Hall.forward (sockfd : Sockfd) (uid : Uid) (errno : Int) : Hall V :=
  { H with forwards := H.forwards ++ [⟨sockfd, uid, errno⟩] }

/-- The handler waits. -/
def Hall.wait (w : HallWait) : Hall V :=
  { H with
    handlers := Function.update H.handlers H.nextHandler (some w)
    nextHandler := H.nextHandler + 1 }

/-- The player of the user, or a new one (`PlayerClass:new`). -/
def Hall.getPlayer (sockfd : Sockfd) (uid : Uid) : Hall V × PlayerRef :=
  match H.gPlayerManager uid with
  | some player => (H, player)
  | none =>
      ({ H.setPlayer H.next ⟨sockfd, 0, fun _ => none, uid⟩ with
        gPlayerManager := Function.update H.gPlayerManager uid (some H.next)
        next := H.next + 1
        touched := Function.update H.touched H.next true }, H.next)

/-- The player is bound to the connection. -/
def Hall.bindSocket (player : PlayerRef) (sockfd : Sockfd) : Hall V :=
  if (H.players player).sockfd ≠ sockfd then
    -- `socket_close(sockfd)`
    { H.setPlayer player { H.players player with sockfd := sockfd } with
      socketClosed := H.socketClosed ++ [sockfd] }
  else H

/-- `PlayerClass:on_message`, up to the call in `load_data`. -/
def Hall.onMessage (player : PlayerRef) (sockfd : Sockfd) (uid : Uid) (called : Bool)
    (data : Option (Tables V)) (errno : Option Int) : Hall V :=
  match (H.players player).state with
  | 0 =>
      let H := H.setState player 1
      -- an error ends the handler
      if called then H.wait (.load player sockfd uid) else H
  | 1 => H
  | _ =>
      let H := match data with
        | none => H
        | some data => H.setData player data
      match errno with
      | none => H
      | some errno => H.forward sockfd uid errno

/-- `load_data` goes on, and `on_message` after it. -/
def Hall.loaded (player : PlayerRef) (sockfd : Sockfd) (uid : Uid) (answer : DbAnswer V) : Hall V :=
  match answer with
  | .error => H
  | .ret false _ _ => (H.setState player 0).forward sockfd uid (-2)
  | .ret true data now =>
      match data "user" with
      | none => (H.setState player 3).forward sockfd uid 2
      | some user =>
          let merged : Tables V := fun k => (data k).or ((H.players player).data k)
          let data := Function.update merged "user"
            (some (Function.update user "last_login_time" (some now)))
          ((H.setData player data).setState player 2).forward sockfd uid 0

/-- `CMD.data` -/
def Hall.cmdData (sockfd : Sockfd) (uid : Uid) (called : Bool) (data : Option (Tables V))
    (errno : Option Int) : Hall V :=
  let (H, player) := H.getPlayer sockfd uid
  (H.bindSocket player sockfd).onMessage player sockfd uid called data errno

/-- `CMD.close`, up to the call in `save_data`. -/
def Hall.cmdClose (uid : Uid) (called : Bool) : Hall V :=
  match H.gPlayerManager uid with
  | none => H
  | some player =>
      -- an error ends the handler
      if called then
        { H.wait (.save player uid) with
          saves := H.saves ++ [⟨(H.players player).uid, player, (H.players player).data⟩]
          touched := Function.update H.touched player false }
      else H

/-- The history of `CMD.data`. -/
def Hall.noteData (before : Hall V) (sockfd : Sockfd) (uid : Uid) : Hall V :=
  let told := H.socketClosed.drop before.socketClosed.length
  { H with
    opens := ((uid, sockfd) :: H.opens).filter fun c => c.2 ∉ told
    kicks := match before.bound uid with
      | some old =>
          if old ≠ sockfd then H.kicks ++ [⟨uid, old, sockfd, told, H.bound uid⟩] else H.kicks
      | none => H.kicks }

/-- The history of `CMD.close`. -/
def Hall.noteClose (before : Hall V) (sockfd : Sockfd) (uid : Uid) : Hall V :=
  { H with
    opens := H.opens.filter fun c => c ≠ (uid, sockfd)
    lates :=
      if (∃ k ∈ H.kicks, k.uid = uid ∧ k.old = sockfd) ∧ before.bound uid ≠ some sockfd then
        H.lates ++ [⟨uid, sockfd, H.saves.length ≠ before.saves.length⟩]
      else H.lates }

/-- The dispatch of one message. -/
def hallStep (H : Hall V) : HallEvent V → Option (Hall V)
  | .data sockfd uid called data errno =>
      some ((H.cmdData sockfd uid called data errno).noteData H sockfd uid)
  | .close sockfd uid called => some ((H.cmdClose uid called).noteClose H sockfd uid)
  | .answer co answer =>
      match H.handlers co with
      | none => none
      | some w =>
          let H := { H with handlers := Function.update H.handlers co none }
          match w, answer with
          | .load player sockfd uid, answer => some (H.loaded player sockfd uid answer)
          | .save _ _, .error => some H
          | .save _ uid, .ret _ _ _ =>
              some { H with gPlayerManager := Function.update H.gPlayerManager uid none }

end Handlers

-- ============================================================================
-- What the handlers leave alone
-- ============================================================================

/-- Only replies, handlers, and the states and data of players change; a player whose
    data changes is touched. -/
structure SamePlayers (H H' : Hall V) : Prop where
  gPlayerManager : H'.gPlayerManager = H.gPlayerManager
  sockfd : ∀ player, (H'.players player).sockfd = (H.players player).sockfd
  uid : ∀ player, (H'.players player).uid = (H.players player).uid
  next : H'.next = H.next
  socketClosed : H'.socketClosed = H.socketClosed
  saves : H'.saves = H.saves
  opens : H'.opens = H.opens
  kicks : H'.kicks = H.kicks
  lates : H'.lates = H.lates
  data : ∀ player, H'.touched player = false →
    H.touched player = false ∧ (H'.players player).data = (H.players player).data

section SamePlayers

variable {H H₁ H₂ : Hall V}

theorem SamePlayers.refl (H : Hall V) : SamePlayers H H :=
  ⟨rfl, fun _ => rfl, fun _ => rfl, rfl, rfl, rfl, rfl, rfl, rfl, fun _ h => ⟨h, rfl⟩⟩

theorem SamePlayers.trans (h : SamePlayers H H₁) (h' : SamePlayers H₁ H₂) : SamePlayers H H₂ where
  gPlayerManager := h'.gPlayerManager.trans h.gPlayerManager
  sockfd := fun player => (h'.sockfd player).trans (h.sockfd player)
  uid := fun player => (h'.uid player).trans (h.uid player)
  next := h'.next.trans h.next
  socketClosed := h'.socketClosed.trans h.socketClosed
  saves := h'.saves.trans h.saves
  opens := h'.opens.trans h.opens
  kicks := h'.kicks.trans h.kicks
  lates := h'.lates.trans h.lates
  data := fun player h₂ => by
    obtain ⟨h₁, hdata'⟩ := h'.data player h₂
    obtain ⟨h₀, hdata⟩ := h.data player h₁
    exact ⟨h₀, hdata'.trans hdata⟩

theorem SamePlayers.bound (h : SamePlayers H H₁) (uid : Uid) : H₁.bound uid = H.bound uid := by
  unfold Hall.bound
  rw [h.gPlayerManager]
  exact congrArg (fun f => (H.gPlayerManager uid).map f) (funext h.sockfd)

theorem SamePlayers.lt (h : SamePlayers H H₁)
    (hlt : ∀ uid player, H.gPlayerManager uid = some player → player < H.next) :
    ∀ uid player, H₁.gPlayerManager uid = some player → player < H₁.next := by
  rw [h.gPlayerManager, h.next]
  exact hlt

theorem setPlayer_field (H : Hall V) (player : PlayerRef) (value : Player V) {β : Type}
    (f : Player V → β) (h : f value = f (H.players player)) (p : PlayerRef) :
    f ((H.setPlayer player value).players p) = f (H.players p) := by
  show f (Function.update H.players player value p) = _
  by_cases hp : p = player
  · subst hp
    rw [Function.update_self]
    exact h
  · rw [Function.update_of_ne hp]

theorem setState_same (H : Hall V) (player : PlayerRef) (state : Nat) :
    SamePlayers H (H.setState player state) :=
  ⟨rfl, setPlayer_field H player { H.players player with state := state } Player.sockfd rfl,
    setPlayer_field H player { H.players player with state := state } Player.uid rfl, rfl, rfl, rfl,
    rfl, rfl, rfl,
    fun p hp => ⟨hp,
      setPlayer_field H player { H.players player with state := state } Player.data rfl p⟩⟩

theorem setData_same (H : Hall V) (player : PlayerRef) (data : Tables V) :
    SamePlayers H (H.setData player data) := by
  refine ⟨rfl, setPlayer_field H player { H.players player with data := data } Player.sockfd rfl,
    setPlayer_field H player { H.players player with data := data } Player.uid rfl, rfl, rfl, rfl,
    rfl, rfl, rfl, fun p hp => ?_⟩
  have hp : Function.update H.touched player true p = false := hp
  have hne : p ≠ player := by
    rintro rfl
    rw [Function.update_self] at hp
    cases hp
  rw [Function.update_of_ne hne] at hp
  refine ⟨hp, ?_⟩
  show (Function.update H.players player _ p).data = _
  rw [Function.update_of_ne hne]

theorem forward_same (H : Hall V) (sockfd : Sockfd) (uid : Uid) (errno : Int) :
    SamePlayers H (H.forward sockfd uid errno) :=
  ⟨rfl, fun _ => rfl, fun _ => rfl, rfl, rfl, rfl, rfl, rfl, rfl, fun _ h => ⟨h, rfl⟩⟩

theorem wait_same (H : Hall V) (w : HallWait) : SamePlayers H (H.wait w) :=
  ⟨rfl, fun _ => rfl, fun _ => rfl, rfl, rfl, rfl, rfl, rfl, rfl, fun _ h => ⟨h, rfl⟩⟩

theorem onMessage_same (H : Hall V) (player : PlayerRef) (sockfd : Sockfd) (uid : Uid)
    (called : Bool) (data : Option (Tables V)) (errno : Option Int) :
    SamePlayers H (H.onMessage player sockfd uid called data errno) := by
  unfold Hall.onMessage
  split
  · cases called with
    | false => exact setState_same H player 1
    | true => exact (setState_same H player 1).trans (wait_same _ _)
  · exact .refl H
  · have hdata : SamePlayers H (match data with
        | none => H
        | some data => H.setData player data) := by
      cases data with
      | none => exact .refl H
      | some data => exact setData_same H player data
    cases errno with
    | none => exact hdata
    | some errno => exact hdata.trans (forward_same _ sockfd uid errno)

theorem loaded_same (H : Hall V) (player : PlayerRef) (sockfd : Sockfd) (uid : Uid)
    (answer : DbAnswer V) : SamePlayers H (H.loaded player sockfd uid answer) := by
  unfold Hall.loaded
  cases answer with
  | error => exact .refl H
  | ret ret data now =>
      cases ret with
      | false => exact (setState_same H player 0).trans (forward_same _ sockfd uid _)
      | true =>
          simp only
          split
          · exact (setState_same H player 3).trans (forward_same _ sockfd uid _)
          · exact ((setData_same H player _).trans (setState_same _ player 2)).trans
              (forward_same _ sockfd uid _)

/-- The close of a user without a player does nothing; otherwise the player is sent to
    be saved, unless the call fails. -/
theorem cmdClose_cases (H : Hall V) (uid : Uid) (called : Bool) :
    H.cmdClose uid called = H ∨ ∃ player, H.gPlayerManager uid = some player ∧
      H.cmdClose uid called = { H.wait (.save player uid) with
        saves := H.saves ++ [⟨(H.players player).uid, player, (H.players player).data⟩]
        touched := Function.update H.touched player false } := by
  unfold Hall.cmdClose
  cases hplayer : H.gPlayerManager uid with
  | none => exact Or.inl rfl
  | some player =>
      cases called with
      | false => exact Or.inl rfl
      | true => exact Or.inr ⟨player, rfl, rfl⟩

/-- An answer ends a close, and with it the player of the user, or leaves the players
    where they are. -/
theorem hallStep_answer {co : CoId} {answer : DbAnswer V} {H' : Hall V}
    (hs : hallStep H (.answer co answer) = some H') :
    SamePlayers H H' ∨ ∃ player uid, H.handlers co = some (.save player uid) ∧ answer ≠ .error ∧
      H' = { H with
        handlers := Function.update H.handlers co none
        gPlayerManager := Function.update H.gPlayerManager uid none } := by
  simp only [hallStep] at hs
  have hwaits : SamePlayers H { H with handlers := Function.update H.handlers co none } :=
    ⟨rfl, fun _ => rfl, fun _ => rfl, rfl, rfl, rfl, rfl, rfl, rfl, fun _ h => ⟨h, rfl⟩⟩
  cases hw : H.handlers co with
  | none =>
      rw [hw] at hs
      cases hs
  | some w =>
      rw [hw] at hs
      cases w with
      | load player sockfd uid =>
          cases hs
          exact Or.inl (hwaits.trans (loaded_same _ player sockfd uid answer))
      | save player uid =>
          cases answer with
          | error =>
              cases hs
              exact Or.inl hwaits
          | ret ret data now =>
              cases hs
              exact Or.inr ⟨player, uid, rfl, by rintro ⟨⟩, rfl⟩

end SamePlayers

-- ============================================================================
-- Addresses
-- ============================================================================

section Addresses

variable {players : Uid → Option PlayerRef} {next : PlayerRef}

/-- A new player has the next address. -/
theorem players_lt_new (hlt : ∀ uid player, players uid = some player → player < next) (uid : Uid) :
    ∀ u player, Function.update players uid (some next) u = some player → player < next + 1 := by
  intro u player hplayer
  by_cases hu : u = uid
  · subst hu
    rw [Function.update_self] at hplayer
    cases hplayer
    exact Nat.lt_succ_self _
  · rw [Function.update_of_ne hu] at hplayer
    exact Nat.lt_succ_of_lt (hlt u player hplayer)

theorem players_lt_removed (hlt : ∀ uid player, players uid = some player → player < next)
    (uid : Uid) :
    ∀ u player, Function.update players uid none u = some player → player < next := by
  intro u player hplayer
  by_cases hu : u = uid
  · subst hu
    rw [Function.update_self] at hplayer
    cases hplayer
  · rw [Function.update_of_ne hu] at hplayer
    exact hlt u player hplayer

end Addresses

end Game
end ZServer
