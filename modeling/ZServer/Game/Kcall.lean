/-
  ZServer.Game.Kcall

  Keyed calls of `lualib/z.lua`: a coroutine that is blocked in `z.kcall` under a key
  is to be resumed with a failure by `z.resume_kcall`, and the answer to its call then
  to be swallowed (`"BREAK"`).

  `suspend` is a local function that is declared further down in the file, so the name
  stands for a global in `z.resume_kcall`, which nothing sets: the call of it raises an
  error as soon as one coroutine has been resumed.
-/

import Mathlib.Data.List.Perm.Basic
import Mathlib.Data.List.Nodup
import Mathlib.Logic.Function.Basic

namespace ZServer
namespace Game

-- ============================================================================
-- The tables
-- ============================================================================

/-- The number of a coroutine, in the order of their creation. -/
abbrev CoId := Nat

/-- What stands in `session_id_coroutine`. -/
inductive CoEntry where
  | co (co : CoId)
  /-- `"BREAK"` -/
  | brk
  deriving DecidableEq, Repr

/-- Where a coroutine is; a `frame` is what its function goes on with. -/
inductive CoState (φ : Type) where
  /-- in `k_yield_call`, for that session -/
  | blocked (session : Nat) (frame : φ)
  /-- its function has returned, or it has not been created -/
  | done
  /-- an error has ended it -/
  | dead
  deriving DecidableEq, Repr

/-- The tables of `z.lua` that keyed calls go through. -/
structure Kcalls (φ : Type) where
  watchingKey : List (Nat × Nat)
  sessionIdCoroutine : Nat → Option CoEntry
  coroutines : CoId → CoState φ
  next : CoId
  /-- which coroutines have been resumed in `k_yield_call`, and with what `succ` -/
  resumed : List (CoId × Bool)

variable {φ : Type}

/-- `session_id_coroutine[session] = entry` -/
def Kcalls.register (Z : Kcalls φ) (session : Nat) (entry : Option CoEntry) : Kcalls φ :=
  { Z with sessionIdCoroutine := Function.update Z.sessionIdCoroutine session entry }

/-- `k_yield_call` of a new coroutine up to its yield, and `suspend`. -/
def Kcalls.yieldCall (Z : Kcalls φ) (key session : Nat) (frame : φ) : Kcalls φ :=
  { Z.register session (some (.co Z.next)) with
    watchingKey := (session, key) :: Z.watchingKey
    coroutines := Function.update Z.coroutines Z.next (.blocked session frame)
    next := Z.next + 1 }

/-- `coroutine.resume(co, succ, …)`: where the function of the coroutine goes on, when
    `succ` is true; otherwise `k_yield_call` raises an error, which nothing catches. -/
def Kcalls.resume (Z : Kcalls φ) (entry : CoEntry) (succ : Bool) : Kcalls φ × Option φ :=
  match entry with
  | .brk => (Z, none)
  | .co co =>
      match Z.coroutines co with
      | .blocked session frame =>
          ({ Z with
            watchingKey := Z.watchingKey.filter fun e => e.1 ≠ session
            coroutines := Function.update Z.coroutines co (if succ then .done else .dead)
            resumed := Z.resumed ++ [(co, succ)] }, if succ then some frame else none)
      | _ => (Z, none)

/-- `z.resume_kcall`, which goes through `watching_key` in the order that is given, and
    whether it returns. -/
def resumeKcall (key : Nat) : List (Nat × Nat) → Kcalls φ → Kcalls φ × Bool
  | [], Z => (Z, true)
  | (session, k) :: order, Z =>
      if k = key then
        match Z.sessionIdCoroutine session with
        -- `suspend` is nil
        | some entry => ((Z.resume entry false).1, false)
        | none => resumeKcall key order Z
      else resumeKcall key order Z

/-- What the dispatch of a response does. -/
inductive Dispatched (φ : Type) where
  /-- the coroutine of the call goes on -/
  | resumes (frame : φ)
  | swallowed
  /-- it ends in an error -/
  | error

/-- `raw_dispatch_message`, for a response. -/
def Kcalls.rawDispatchResponse (Z : Kcalls φ) (session : Nat) : Kcalls φ × Dispatched φ :=
  match Z.sessionIdCoroutine session with
  | some .brk => (Z.register session none, .swallowed)
  | some (.co co) =>
      match (Z.register session none).resume (.co co) true with
      | (Z, some frame) => (Z, .resumes frame)
      -- "cannot resume dead coroutine"
      | (Z, none) => (Z, .error)
  | none => (Z, .error)

-- ============================================================================
-- Blocked coroutines
-- ============================================================================

/-- The coroutine is blocked under the key. -/
def Kcalls.BlockedUnder (Z : Kcalls φ) (key : Nat) (co : CoId) : Prop :=
  ∃ session frame, Z.coroutines co = .blocked session frame ∧ (session, key) ∈ Z.watchingKey

/-- Any set of coroutines, blocked under any keys. -/
structure Kcalls.Consistent (Z : Kcalls φ) : Prop where
  once : (Z.watchingKey.map Prod.fst).Nodup
  watched : ∀ e ∈ Z.watchingKey, ∃ co frame, Z.sessionIdCoroutine e.1 = some (.co co) ∧
    Z.coroutines co = .blocked e.1 frame
  blocked : ∀ co session frame, Z.coroutines co = .blocked session frame →
    Z.sessionIdCoroutine session = some (.co co) ∧ ∃ key, (session, key) ∈ Z.watchingKey
  /-- a coroutine that an error has ended may be left in the table -/
  entries : ∀ session co, Z.sessionIdCoroutine session = some (.co co) →
    (∃ frame, Z.coroutines co = .blocked session frame) ∨ Z.coroutines co = .dead
  fresh : ∀ co, Z.next ≤ co → Z.coroutines co = .done

/-- What `z.resume_kcall(key)` is to do: resume each coroutine that is blocked under the
    key once, with a failure, and no other; leave the others and their sessions alone;
    let the answers to the calls that it breaks be swallowed; and return. -/
structure BreaksKey (Z : Kcalls φ) (key : Nat) (order : List (Nat × Nat)) : Prop where
  returns : (resumeKcall key order Z).2 = true
  resumes : ∃ cos : List CoId, cos.Nodup ∧ (∀ co, co ∈ cos ↔ Z.BlockedUnder key co) ∧
    (resumeKcall key order Z).1.resumed = Z.resumed ++ cos.map fun co => (co, false)
  others : ∀ co, ¬Z.BlockedUnder key co →
    (resumeKcall key order Z).1.coroutines co = Z.coroutines co
  sessions : ∀ session, (session, key) ∉ Z.watchingKey →
    (resumeKcall key order Z).1.sessionIdCoroutine session = Z.sessionIdCoroutine session ∧
    ∀ k, (session, k) ∈ (resumeKcall key order Z).1.watchingKey ↔ (session, k) ∈ Z.watchingKey
  swallows : ∀ session, (session, key) ∈ Z.watchingKey →
    (resumeKcall key order Z).1.rawDispatchResponse session =
      ((resumeKcall key order Z).1.register session none, .swallowed)

section Resume

variable {Z : Kcalls φ} {key : Nat} {order : List (Nat × Nat)}

/-- With nobody blocked under the key, nothing happens. -/
theorem resumeKcall_none (h : ∀ e ∈ order, e.2 ≠ key) : resumeKcall key order Z = (Z, true) := by
  induction order with
  | nil => rfl
  | cons e order ih =>
      obtain ⟨session, k⟩ := e
      unfold resumeKcall
      rw [if_neg (h (session, k) List.mem_cons_self)]
      exact ih fun e he => h e (List.mem_cons_of_mem _ he)

/-- The first one that is resumed is the last. -/
theorem resumeKcall_some (hZ : Z.Consistent) (horder : ∀ e ∈ order, e ∈ Z.watchingKey)
    (h : ∃ e ∈ order, e.2 = key) :
    ∃ co, Z.BlockedUnder key co ∧
      resumeKcall key order Z = ((Z.resume (.co co) false).1, false) := by
  induction order with
  | nil =>
      obtain ⟨e, he, -⟩ := h
      cases he
  | cons e order ih =>
      obtain ⟨session, k⟩ := e
      have hmem := horder (session, k) List.mem_cons_self
      unfold resumeKcall
      by_cases hk : k = key
      · subst hk
        obtain ⟨co, frame, hco, hblocked⟩ := hZ.watched _ hmem
        rw [if_pos rfl]
        simp only [hco]
        exact ⟨co, ⟨session, frame, hblocked, hmem⟩, rfl⟩
      · rw [if_neg hk]
        refine ih (fun e he => horder e (List.mem_cons_of_mem _ he)) ?_
        obtain ⟨e, he, hek⟩ := h
        rcases List.mem_cons.mp he with rfl | he
        · exact absurd hek hk
        · exact ⟨e, he, hek⟩

theorem Kcalls.Consistent.none_watched (hZ : Z.Consistent) (h : ∀ co, ¬Z.BlockedUnder key co) :
    ∀ e ∈ Z.watchingKey, e.2 ≠ key := by
  rintro ⟨session, k⟩ he rfl
  obtain ⟨co, frame, -, hblocked⟩ := hZ.watched _ he
  exact h co ⟨session, frame, hblocked, he⟩

/-- It does what it is to do just in case there is nothing to do. -/
theorem breaksKey_iff (hZ : Z.Consistent) :
    (∀ order, order.Perm Z.watchingKey → BreaksKey Z key order) ↔ ∀ co, ¬Z.BlockedUnder key co := by
  constructor
  · intro hbreaks co hco
    have hreturns := (hbreaks Z.watchingKey (List.Perm.refl _)).returns
    obtain ⟨session, frame, -, hmem⟩ := hco
    obtain ⟨co', -, heq⟩ :=
      resumeKcall_some hZ (fun e (he : e ∈ Z.watchingKey) => he) ⟨_, hmem, rfl⟩
    rw [heq] at hreturns
    cases hreturns
  · intro hnone order horder
    have hwatched := hZ.none_watched hnone
    have hsame : resumeKcall key order Z = (Z, true) :=
      resumeKcall_none fun e he => hwatched e (horder.mem_iff.mp he)
    refine ⟨by rw [hsame], ⟨[], List.nodup_nil, fun co => ?_, ?_⟩, fun co _ => by rw [hsame],
      fun session _ => by rw [hsame]; exact ⟨rfl, fun k => Iff.rfl⟩, fun session hmem => ?_⟩
    · exact ⟨(fun hco => by cases hco), fun hco => absurd hco (hnone co)⟩
    · rw [hsame]
      exact (List.append_nil _).symm
    · exact absurd rfl (hwatched _ hmem)

end Resume

-- ============================================================================
-- What keeps the tables consistent
-- ============================================================================

section Consistent

variable {Z : Kcalls φ}

theorem Kcalls.Consistent.yieldCall (h : Z.Consistent) (key : Nat) {session : Nat} (frame : φ)
    (hunused : ∀ e ∈ Z.watchingKey, e.1 ≠ session) (hnone : Z.sessionIdCoroutine session = none) :
    (Z.yieldCall key session frame).Consistent := by
  have hother : ∀ co session' frame', Z.coroutines co = .blocked session' frame' →
      co ≠ Z.next ∧ session' ≠ session := by
    intro co session' frame' hblocked
    constructor
    · rintro rfl
      rw [h.fresh _ (Nat.le_refl _)] at hblocked
      cases hblocked
    · rintro rfl
      rw [(h.blocked _ _ _ hblocked).1] at hnone
      cases hnone
  constructor
  · refine List.nodup_cons.mpr ⟨fun hmem => ?_, h.once⟩
    obtain ⟨e, he, heq⟩ := List.mem_map.mp hmem
    exact hunused e he heq
  · intro e he
    rcases List.mem_cons.mp he with rfl | he
    · exact ⟨Z.next, frame, Function.update_self _ _ _, Function.update_self _ _ _⟩
    · obtain ⟨co, frame', hco, hblocked⟩ := h.watched e he
      obtain ⟨hne, hsession⟩ := hother _ _ _ hblocked
      exact ⟨co, frame', (Function.update_of_ne hsession _ _).trans hco,
        (Function.update_of_ne hne _ _).trans hblocked⟩
  · intro co session' frame' hblocked
    have hblocked : Function.update Z.coroutines Z.next (CoState.blocked session frame) co =
        .blocked session' frame' := hblocked
    by_cases hco : co = Z.next
    · subst hco
      rw [Function.update_self] at hblocked
      cases hblocked
      exact ⟨Function.update_self _ _ _, key, List.mem_cons_self⟩
    · rw [Function.update_of_ne hco] at hblocked
      obtain ⟨hentry, k, hk⟩ := h.blocked _ _ _ hblocked
      exact ⟨(Function.update_of_ne (hother _ _ _ hblocked).2 _ _).trans hentry, k,
        List.mem_cons_of_mem _ hk⟩
  · intro session' co hentry
    have hentry : Function.update Z.sessionIdCoroutine session (some (.co Z.next)) session' =
        some (.co co) := hentry
    show (∃ frame', Function.update Z.coroutines Z.next (CoState.blocked session frame) co =
      .blocked session' frame') ∨
      Function.update Z.coroutines Z.next (CoState.blocked session frame) co = .dead
    by_cases hsession : session' = session
    · subst hsession
      rw [Function.update_self] at hentry
      cases hentry
      exact Or.inl ⟨frame, Function.update_self _ _ _⟩
    · rw [Function.update_of_ne hsession] at hentry
      have hold := h.entries _ _ hentry
      have hne : co ≠ Z.next := by
        rintro rfl
        rw [h.fresh _ (Nat.le_refl _)] at hold
        rcases hold with ⟨frame', hframe⟩ | hdead
        · cases hframe
        · cases hdead
      rw [Function.update_of_ne hne]
      exact hold
  · intro co hco
    have hne : co ≠ Z.next := Nat.ne_of_gt hco
    exact (Function.update_of_ne hne _ _).trans (h.fresh co (Nat.le_of_succ_le hco))

/-- The other coroutines stay blocked for other sessions. -/
theorem Kcalls.Consistent.still_blocked (h : Z.Consistent) {co : CoId} {session : Nat} {frame : φ}
    (hco : Z.coroutines co = .blocked session frame) {state : CoState φ}
    (hstate : ∀ session frame, state ≠ .blocked session frame) (co' : CoId) (session' : Nat)
    (frame' : φ) (hblocked : Function.update Z.coroutines co state co' = .blocked session' frame') :
    Z.coroutines co' = .blocked session' frame' ∧ session' ≠ session := by
  by_cases hself : co' = co
  · subst hself
    rw [Function.update_self] at hblocked
    exact absurd hblocked (hstate _ _)
  · rw [Function.update_of_ne hself] at hblocked
    refine ⟨hblocked, ?_⟩
    rintro rfl
    have hsame := (h.blocked _ _ _ hblocked).1.symm.trans (h.blocked _ _ _ hco).1
    cases hsame
    exact hself rfl

/-- A coroutine that is not blocked any more takes its session along. -/
theorem Kcalls.Consistent.unblock (h : Z.Consistent) {co : CoId} {session : Nat} {frame : φ}
    (hco : Z.coroutines co = .blocked session frame) {state : CoState φ}
    (hstate : ∀ session frame, state ≠ .blocked session frame) {Z' : Kcalls φ}
    (hwatching : Z'.watchingKey = Z.watchingKey.filter fun e => e.1 ≠ session)
    (hsession : ∀ s, s ≠ session → Z'.sessionIdCoroutine s = Z.sessionIdCoroutine s)
    (hentry : ∀ co', Z'.sessionIdCoroutine session = some (.co co') → co' = co ∧ state = .dead)
    (hcoroutines : Z'.coroutines = Function.update Z.coroutines co state)
    (hnext : Z'.next = Z.next) : Z'.Consistent := by
  have hlt : co < Z.next := by
    by_contra hge
    rw [h.fresh co (Nat.le_of_not_lt hge)] at hco
    cases hco
  constructor
  · rw [hwatching]
    exact h.once.sublist (List.filter_sublist.map _)
  · intro e he
    rw [hwatching, List.mem_filter] at he
    have hne : e.1 ≠ session := of_decide_eq_true he.2
    obtain ⟨co', frame', hentry, hblocked⟩ := h.watched e he.1
    refine ⟨co', frame', (hsession _ hne).trans hentry, ?_⟩
    rw [hcoroutines, Function.update_of_ne ?_]
    · exact hblocked
    · rintro rfl
      have hsame := hblocked.symm.trans hco
      cases hsame
      exact hne rfl
  · intro co' session' frame' hblocked
    rw [hcoroutines] at hblocked
    obtain ⟨hblocked, hne⟩ := h.still_blocked hco hstate _ _ _ hblocked
    obtain ⟨hentry, k, hk⟩ := h.blocked _ _ _ hblocked
    refine ⟨(hsession _ hne).trans hentry, k, ?_⟩
    rw [hwatching, List.mem_filter]
    exact ⟨hk, decide_eq_true hne⟩
  · intro session' co' hco'
    rw [hcoroutines]
    by_cases hsame : session' = session
    · subst hsame
      obtain ⟨rfl, hdead⟩ := hentry co' hco'
      rw [Function.update_self]
      exact Or.inr hdead
    · rw [hsession _ hsame] at hco'
      have hold := h.entries _ _ hco'
      rw [Function.update_of_ne ?_]
      · exact hold
      · rintro rfl
        rw [hco] at hold
        rcases hold with ⟨frame', hframe⟩ | hdead
        · cases hframe
          exact hsame rfl
        · cases hdead
  · intro co' hge
    rw [hnext] at hge
    rw [hcoroutines, Function.update_of_ne (Nat.ne_of_gt (Nat.lt_of_lt_of_le hlt hge))]
    exact h.fresh co' hge

/-- What is left when a coroutine has been resumed. -/
structure Unblocked (Z : Kcalls φ) (co : CoId) (session : Nat) (Z' : Kcalls φ) : Prop where
  consistent : Z'.Consistent
  watchingKey : Z'.watchingKey = Z.watchingKey.filter fun e => e.1 ≠ session
  blocked : ∀ co' session' frame', Z'.coroutines co' = .blocked session' frame' →
    Z.coroutines co' = .blocked session' frame' ∧ session' ≠ session
  next : Z'.next = Z.next

theorem Kcalls.Consistent.resume (h : Z.Consistent) {co : CoId} {session : Nat} {frame : φ}
    (hco : Z.coroutines co = .blocked session frame) :
    (Unblocked Z co session (Z.resume (.co co) false).1) ∧
      Z.rawDispatchResponse session = (((Z.register session none).resume (.co co) true).1,
        .resumes frame) ∧
      Unblocked Z co session ((Z.register session none).resume (.co co) true).1 := by
  have hentry := (h.blocked _ _ _ hco).1
  have hfalse : (Z.resume (.co co) false).1 = { Z with
      watchingKey := Z.watchingKey.filter fun e => e.1 ≠ session
      coroutines := Function.update Z.coroutines co .dead
      resumed := Z.resumed ++ [(co, false)] } := by
    unfold Kcalls.resume
    simp only [hco]
    rfl
  have htrue : (Z.register session none).resume (.co co) true = ({ Z.register session none with
      watchingKey := Z.watchingKey.filter fun e => e.1 ≠ session
      coroutines := Function.update Z.coroutines co .done
      resumed := Z.resumed ++ [(co, true)] }, some frame) := by
    unfold Kcalls.resume Kcalls.register
    simp only [hco]
    rfl
  refine ⟨?_, ?_, ?_⟩
  · rw [hfalse]
    refine ⟨h.unblock hco (by rintro _ _ ⟨⟩) rfl (fun _ _ => rfl) (fun co' hco' => ?_) rfl rfl, rfl,
      h.still_blocked hco (by rintro _ _ ⟨⟩), rfl⟩
    have hsame := hco'.symm.trans hentry
    cases hsame
    exact ⟨rfl, rfl⟩
  · unfold Kcalls.rawDispatchResponse
    simp only [hentry, htrue]
  · rw [htrue]
    refine ⟨h.unblock hco (by rintro _ _ ⟨⟩) rfl (fun s hs => Function.update_of_ne hs _ _)
      (fun co' hco' => ?_) rfl rfl, rfl, h.still_blocked hco (by rintro _ _ ⟨⟩), rfl⟩
    have hnone : Function.update Z.sessionIdCoroutine session none session = some (.co co') := hco'
    rw [Function.update_self] at hnone
    cases hnone

/-- A response for a session that no coroutine is blocked for. -/
structure Stray (Z : Kcalls φ) (Z' : Kcalls φ) : Prop where
  consistent : Z'.Consistent
  watchingKey : Z'.watchingKey = Z.watchingKey
  coroutines : Z'.coroutines = Z.coroutines
  next : Z'.next = Z.next

theorem Kcalls.Consistent.stray (h : Z.Consistent) {session : Nat}
    (hnone : ∀ co frame, Z.coroutines co ≠ .blocked session frame) :
    ∃ Z' d, Z.rawDispatchResponse session = (Z', d) ∧ (∀ frame, d ≠ .resumes frame) ∧
      Stray Z Z' := by
  have hregister : Stray Z (Z.register session none) := by
    refine ⟨⟨h.once, fun e he => ?_, fun co session' frame hco => ?_, fun session' co hco => ?_,
      h.fresh⟩, rfl, rfl, rfl⟩
    · obtain ⟨co, frame, hentry, hblocked⟩ := h.watched e he
      have hne : e.1 ≠ session := by
        intro heq
        rw [heq] at hblocked
        exact hnone co frame hblocked
      exact ⟨co, frame, (Function.update_of_ne hne _ _).trans hentry, hblocked⟩
    · obtain ⟨hentry, hkey⟩ := h.blocked _ _ _ hco
      have hne : session' ≠ session := by
        rintro rfl
        exact hnone co frame hco
      exact ⟨(Function.update_of_ne hne _ _).trans hentry, hkey⟩
    · have hco : Function.update Z.sessionIdCoroutine session none session' = some (.co co) := hco
      by_cases hne : session' = session
      · subst hne
        rw [Function.update_self] at hco
        cases hco
      · rw [Function.update_of_ne hne] at hco
        exact h.entries _ _ hco
  unfold Kcalls.rawDispatchResponse
  cases hentry : Z.sessionIdCoroutine session with
  | none => exact ⟨Z, .error, rfl, by rintro _ ⟨⟩, h, rfl, rfl, rfl⟩
  | some entry =>
      cases entry with
      | brk => exact ⟨_, .swallowed, rfl, by rintro _ ⟨⟩, hregister⟩
      | co co =>
          have hdead : Z.coroutines co = .dead := by
            rcases h.entries _ _ hentry with ⟨frame, hblocked⟩ | hdead
            · exact absurd hblocked (hnone co frame)
            · exact hdead
          refine ⟨Z.register session none, .error, ?_, by rintro _ ⟨⟩, hregister⟩
          unfold Kcalls.resume Kcalls.register
          simp only [hdead]

end Consistent

end Game
end ZServer
