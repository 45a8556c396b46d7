/-
  ZServer.Lua.Tables

  How the tables of `z.lua` and the coroutines go together.

    * `Sound L hole` — the coroutines in the pool have ended, those that are registered
      wait for their session, and `hole`, the one that the main thread has taken up, is
      neither.
    * `Tidy L hole` — moreover a session has one owner, and the tables of a coroutine
      have the request that it serves; this holds while no error message arrives.

  For each operation on the tables there is one lemma on either.
-/

import Mathlib.Data.List.Nodup
import ZServer.Lua.Basic

namespace ZServer
namespace Lua

-- ============================================================================
-- What a coroutine waits for, and what it serves
-- ============================================================================

/-- The coroutine is to be resumed by a response with the session. -/
def WaitsFor (c : Coroutine) (session : Nat) : Prop :=
  (∃ form, c.pc = .yieldCall form session) ∨
    (∃ id nomore, c.body = .timer session id nomore) ∧ (c.pc = .start ∨ c.pc = .yieldTimeout)

theorem WaitsFor.unique {c : Coroutine} {s s' : Nat} (h : WaitsFor c s) (h' : WaitsFor c s') :
    s = s' := by
  rcases h with ⟨form, hpc⟩ | ⟨⟨id, nomore, hbody⟩, hpc⟩ <;>
    rcases h' with ⟨form', hpc'⟩ | ⟨⟨id', nomore', hbody'⟩, hpc'⟩
  · rw [hpc] at hpc'
    cases hpc'
    rfl
  · rw [hpc] at hpc'
    rcases hpc' with hpc' | hpc' <;> cases hpc'
  · rw [hpc'] at hpc
    rcases hpc with hpc | hpc <;> cases hpc
  · rw [hbody] at hbody'
    cases hbody'
    rfl

theorem WaitsFor.pc_ne {c : Coroutine} {s : Nat} (h : WaitsFor c s) :
    c.pc ≠ .user ∧ c.pc ≠ .yieldExit ∧ c.pc ≠ .dead := by
  rcases h with ⟨form, hpc⟩ | ⟨-, hpc | hpc⟩ <;> rw [hpc] <;>
    exact ⟨by rintro ⟨⟩, by rintro ⟨⟩, by rintro ⟨⟩⟩

/-- The session is the coroutine's: it waits for it, or it is its timer's. -/
def Owns (c : Coroutine) (session : Nat) : Prop :=
  (∃ form, c.pc = .yieldCall form session) ∨
    (∃ id nomore, c.body = .timer session id nomore) ∧ c.pc ≠ .yieldExit ∧ c.pc ≠ .dead

theorem WaitsFor.owns {c : Coroutine} {s : Nat} (h : WaitsFor c s) : Owns c s :=
  h.imp_right fun hstart => ⟨hstart.1, (WaitsFor.pc_ne (Or.inr hstart)).2⟩

/-- The sender and the session of the request that the coroutine serves. -/
def requestOf (c : Coroutine) : Option (Addr × Nat) :=
  match c.body, c.pc with
  | .timer _ _ _, _ => none
  | .handler _ _, .yieldTimeout => none
  | .handler _ _, .yieldExit => none
  | .handler _ _, .dead => none
  | .handler source session, _ => some (source, session)

/-- The tables have the request that `co` serves. -/
def Service.Serves (L : Service) (co : Co) : Prop :=
  L.sessionCoroutineId co = (requestOf (L.coroutines co)).map Prod.snd ∧
    L.sessionCoroutineAddress co = (requestOf (L.coroutines co)).map Prod.fst

-- ============================================================================
-- Sound
-- ============================================================================

structure Sound (L : Service) (hole : Option Co) : Prop where
  pool_once : L.coroutinePool.Nodup
  pool_exit : ∀ co ∈ L.coroutinePool, (L.coroutines co).pc = .yieldExit
  waits : ∀ s co, L.sessionIdCoroutine s = some co → WaitsFor (L.coroutines co) s
  fresh : ∀ co, L.next ≤ co → (L.coroutines co).pc = .dead
  hole_lt : ∀ co, hole = some co → co < L.next
  hole_pool : ∀ co, hole = some co → co ∉ L.coroutinePool
  hole_waits : ∀ s co, hole = some co → L.sessionIdCoroutine s ≠ some co

section Operations

variable {L L' : Service} {hole : Option Co} {co : Co}

/-- Only these fields matter. -/
theorem Sound.same (h : Sound L hole) (hcoroutines : L'.coroutines = L.coroutines)
    (hpool : L'.coroutinePool = L.coroutinePool) (hnext : L'.next = L.next)
    (htable : L'.sessionIdCoroutine = L.sessionIdCoroutine) : Sound L' hole := by
  obtain ⟨h₁, h₂, h₃, h₄, h₅, h₆, h₇⟩ := h
  rw [← hpool] at h₁ h₂ h₆
  rw [← hcoroutines] at h₂ h₃ h₄
  rw [← htable] at h₃ h₇
  rw [← hnext] at h₄ h₅
  exact ⟨h₁, h₂, h₃, h₄, h₅, h₆, h₇⟩

theorem Sound.lt_next (h : Sound L hole) (hpc : (L.coroutines co).pc ≠ .dead) : co < L.next := by
  by_contra hnot
  exact hpc (h.fresh co (Nat.le_of_not_lt hnot))

/-- A coroutine in code of the service is in no table. -/
theorem Sound.user_free (h : Sound L none) (hpc : (L.coroutines co).pc = .user) :
    co ∉ L.coroutinePool ∧ ∀ s, L.sessionIdCoroutine s ≠ some co := by
  refine ⟨fun hpool => ?_, fun s hs => (h.waits s co hs).pc_ne.1 hpc⟩
  rw [h.pool_exit co hpool] at hpc
  cases hpc

/-- It can be taken up. -/
theorem Sound.run (h : Sound L none) (hpc : (L.coroutines co).pc = .user) : Sound L (some co) where
  pool_once := h.pool_once
  pool_exit := h.pool_exit
  waits := h.waits
  fresh := h.fresh
  hole_lt := by
    rintro _ ⟨⟩
    exact h.lt_next (by rw [hpc]; rintro ⟨⟩)
  hole_pool := by
    rintro _ ⟨⟩
    exact (h.user_free hpc).1
  hole_waits := by
    rintro s _ ⟨⟩
    exact (h.user_free hpc).2 s

/-- What is registered after `session_id_coroutine[session] = nil`. -/
theorem register_none {session s : Nat} {co' : Co}
    (hs : (L.register session none).sessionIdCoroutine s = some co') :
    s ≠ session ∧ L.sessionIdCoroutine s = some co' := by
  have hs : Function.update L.sessionIdCoroutine session none s = some co' := hs
  by_cases heq : s = session
  · rw [heq, Function.update_self] at hs
    cases hs
  · rw [Function.update_of_ne heq] at hs
    exact ⟨heq, hs⟩

/-- What is registered after `session_id_coroutine[session] = co`. -/
theorem register_some {session s : Nat} {co' : Co}
    (hs : (L.register session (some co)).sessionIdCoroutine s = some co') :
    s = session ∧ co' = co ∨ L.sessionIdCoroutine s = some co' := by
  have hs : Function.update L.sessionIdCoroutine session (some co) s = some co' := hs
  by_cases heq : s = session
  · rw [heq, Function.update_self] at hs
    exact Or.inl ⟨heq, (Option.some.inj hs).symm⟩
  · rw [Function.update_of_ne heq] at hs
    exact Or.inr hs

/-- Nobody is registered for the session any more. -/
theorem Sound.forget (h : Sound L none) (session : Nat) : Sound (L.register session none) none :=
  ⟨h.1, h.2, fun s co hs => h.waits s co (register_none hs).2, h.4, by rintro _ ⟨⟩, by rintro _ ⟨⟩,
    by rintro _ _ ⟨⟩⟩

/-- The coroutine that was registered is taken up. -/
theorem Sound.take (h : Sound L none) {session : Nat} (hs : L.sessionIdCoroutine session = some co) :
    Sound (L.register session none) (some co) where
  pool_once := h.pool_once
  pool_exit := h.pool_exit
  waits := (h.forget session).waits
  fresh := h.fresh
  hole_lt := by
    rintro _ ⟨⟩
    exact h.lt_next (h.waits session co hs).pc_ne.2.2
  hole_pool := by
    rintro _ ⟨⟩ hpool
    exact (h.waits session co hs).pc_ne.2.1 (h.pool_exit co hpool)
  hole_waits := by
    rintro s _ ⟨⟩ hs'
    obtain ⟨hne, hs'⟩ := register_none hs'
    exact hne ((h.waits s co hs').unique (h.waits session co hs))

theorem goto_self (L : Service) (co : Co) (pc : CoPc) :
    (L.goto co pc).coroutines co = ⟨(L.coroutines co).body, pc⟩ :=
  Function.update_self ..

theorem goto_other {co' : Co} (hne : co' ≠ co) (pc : CoPc) :
    (L.goto co pc).coroutines co' = L.coroutines co' :=
  Function.update_of_ne hne _ _

/-- The coroutine that has been taken up may be anywhere. -/
theorem Sound.goto (h : Sound L (some co)) (pc : CoPc) : Sound (L.goto co pc) (some co) := by
  constructor
  · exact h.pool_once
  · intro co' hpool
    rw [goto_other (by rintro rfl; exact h.hole_pool co' rfl hpool)]
    exact h.pool_exit co' hpool
  · intro s co' hs
    rw [goto_other (by rintro rfl; exact h.hole_waits s co' rfl hs)]
    exact h.waits s co' hs
  · intro co' hle
    rw [goto_other (Nat.ne_of_gt (Nat.lt_of_lt_of_le (h.hole_lt co rfl) hle))]
    exact h.fresh co' hle
  · exact h.hole_lt
  · exact h.hole_pool
  · exact h.hole_waits

/-- Where a coroutine goes on. -/
theorem goOn_cases (L : Service) (co : Co) :
    (∃ watching, L.goOn co = ({ L.goto co .user with watchingSession := watching }, false)) ∨
      (L.coroutines co).pc = .yieldTimeout ∧ L.goOn co = (L.exit co, true) := by
  unfold Service.goOn
  split
  · exact Or.inl ⟨_, rfl⟩
  · rename_i hpc _
    split
    · exact Or.inr ⟨hpc, rfl⟩
    · exact Or.inl ⟨L.watchingSession, rfl⟩
  · exact Or.inl ⟨L.watchingSession, rfl⟩

/-- It is let go of. -/
theorem Sound.close (h : Sound L (some co)) : Sound L none :=
  ⟨h.1, h.2, h.3, h.4, by rintro _ ⟨⟩, by rintro _ ⟨⟩, by rintro _ _ ⟨⟩⟩

/-- It is registered for the session that it waits for. -/
theorem Sound.register (h : Sound L (some co)) {session : Nat}
    (hwaits : WaitsFor (L.coroutines co) session) : Sound (L.register session (some co)) none := by
  refine ⟨h.1, h.2, fun s co' hs => ?_, h.4, by rintro _ ⟨⟩, by rintro _ ⟨⟩, by rintro _ _ ⟨⟩⟩
  rcases register_some hs with ⟨rfl, rfl⟩ | hs
  · exact hwaits
  · exact h.waits s co' hs

/-- Its function has returned. -/
theorem Sound.exit (h : Sound L (some co)) : Sound (L.exit co) none := by
  have hgoto := h.goto .yieldExit
  refine ⟨?_, fun co' hpool => ?_, hgoto.3, hgoto.4, by rintro _ ⟨⟩, by rintro _ ⟨⟩, by rintro _ _ ⟨⟩⟩
  · refine List.nodup_append.mpr ⟨h.pool_once, List.nodup_singleton co, fun co' hpool _ hco heq => ?_⟩
    rw [List.mem_singleton.mp hco] at heq
    exact h.hole_pool co rfl (heq ▸ hpool)
  · rcases List.mem_append.mp hpool with hpool | hpool
    · exact hgoto.pool_exit co' hpool
    · rw [List.mem_singleton.mp hpool]
      exact congrArg Coroutine.pc (goto_self L co .yieldExit)

/-- A coroutine that has no other use is taken up, with a new function. -/
theorem Sound.give (h : Sound L none) (c : Coroutine) {pool : List Co} {next : Co}
    (honce : pool.Nodup) (hpool : ∀ co' ∈ pool, co' ∈ L.coroutinePool ∧ co' ≠ co)
    (hwaits : ∀ s, L.sessionIdCoroutine s ≠ some co) (hlt : co < next) (hnext : L.next ≤ next) :
    Sound { L with
      coroutines := Function.update L.coroutines co c
      coroutinePool := pool
      next := next } (some co) := by
  have hother : ∀ {co'}, co' ≠ co → Function.update L.coroutines co c co' = L.coroutines co' :=
    fun hne => Function.update_of_ne hne _ _
  refine ⟨honce, fun co' hmem => ?_, fun s co' hs => ?_, fun co' hle => ?_,
    by rintro _ ⟨⟩; exact hlt, by rintro _ ⟨⟩ hmem; exact (hpool _ hmem).2 rfl,
    by rintro s _ ⟨⟩; exact hwaits s⟩
  · show (Function.update L.coroutines co c co').pc = _
    rw [hother (hpool co' hmem).2]
    exact h.pool_exit co' (hpool co' hmem).1
  · show WaitsFor (Function.update L.coroutines co c co') s
    rw [hother (by rintro rfl; exact hwaits s hs)]
    exact h.waits s co' hs
  · show (Function.update L.coroutines co c co').pc = _
    rw [hother (Nat.ne_of_gt (Nat.lt_of_lt_of_le hlt hle))]
    exact h.fresh co' (Nat.le_trans hnext hle)

/-- What `co_create` does to a service: it takes up `co`, which has been of no use. -/
structure Created (L : Service) (body : Body) (L' : Service) (co : Co) : Prop where
  sound : Sound L' (some co)
  coroutines : L'.coroutines = Function.update L.coroutines co ⟨body, .start⟩
  idle : (L.coroutines co).pc = .yieldExit ∨ (L.coroutines co).pc = .dead ∧ co = L.next
  log : L'.log = L.log ++ [.given co body]
  rest : L' = { L with
    coroutines := L'.coroutines
    coroutinePool := L'.coroutinePool
    next := L'.next
    log := L'.log }

theorem Sound.coCreate (h : Sound L none) (body : Body) :
    Created L body (L.coCreate body).1 (L.coCreate body).2 := by
  unfold Service.coCreate
  split
  · rename_i co hlast
    have hsplit := List.dropLast_append_getLast? co hlast
    have hpc := h.pool_exit co (List.mem_of_getLast? hlast)
    have honce := h.pool_once
    rw [← hsplit, List.nodup_append] at honce
    have hgive := h.give ⟨body, .start⟩ honce.1 (fun co' hmem => ⟨?_, ?_⟩)
      (fun s hs => (h.waits s co hs).pc_ne.2.1 hpc) (h.lt_next (by rw [hpc]; rintro ⟨⟩))
      (Nat.le_refl _)
    · exact ⟨hgive.same rfl rfl rfl rfl, rfl, Or.inl hpc, rfl, rfl⟩
    · rw [← hsplit]
      exact List.mem_append_left _ hmem
    · exact honce.2.2 co' hmem co (List.mem_singleton_self co)
  · have hnew := h.fresh L.next (Nat.le_refl _)
    have hgive := h.give ⟨body, .start⟩ h.pool_once (fun co' hmem => ⟨hmem, ?_⟩)
      (fun s hs => (h.waits s L.next hs).pc_ne.2.2 hnew) (Nat.lt_succ_self _) (Nat.le_succ _)
    · exact ⟨hgive.same rfl rfl rfl rfl, rfl, Or.inr ⟨hnew, rfl⟩, rfl, rfl⟩
    · rintro rfl
      rw [h.pool_exit _ hmem] at hnew
      cases hnew

theorem Created.other {body : Body} (h : Created L body L' co) {co' : Co} (hne : co' ≠ co) :
    L'.coroutines co' = L.coroutines co' := by
  rw [h.coroutines, Function.update_of_ne hne]

theorem Created.start {body : Body} (h : Created L body L' co) :
    L'.coroutines co = ⟨body, .start⟩ := by
  rw [h.coroutines, Function.update_self]

theorem serviceInit_sound (handle : Addr) : Sound (serviceInit handle) none :=
  ⟨List.nodup_nil, by rintro _ ⟨⟩, by rintro _ _ ⟨⟩, fun _ _ => rfl, by rintro _ ⟨⟩, by rintro _ ⟨⟩,
    by rintro _ _ ⟨⟩⟩

end Operations

-- ============================================================================
-- Tidy
-- ============================================================================

structure Tidy (L : Service) (hole : Option Co) : Prop where
  sound : Sound L hole
  queue : L.errorQueue = []
  issued : ∀ s co, L.sessionIdCoroutine s = some co → s ∈ L.issued
  owns_issued : ∀ s co, Owns (L.coroutines co) s → s ∈ L.issued
  owner : ∀ s co co', Owns (L.coroutines co) s → Owns (L.coroutines co') s → co = co'
  serves : ∀ co, some co ≠ hole → L.Serves co

section Operations

variable {L : Service} {hole : Option Co} {co : Co}

theorem Tidy.note (h : Tidy L hole) (e : Event) : Tidy (L.note e) hole :=
  ⟨h.1.same rfl rfl rfl rfl, h.2, h.3, h.4, h.5, h.6⟩

theorem Tidy.cSend (h : Tidy L hole) (msg : Message) : Tidy (L.cSend msg) hole :=
  ⟨h.1.same rfl rfl rfl rfl, h.2, h.3, h.4, h.5, h.6⟩

theorem Tidy.setCurrent (h : Tidy L hole) (current : Current) :
    Tidy { L with current := current } hole :=
  ⟨h.1.same rfl rfl rfl rfl, h.2, h.3, h.4, h.5, h.6⟩

theorem Tidy.setWatching (h : Tidy L hole) (watching : Nat → Option Addr) :
    Tidy { L with watchingSession := watching } hole :=
  ⟨h.1.same rfl rfl rfl rfl, h.2, h.3, h.4, h.5, h.6⟩

theorem Tidy.watch (h : Tidy L hole) (form : CallForm) (session : Nat) (dest : Addr) :
    Tidy (L.watch form session dest) hole := by
  cases form with
  | call => exact h.setWatching _
  | kcall => exact h

theorem Tidy.issue (h : Tidy L hole) (session : Nat) : Tidy (L.issue session) hole :=
  ⟨h.1.same rfl rfl rfl rfl, h.2, fun s co hs => List.mem_cons_of_mem _ (h.issued s co hs),
    fun s co howns => List.mem_cons_of_mem _ (h.owns_issued s co howns), h.5, h.6⟩

theorem Tidy.run (h : Tidy L none) (hpc : (L.coroutines co).pc = .user) : Tidy L (some co) :=
  ⟨h.sound.run hpc, h.2, h.3, h.4, h.5, fun co' _ => h.serves co' (by rintro ⟨⟩)⟩

theorem Tidy.take (h : Tidy L none) {session : Nat} (hs : L.sessionIdCoroutine session = some co) :
    Tidy (L.register session none) (some co) :=
  ⟨h.sound.take hs, h.2, fun s co' hs' => h.issued s co' (register_none hs').2, h.4, h.5,
    fun co' _ => h.serves co' (by rintro ⟨⟩)⟩

/-- What `co` owns when it is changed to `c`. -/
theorem Tidy.owns_update (h : Tidy L hole) (co : Co) (c : Coroutine)
    (hown : ∀ s, Owns c s → s ∈ L.issued ∧ ∀ co', Owns (L.coroutines co') s → co' = co) :
    (∀ s co', Owns (Function.update L.coroutines co c co') s → s ∈ L.issued) ∧
      ∀ s co₁ co₂, Owns (Function.update L.coroutines co c co₁) s →
        Owns (Function.update L.coroutines co c co₂) s → co₁ = co₂ := by
  have hcases : ∀ {co' s}, Owns (Function.update L.coroutines co c co') s →
      co' = co ∧ Owns c s ∨ co' ≠ co ∧ Owns (L.coroutines co') s := by
    intro co' s howns
    by_cases heq : co' = co
    · rw [heq, Function.update_self] at howns
      exact Or.inl ⟨heq, howns⟩
    · rw [Function.update_of_ne heq] at howns
      exact Or.inr ⟨heq, howns⟩
  refine ⟨fun s co' howns => ?_, fun s co₁ co₂ h₁ h₂ => ?_⟩
  · rcases hcases howns with ⟨-, howns⟩ | ⟨-, howns⟩
    · exact (hown s howns).1
    · exact h.owns_issued s co' howns
  · rcases hcases h₁ with ⟨heq₁, hc₁⟩ | ⟨-, hold₁⟩ <;>
      rcases hcases h₂ with ⟨heq₂, hc₂⟩ | ⟨-, hold₂⟩
    · exact heq₁.trans heq₂.symm
    · exact heq₁.trans ((hown s hc₁).2 co₂ hold₂).symm
    · exact ((hown s hc₂).2 co₁ hold₁).trans heq₂.symm
    · exact h.owner s co₁ co₂ hold₁ hold₂

/-- A session that the coroutine calls with has to be its own. -/
theorem Tidy.goto (h : Tidy L (some co)) (pc : CoPc)
    (hlive : (L.coroutines co).pc ≠ .yieldExit ∧ (L.coroutines co).pc ≠ .dead)
    (hcall : ∀ form s, pc = .yieldCall form s →
      s ∈ L.issued ∧ ∀ co', Owns (L.coroutines co') s → co' = co) :
    Tidy (L.goto co pc) (some co) := by
  obtain ⟨howns, howner⟩ := h.owns_update co ⟨(L.coroutines co).body, pc⟩
    fun s howns => by
      rcases howns with ⟨form, hpc⟩ | ⟨hbody, -⟩
      · exact hcall form s hpc
      · have hold : Owns (L.coroutines co) s := Or.inr ⟨hbody, hlive⟩
        exact ⟨h.owns_issued s co hold, fun co' howns' => h.owner s co' co howns' hold⟩
  refine ⟨h.sound.goto pc, h.2, h.3, howns, howner, fun co' hne => ?_⟩
  unfold Service.Serves
  rw [goto_other fun heq => hne (congrArg some heq)]
  exact h.serves co' hne

/-- The tables of the coroutine that has been taken up may have anything. -/
theorem Tidy.serve (h : Tidy L (some co)) (msg : Message) : Tidy (L.serve co msg) (some co) := by
  refine ⟨h.1.same rfl rfl rfl rfl, h.2, h.3, h.4, h.5, fun co' hne => ?_⟩
  have hne' : co' ≠ co := fun heq => hne (congrArg some heq)
  obtain ⟨hid, haddr⟩ := h.serves co' hne
  exact ⟨(Function.update_of_ne hne' _ _).trans hid, (Function.update_of_ne hne' _ _).trans haddr⟩

theorem Tidy.unserve (h : Tidy L (some co)) : Tidy (L.unserve co) (some co) := by
  refine ⟨h.1.same rfl rfl rfl rfl, h.2, h.3, h.4, h.5, fun co' hne => ?_⟩
  have hne' : co' ≠ co := fun heq => hne (congrArg some heq)
  obtain ⟨hid, haddr⟩ := h.serves co' hne
  exact ⟨(Function.update_of_ne hne' _ _).trans hid, (Function.update_of_ne hne' _ _).trans haddr⟩

/-- It is let go of, once its tables have what it serves. -/
theorem Tidy.close (h : Tidy L (some co)) (hserves : L.Serves co) : Tidy L none := by
  refine ⟨h.sound.close, h.2, h.3, h.4, h.5, fun co' _ => ?_⟩
  by_cases heq : co' = co
  · rw [heq]
    exact hserves
  · exact h.serves co' fun hsome => heq (Option.some.inj hsome)

theorem Tidy.register (h : Tidy L (some co)) (session : Nat) (hserves : L.Serves co)
    (hwaits : WaitsFor (L.coroutines co) session) (hissued : session ∈ L.issued) :
    Tidy (L.register session (some co)) none := by
  refine ⟨h.sound.register hwaits, h.2, fun s co' hs => ?_, h.4, h.5, (h.close hserves).serves⟩
  rcases register_some hs with ⟨rfl, -⟩ | hs
  · exact hissued
  · exact h.issued s co' hs

theorem Tidy.exit (h : Tidy L (some co))
    (hlive : (L.coroutines co).pc ≠ .yieldExit ∧ (L.coroutines co).pc ≠ .dead) :
    Tidy ((L.exit co).unserve co) none := by
  have hgoto := (h.goto .yieldExit hlive (by rintro _ _ ⟨⟩)).unserve
  have hnone : requestOf (((L.goto co .yieldExit).unserve co).coroutines co) = none := by
    show requestOf ((L.goto co .yieldExit).coroutines co) = none
    rw [goto_self]
    cases (L.coroutines co).body <;> rfl
  have hserves : ((L.goto co .yieldExit).unserve co).Serves co := by
    unfold Service.Serves
    rw [hnone]
    exact ⟨Function.update_self .., Function.update_self ..⟩
  exact ⟨h.sound.exit.same rfl rfl rfl rfl, h.2, h.3, hgoto.4, hgoto.5, (hgoto.close hserves).serves⟩

theorem Tidy.coCreate (h : Tidy L none) (body : Body)
    (hown : ∀ s, Owns ⟨body, .start⟩ s →
      s ∈ L.issued ∧ ∀ co', ¬Owns (L.coroutines co') s) :
    Tidy (L.coCreate body).1 (some (L.coCreate body).2) := by
  have hc := h.sound.coCreate body
  obtain ⟨howns, howner⟩ := h.owns_update (L.coCreate body).2 ⟨body, .start⟩
    fun s howns => ⟨(hown s howns).1, fun co' howns' => absurd howns' ((hown s howns).2 co')⟩
  rw [← hc.coroutines] at howns howner
  have hrest := hc.rest
  refine ⟨hc.sound, ?_, ?_, ?_, howner, fun co' hne => ?_⟩
  · rw [hrest]
    exact h.queue
  · rw [hrest]
    exact h.issued
  · rw [hrest] at howns ⊢
    exact howns
  · unfold Service.Serves
    rw [hc.other fun heq => hne (congrArg some heq), hrest]
    exact h.serves co' (by rintro ⟨⟩)

end Operations

end Lua
end ZServer
