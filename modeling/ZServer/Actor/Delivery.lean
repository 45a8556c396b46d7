/-
  ZServer.Actor.Delivery

  Who a number or a name leads to.  `ctxMgrGetContext` takes whoever is in the
  slot `id % setsize` and does not compare the numbers.  So a number is answered
  by its own context or by nobody exactly as long as no other context in the
  table has a number of the same residue (`deliversOnly_iff_noClash`).

  `Services.Ok` is what every run keeps: a live context is in its slot, and what
  a call holds a reference to has not been freed under it.
-/

import ZServer.Actor.NameMgr
import ZServer.Lib.Transition

namespace ZServer

open Lib

-- ============================================================================
-- The addressee, and nobody else
-- ============================================================================

/-- The number `id` leads to the live context with that number, or nowhere. -/
structure DeliversOnly (st : Services) (id : Nat) : Prop where
  get_some : ∀ p, (ctxMgrGetContext st id).2 = some p → st.Live p ∧ (st.heap p).id = id
  get_none : (ctxMgrGetContext st id).2 = none → ∀ p, st.Live p → (st.heap p).id ≠ id
  send : ∀ ctx fromId session type data sz ud st' result,
    workerPoolSend st ctx fromId id session type data sz ud = some (st', result) →
      ∀ p, (st'.heap p).queue ≠ (st.heap p).queue → st.Live p ∧ (st.heap p).id = id
  name : ∀ name, nameMgrGetId st name = id →
    ∀ p, (ctxMgrGetContext st id).2 = some p → (st.heap p).id = id

/-- Of the contexts in the table only a live one numbered `id` can be in the slot of `id`. -/
def NoClash (st : Services) (id : Nat) : Prop :=
  ∀ p ∈ st.mgr.ptrs, (st.heap p).id % st.mgr.setsize = id % st.mgr.setsize →
    (st.heap p).id = id ∧ st.Live p

-- ============================================================================
-- What every run keeps
-- ============================================================================

structure Services.Ok (st : Services) : Prop where
  table : st.mgr.Ok fun p => (st.heap p).id
  fresh : ∀ p, st.next ≤ p → st.heap p = Context.blank
  table_lt : ∀ p ∈ st.mgr.ptrs, p < st.next
  launched_lt : ∀ p ∈ st.launched, p < st.next
  listed : ∀ p, st.Live p → p ∈ st.mgr.ptrs
  /-- `ctxMgrRemoveContext` does nothing for the other numbers -/
  referenced : ∀ p ∈ st.mgr.ptrs, (st.heap p).id < 2 ^ 31 → 1 ≤ (st.heap p).ref
  scheduled : ∀ p, (st.heap p).inGlobal = true → p ∈ st.mgr.ptrs

@[simp] theorem Services.set_heap_self (st : Services) (p : Ptr) (ctx : Context) :
    (st.set p ctx).heap p = ctx := Function.update_self ..

theorem Services.set_heap_of_ne (st : Services) {p q : Ptr} (ctx : Context) (h : q ≠ p) :
    (st.set p ctx).heap q = st.heap q := Function.update_of_ne h ..

theorem services_ok_init {setsize : Nat} (h : 0 < setsize) : (servicesInit setsize).Ok where
  table := CtxMgr.Ok.create _ h
  fresh := fun _ _ => rfl
  table_lt := by
    intro p hp
    rw [CtxMgr.mem_ptrs] at hp
    cases List.eq_of_mem_replicate hp
  launched_lt := by rintro _ ⟨⟩
  listed := by
    rintro p ⟨hp, -⟩
    cases hp
  referenced := by
    intro p hp
    rw [CtxMgr.mem_ptrs] at hp
    cases List.eq_of_mem_replicate hp
  scheduled := by rintro _ ⟨⟩

-- ============================================================================
-- One record changes
-- ============================================================================

theorem Services.set_id {st : Services} {p : Ptr} {ctx : Context} (hid : ctx.id = (st.heap p).id)
    (q : Ptr) : ((st.set p ctx).heap q).id = (st.heap q).id := by
  by_cases hq : q = p
  · rw [hq, Services.set_heap_self, hid]
  · rw [Services.set_heap_of_ne st ctx hq]

theorem Services.Ok.fresh_set {st : Services} {p : Ptr} (h : st.Ok) (hlt : p < st.next)
    (ctx : Context) : ∀ q, st.next ≤ q → (st.set p ctx).heap q = Context.blank := by
  intro q hq
  have hne : q ≠ p := (Nat.lt_of_lt_of_le hlt hq).ne'
  rw [Services.set_heap_of_ne st ctx hne]
  exact h.fresh q hq

/-- A record may change in all but its number, as long as nobody comes back to
    life, loses the last reference or is scheduled outside the table. -/
theorem Services.Ok.set {st : Services} {p : Ptr} {ctx : Context} (h : st.Ok) (hlt : p < st.next)
    (hid : ctx.id = (st.heap p).id)
    (hfreed : ctx.freed = false → (st.heap p).freed = false)
    (href : p ∈ st.mgr.ptrs → (st.heap p).id < 2 ^ 31 → 1 ≤ ctx.ref)
    (hsched : ctx.inGlobal = true → p ∈ st.mgr.ptrs) : (st.set p ctx).Ok := by
  constructor
  · apply h.table.congr
    intro q _
    exact Services.set_id hid q
  · exact h.fresh_set hlt ctx
  · exact h.table_lt
  · exact h.launched_lt
  · rintro q ⟨hq, hlive⟩
    apply h.listed q
    refine ⟨hq, ?_⟩
    by_cases hqp : q = p
    · rw [hqp, Services.set_heap_self] at hlive
      rw [hqp]
      exact hfreed hlive
    · rw [Services.set_heap_of_ne st ctx hqp] at hlive
      exact hlive
  · intro q hq hsmall
    rw [Services.set_id hid] at hsmall
    by_cases hqp : q = p
    · rw [hqp, Services.set_heap_self]
      exact href (hqp ▸ hq) (hqp ▸ hsmall)
    · rw [Services.set_heap_of_ne st ctx hqp]
      exact h.referenced q hq hsmall
  · intro q hq
    by_cases hqp : q = p
    · rw [hqp, Services.set_heap_self] at hq
      exact hqp ▸ hsched hq
    · rw [Services.set_heap_of_ne st ctx hqp] at hq
      exact h.scheduled q hq

/-- The other fields of a record do not matter. -/
theorem Services.Ok.set_same {st : Services} {p : Ptr} {ctx : Context} (h : st.Ok)
    (hlt : p < st.next) (hid : ctx.id = (st.heap p).id) (hfreed : ctx.freed = (st.heap p).freed)
    (href : ctx.ref = (st.heap p).ref) (hsched : ctx.inGlobal = (st.heap p).inGlobal) :
    (st.set p ctx).Ok := by
  apply h.set hlt hid
  · rw [hfreed]
    exact fun hf => hf
  · rw [href]
    exact h.referenced p
  · rw [hsched]
    exact h.scheduled p

/-- Who is freed leaves the table. -/
theorem Services.Ok.free {st : Services} {p : Ptr} {ctx : Context} (h : st.Ok)
    (hp : p ∈ st.mgr.ptrs) (hsmall : (st.heap p).id < 2 ^ 31) (hid : ctx.id = (st.heap p).id)
    (hfreed : ctx.freed = true) (hidle : ctx.inGlobal = false) :
    { st.set p ctx with mgr := ctxMgrRemoveContext st.mgr (st.heap p).id }.Ok := by
  obtain ⟨hok, hmem⟩ := ctxMgrRemoveContext_ok h.table hp hsmall
  constructor
  · apply hok.congr
    intro q _
    exact Services.set_id hid q
  · exact h.fresh_set (h.table_lt p hp) ctx
  · intro q hq
    exact h.table_lt q ((hmem q).mp hq).1
  · exact h.launched_lt
  · rintro q ⟨hq, hlive : ((st.set p ctx).heap q).freed = false⟩
    have hqp : q ≠ p := by
      rintro rfl
      rw [Services.set_heap_self, hfreed] at hlive
      cases hlive
    rw [Services.set_heap_of_ne st ctx hqp] at hlive
    exact (hmem q).mpr ⟨h.listed q ⟨hq, hlive⟩, hqp⟩
  · intro q hq hsmall'
    obtain ⟨hq, hqp⟩ := (hmem q).mp hq
    show 1 ≤ ((st.set p ctx).heap q).ref
    rw [Services.set_heap_of_ne st ctx hqp]
    exact h.referenced q hq ((Services.set_id hid q) ▸ hsmall')
  · intro q (hq : ((st.set p ctx).heap q).inGlobal = true)
    have hqp : q ≠ p := by
      rintro rfl
      rw [Services.set_heap_self, hidle] at hq
      cases hq
    rw [Services.set_heap_of_ne st ctx hqp] at hq
    exact (hmem q).mpr ⟨h.scheduled q hq, hqp⟩

/-- The names do not matter. -/
theorem Services.Ok.withNames {st : Services} (h : st.Ok) (d : List (List Char × Nat)) :
    { st with nameDict := d }.Ok :=
  ⟨h.table, h.fresh, h.table_lt, h.launched_lt, h.listed, h.referenced, h.scheduled⟩

-- ============================================================================
-- References
-- ============================================================================

theorem ctxMgrRemoveContext_of_le {mgr : CtxMgr} {id : Nat} (h : 2 ^ 31 ≤ id) :
    ctxMgrRemoveContext mgr id = mgr := if_pos h

theorem ctxMgrGetContext_none {st st' : Services} {id : Nat}
    (hget : ctxMgrGetContext st id = (st', none)) : st' = st := by
  unfold ctxMgrGetContext at hget
  split at hget
  · exact (Prod.mk.inj hget).1.symm
  · cases (Prod.mk.inj hget).2

/-- What `ctxMgrGetContext` returns is in the table, and has a reference more. -/
theorem ctxMgrGetContext_some {st st' : Services} {id : Nat} {p : Ptr} (h : st.Ok)
    (hget : ctxMgrGetContext st id = (st', some p)) :
    p ∈ st.mgr.ptrs ∧ st' = st.set p (contextRetain (st.heap p)) ∧ st'.Ok := by
  unfold ctxMgrGetContext at hget
  split at hget
  · cases hget
  · rename_i q hslot
    cases hget
    have hp : p ∈ st.mgr.ptrs := CtxMgr.mem_ptrs_of_slot hslot
    refine ⟨hp, rfl, h.set (h.table_lt p hp) rfl (fun hf => hf) (fun _ hsmall => ?_) fun _ => hp⟩
    have href := h.referenced p hp hsmall
    exact Int.le_trans href (Int.le_add_one (Int.le_refl _))

/-- Next to the manager's reference there is now the caller's. -/
theorem Services.Ok.ref_retain_ne {st : Services} {p : Ptr} (h : st.Ok) (hp : p ∈ st.mgr.ptrs)
    (hsmall : (st.heap p).id < 2 ^ 31) : (contextRetain (st.heap p)).ref ≠ 1 := by
  have href := h.referenced p hp hsmall
  show (st.heap p).ref + 1 ≠ 1
  omega

/-- A release of someone in the table who is not scheduled, or whose last
    reference it is not. -/
theorem Services.Ok.release {st : Services} {p : Ptr} (h : st.Ok) (hp : p ∈ st.mgr.ptrs)
    (hidle : (st.heap p).id < 2 ^ 31 → (st.heap p).ref = 1 → (st.heap p).inGlobal = false) :
    (ctxMgrReleaseContext st p).Ok := by
  have hfreed : (contextRelease (st.heap p)).1.freed = false → (st.heap p).freed = false := by
    rw [← Bool.not_eq_true, ← Bool.not_eq_true, contextRelease_freed]
    exact fun hnot hold => hnot (Or.inl hold)
  have hset : ((st.heap p).id < 2 ^ 31 → (st.heap p).ref ≠ 1) →
      (st.set p (contextRelease (st.heap p)).1).Ok := by
    intro hmore
    apply h.set (h.table_lt p hp) (contextRelease_id _) hfreed
    · intro _ hsmall
      have href := h.referenced p hp hsmall
      have hne := hmore hsmall
      rw [contextRelease_ref]
      omega
    · exact fun _ => hp
  unfold ctxMgrReleaseContext
  by_cases hlast : (st.heap p).ref = 1
  · rw [if_pos ((contextRelease_null _).mpr hlast)]
    by_cases hsmall : (st.heap p).id < 2 ^ 31
    · apply h.free hp hsmall (contextRelease_id _)
      · exact (contextRelease_freed _).mpr (Or.inr hlast)
      · rw [contextRelease_inGlobal]
        exact hidle hsmall hlast
    · rw [ctxMgrRemoveContext_of_le (Nat.not_lt.mp hsmall)]
      exact hset fun hlt => absurd hlt hsmall
  · rw [if_neg fun hnull => hlast ((contextRelease_null _).mp hnull)]
    exact hset fun _ => hlast

-- ============================================================================
-- Creation
-- ============================================================================

/-- A new record at `next`, in the table or not. -/
theorem Services.Ok.add {st : Services} {mgr : CtxMgr} {ctx : Context} {l : List Ptr} {listed : Prop}
    (h : st.Ok) (hok : mgr.Ok (Function.update (fun p => (st.heap p).id) st.next ctx.id))
    (hmem : ∀ p, p ∈ mgr.ptrs ↔ p ∈ st.mgr.ptrs ∨ (p = st.next ∧ listed))
    (hl : ∀ p ∈ l, p ∈ st.launched ∨ (p = st.next ∧ listed))
    (href : ctx.ref = 1) (hidle : ctx.inGlobal = false) :
    { st.set st.next ctx with next := st.next + 1, mgr := mgr, launched := l }.Ok := by
  have hold : ∀ {p}, p < st.next → (st.set st.next ctx).heap p = st.heap p := by
    intro p hp
    exact Services.set_heap_of_ne st ctx (Nat.ne_of_lt hp)
  constructor
  · apply hok.congr
    intro p _
    show ((st.set st.next ctx).heap p).id = _
    by_cases hp : p = st.next
    · rw [hp, Services.set_heap_self, Function.update_self]
    · rw [Services.set_heap_of_ne st ctx hp, Function.update_of_ne hp]
  · intro p (hp : st.next + 1 ≤ p)
    exact (Services.set_heap_of_ne st ctx (Nat.ne_of_gt hp)).trans (h.fresh p (Nat.le_of_lt hp))
  · intro p hp
    rcases (hmem p).mp hp with hp | ⟨rfl, -⟩
    · exact Nat.lt_succ_of_lt (h.table_lt p hp)
    · exact Nat.lt_succ_self _
  · intro p hp
    rcases hl p hp with hp | ⟨rfl, -⟩
    · exact Nat.lt_succ_of_lt (h.launched_lt p hp)
    · exact Nat.lt_succ_self _
  · rintro p ⟨hp, hlive⟩
    apply (hmem p).mpr
    rcases hl p hp with hp | hnew
    · refine Or.inl (h.listed p ⟨hp, ?_⟩)
      rw [← hold (h.launched_lt p hp)]
      exact hlive
    · exact Or.inr hnew
  · intro p hp hsmall
    show 1 ≤ ((st.set st.next ctx).heap p).ref
    rcases (hmem p).mp hp with hp | ⟨rfl, -⟩
    · have hsame := hold (h.table_lt p hp)
      rw [hsame]
      exact h.referenced p hp (congrArg Context.id hsame ▸ hsmall)
    · rw [Services.set_heap_self, href]
  · intro p (hp : ((st.set st.next ctx).heap p).inGlobal = true)
    have hne : p ≠ st.next := by
      rintro rfl
      rw [Services.set_heap_self, hidle] at hp
      cases hp
    rw [Services.set_heap_of_ne st ctx hne] at hp
    exact (hmem p).mpr (Or.inl (h.scheduled p hp))

theorem ctxMgrCreateContext_ok {st st' : Services} {initOk cb : Bool} (h : st.Ok)
    (hcreate : ctxMgrCreateContext st initOk cb = some st') : st'.Ok := by
  have hnew : st.next ∉ st.mgr.ptrs := fun hmem => Nat.lt_irrefl _ (h.table_lt _ hmem)
  have hblank : st.heap st.next = Context.blank := h.fresh _ (Nat.le_refl _)
  unfold ctxMgrCreateContext at hcreate
  obtain ⟨⟨mgr, id, found⟩, hadd, hst'⟩ := Option.map_eq_some_iff.mp hcreate
  obtain ⟨hok, hmem⟩ := ctxMgrAddContext_ok h.table hnew hadd
  simp only [hblank] at hst'
  split at hst'
  · subst hst'
    exact h.add hok hmem (fun p hp => Or.inl hp) rfl rfl
  · rename_i hplaced
    have hfound : found = true := by
      rw [← Bool.not_eq_false]
      exact fun hfalse => hplaced (Or.inl hfalse)
    have hsmall : id < 2 ^ 31 := Nat.lt_of_not_le fun hle => hplaced (Or.inr hle)
    split at hst'
    · subst hst'
      apply h.add hok hmem _ rfl rfl
      intro p hp
      rcases List.mem_append.mp hp with hp | hp
      · exact Or.inl hp
      · exact Or.inr ⟨List.mem_singleton.mp hp, hfound⟩
    · subst hst'
      -- the removal takes the new context out again
      have hin : st.next ∈ mgr.ptrs := (hmem _).mpr (Or.inr ⟨rfl, hfound⟩)
      have hself : Function.update (fun p => (st.heap p).id) st.next id st.next = id :=
        Function.update_self ..
      have hremove := ctxMgrRemoveContext_ok hok hin (by rw [hself]; exact hsmall)
      rw [hself] at hremove
      have hsame : ∀ p, p ∈ (ctxMgrRemoveContext mgr id).ptrs ↔
          p ∈ st.mgr.ptrs ∨ (p = st.next ∧ False) := by
        intro p
        rw [hremove.2 p, hmem p]
        constructor
        · rintro ⟨hold | ⟨heq, -⟩, hne⟩
          · exact Or.inl hold
          · exact absurd heq hne
        · rintro (hold | ⟨-, hfalse⟩)
          · exact ⟨Or.inl hold, fun heq => hnew (heq ▸ hold)⟩
          · exact hfalse.elim
      exact h.add hremove.1 hsame (fun p hp => Or.inl hp) rfl rfl

-- ============================================================================
-- Sends
-- ============================================================================

/-- A new session number of the sender is all that changes. -/
theorem sendSession_some {st st' : Services} {ctx : Option Ptr} {session type n : Nat}
    (hsession : sendSession st ctx session type = some (st', n)) :
    st' = st ∨ ∃ p ∈ ctx, ∃ k, st' = st.set p { st.heap p with sessionid := k } := by
  unfold sendSession at hsession
  split at hsession
  · obtain ⟨p, hp, hst'⟩ := Option.map_eq_some_iff.mp hsession
    refine Or.inr ⟨p, hp, ((contextNewsession (st.heap p)).1).sessionid, ?_⟩
    rw [← (Prod.mk.inj hst').1]
    unfold contextNewsession
    dsimp only
    split <;> rfl
  · exact Or.inl (Prod.mk.inj (Option.some.inj hsession)).1.symm

theorem sendSession_heap {st st' : Services} {ctx : Option Ptr} {session type n : Nat}
    (hsession : sendSession st ctx session type = some (st', n)) (q : Ptr) :
    st'.heap q = { st.heap q with sessionid := (st'.heap q).sessionid } := by
  rcases sendSession_some hsession with rfl | ⟨p, -, k, rfl⟩
  · rfl
  · by_cases hq : q = p
    · rw [hq, Services.set_heap_self]
    · rw [Services.set_heap_of_ne _ _ hq]

theorem sendSession_ok {st st' : Services} {ctx : Option Ptr} {session type n : Nat} (h : st.Ok)
    (hctx : ∀ p ∈ ctx, p ∈ st.launched)
    (hsession : sendSession st ctx session type = some (st', n)) : st'.Ok := by
  rcases sendSession_some hsession with rfl | ⟨p, hp, k, rfl⟩
  · exact h
  · exact h.set_same (h.launched_lt p (hctx p hp)) rfl rfl rfl rfl

theorem sendSession_mgr {st st' : Services} {ctx : Option Ptr} {session type n : Nat}
    (hsession : sendSession st ctx session type = some (st', n)) : st'.mgr = st.mgr := by
  rcases sendSession_some hsession with rfl | ⟨p, -, k, rfl⟩ <;> rfl

/-- A send goes nowhere, or it pushes one message to who is in the slot of `toId`. -/
theorem workerPoolSend_some {st st' : Services} {ctx : Option Ptr}
    {fromId toId session type sz ud : Nat} {data : Option Nat} {result : Int}
    (hsend : workerPoolSend st ctx fromId toId session type data sz ud = some (st', result)) :
    st' = st ∨ ∃ toctx st₁ n msg,
      ctxMgrGetContext st toId = (st.set toctx (contextRetain (st.heap toctx)), some toctx) ∧
      sendSession (st.set toctx (contextRetain (st.heap toctx))) ctx session type = some (st₁, n) ∧
      sendPush st₁ toctx msg = some st' := by
  unfold workerPoolSend at hsend
  dsimp only at hsend
  split at hsend
  · exact Or.inl (Prod.mk.inj (Option.some.inj hsend)).1.symm
  · cases hslot : st.mgr.slot toId with
    | none =>
        have hget : ctxMgrGetContext st toId = (st, none) := by
          unfold ctxMgrGetContext
          rw [hslot]
        rw [hget] at hsend
        exact Or.inl (Prod.mk.inj (Option.some.inj hsend)).1.symm
    | some toctx =>
        have hget : ctxMgrGetContext st toId =
            (st.set toctx (contextRetain (st.heap toctx)), some toctx) := by
          unfold ctxMgrGetContext
          rw [hslot]
        rw [hget] at hsend
        obtain ⟨⟨st₁, n⟩, hsession, hpush⟩ := Option.bind_eq_some_iff.mp hsend
        obtain ⟨st₂, hst₂, heq⟩ := Option.map_eq_some_iff.mp hpush
        rw [(Prod.mk.inj heq).1] at hst₂
        exact Or.inr ⟨toctx, st₁, n, _, hget, hsession, hst₂⟩

/-- The push to someone to whom the sender holds a reference of its own. -/
theorem sendPush_ok {st st' : Services} {toctx : Ptr} {msg : Message} (h : st.Ok)
    (hp : toctx ∈ st.mgr.ptrs)
    (href : (st.heap toctx).id < 2 ^ 31 → (st.heap toctx).ref ≠ 1)
    (hpush : sendPush st toctx msg = some st') : st'.Ok := by
  have hlt := h.table_lt toctx hp
  have hpushed : (st.set toctx ((st.heap toctx).push msg)).Ok :=
    h.set_same hlt rfl rfl rfl rfl
  unfold sendPush at hpush
  split at hpush
  · dsimp only at hpush
    split at hpush
    · cases hpush
      apply hpushed.release hp
      rw [Services.set_heap_self]
      exact fun hsmall hlast => absurd hlast (href hsmall)
    · cases hpush
      exact hpushed.set hlt rfl (fun hf => hf) (hpushed.referenced toctx) fun _ => hp
  · cases hpush

theorem workerPoolSend_ok {st st' : Services} {ctx : Option Ptr}
    {fromId toId session type sz ud : Nat} {data : Option Nat} {result : Int} (h : st.Ok)
    (hctx : ∀ p ∈ ctx, p ∈ st.launched)
    (hsend : workerPoolSend st ctx fromId toId session type data sz ud = some (st', result)) :
    st'.Ok := by
  rcases workerPoolSend_some hsend with rfl | ⟨toctx, st₁, n, msg, hget, hsession, hpush⟩
  · exact h
  · obtain ⟨hp, -, hretained⟩ := ctxMgrGetContext_some h hget
    have hheap := sendSession_heap hsession toctx
    rw [Services.set_heap_self] at hheap
    apply sendPush_ok (sendSession_ok hretained hctx hsession) _ _ hpush
    · rw [sendSession_mgr hsession]
      exact hp
    · rw [hheap]
      exact fun hsmall => h.ref_retain_ne hp hsmall

-- ============================================================================
-- Dispatch and names
-- ============================================================================

/-- What the dispatch of a message cannot change.  The assertion on an exit
    message keeps the last reference. -/
theorem contextDispatchMessage_some {ctx ctx' : Context} {result : Int}
    (hdispatch : contextDispatchMessage ctx = some (ctx', result)) :
    ctx'.id = ctx.id ∧ ctx'.inGlobal = ctx.inGlobal ∧
      (ctx'.freed = false → ctx.freed = false) ∧ (1 ≤ ctx.ref → 1 ≤ ctx'.ref) := by
  unfold contextDispatchMessage at hdispatch
  split at hdispatch
  · cases hdispatch
    exact ⟨rfl, rfl, fun hf => hf, fun hr => hr⟩
  · dsimp only at hdispatch
    split at hdispatch
    · cases hdispatch
      exact ⟨rfl, rfl, fun hf => hf, fun hr => hr⟩
    · split at hdispatch
      · split at hdispatch
        · cases hdispatch
        · rename_i hnull
          cases hdispatch
          have hlast := fun hr => hnull ((contextRelease_null _).mpr hr)
          refine ⟨contextRelease_id _, contextRelease_inGlobal _, ?_, fun hr => ?_⟩
          · rw [← Bool.not_eq_true, ← Bool.not_eq_true]
            exact fun hnot hold => hnot ((contextRelease_freed _).mpr (Or.inl hold))
          · have hmore : ctx.ref ≠ 1 := hlast
            show 1 ≤ (contextRelease _).1.ref
            rw [contextRelease_ref]
            show 1 ≤ ctx.ref - 1
            omega
      · cases hdispatch
        exact ⟨rfl, rfl, fun hf => hf, fun hr => hr⟩

theorem handleRound_ok {st st' : Services} {p : Ptr} (h : st.Ok)
    (hround : handleRound st p = some st') : st'.Ok := by
  unfold handleRound at hround
  split at hround
  · rename_i hg
    have hp : p ∈ st.mgr.ptrs := h.scheduled p hg
    have hlt := h.table_lt p hp
    obtain ⟨⟨c, result⟩, hdispatch, hst'⟩ := Option.map_eq_some_iff.mp hround
    obtain ⟨hid, -, hfreed, href⟩ := contextDispatchMessage_some hdispatch
    have href' : p ∈ st.mgr.ptrs → (st.heap p).id < 2 ^ 31 → 1 ≤ c.ref :=
      fun hp hsmall => href (h.referenced p hp hsmall)
    dsimp only at hst'
    split at hst'
    · subst hst'
      have hidle : (st.set p { c with inGlobal := false }).Ok :=
        h.set hlt hid hfreed href' (by rintro ⟨⟩)
      apply hidle.release hp
      rw [Services.set_heap_self]
      exact fun _ _ => rfl
    · subst hst'
      exact h.set hlt hid hfreed href' fun _ => hp
  · cases hround

theorem nameMgrRegist_ok {st : Services} (h : st.Ok) (name : List Char) (id : Nat) :
    (nameMgrRegist st name id).1.Ok := by
  unfold nameMgrRegist
  split
  · rename_i st₁ hget
    rw [ctxMgrGetContext_none hget]
    exact h
  · rename_i st₁ p hget
    obtain ⟨hp, rfl, hretained⟩ := ctxMgrGetContext_some h hget
    have hnamed : ((st.set p (contextRetain (st.heap p))).set p
        { (st.set p (contextRetain (st.heap p))).heap p with name := snprintfName name }).Ok :=
      hretained.set_same (h.table_lt p hp) rfl rfl rfl rfl
    have hmore : (st.heap p).id < 2 ^ 31 → (contextRetain (st.heap p)).ref ≠ 1 :=
      fun hsmall => h.ref_retain_ne hp hsmall
    rw [Services.set_heap_self] at hnamed ⊢
    dsimp only
    split
    · apply (hnamed.withNames _).release hp
      show _ → (((_ : Services).set p _).heap p).ref = 1 → _
      rw [Services.set_heap_self]
      exact fun hsmall hlast => absurd hlast (hmore hsmall)
    · apply hnamed.release hp
      rw [Services.set_heap_self]
      exact fun hsmall hlast => absurd hlast (hmore hsmall)

theorem nameMgrUnRegist_ok {st : Services} (h : st.Ok) (name : List Char) :
    (nameMgrUnRegist st name).1.Ok := by
  unfold nameMgrUnRegist
  dsimp only
  split
  · exact h
  · split
    · exact h
    · split
      · rename_i st₁ hget
        rw [ctxMgrGetContext_none hget]
        exact h.withNames _
      · rename_i st₁ p hget
        obtain ⟨hp, rfl, hretained⟩ := ctxMgrGetContext_some (h.withNames _) hget
        exact hretained.set_same (h.table_lt p hp) rfl rfl rfl rfl

theorem services_ok_step {st st' : Services} {op : ServicesOp} (h : st.Ok)
    (hstep : servicesStep st op = some st') : st'.Ok := by
  cases op with
  | create initOk cb => exact ctxMgrCreateContext_ok h hstep
  | setCallback p cb =>
      simp only [servicesStep] at hstep
      split at hstep
      · rename_i hlive
        cases hstep
        have hp := h.listed p hlive
        exact h.set_same (h.table_lt p hp) rfl rfl rfl rfl
      · cases hstep
  | send ctx fromId toId session type data sz ud =>
      simp only [servicesStep] at hstep
      split at hstep
      · rename_i hlive
        obtain ⟨r, hsend, rfl⟩ := Option.map_eq_some_iff.mp hstep
        exact workerPoolSend_ok h (fun p hp => (hlive p hp).1) hsend
      · cases hstep
  | sendName ctx fromId name session type data sz ud =>
      simp only [servicesStep] at hstep
      split at hstep
      · rename_i hlive
        obtain ⟨r, hsend, rfl⟩ := Option.map_eq_some_iff.mp hstep
        exact workerPoolSend_ok h (fun p hp => (hlive p hp).1) hsend
      · cases hstep
  | handle p => exact handleRound_ok h hstep
  | regist name id =>
      cases hstep
      exact nameMgrRegist_ok h name id
  | unregist name =>
      cases hstep
      exact nameMgrUnRegist_ok h name

theorem services_ok_of_reachable {setsize : Nat} {st : Services} (hsize : 0 < setsize)
    (h : Reachable servicesStep (servicesInit setsize) st) : st.Ok :=
  h.invariant (services_ok_init hsize) fun _ _ _ hok hstep => services_ok_step hok hstep

-- ============================================================================
-- Only a clash misdelivers
-- ============================================================================

theorem ctxMgrGetContext_snd (st : Services) (id : Nat) :
    (ctxMgrGetContext st id).2 = st.mgr.slot id := by
  unfold ctxMgrGetContext
  split
  · rename_i hslot
    exact hslot.symm
  · rename_i hslot
    exact hslot.symm

theorem ctxMgrReleaseContext_heap_of_ne (st : Services) {p q : Ptr} (h : q ≠ p) :
    (ctxMgrReleaseContext st p).heap q = st.heap q := by
  unfold ctxMgrReleaseContext
  dsimp only
  split <;> exact Services.set_heap_of_ne st _ h

theorem sendPush_heap_of_ne {st st' : Services} {toctx q : Ptr} {msg : Message}
    (hpush : sendPush st toctx msg = some st') (h : q ≠ toctx) : st'.heap q = st.heap q := by
  unfold sendPush at hpush
  split at hpush
  · dsimp only at hpush
    split at hpush
    · cases hpush
      rw [ctxMgrReleaseContext_heap_of_ne _ h, Services.set_heap_of_ne _ _ h]
    · cases hpush
      rw [Services.set_heap_of_ne _ _ h, Services.set_heap_of_ne _ _ h]
  · cases hpush

/-- Only the queue of who `ctxMgrGetContext` returns can change. -/
theorem workerPoolSend_queue {st st' : Services} {ctx : Option Ptr}
    {fromId toId session type sz ud : Nat} {data : Option Nat} {result : Int} {p : Ptr}
    (hsend : workerPoolSend st ctx fromId toId session type data sz ud = some (st', result))
    (hp : (st'.heap p).queue ≠ (st.heap p).queue) : (ctxMgrGetContext st toId).2 = some p := by
  rcases workerPoolSend_some hsend with rfl | ⟨toctx, st₁, n, msg, hget, hsession, hpush⟩
  · exact absurd rfl hp
  · by_cases hne : p = toctx
    · rw [hget, hne]
    · refine absurd ?_ hp
      rw [sendPush_heap_of_ne hpush hne, sendSession_heap hsession p,
        Services.set_heap_of_ne _ _ hne]

/-- In every state of every run a number leads to its own context or nowhere if
    and only if nobody else in the table has a number of its residue. -/
theorem deliversOnly_iff_noClash {setsize : Nat} (hsize : 0 < setsize) {st : Services}
    (h : Reachable servicesStep (servicesInit setsize) st) (id : Nat) :
    DeliversOnly st id ↔ NoClash st id := by
  have hok := services_ok_of_reachable hsize h
  have hget : ∀ p, (ctxMgrGetContext st id).2 = some p ↔
      p ∈ st.mgr.ptrs ∧ (st.heap p).id % st.mgr.setsize = id % st.mgr.setsize := by
    intro p
    rw [ctxMgrGetContext_snd]
    exact hok.table.slot_eq_some
  constructor
  · intro hdelivers p hp hmod
    obtain ⟨hlive, hid⟩ := hdelivers.get_some p ((hget p).mpr ⟨hp, hmod⟩)
    exact ⟨hid, hlive⟩
  · intro hclash
    have hsome : ∀ p, (ctxMgrGetContext st id).2 = some p → st.Live p ∧ (st.heap p).id = id := by
      intro p hp
      obtain ⟨hmem, hmod⟩ := (hget p).mp hp
      exact (hclash p hmem hmod).symm
    constructor
    · exact hsome
    · intro hnone p hlive hid
      rw [(hget p).mpr ⟨hok.listed p hlive, by rw [hid]⟩] at hnone
      cases hnone
    · intro ctx fromId session type data sz ud st' result hsend p hp
      exact hsome p (workerPoolSend_queue hsend hp)
    · intro name _ p hp
      exact (hsome p hp).2

/-- With the table of the default size and one service, the number 1. -/
theorem deliversOnly_one :
    ∃ st, Reachable servicesStep (servicesInit 32) st ∧ DeliversOnly st 1 := by
  have hrun : Reachable servicesStep (servicesInit 32)
      ((servicesStep (servicesInit 32) (.create true true)).get rfl) := ⟨[.create true true], rfl⟩
  refine ⟨_, hrun, (deliversOnly_iff_noClash (by decide) hrun 1).mpr ?_⟩
  intro p (hp : p ∈ [0]) _
  cases List.mem_singleton.mp hp
  decide

/-- There the number 33, which nobody has, leads to the service numbered 1. -/
theorem send_to_thirty_three : ∃ st, Reachable servicesStep (servicesInit 32) st ∧
    (st.heap 0).id = 1 ∧ ¬ DeliversOnly st 33 ∧
    ∃ st' result, workerPoolSend st none 0 33 7 0 none 0 0 = some (st', result) ∧
      (st'.heap 0).queue = [⟨0, 7, 0, 0, 0, none⟩] := by
  refine ⟨_, ⟨[.create true true], rfl⟩, rfl, ?_, _, _, rfl, rfl⟩
  intro hdelivers
  have hid := (hdelivers.get_some 0 rfl).2
  revert hid
  decide

end ZServer
