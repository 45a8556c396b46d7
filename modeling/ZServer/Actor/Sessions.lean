/-
  ZServer.Actor.Sessions

  The sessions that `contextNewsession` hands out, when any threads call it for one
  context, and what comes of them on the way back to Lua.

  `AtomicAdd` answers with the value before the addition, so the counter is repaired
  too late: the call that lets it overflow answers with 1, and so does the next one.
-/

import ZServer.Lib.Threads
import ZServer.Actor.Delivery

namespace ZServer

open Lib

-- ============================================================================
-- `contextNewsession`
-- ============================================================================

/-- `ctx->sessionid`, and the calls so far, with their answers. -/
structure Sessions where
  sessionid : Nat
  calls : List (Option Nat)
  deriving DecidableEq, Repr

inductive SessionPc where
  /-- `AtomicAdd(&ctx->sessionid, 1)` -/
  | add
  /-- `CAS(&ctx->sessionid, 0, 1)` -/
  | cas (call id : Nat)
  /-- `return ctx->sessionid` -/
  | read (call : Nat)
  deriving DecidableEq, Repr

def Sessions.answer (s : Sessions) (call id : Nat) : Sessions :=
  { s with calls := s.calls.set call (some id) }

/-- One atomic operation of one thread. -/
def sessionPcStep (s : Sessions) (pc : SessionPc) (_ : Unit) : Option (Sessions × SessionPc) :=
  match pc with
  | .add => some (⟨u32 (s.sessionid + 1), s.calls ++ [none]⟩, .cas s.calls.length s.sessionid)
  | .cas call id =>
      if s.sessionid = 0 then some ({ s with sessionid := 1 }, .read call)
      else some (s.answer call id, .add)
  | .read call => some (s.answer call s.sessionid, .add)

def sessionInit {ι : Type} (sessionid : Nat) : Config ι Sessions SessionPc :=
  ⟨⟨sessionid, []⟩, fun _ => .add⟩

/-- No call has answered 0, and two calls with fewer than `2 ^ 32 - 1` calls between
    them have different answers. -/
structure Sessions.Distinct (s : Sessions) : Prop where
  nonzero : ∀ (i : Nat) id, s.calls[i]? = some (some id) → id ≠ 0
  different : ∀ (i j : Nat) id id', i < j → j - i - 1 < 2 ^ 32 - 1 → s.calls[i]? = some (some id) →
    s.calls[j]? = some (some id') → id ≠ id'

-- ============================================================================
-- The way back to Lua
-- ============================================================================

/-- What `_send` returns to Lua. -/
def sendResult (session : Int) : Option Int := if session < 0 then none else some session

/-- The session that `workerPoolSend` gives to the message. -/
def Services.sessionFor (st : Services) (ctx : Option Ptr) (session type : Nat) : Nat :=
  if type &&& MSG_TYPE_NEWSESSION ≠ 0 then
    (ctx.map fun p => (contextNewsession (st.heap p)).2).getD 0
  else session

/-- The queue of a context has taken a message. -/
def Services.Enqueued (st st' : Services) : Prop :=
  ∃ p, (st'.heap p).accepted ≠ (st.heap p).accepted

/-- A message that has been sent has a session for Lua, and no other has; a full queue
    ends the process. -/
structure ReportsSent (st : Services) (ctx : Option Ptr) (fromId toId session type : Nat)
    (data : Option Nat) (sz ud : Nat) : Prop where
  natural : ∀ st' result,
    workerPoolSend st ctx fromId toId session type data sz ud = some (st', result) →
      st.Enqueued st' → 0 ≤ result
  reported : ∀ st' result,
    workerPoolSend st ctx fromId toId session type data sz ud = some (st', result) →
      ((sendResult result).isSome = true ↔ st.Enqueued st')

/-- The message reaches no queue, or its session fits an `int`. -/
def SessionFits (st : Services) (ctx : Option Ptr) (toId session type : Nat) : Prop :=
  toId ≠ 0 → ∀ toctx, (ctxMgrGetContext st toId).2 = some toctx →
    (st.heap toctx).queue.length < queueRoom → st.sessionFor ctx session type < 2 ^ 31

-- ============================================================================
-- Before the overflow
-- ============================================================================

section Runs

variable {ι : Type} [DecidableEq ι] {start : Nat} {c c' : Config ι Sessions SessionPc}

/-- The addition finds neither 0 nor the last number. -/
def NoOverflow (c : Config ι Sessions SessionPc) (a : ι × Unit) : Prop :=
  c.pcs a.1 = .add → 1 ≤ c.shared.sessionid ∧ c.shared.sessionid + 1 < 2 ^ 32

omit [DecidableEq ι] in
instance (c : Config ι Sessions SessionPc) : DecidablePred (NoOverflow c) := fun a => by
  unfold NoOverflow
  infer_instance

/-- The calls have the numbers from `start` on. -/
structure Numbered (start : Nat) (c : Config ι Sessions SessionPc) : Prop where
  counter : c.shared.sessionid = start + c.shared.calls.length
  range : c.shared.calls ≠ [] → 1 ≤ start ∧ c.shared.sessionid < 2 ^ 32
  answered : ∀ (i : Nat) id, c.shared.calls[i]? = some (some id) → id = start + i
  pending : ∀ t call id, c.pcs t = .cas call id → call < c.shared.calls.length ∧ id = start + call
  unread : ∀ t call, c.pcs t ≠ .read call

/-- A call begins, and draws the next number. -/
theorem Numbered.add (h : Numbered start c) (thread : ι) (hpos : 1 ≤ c.shared.sessionid)
    (hlt : c.shared.sessionid + 1 < 2 ^ 32) :
    Numbered start ⟨⟨u32 (c.shared.sessionid + 1), c.shared.calls ++ [none]⟩,
      Function.update c.pcs thread (.cas c.shared.calls.length c.shared.sessionid)⟩ := by
  have hnext : u32 (c.shared.sessionid + 1) = c.shared.sessionid + 1 := u32_of_lt hlt
  have hcounter := h.counter
  refine ⟨?_, fun _ => ⟨?_, ?_⟩, fun i id hi => ?_, fun t call id ht => ?_, fun t call ht => ?_⟩
  · show u32 (c.shared.sessionid + 1) = start + (c.shared.calls ++ [none]).length
    rw [hnext, List.length_append, hcounter]
    rfl
  · by_cases hnil : c.shared.calls = []
    · rw [hnil] at hcounter
      rw [hcounter] at hpos
      exact hpos
    · exact (h.range hnil).1
  · show u32 (c.shared.sessionid + 1) < 2 ^ 32
    rw [hnext]
    exact hlt
  · have hi : (c.shared.calls ++ [none])[i]? = some (some id) := hi
    rw [List.getElem?_append] at hi
    split at hi
    · exact h.answered i id hi
    · rw [List.getElem?_singleton] at hi
      split at hi <;> cases hi
  · have ht : Function.update c.pcs thread _ t = .cas call id := ht
    show call < (c.shared.calls ++ [none]).length ∧ _
    rw [List.length_append]
    by_cases hself : t = thread
    · rw [hself, Function.update_self] at ht
      cases ht
      exact ⟨Nat.lt_succ_self _, hcounter⟩
    · rw [Function.update_of_ne hself] at ht
      obtain ⟨hlt', hid⟩ := h.pending t call id ht
      exact ⟨Nat.lt_succ_of_lt hlt', hid⟩
  · have ht : Function.update c.pcs thread _ t = .read call := ht
    by_cases hself : t = thread
    · rw [hself, Function.update_self] at ht
      cases ht
    · rw [Function.update_of_ne hself] at ht
      exact h.unread t call ht

/-- A call answers with the number that it has drawn. -/
theorem Numbered.answer (h : Numbered start c) {thread : ι} {call id : Nat}
    (hpc : c.pcs thread = .cas call id) :
    Numbered start ⟨c.shared.answer call id, Function.update c.pcs thread .add⟩ := by
  obtain ⟨hcall, hid⟩ := h.pending thread call id hpc
  have hnil : c.shared.calls ≠ [] := List.ne_nil_of_length_pos (Nat.zero_lt_of_lt hcall)
  have hlen : (c.shared.calls.set call (some id)).length = c.shared.calls.length := List.length_set
  refine ⟨h.counter.trans (congrArg _ hlen.symm), fun _ => h.range hnil, fun i id' hi => ?_,
    fun t call' id' ht => ?_, fun t call' ht => ?_⟩
  · have hi : (c.shared.calls.set call (some id))[i]? = some (some id') := hi
    by_cases hic : call = i
    · rw [hic, List.getElem?_set_self (hic ▸ hcall)] at hi
      cases hi
      rw [← hic]
      exact hid
    · rw [List.getElem?_set_ne hic] at hi
      exact h.answered i id' hi
  · have ht : Function.update c.pcs thread _ t = .cas call' id' := ht
    show call' < (c.shared.calls.set call (some id)).length ∧ _
    rw [hlen]
    by_cases hself : t = thread
    · rw [hself, Function.update_self] at ht
      cases ht
    · rw [Function.update_of_ne hself] at ht
      exact h.pending t call' id' ht
  · have ht : Function.update c.pcs thread _ t = .read call' := ht
    by_cases hself : t = thread
    · rw [hself, Function.update_self] at ht
      cases ht
    · rw [Function.update_of_ne hself] at ht
      exact h.unread t call' ht

theorem Numbered.step (h : Numbered start c) {a : ι × Unit} (hok : NoOverflow c a)
    (hf : fire sessionPcStep c a = some c') : Numbered start c' := by
  obtain ⟨s, pc, hs, rfl⟩ := fire_eq_some.mp hf
  cases hpc : c.pcs a.1 with
  | add =>
      rw [hpc] at hs
      cases hs
      obtain ⟨hpos, hlt⟩ := hok hpc
      exact h.add a.1 hpos hlt
  | cas call id =>
      rw [hpc] at hs
      obtain ⟨hcall, -⟩ := h.pending a.1 call id hpc
      -- the counter has moved on from a number that is not 0
      have hne : c.shared.sessionid ≠ 0 := by
        have hpos := (h.range (List.ne_nil_of_length_pos (Nat.zero_lt_of_lt hcall))).1
        rw [h.counter]
        omega
      simp only [sessionPcStep] at hs
      rw [if_neg hne] at hs
      cases hs
      exact h.answer hpc
  | read call => exact absurd hpc (h.unread a.1 call)

omit [DecidableEq ι] in
theorem Numbered.distinct (h : Numbered start c) : c.shared.Distinct where
  nonzero := fun i id hi => by
    have hnil : c.shared.calls ≠ [] := by
      rintro hnil
      rw [hnil] at hi
      cases hi
    have hpos := (h.range hnil).1
    rw [h.answered i id hi]
    omega
  different := fun i j id id' hij _ hi hj => by
    rw [h.answered i id hi, h.answered j id' hj]
    omega

end Runs

/-- A call that no other thread disturbs is `contextNewsession` as a whole. -/
theorem sessions_alone (ctx : Context) : ∃ n c,
    runFrom (fire sessionPcStep) (sessionInit ctx.sessionid) (List.replicate n ((), ())) = some c ∧
      c.shared = ⟨(contextNewsession ctx).1.sessionid, [some (contextNewsession ctx).2]⟩ := by
  unfold contextNewsession
  simp only
  by_cases hzero : u32 (ctx.sessionid + 1) = 0
  · rw [if_pos hzero]
    refine ⟨3, ⟨⟨1, [some 1]⟩, fun _ => .add⟩, ?_, rfl⟩
    simp [List.replicate, fire, sessionInit, sessionPcStep, Sessions.answer, hzero]
  · rw [if_neg hzero]
    refine ⟨2, ⟨⟨u32 (ctx.sessionid + 1), [some ctx.sessionid]⟩, fun _ => .add⟩, ?_, rfl⟩
    simp [List.replicate, fire, sessionInit, sessionPcStep, Sessions.answer, hzero]

-- ============================================================================
-- One send
-- ============================================================================

section Sends

variable {st st' : Services} {ctx : Option Ptr} {fromId toId session type sz ud : Nat}
  {data : Option Nat} {result : Int}

theorem sendSession_value {n : Nat} (h : sendSession st ctx session type = some (st', n)) :
    n = st.sessionFor ctx session type := by
  unfold sendSession at h
  unfold Services.sessionFor
  split at h
  · rename_i hnew
    obtain ⟨p, rfl, heq⟩ := Option.map_eq_some_iff.mp h
    rw [if_pos hnew]
    exact (Prod.mk.inj heq).2.symm
  · rename_i hold
    rw [if_neg hold]
    exact (Prod.mk.inj (Option.some.inj h)).2.symm

/-- A reference more does not change the sessions. -/
theorem sessionFor_retain (toctx : Ptr) :
    (st.set toctx (contextRetain (st.heap toctx))).sessionFor ctx session type =
      st.sessionFor ctx session type := by
  have hnew : ∀ p, (contextNewsession ((st.set toctx (contextRetain (st.heap toctx))).heap p)).2 =
      (contextNewsession (st.heap p)).2 := by
    intro p
    by_cases hp : p = toctx
    · subst hp
      rw [Services.set_heap_self]
      unfold contextNewsession contextRetain
      simp only
      split
      · rfl
      · rfl
    · rw [Services.set_heap_of_ne _ _ hp]
  unfold Services.sessionFor
  simp only [hnew]

theorem ctxMgrReleaseContext_accepted (st : Services) (p : Ptr) :
    ((ctxMgrReleaseContext st p).heap p).accepted = (st.heap p).accepted := by
  unfold ctxMgrReleaseContext
  dsimp only
  split
  · show ((st.set p (contextRelease (st.heap p)).1).heap p).accepted = _
    rw [Services.set_heap_self, contextRelease_accepted]
  · rw [Services.set_heap_self, contextRelease_accepted]

theorem sendPush_accepted {toctx : Ptr} {msg : Message} (h : sendPush st toctx msg = some st') :
    (st.heap toctx).queue.length < queueRoom ∧
      (st'.heap toctx).accepted = (st.heap toctx).accepted ++ [msg] := by
  unfold sendPush at h
  split at h
  · rename_i hroom
    refine ⟨hroom, ?_⟩
    dsimp only at h
    split at h
    · cases h
      rw [ctxMgrReleaseContext_accepted, Services.set_heap_self]
      rfl
    · cases h
      rw [Services.set_heap_self, Services.set_heap_self]
      rfl
  · cases h

/-- A send that returns goes nowhere, or pushes the message and answers its session. -/
theorem workerPoolSend_cases
    (h : workerPoolSend st ctx fromId toId session type data sz ud = some (st', result)) :
    (result = -1 ∧ st' = st ∧ (toId = 0 ∨ (ctxMgrGetContext st toId).2 = none)) ∨
      toId ≠ 0 ∧ ∃ toctx, (ctxMgrGetContext st toId).2 = some toctx ∧
        (st.heap toctx).queue.length < queueRoom ∧ st.Enqueued st' ∧
        result = intOf (st.sessionFor ctx session type) := by
  unfold workerPoolSend at h
  dsimp only at h
  split at h
  case isTrue hzero =>
    cases h
    exact Or.inl ⟨rfl, rfl, Or.inl hzero⟩
  case isFalse hzero =>
    cases hslot : st.mgr.slot toId with
    | none =>
        have hget : ctxMgrGetContext st toId = (st, none) := by
          unfold ctxMgrGetContext
          rw [hslot]
        rw [hget] at h
        cases h
        exact Or.inl ⟨rfl, rfl, Or.inr (by rw [hget])⟩
    | some toctx =>
        have hget : ctxMgrGetContext st toId =
            (st.set toctx (contextRetain (st.heap toctx)), some toctx) := by
          unfold ctxMgrGetContext
          rw [hslot]
        rw [hget] at h
        obtain ⟨⟨st₁, n⟩, hsession, hrest⟩ := Option.bind_eq_some_iff.mp h
        obtain ⟨st₂, hpush, heq⟩ := Option.map_eq_some_iff.mp hrest
        cases heq
        obtain ⟨hroom, haccepted⟩ := sendPush_accepted hpush
        have hbefore := sendSession_heap hsession toctx
        rw [Services.set_heap_self] at hbefore
        rw [hbefore] at hroom haccepted
        refine Or.inr ⟨hzero, toctx, by rw [hget], hroom, ⟨toctx, fun hsame => ?_⟩, ?_⟩
        · rw [haccepted] at hsame
          exact absurd (congrArg List.length hsame) (by simp [contextRetain])
        · rw [sendSession_value hsession, sessionFor_retain]

/-- A send to somebody with room in his queue returns, unless nobody asks for a session. -/
theorem workerPoolSend_returns {toctx : Ptr} (hto : toId ≠ 0)
    (hget : (ctxMgrGetContext st toId).2 = some toctx)
    (hroom : (st.heap toctx).queue.length < queueRoom)
    (hctx : type &&& MSG_TYPE_NEWSESSION ≠ 0 → ctx.isSome = true) :
    ∃ st' result,
      workerPoolSend st ctx fromId toId session type data sz ud = some (st', result) := by
  rw [ctxMgrGetContext_snd] at hget
  have hretain : ctxMgrGetContext st toId =
      (st.set toctx (contextRetain (st.heap toctx)), some toctx) := by
    unfold ctxMgrGetContext
    rw [hget]
  have hsession : ∃ r, sendSession (st.set toctx (contextRetain (st.heap toctx))) ctx session type =
      some r := by
    unfold sendSession
    split
    · rename_i hnew
      obtain ⟨p, rfl⟩ := Option.isSome_iff_exists.mp (hctx hnew)
      exact ⟨_, rfl⟩
    · exact ⟨_, rfl⟩
  obtain ⟨⟨st₁, n⟩, hsession⟩ := hsession
  have hqueue : (st₁.heap toctx).queue.length < queueRoom := by
    rw [sendSession_heap hsession toctx, Services.set_heap_self]
    exact hroom
  have hpush : ∀ msg, ∃ st₂, sendPush st₁ toctx msg = some st₂ := by
    intro msg
    unfold sendPush
    rw [if_pos hqueue]
    dsimp only
    split
    · exact ⟨_, rfl⟩
    · exact ⟨_, rfl⟩
  unfold workerPoolSend
  rw [if_neg hto, hretain]
  simp only [hsession, Option.bind_some]
  obtain ⟨st₂, hst₂⟩ := hpush
    ⟨if fromId = 0 then (ctx.map fun p => (st.heap p).id).getD 0 else fromId, n, type, ud, sz, data⟩
  exact ⟨st₂, intOf n, by rw [hst₂]; rfl⟩

theorem not_enqueued_self : ¬st.Enqueued st := fun ⟨_, hp⟩ => hp rfl

theorem intOf_nonneg_iff {n : Nat} (hn : n < 2 ^ 32) : 0 ≤ intOf n ↔ n < 2 ^ 31 := by
  unfold intOf
  split
  · omega
  · omega

theorem sendResult_isSome (session : Int) : (sendResult session).isSome = true ↔ 0 ≤ session := by
  unfold sendResult
  split
  · rename_i hneg
    exact ⟨by rintro ⟨⟩, fun h => absurd hneg (not_lt.mpr h)⟩
  · rename_i hnat
    exact ⟨fun _ => not_lt.mp hnat, fun _ => rfl⟩

theorem reportsSent_iff (hsession : st.sessionFor ctx session type < 2 ^ 32) :
    ReportsSent st ctx fromId toId session type data sz ud ↔
      SessionFits st ctx toId session type := by
  constructor
  · intro h hto toctx hget hroom
    by_cases hctx : type &&& MSG_TYPE_NEWSESSION ≠ 0 → ctx.isSome = true
    · obtain ⟨st', result, hsend⟩ := workerPoolSend_returns hto hget hroom hctx
      rcases workerPoolSend_cases hsend with ⟨-, -, hnone⟩ | ⟨-, _, -, -, hin, rfl⟩
      · rw [hget] at hnone
        exact absurd hnone (by simp [hto])
      · exact (intOf_nonneg_iff hsession).mp (h.natural st' _ hsend hin)
    · -- without a context there is no session to ask for
      push Not at hctx
      obtain ⟨hnew, hnone⟩ := hctx
      have hnone : ctx = none := Option.not_isSome_iff_eq_none.mp hnone
      subst hnone
      unfold Services.sessionFor
      rw [if_pos hnew]
      exact Nat.two_pow_pos 31
  · intro h
    have hcases : ∀ st' result,
        workerPoolSend st ctx fromId toId session type data sz ud = some (st', result) →
          (st.Enqueued st' ∧ 0 ≤ result) ∨ (¬st.Enqueued st' ∧ result = -1) := by
      intro st' result hsend
      rcases workerPoolSend_cases hsend with ⟨rfl, rfl, -⟩ | ⟨hto, toctx, hget, hroom, hin, rfl⟩
      · exact Or.inr ⟨not_enqueued_self, rfl⟩
      · exact Or.inl ⟨hin, (intOf_nonneg_iff hsession).mpr (h hto toctx hget hroom)⟩
    refine ⟨fun st' result hsend hin => ?_, fun st' result hsend => ?_⟩
    · rcases hcases st' result hsend with ⟨-, hnat⟩ | ⟨hout, -⟩
      · exact hnat
      · exact absurd hin hout
    · rw [sendResult_isSome]
      rcases hcases st' result hsend with ⟨hin, hnat⟩ | ⟨hout, rfl⟩
      · exact ⟨fun _ => hin, fun _ => hnat⟩
      · exact ⟨fun hnat => absurd hnat (by decide), fun hin => absurd hin hout⟩

end Sends

/-- As long as the counter does not overflow, all calls have different answers; and a
    message that has been sent has a session for Lua just in case this fits an `int`. -/
theorem sessions_distinct {ι : Type} [DecidableEq ι] (start : Nat) (acts : List (ι × Unit)) :
    (AllSteps (fire sessionPcStep) NoOverflow (sessionInit start) acts →
      Always (fire sessionPcStep) (fun c => c.shared.Distinct) (sessionInit start) acts) ∧
    ∀ st ctx fromId toId session type data sz ud, st.sessionFor ctx session type < 2 ^ 32 →
      (ReportsSent st ctx fromId toId session type data sz ud ↔
        SessionFits st ctx toId session type) := by
  refine ⟨fun hok => ?_, fun _ _ _ _ _ _ _ _ _ h => reportsSent_iff h⟩
  have hinit : Numbered start (sessionInit start : Config ι Sessions SessionPc) :=
    { counter := rfl
      range := fun h => absurd rfl h
      answered := by rintro i id ⟨⟩
      pending := by rintro t call id ⟨⟩
      unread := by rintro t call ⟨⟩ }
  exact always_of_allSteps (J := Numbered start) (fun _ h => h.distinct)
    (fun _ _ _ h hs hno => h.step hno hs) hinit hok

/-- The service with the number 1 in a table of 32, whose next session is this. -/
def oneService (sessionid : Nat) : Services where
  heap := fun _ => { Context.blank with id := 1, ref := 1, cb := true, sessionid := sessionid }
  next := 1
  mgr := { ctxMgrCreate 32 with contexts := (List.replicate 32 none).set 1 (some 0) }
  nameDict := []
  launched := [0]

/-- Two calls of two threads, and a message with the session 7. -/
theorem sessions_distinct_two :
    Always (fire sessionPcStep) (fun c : Config (Fin 2) Sessions SessionPc => c.shared.Distinct)
      (sessionInit 7) [(0, ()), (1, ()), (1, ()), (0, ())] ∧
      ReportsSent (oneService 7) (some 0) 0 1 0 MSG_TYPE_NEWSESSION none 0 0 :=
  ⟨(sessions_distinct 7 [(0, ()), (1, ()), (1, ()), (0, ())]).1 (by decide),
    ((@sessions_distinct (Fin 2) _ 7 []).2 (oneService 7) (some 0) 0 1 0 MSG_TYPE_NEWSESSION none 0
      0 (by decide)).mpr fun _ _ _ _ => by decide⟩

/-- The call that lets the counter overflow and the next one both answer 1; if the next
    one comes in between, it answers 0.  A message with the session `2 ^ 31` is sent, and
    Lua is told that it is not. -/
theorem sessions_repeat : ∃ c c' : Config (Fin 2) Sessions SessionPc,
    runFrom (fire sessionPcStep) (sessionInit (2 ^ 32 - 1))
      [(0, ()), (0, ()), (0, ()), (0, ()), (0, ())] = some c ∧
    c.shared.calls = [some 1, some 1] ∧ ¬c.shared.Distinct ∧
    runFrom (fire sessionPcStep) (sessionInit (2 ^ 32 - 1)) [(0, ()), (1, ()), (1, ())] = some c' ∧
    c'.shared.calls = [none, some 0] ∧ ¬c'.shared.Distinct ∧
    ∃ st, workerPoolSend (oneService (2 ^ 31)) (some 0) 0 1 0 MSG_TYPE_NEWSESSION none 0 0 =
        some (st, -2 ^ 31) ∧
      (st.heap 0).accepted.length = 1 ∧ sendResult (-2 ^ 31) = none ∧
      ¬ReportsSent (oneService (2 ^ 31)) (some 0) 0 1 0 MSG_TYPE_NEWSESSION none 0 0 := by
  refine ⟨_, _, rfl, rfl, fun h => ?_, rfl, rfl, fun h => ?_, _, rfl, rfl, rfl, fun h => ?_⟩
  · exact h.different 0 1 1 1 (by decide) (by decide) rfl rfl rfl
  · exact h.nonzero 1 0 rfl rfl
  · exact absurd (h.natural _ _ rfl ⟨0, by decide⟩) (by decide)

end ZServer
