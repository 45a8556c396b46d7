/-
  ZServer.Tcp.Unrecycled

  Until 2^31 ids have been drawn every id is new: 1, 2, 3 and so on.  Then an id
  waits in at most one request, and its slot is still without a descriptor.
-/

import Mathlib.Data.List.Nodup
import ZServer.Lib.Transition
import ZServer.Tcp.Moves

namespace ZServer.Tcp

open Lib

-- ============================================================================
-- The invariant
-- ============================================================================

/-- Fewer than 2^31 ids have been drawn so far. -/
def World.Fresh (w : World) : Prop := w.drawn < 2 ^ 31

instance : DecidablePred World.Fresh := fun w => inferInstanceAs (Decidable (w.drawn < 2 ^ 31))

structure World.Unrecycled (w : World) : Prop where
  counter : w.allocId = w.drawn + 1
  drawn : ∀ i, (w.sockets i).id ≤ w.drawn
  claimed : ∀ id ∈ w.claims, id ≤ w.drawn
  nodup : w.claims.Nodup
  waiting : ∀ id ∈ w.claims, ∀ i, tcpGetSocket w id = some i →
    (w.sockets i).state = .kSocketDisconnected ∧ (w.sockets i).fd < 0
  /-- a slot without a descriptor has been reserved -/
  placed : ∀ i, (w.sockets i).fd < 0 → getIndex w (w.sockets i).id = i

theorem tcpInit_unrecycled (setsize : Nat) (aeSetsize : Int) :
    (tcpInit setsize aeSetsize).Unrecycled where
  counter := rfl
  drawn := fun _ => le_refl 0
  claimed := by rintro _ ⟨⟩
  nodup := List.nodup_nil
  waiting := by rintro _ ⟨⟩
  placed := by rintro _ ⟨⟩

-- ============================================================================
-- What moves leave of it
-- ============================================================================

/-- What only a reservation, a call and the event loop taking a request change. -/
structure World.SameCounters (w w' : World) : Prop where
  setsize : w'.setsize = w.setsize
  allocId : w'.allocId = w.allocId
  drawn : w'.drawn = w.drawn
  em : w'.em = w.em

section

variable {opens tidy unrecycled : Prop} {w w' w'' : World}

theorem World.SameCounters.refl (w : World) : w.SameCounters w := ⟨rfl, rfl, rfl, rfl⟩

theorem World.SameCounters.trans (h : w.SameCounters w') (h' : w'.SameCounters w'') :
    w.SameCounters w'' :=
  ⟨h'.setsize.trans h.setsize, h'.allocId.trans h.allocId, h'.drawn.trans h.drawn,
    h'.em.trans h.em⟩

theorem World.SameCounters.index (h : w.SameCounters w') (id : Int) :
    getIndex w' id = getIndex w id := by
  unfold getIndex
  rw [h.setsize]

theorem World.SameCounters.claims (h : w.SameCounters w') : w'.claims = w.claims := by
  unfold World.claims
  rw [h.em]

theorem sameCounters_closeFd (w : World) (id fd : Int) : w.SameCounters (w.closeFd id fd) :=
  ⟨rfl, rfl, rfl, rfl⟩

theorem sameCounters_aeDeleteFileEvent (w : World) (fd : Int) (mask : AeMask) :
    w.SameCounters (aeDeleteFileEvent w fd mask) := by
  unfold aeDeleteFileEvent
  split
  · exact World.SameCounters.refl w
  · split <;> exact ⟨rfl, rfl, rfl, rfl⟩

theorem sameCounters_closeSlot (w : World) (i : Nat) : w.SameCounters (w.closeSlot i) := by
  have hunregister : w.SameCounters (w.unregister (w.sockets i).fd) :=
    (sameCounters_aeDeleteFileEvent w _ .readable).trans
      (sameCounters_aeDeleteFileEvent _ _ .writable)
  have hclosed := hunregister.trans (sameCounters_closeFd _ (w.sockets i).id (w.sockets i).fd)
  exact ⟨hclosed.setsize, hclosed.allocId, hclosed.drawn, hclosed.em⟩

theorem sameCounters_stopSlot (w : World) (i : Nat) : w.SameCounters (w.stopSlot i) := by
  unfold World.stopSlot
  split
  · have hclosed := sameCounters_closeFd w (w.sockets i).id (w.sockets i).fd
    exact ⟨hclosed.setsize, hclosed.allocId, hclosed.drawn, hclosed.em⟩
  · exact ⟨rfl, rfl, rfl, rfl⟩

theorem Move.counters (hm : Move opens tidy unrecycled w w') :
    w.SameCounters w' ∨ ∃ id, tcpGetReserveId w = some (w', id) := by
  cases hm with
  | reserve h => exact Or.inr ⟨_, h⟩
  | leak hopen hb =>
      obtain ⟨-, -, rfl⟩ := openFd_eq_some hopen
      exact Or.inl ⟨rfl, rfl, rfl, rfl⟩
  | establish i s ho hopen hidle hindex hid hstate htype hclaim =>
      obtain ⟨-, -, rfl⟩ := openFd_eq_some hopen
      exact Or.inl ⟨rfl, rfl, rfl, rfl⟩
  | accept i hs hcreate =>
      obtain ⟨-, -, -, rfl⟩ := aeCreateFileEvent_eq hcreate
      exact Or.inl ⟨rfl, rfl, rfl, rfl⟩
  | start i ho hs hcreate =>
      obtain ⟨-, -, -, rfl⟩ := aeCreateFileEvent_eq hcreate
      exact Or.inl ⟨rfl, rfl, rfl, rfl⟩
  | write i hs hcreate =>
      obtain ⟨-, -, -, rfl⟩ := aeCreateFileEvent_eq hcreate
      exact Or.inl ⟨rfl, rfl, rfl, rfl⟩
  | unwrite fd => exact Or.inl (sameCounters_aeDeleteFileEvent w fd .writable)
  | close i hs => exact Or.inl (sameCounters_closeSlot w i)
  | stop i hs hb => exact Or.inl (sameCounters_stopSlot w i)
  | note | data | free | own | buffers => exact Or.inl ⟨rfl, rfl, rfl, rfl⟩

theorem Move.drawn_le (hm : Move opens tidy unrecycled w w') : w.drawn ≤ w'.drawn := by
  rcases hm.counters with hsame | ⟨id, h⟩
  · exact hsame.drawn.ge
  · obtain ⟨a, d, hres⟩ := tcpGetReserveId_reserved h
    rw [hres.eq]
    exact hres.drawn_lt.le

theorem Move.index (hm : Move opens tidy unrecycled w w') (id : Int) : getIndex w' id = getIndex w id := by
  rcases hm.counters with hsame | ⟨new, h⟩
  · exact hsame.index id
  · obtain ⟨a, d, hres⟩ := tcpGetReserveId_reserved h
    rw [hres.eq]
    rfl

theorem Move.claims (hm : Move opens tidy unrecycled w w') : w'.claims = w.claims := by
  rcases hm.counters with hsame | ⟨new, h⟩
  · exact hsame.claims
  · obtain ⟨a, d, hres⟩ := tcpGetReserveId_reserved h
    rw [hres.eq]
    rfl

/-- What a move does to one slot. -/
inductive SlotMove (unrecycled : Prop) (w w' : World) (i : Nat) : Prop where
  | kept (hid : (w'.sockets i).id = (w.sockets i).id)
      (hstate : (w'.sockets i).state = (w.sockets i).state)
      (hfd : (w'.sockets i).fd = (w.sockets i).fd)
      (hfrom : (w.sockets i).state = .kSocketConnected →
        (w'.sockets i).fromId = (w.sockets i).fromId) : SlotMove unrecycled w w' i
  | reserved {id : Int} (h : tcpGetReserveId w = some (w', id)) (hi : i = getIndex w id)
      (hs : (w.sockets i).type = .kSocketNoneType)
      (hself : w'.sockets i = (w.sockets i).reserved id) : SlotMove unrecycled w w' i
  | established (hs : (w.sockets i).state = .kSocketDisconnected)
      (hid : (w'.sockets i).id = (w.sockets i).id)
      (hstate : (w'.sockets i).state = .kSocketConnecting)
      (hclaim : unrecycled → (w.sockets i).id ∉ w.claims ∧ (w.sockets i).fd < 0) :
      SlotMove unrecycled w w' i
  | started (hs : (w.sockets i).state = .kSocketConnecting)
      (hself : w'.sockets i = { w.sockets i with state := .kSocketConnected }) :
      SlotMove unrecycled w w' i
  | freed (hs : (w.sockets i).state ≠ .kSocketDisconnected)
      (hself : w'.sockets i = (w.sockets i).freed) : SlotMove unrecycled w w' i

theorem SlotMove.same {i : Nat} (h : w'.sockets i = w.sockets i) : SlotMove unrecycled w w' i := by
  refine .kept ?_ ?_ ?_ fun _ => ?_ <;> rw [h]

theorem Move.slot (hm : Move opens tidy unrecycled w w') (i : Nat) : SlotMove unrecycled w w' i := by
  cases hm with
  | note | data => exact .same rfl
  | reserve h =>
      obtain ⟨a, d, hres⟩ := tcpGetReserveId_reserved h
      rename_i id
      by_cases hi : i = getIndex w id
      · subst hi
        refine .reserved h rfl hres.was_free ?_
        rw [hres.eq, World.modify_self]
      · refine .same ?_
        rw [hres.eq, World.modify_of_ne _ hi]
  | free j hj =>
      by_cases hi : i = j
      · subst hi
        refine .kept ?_ ?_ ?_ fun _ => ?_ <;> rw [World.modify_self]
      · exact .same (World.modify_of_ne w hi _)
  | own j fromId hj =>
      by_cases hi : i = j
      · subst hi
        refine .kept ?_ ?_ ?_ fun hs => absurd hs hj <;> rw [World.modify_self]
      · exact .same (World.modify_of_ne w hi _)
  | buffers j f hbuf hf =>
      by_cases hi : i = j
      · subst hi
        refine .kept ?_ ?_ ?_ fun _ => ?_ <;> rw [World.modify_self, hf]
      · exact .same (World.modify_of_ne w hi _)
  | leak hopen hb =>
      obtain ⟨-, -, rfl⟩ := openFd_eq_some hopen
      exact .same rfl
  | establish j s ho hopen hidle hindex hid hstate htype hclaim =>
      obtain ⟨-, -, rfl⟩ := openFd_eq_some hopen
      by_cases hi : i = j
      · subst hi
        refine .established hidle ?_ ?_ hclaim <;> rw [World.modify_self]
        · exact hid
        · exact hstate
      · exact .same (World.modify_of_ne _ hi _)
  | accept j hj hcreate =>
      obtain ⟨-, -, -, rfl⟩ := aeCreateFileEvent_eq hcreate
      exact .same rfl
  | start j ho hj hcreate =>
      obtain ⟨-, -, -, rfl⟩ := aeCreateFileEvent_eq hcreate
      by_cases hi : i = j
      · subst hi
        exact .started hj (World.modify_self w i fun s => { s with state := .kSocketConnected })
      · exact .same (World.modify_of_ne w hi fun s => { s with state := .kSocketConnected })
  | write j hj hcreate =>
      obtain ⟨-, -, -, rfl⟩ := aeCreateFileEvent_eq hcreate
      exact .same rfl
  | unwrite fd => exact .same (congrFun (aeDeleteFileEvent_sockets w fd .writable) i)
  | close j hj =>
      by_cases hi : i = j
      · subst hi
        exact .freed hj (closeSlot_self w i)
      · exact .same (closeSlot_of_ne w hi)
  | stop j hj hb =>
      by_cases hi : i = j
      · subst hi
        exact .freed (by rw [hj]; decide) (stopSlot_self w i)
      · exact .same (stopSlot_of_ne w hi)

end

-- ============================================================================
-- What keeps it
-- ============================================================================

section

variable {opens tidy : Prop} {w w' : World}

/-- A new id is the number of ids drawn. -/
theorem World.Unrecycled.reserve (hu : w.Unrecycled) {id : Int}
    (h : tcpGetReserveId w = some (w', id)) (hfresh : w'.Fresh) :
    id = w'.drawn ∧ w'.allocId = w'.drawn + 1 ∧ w.drawn < w'.drawn := by
  obtain ⟨a, d, hres⟩ := tcpGetReserveId_reserved h
  rw [hres.eq] at hfresh ⊢
  obtain ⟨hid, ha⟩ := hres.unrecycled hu.counter hfresh
  exact ⟨hid, ha, hres.drawn_lt⟩

theorem World.Unrecycled.move (hu : w.Unrecycled) (hok : w.Ok) (hm : Move opens tidy True w w')
    (hfresh : w'.Fresh) : w'.Unrecycled := by
  have hdrawn := hm.drawn_le
  have hindex := hm.index
  have hclaims := hm.claims
  constructor
  · rcases hm.counters with hsame | ⟨id, h⟩
    · rw [hsame.allocId, hsame.drawn]
      exact hu.counter
    · exact (hu.reserve h hfresh).2.1
  · intro i
    have hle := hu.drawn i
    cases hm.slot i with
    | kept hid => rw [hid]; omega
    | reserved h hi hs hself =>
        rw [hself]
        show _ ≤ _
        exact (hu.reserve h hfresh).1.le
    | established hs hid => rw [hid]; omega
    | started hs hself =>
        rw [hself]
        show (w.sockets i).id ≤ _
        omega
    | freed hs hself =>
        rw [hself]
        show (w.sockets i).id ≤ _
        omega
  · intro id hid
    rw [hclaims] at hid
    have hle := hu.claimed id hid
    omega
  · rw [hclaims]
    exact hu.nodup
  · intro id hid i hget
    rw [hclaims] at hid
    obtain ⟨hi, hsame⟩ := tcpGetSocket_eq_some hget
    rw [hindex] at hi
    have hle := hu.claimed id hid
    -- the slot had the id before
    have hbefore : (w.sockets i).id = id →
        (w.sockets i).state = .kSocketDisconnected ∧ (w.sockets i).fd < 0 := by
      intro hid'
      refine hu.waiting id hid i ?_
      unfold tcpGetSocket
      rw [hi, if_pos hid']
    cases hm.slot i with
    | kept hid' hstate hfd =>
        rw [hid'] at hsame
        rw [hstate, hfd]
        exact hbefore hsame
    | @reserved new h hi' hs hself =>
        obtain ⟨hnew, -, hlt⟩ := hu.reserve h hfresh
        rw [hself] at hsame
        have hsame' : new = id := hsame
        omega
    | established hs hid' hstate hclaim =>
        rw [hid'] at hsame
        exact absurd hid (hsame ▸ (hclaim trivial).1)
    | started hs hself =>
        rw [hself] at hsame
        have hidle := (hbefore hsame).1
        rw [hs] at hidle
        cases hidle
    | freed hs hself =>
        rw [hself] at hsame
        exact absurd (hbefore hsame).1 hs
  · intro i hneg
    rw [hindex]
    -- a slot in use has a descriptor
    have hbusy : ∀ {v : World}, v.Ok → (v.sockets i).state ≠ .kSocketDisconnected →
        ¬ (v.sockets i).fd < 0 := fun hv hs => not_lt.mpr (hv.nonneg _ (hv.busy i hs))
    cases hm.slot i with
    | kept hid hstate hfd =>
        rw [hid]
        rw [hfd] at hneg
        exact hu.placed i hneg
    | reserved h hi hs hself =>
        rw [hself]
        exact hi.symm
    | established hs hid hstate =>
        exact absurd hneg (hbusy (hok.move hm) (by rw [hstate]; decide))
    | started hs hself =>
        rw [hself] at hneg
        exact absurd hneg (hbusy hok (by rw [hs]; decide))
    | freed hs hself =>
        rw [hself] at hneg
        exact absurd hneg (hbusy hok hs)

theorem World.Unrecycled.moves (hu : w.Unrecycled) (hok : w.Ok) (hm : Moves opens tidy True w w')
    (hfresh : w'.Fresh) : w'.Unrecycled := by
  induction hm with
  | refl => exact hu
  | tail hbefore hlast ih =>
      exact (ih (lt_of_le_of_lt hlast.drawn_le hfresh)).move (hok.moves hbefore) hlast hfresh

/-- Only the queue changes. -/
theorem World.Unrecycled.of_em (hu : w.Unrecycled) (em : List TcpRequest)
    (hclaims : (World.claims { w with em := em }).Sublist w.claims) :
    World.Unrecycled { w with em := em } where
  counter := hu.counter
  drawn := hu.drawn
  claimed := fun id hid => hu.claimed id (hclaims.subset hid)
  nodup := hu.nodup.sublist hclaims
  waiting := fun id hid => hu.waiting id (hclaims.subset hid)
  placed := hu.placed

theorem claims_append (req : TcpRequest) :
    World.claims { w with em := w.em ++ [req] } = w.claims ++ req.claim.toList := by
  unfold World.claims
  rw [List.filterMap_append]
  cases hreq : req.claim with
  | none => rw [List.filterMap_cons_none hreq]; rfl
  | some id => rw [List.filterMap_cons_some hreq]; rfl

theorem claims_rest {req : TcpRequest} {rest : List TcpRequest} (hem : w.em = req :: rest) :
    (World.claims { w with em := rest }).Sublist w.claims := by
  unfold World.claims
  rw [hem]
  exact (List.sublist_cons_self req rest).filterMap _

theorem World.Unrecycled.step_moves (hu : w.Unrecycled) (hok : w.Ok) (hm : StepMoves opens tidy True w w')
    (hfresh : w'.Fresh) : w'.Unrecycled := by
  cases hm with
  | moved hm => exact hu.moves hok hm hfresh
  | posted req hreq =>
      refine hu.of_em _ ?_
      rw [claims_append, hreq]
      show (w.claims ++ []).Sublist w.claims
      rw [List.append_nil]
  | @claimed w₁ id req h hreq =>
      have hm : Move opens tidy True w w₁ := .reserve h
      have hu₁ : w₁.Unrecycled := hu.move hok hm hfresh
      obtain ⟨hid, -, hlt⟩ := hu.reserve h hfresh
      have hclaims : World.claims { w₁ with em := w₁.em ++ [req] } = w₁.claims ++ [id] := by
        rw [claims_append, hreq]
        rfl
      have hold : ∀ id' ∈ w₁.claims, id' < id := by
        intro id' hid'
        rw [hm.claims] at hid'
        have hle := hu.claimed id' hid'
        omega
      obtain ⟨a, d, hres⟩ := tcpGetReserveId_reserved h
      constructor
      · exact hu₁.counter
      · exact hu₁.drawn
      · intro id' hid'
        rw [hclaims, List.mem_append, List.mem_singleton] at hid'
        rcases hid' with hid' | rfl
        · exact hu₁.claimed id' hid'
        · exact hid.le
      · rw [hclaims, List.nodup_append]
        refine ⟨hu₁.nodup, List.nodup_singleton id, fun id' hid' id'' hid'' heq => ?_⟩
        rw [List.mem_singleton.mp hid''] at heq
        exact absurd (hold id' hid') (by rw [heq]; exact lt_irrefl _)
      · intro id' hid' i hget
        rw [hclaims, List.mem_append, List.mem_singleton] at hid'
        rcases hid' with hid' | rfl
        · exact hu₁.waiting id' hid' i hget
        · -- the slot has just been reserved
          have hi : i = getIndex w id' := by
            obtain ⟨hi, -⟩ := tcpGetSocket_eq_some hget
            exact hi.symm.trans (hm.index id')
          have hself : w₁.sockets i = (w.sockets i).reserved id' := by
            rw [hres.eq, hi, World.modify_self]
          show (w₁.sockets i).state = _ ∧ (w₁.sockets i).fd < 0
          rw [hself]
          refine ⟨?_, (by decide : (-1 : Int) < 0)⟩
          rw [hi]
          exact hok.free _ (Or.inl hres.was_free)
      · exact hu₁.placed
  | handled req rest hem hm =>
      have hrest : World.Ok { w with em := rest } :=
        hok.of_same (fun _ => Socket.Same.refl _) rfl rfl rfl rfl
      exact (hu.of_em rest (claims_rest hem)).moves hrest hm hfresh

-- ============================================================================
-- Steps
-- ============================================================================

/-- A waiting request finds its slot without a descriptor. -/
theorem World.Unrecycled.vacant (hu : w.Unrecycled) (op : TcpOp) : w.AtRequest Vacant op := by
  cases op with
  | handle k =>
      intro req rest hem
      have hwaiting : ∀ id, req.claim = some id → ∀ i, tcpGetSocket w id = some i →
          (w.sockets i).state = .kSocketDisconnected ∧ (w.sockets i).fd < 0 := by
        intro id hreq i hget
        refine hu.waiting id ?_ i hget
        unfold World.claims
        rw [hem, List.filterMap_cons_some hreq]
        exact List.mem_cons_self
      cases req with
      | listen => exact fun i hget _ => (hwaiting _ rfl i hget).1
      | connect => exact fun i hget _ => (hwaiting _ rfl i hget).1
      | asyncConnect => exact fun i hget _ => hwaiting _ rfl i hget
      | start | close | send | stop => trivial
  | _ => trivial

theorem World.Unrecycled.step {op : TcpOp} (hu : w.Unrecycled) (hok : w.Ok)
    (hstep : tcpStep w op = some w') (hfresh : w'.Fresh) : StepMoves True False True w w' := by
  refine tcp_step_moves hok (hu.vacant op) False.elim
    (fun _ => ⟨hu.nodup, fun id hid i hget => (hu.waiting id hid i hget).2⟩)
    (fun _ w₁ id h hle => ?_) hstep
  intro hid
  have hfresh₁ : w₁.Fresh := lt_of_le_of_lt hle hfresh
  obtain ⟨hnew, -, hlt⟩ := hu.reserve h hfresh₁
  have hle' := hu.claimed id hid
  omega

end

end ZServer.Tcp
