/-
  ZServer.Tcp.Accounting

  Requests that listen and connect.  Each of them has reserved a slot; when its
  handler reports an error the slot should be free again.
-/

import Mathlib.Data.Finset.Card
import ZServer.Lib.Transition
import ZServer.Tcp.Moves

namespace ZServer.Tcp

open Lib

-- ============================================================================
-- Slots in a run of requests
-- ============================================================================

/-- The calls that reserve an id, and the event loop taking their requests. -/
def TcpOp.isOpening : TcpOp → Bool
  | .listen _ _ _ _ _ | .connect _ _ _ _ _ | .asyncConnect _ _ _ _ _ | .handle _ => true
  | .start _ _ _ | .close _ _ _ | .send _ _ _ _ | .stop _ | .event _ _ _ => false

def openingStep (w : World) (op : TcpOp) : Option World :=
  if op.isOpening then tcpStep w op else none

/-- A message tells that `id` has failed. -/
def ReportsError (w w' : World) (id : Int) : Prop :=
  ∃ n : Notice, .notice n ∈ w'.log.drop w.log.length ∧ n.kind = .error ∧ n.id = id

/-- When the request that comes next fails, its slot is free again and it has left
    no descriptor open. -/
def Reverts (w : World) : TcpOp → Prop
  | .handle k => ∀ req rest id w', w.em = req :: rest → req.claim = some id →
      openingStep w (.handle k) = some w' → ReportsError w w' id →
        (w'.sockets (getIndex w id)).type = .kSocketNoneType ∧
          ∀ fd, w'.isOpen fd = true → w.isOpen fd = true
  | _ => True

/-- The slots that are free. -/
def World.freeSlots (w : World) : Finset Nat :=
  (Finset.range w.setsize).filter fun i => (w.sockets i).type = .kSocketNoneType

/-- The slots that listen, that are connecting or connected. -/
def World.busySlots (w : World) : Finset Nat :=
  (Finset.range w.setsize).filter fun i => (w.sockets i).state ≠ .kSocketDisconnected

/-- Every slot is free, or an id waits for it, or it is in use. -/
def World.Accounted (w : World) : Prop :=
  w.freeSlots.card + w.claims.length + w.busySlots.card = w.setsize

/-- What the network answers to a request that is carried out or undone: a
    descriptor for `listen` and `connect`, none for an asynchronous connect. -/
def Answered (_ : World) (k : Kernel) : TcpRequest → Prop
  | .listen _ _ _ _ _ | .connect _ _ _ _ _ => k.fd ≠ -1
  | .asyncConnect _ _ _ _ _ => k.fd = -1
  | .start _ _ | .close _ _ | .send _ _ _ | .stop => True

-- ============================================================================
-- The ledger
-- ============================================================================

/-- Reserved slots and waiting requests belong together. -/
structure World.Ledger (w : World) : Prop where
  positive : 0 < w.setsize
  claimed : ∀ req ∈ w.em, req.claim ≠ none
  nodup : w.claims.Nodup
  reserved : ∀ id ∈ w.claims, (w.sockets (getIndex w id)).id = id ∧
    (w.sockets (getIndex w id)).type = .kReserveType
  pending : ∀ i, (w.sockets i).type = .kReserveType → (w.sockets i).id ∈ w.claims
  settled : ∀ i, (w.sockets i).type ≠ .kSocketNoneType → (w.sockets i).type ≠ .kReserveType →
    (w.sockets i).state ≠ .kSocketDisconnected

theorem tcpInit_ledger {setsize : Nat} (hpos : 0 < setsize) (aeSetsize : Int) :
    (tcpInit setsize aeSetsize).Ledger where
  positive := hpos
  claimed := by rintro _ ⟨⟩
  nodup := List.nodup_nil
  reserved := by rintro _ ⟨⟩
  pending := by rintro _ ⟨⟩
  settled := fun _ ht => absurd rfl ht

section

variable {w w' : World}

theorem getIndex_lt (hpos : 0 < w.setsize) (id : Int) : getIndex w id < w.setsize := by
  have hpos' : (0 : Int) < w.setsize := Int.natCast_pos.mpr hpos
  have hlt := Int.emod_lt_of_pos id hpos'
  unfold getIndex
  omega

/-- Two ids that wait are in different slots. -/
theorem World.Ledger.index_injective (hl : w.Ledger) {id id' : Int} (hid : id ∈ w.claims)
    (hid' : id' ∈ w.claims) (h : getIndex w id = getIndex w id') : id = id' := by
  rw [← (hl.reserved id hid).1, ← (hl.reserved id' hid').1, h]

theorem World.Ledger.accounted (hl : w.Ledger) (hok : w.Ok) : w.Accounted := by
  have hreserved : ((Finset.range w.setsize).filter fun i =>
      (w.sockets i).type = .kReserveType) = w.claims.toFinset.image (getIndex w) := by
    ext i
    simp only [Finset.mem_filter, Finset.mem_range, Finset.mem_image, List.mem_toFinset]
    constructor
    · rintro ⟨-, ht⟩
      exact ⟨_, hl.pending i ht, hok.index i (by rw [ht]; decide)⟩
    · rintro ⟨id, hid, rfl⟩
      exact ⟨getIndex_lt hl.positive id, (hl.reserved id hid).2⟩
  have hclaims : ((Finset.range w.setsize).filter fun i =>
      (w.sockets i).type = .kReserveType).card = w.claims.length := by
    rw [hreserved, Finset.card_image_of_injOn, List.toFinset_card_of_nodup hl.nodup]
    intro id hid id' hid' h
    exact hl.index_injective (List.mem_toFinset.mp hid) (List.mem_toFinset.mp hid') h
  have hbusy : w.busySlots = ((Finset.range w.setsize).filter fun i =>
      ¬ (w.sockets i).type = .kSocketNoneType).filter fun i =>
        ¬ (w.sockets i).type = .kReserveType := by
    unfold World.busySlots
    rw [Finset.filter_filter]
    refine Finset.filter_congr fun i _ => ?_
    refine ⟨fun hs => ⟨hok.taken hs, fun ht => hs (hok.free i (Or.inr ht))⟩, fun ht => ?_⟩
    exact hl.settled i ht.1 ht.2
  have hother : (((Finset.range w.setsize).filter fun i =>
      ¬ (w.sockets i).type = .kSocketNoneType).filter fun i =>
        (w.sockets i).type = .kReserveType) =
      (Finset.range w.setsize).filter fun i => (w.sockets i).type = .kReserveType := by
    rw [Finset.filter_filter]
    refine Finset.filter_congr fun i _ => ⟨fun ht => ht.2, fun ht => ⟨?_, ht⟩⟩
    rw [ht]
    decide
  have htaken := Finset.card_filter_add_card_filter_not (s := (Finset.range w.setsize).filter
    fun i => ¬ (w.sockets i).type = .kSocketNoneType) (fun i => (w.sockets i).type = .kReserveType)
  have hall := Finset.card_filter_add_card_filter_not (s := Finset.range w.setsize)
    (fun i => (w.sockets i).type = .kSocketNoneType)
  rw [hother, hclaims, ← hbusy] at htaken
  rw [Finset.card_range] at hall
  unfold World.Accounted World.freeSlots
  omega

-- ============================================================================
-- What keeps it
-- ============================================================================

theorem claims_cons {req : TcpRequest} {rest : List TcpRequest} {id : Int}
    (hem : w.em = req :: rest) (hreq : req.claim = some id) :
    w.claims = id :: rest.filterMap TcpRequest.claim := by
  unfold World.claims
  rw [hem, List.filterMap_cons_some hreq]

/-- The request that comes next is settled: its slot is in use, or free. -/
theorem World.Ledger.settle {req : TcpRequest} {rest : List TcpRequest} {id : Int}
    (hl : w.Ledger) (hok : w.Ok) (hem : w.em = req :: rest) (hreq : req.claim = some id)
    (hothers : ∀ j, j ≠ getIndex w id → w'.sockets j = w.sockets j)
    (htype : (w'.sockets (getIndex w id)).type ≠ .kReserveType)
    (hbusy : (w'.sockets (getIndex w id)).type ≠ .kSocketNoneType →
      (w'.sockets (getIndex w id)).state ≠ .kSocketDisconnected)
    (hsetsize : w'.setsize = w.setsize) (hem' : w'.em = rest) : w'.Ledger := by
  have hclaims := claims_cons hem hreq
  have hclaims' : w'.claims = rest.filterMap TcpRequest.claim := by
    unfold World.claims
    rw [hem']
  have hid : id ∈ w.claims := by
    rw [hclaims]
    exact List.mem_cons_self
  have hnodup := hl.nodup
  rw [hclaims, List.nodup_cons] at hnodup
  have hindex : ∀ id, getIndex w' id = getIndex w id := by
    intro id
    unfold getIndex
    rw [hsetsize]
  have hrest : ∀ id' ∈ w'.claims, id' ∈ w.claims ∧ getIndex w id' ≠ getIndex w id := by
    intro id' hid'
    rw [hclaims'] at hid'
    have hmem : id' ∈ w.claims := by
      rw [hclaims]
      exact List.mem_cons_of_mem _ hid'
    refine ⟨hmem, fun heq => ?_⟩
    rw [hl.index_injective hmem hid heq] at hid'
    exact hnodup.1 hid'
  constructor
  · rw [hsetsize]
    exact hl.positive
  · intro req' hreq'
    rw [hem'] at hreq'
    exact hl.claimed req' (by rw [hem]; exact List.mem_cons_of_mem _ hreq')
  · rw [hclaims']
    exact hnodup.2
  · intro id' hid'
    obtain ⟨hmem, hne⟩ := hrest id' hid'
    rw [hindex, hothers _ hne]
    exact hl.reserved id' hmem
  · intro i ht
    by_cases hi : i = getIndex w id
    · rw [hi] at ht
      exact absurd ht htype
    · rw [hothers i hi] at ht ⊢
      have hmem := hl.pending i ht
      rw [hclaims, List.mem_cons] at hmem
      rw [hclaims']
      refine hmem.resolve_left fun heq => hi ?_
      rw [← heq]
      exact (hok.index i (by rw [ht]; decide)).symm
  · intro i ht ht'
    by_cases hi : i = getIndex w id
    · rw [hi] at ht ⊢
      exact hbusy ht
    · rw [hothers i hi] at ht ht' ⊢
      exact hl.settled i ht ht'

/-- A call reserves a slot for its request. -/
theorem World.Ledger.reserve {w₁ : World} {id : Int} {a d : Nat} {em : List TcpRequest}
    (hl : w.Ledger) (hres : Reserved w w₁ id a d) (hem : ∀ req ∈ em, req.claim ≠ none)
    (hclaims : World.claims { w₁ with em := em } = w.claims ++ [id]) :
    World.Ledger { w₁ with em := em } := by
  have hself : w₁.sockets (getIndex w id) = (w.sockets (getIndex w id)).reserved id := by
    rw [hres.eq]
    exact World.modify_self ..
  have hothers : ∀ j, j ≠ getIndex w id → w₁.sockets j = w.sockets j := by
    intro j hj
    rw [hres.eq]
    exact World.modify_of_ne _ hj _
  have hindex : ∀ id', getIndex { w₁ with em := em } id' = getIndex w id' := by
    intro id'
    rw [hres.eq]
    rfl
  -- the slots that are reserved already are others
  have hne : ∀ id' ∈ w.claims, getIndex w id' ≠ getIndex w id := by
    intro id' hid' heq
    have ht := (hl.reserved id' hid').2
    rw [heq, hres.was_free] at ht
    cases ht
  constructor
  · show 0 < w₁.setsize
    rw [hres.eq]
    exact hl.positive
  · exact hem
  · rw [hclaims, List.nodup_append]
    refine ⟨hl.nodup, List.nodup_singleton id, fun id' hid' id'' hid'' heq => ?_⟩
    rw [List.mem_singleton.mp hid''] at heq
    exact hne id' hid' (by rw [heq])
  · intro id' hid'
    rw [hclaims, List.mem_append, List.mem_singleton] at hid'
    rw [hindex]
    rcases hid' with hid' | rfl
    · show (w₁.sockets _).id = _ ∧ (w₁.sockets _).type = _
      rw [hothers _ (hne id' hid')]
      exact hl.reserved id' hid'
    · show (w₁.sockets _).id = _ ∧ (w₁.sockets _).type = _
      rw [hself]
      exact ⟨rfl, rfl⟩
  · intro i ht
    rw [hclaims, List.mem_append, List.mem_singleton]
    by_cases hi : i = getIndex w id
    · right
      subst hi
      show (w₁.sockets _).id = _
      rw [hself]
      rfl
    · left
      have ht' : (w₁.sockets i).type = .kReserveType := ht
      show (w₁.sockets i).id ∈ _
      rw [hothers i hi] at ht' ⊢
      exact hl.pending i ht'
  · intro i ht ht'
    have ht₁ : (w₁.sockets i).type ≠ .kSocketNoneType := ht
    have ht₂ : (w₁.sockets i).type ≠ .kReserveType := ht'
    by_cases hi : i = getIndex w id
    · subst hi
      rw [hself] at ht₂
      exact absurd rfl ht₂
    · show (w₁.sockets i).state ≠ _
      rw [hothers i hi] at ht₁ ht₂ ⊢
      exact hl.settled i ht₁ ht₂

/-- A free slot changes and stays free. -/
theorem World.Ledger.of_free {i : Nat} (hl : w.Ledger)
    (hothers : ∀ j, j ≠ i → w'.sockets j = w.sockets j)
    (hbefore : (w.sockets i).type = .kSocketNoneType)
    (hafter : (w'.sockets i).type = .kSocketNoneType) (hsetsize : w'.setsize = w.setsize)
    (hem : w'.em = w.em) : w'.Ledger := by
  have hclaims : w'.claims = w.claims := by
    unfold World.claims
    rw [hem]
  constructor
  · rw [hsetsize]
    exact hl.positive
  · rw [hem]
    exact hl.claimed
  · rw [hclaims]
    exact hl.nodup
  · intro id hid
    rw [hclaims] at hid
    have hindex : getIndex w' id = getIndex w id := by
      unfold getIndex
      rw [hsetsize]
    have hne : getIndex w id ≠ i := by
      intro heq
      have ht := (hl.reserved id hid).2
      rw [heq, hbefore] at ht
      cases ht
    rw [hindex, hothers _ hne]
    exact hl.reserved id hid
  · intro j ht
    have hj : j ≠ i := by
      rintro rfl
      rw [hafter] at ht
      cases ht
    rw [hothers j hj] at ht ⊢
    rw [hclaims]
    exact hl.pending j ht
  · intro j ht ht'
    have hj : j ≠ i := by
      rintro rfl
      exact ht hafter
    rw [hothers j hj] at ht ht' ⊢
    exact hl.settled j ht ht'

/-- A call leaves one more request, or, when the queue is full, a slot as free as
    it was. -/
theorem World.Ledger.reserveAndPost {r : Int → TcpRequest} {full : Bool} (hl : w.Ledger)
    (hreq : ∀ id, (r id).claim = some id)
    (h : ((tcpGetReserveId w).bind fun p => tcpPostRequest p.1 p.2 (r p.2) full).map Prod.fst =
      some w') : w'.Ledger := by
  obtain ⟨⟨w₃, ret⟩, hbind, heq⟩ := Option.map_eq_some_iff.mp h
  obtain ⟨⟨w₁, id⟩, hreserve, hpost⟩ := Option.bind_eq_some_iff.mp hbind
  obtain ⟨a, d, hres⟩ := tcpGetReserveId_reserved hreserve
  unfold tcpPostRequest at hpost
  split at hpost
  · obtain ⟨w₂, hrecover, heq'⟩ := Option.map_eq_some_iff.mp hpost
    cases heq'
    cases heq
    have hindex : getIndex w₁ id = getIndex w id := by
      rw [hres.eq]
      rfl
    have hs := tcpRecoverId_state hres.nonneg hrecover
    rw [tcpRecoverId_eq hres.nonneg rfl hs, hindex] at hrecover
    cases hrecover
    refine hl.of_free (i := getIndex w id) (fun j hj => ?_) hres.was_free ?_ ?_ ?_
    · rw [World.modify_of_ne _ hj, hres.eq]
      exact World.modify_of_ne _ hj _
    · rw [World.modify_self]
    · show w₁.setsize = _
      rw [hres.eq]
      rfl
    · show w₁.em = _
      rw [hres.eq]
      rfl
  · cases hpost
    cases heq
    have hem : w₁.em = w.em := by
      rw [hres.eq]
      rfl
    refine hl.reserve hres (fun req hreq' => ?_) ?_
    · rw [hem, List.mem_append, List.mem_singleton] at hreq'
      rcases hreq' with hreq' | rfl
      · exact hl.claimed req hreq'
      · show (r id).claim ≠ none
        rw [hreq]
        rintro ⟨⟩
    · show List.filterMap _ (w₁.em ++ [r id]) = _
      rw [hem, List.filterMap_append, List.filterMap_cons_some (hreq id)]
      rfl

/-- A waiting request finds its slot reserved. -/
theorem World.Ledger.next {req : TcpRequest} {rest : List TcpRequest} {id : Int} (hl : w.Ledger)
    (hok : w.Ok) (hem : w.em = req :: rest) (hreq : req.claim = some id) :
    tcpGetSocket { w with em := rest } id = some (getIndex w id) ∧
      (w.sockets (getIndex w id)).type = .kReserveType ∧
      (w.sockets (getIndex w id)).state = .kSocketDisconnected ∧
      (w.sockets (getIndex w id)).fd < 0 ∧ 0 ≤ id := by
  have hid : id ∈ w.claims := by
    rw [claims_cons hem hreq]
    exact List.mem_cons_self
  obtain ⟨hsame, ht⟩ := hl.reserved id hid
  have hs := hok.free _ (Or.inr ht)
  have hpos := hok.natural (getIndex w id)
  rw [hsame] at hpos
  exact ⟨if_pos hsame, ht, hs, hok.idle _ (by rw [ht]; decide) hs, hpos⟩

theorem World.Ledger.vacant {op : TcpOp} (hl : w.Ledger) (hok : w.Ok) :
    w.AtRequest Vacant op := by
  cases op with
  | handle k =>
      intro req rest hem
      have hfound : ∀ id i, req.claim = some id → tcpGetSocket { w with em := rest } id = some i →
          (w.sockets i).state = .kSocketDisconnected ∧ (w.sockets i).fd < 0 := by
        intro id i hreq hsome
        obtain ⟨hsome', -, hs, hfd, -⟩ := hl.next hok hem hreq
        cases hsome'.symm.trans hsome
        exact ⟨hs, hfd⟩
      cases req with
      | listen => exact fun i hsome _ => (hfound _ i rfl hsome).1
      | connect => exact fun i hsome _ => (hfound _ i rfl hsome).1
      | asyncConnect => exact fun i hsome _ => hfound _ i rfl hsome
      | start | close | send | stop => trivial
  | _ => trivial

-- ============================================================================
-- What the handlers do
-- ============================================================================

/-- What becomes of the slot of a request. -/
structure Handled (w w' : World) (i : Nat) (rest : List TcpRequest) : Prop where
  setsize : w'.setsize = w.setsize
  em : w'.em = rest
  others : ∀ j, j ≠ i → w'.sockets j = w.sockets j

/-- The slot is in use. -/
structure Settled (w w' : World) (i : Nat) (id : Int) : Prop where
  silent : ¬ ReportsError w w' id
  type : (w'.sockets i).type ≠ .kSocketNoneType ∧ (w'.sockets i).type ≠ .kReserveType
  state : (w'.sockets i).state ≠ .kSocketDisconnected

/-- The slot is free, and no descriptor has been opened. -/
structure Recovered (w w' : World) (i : Nat) : Prop where
  type : (w'.sockets i).type = .kSocketNoneType
  isOpen : w'.isOpen = w.isOpen

/-- The request has failed; its slot or its descriptor is lost. -/
structure Lost (w w' : World) (i : Nat) (id : Int) : Prop where
  reported : ReportsError w w' id
  lost : (w'.sockets i).type = .kReserveType ∨ ∃ fd, w'.isOpen fd = true ∧ w.isOpen fd = false

theorem reportsError_tcpError (w₁ : World) (dest id : Int) (err : String)
    (hlog : w.log <+: w₁.log) : ReportsError w (tcpError w₁ dest id err) id := by
  refine ⟨⟨dest, 0, .error, .text err, id⟩, ?_, rfl, rfl⟩
  obtain ⟨new, hnew⟩ := hlog
  show _ ∈ List.drop w.log.length (w₁.log ++ _)
  rw [← hnew, List.append_assoc, List.drop_left]
  exact List.mem_append_right _ (List.mem_singleton_self _)

/-- `listen` and `connect` give the slot a descriptor. -/
theorem establish_settled {f : Socket → Socket} {i : Nat} {fd id : Int} (rest : List TcpRequest)
    (htype : ∀ s, (f s).type ≠ .kSocketNoneType ∧ (f s).type ≠ .kReserveType)
    (hstate : ∀ s, (f s).state = .kSocketConnecting) :
    Handled w ((World.opened { w with em := rest } fd).modify i f) i rest ∧
      Settled w ((World.opened { w with em := rest } fd).modify i f) i id := by
  refine ⟨⟨rfl, rfl, fun j hj => World.modify_of_ne _ hj f⟩, ?_, ?_, ?_⟩
  · rintro ⟨n, hmem, -⟩
    have hmem' : Effect.notice n ∈ List.drop w.log.length (w.log ++ [.opened fd]) := hmem
    rw [List.drop_left, List.mem_singleton] at hmem'
    cases hmem'
  · rw [World.modify_self]
    exact htype _
  · rw [World.modify_self, hstate]
    decide

/-- `answered`: the network has answered as the request can bear. -/
def Outcome (w w' : World) (id : Int) (rest : List TcpRequest) (answered : Prop) : Prop :=
  Handled w w' (getIndex w id) rest ∧
    (answered ∧ (Settled w w' (getIndex w id) id ∨ Recovered w w' (getIndex w id)) ∨
      ¬ answered ∧ Lost w w' (getIndex w id) id)

section

variable {rest : List TcpRequest} {fromId id protoType port : Int} {addr : String} {k : Kernel}
  (hsome : tcpGetSocket { w with em := rest } id = some (getIndex w id))

include hsome in
theorem listen_outcome (ht : (w.sockets (getIndex w id)).type = .kReserveType)
    (h : handleTcpSocketListen { w with em := rest } fromId id protoType addr port k = some w') :
    Outcome w w' id rest (k.fd ≠ -1) := by
  unfold handleTcpSocketListen at h
  split at h
  · rename_i hfail
    cases h
    exact ⟨⟨rfl, rfl, fun _ _ => rfl⟩, Or.inr ⟨fun hne => hne hfail,
      reportsError_tcpError { w with em := rest } _ _ _ (List.prefix_refl _), Or.inl ht⟩⟩
  · rename_i hfd
    obtain ⟨w₁, hopen, h⟩ := Option.bind_eq_some_iff.mp h
    obtain ⟨-, -, rfl⟩ := openFd_eq_some hopen
    have hsome' : tcpGetSocket (World.opened { w with em := rest } k.fd) id =
        some (getIndex w id) := hsome
    simp only [hsome'] at h
    cases h
    obtain ⟨hhandled, hsettled⟩ := establish_settled (f := fun s => { s with
      state := .kSocketConnecting, type := .kAcceptType, fd := k.fd, protoType := protoType })
      rest (fun _ => ⟨by rintro ⟨⟩, by rintro ⟨⟩⟩) (fun _ => rfl)
    exact ⟨hhandled, Or.inl ⟨hfd, Or.inl hsettled⟩⟩

include hsome in
theorem connect_outcome (ht : (w.sockets (getIndex w id)).type = .kReserveType)
    (h : handleTcpSocketConnect { w with em := rest } fromId id protoType addr port k = some w') :
    Outcome w w' id rest (k.fd ≠ -1) := by
  unfold handleTcpSocketConnect at h
  simp only [hsome] at h
  split at h
  · rename_i hfail
    cases h
    exact ⟨⟨rfl, rfl, fun _ _ => rfl⟩, Or.inr ⟨fun hne => hne hfail,
      reportsError_tcpError { w with em := rest } _ _ _ (List.prefix_refl _), Or.inl ht⟩⟩
  · rename_i hfd
    obtain ⟨w₁, hopen, h⟩ := Option.bind_eq_some_iff.mp h
    obtain ⟨-, -, rfl⟩ := openFd_eq_some hopen
    cases h
    obtain ⟨hhandled, hsettled⟩ := establish_settled (f := fun s => { s with
      type := .kConnectType, protoType := protoType, state := .kSocketConnecting, fd := k.fd })
      rest (fun _ => ⟨by rintro ⟨⟩, by rintro ⟨⟩⟩) (fun _ => rfl)
    exact ⟨hhandled, Or.inl ⟨hfd, Or.inl hsettled⟩⟩

/-- A failing exit of an asynchronous connect: the slot is recovered. -/
theorem recovered_outcome (w v : World) {w₂ : World} (rest : List TcpRequest) (text : String) (hpos : 0 ≤ id)
    (hsetsize : v.setsize = w.setsize) (hem : v.em = rest) (hlog : w.log <+: v.log)
    (hothers : ∀ j, j ≠ getIndex w id → v.sockets j = w.sockets j)
    (hid : (v.sockets (getIndex w id)).id = id) (hrecover : tcpRecoverId v id = some w₂)
    (heq : w' = tcpError w₂ fromId (w₂.sockets (getIndex w id)).id text) :
    Handled w w' (getIndex w id) rest ∧ ReportsError w w' id ∧
      (w'.sockets (getIndex w id)).type = .kSocketNoneType ∧ w'.isOpen = v.isOpen := by
  have hindex : getIndex v id = getIndex w id := by
    unfold getIndex
    rw [hsetsize]
  have hs := tcpRecoverId_state hpos hrecover
  rw [tcpRecoverId_eq hpos rfl hs, hindex] at hrecover
  cases hrecover
  rw [World.modify_self] at heq
  have heq' : w' = tcpError (v.modify (getIndex w id) fun s =>
      { s with type := .kSocketNoneType }) fromId id text := by
    rw [heq]
    show tcpError _ fromId (v.sockets (getIndex w id)).id text = _
    rw [hid]
  subst heq'
  have hsockets : ∀ (u : World) (dest err), (tcpError u dest id err).sockets = u.sockets :=
    fun _ _ _ => rfl
  refine ⟨⟨hsetsize, hem, fun j hj => ?_⟩, reportsError_tcpError _ _ _ _ hlog, ?_, rfl⟩
  · rw [hsockets, World.modify_of_ne v hj, hothers j hj]
  · rw [hsockets, World.modify_self]

include hsome in
theorem asyncConnect_outcome (hok : w.Ok) (hneg : (w.sockets (getIndex w id)).fd < 0)
    (h : handleTcpSocketAsyncConnect { w with em := rest } fromId id protoType addr port k =
      some w') : Outcome w w' id rest (k.fd = -1) := by
  have hsame := (tcpGetSocket_eq_some hsome).2
  have hpos : 0 ≤ id := by
    rw [← hsame]
    exact hok.natural _
  have hrest : World.Ok { w with em := rest } :=
    hok.of_same (fun _ => Socket.Same.refl _) rfl rfl rfl rfl
  let v := World.modify { w with em := rest } (getIndex w id) fun s => { s with fromId := fromId }
  have hv : v.sockets (getIndex w id) = { w.sockets (getIndex w id) with fromId := fromId } :=
    World.modify_self ..
  have hothers : ∀ j, j ≠ getIndex w id → v.sockets j = w.sockets j :=
    fun j hj => World.modify_of_ne { w with em := rest } hj fun s => { s with fromId := fromId }
  have hvid : (v.sockets (getIndex w id)).id = id := by
    rw [hv]
    exact hsame
  unfold handleTcpSocketAsyncConnect at h
  simp only [hsome] at h
  obtain ⟨w₁, hopen, h⟩ := Option.bind_eq_some_iff.mp h
  by_cases hfd : k.fd = -1
  · rw [if_pos hfd] at hopen
    cases hopen
    rw [if_pos (Or.inl hfd)] at h
    obtain ⟨w₂, hrecover, h⟩ := Option.bind_eq_some_iff.mp h
    obtain ⟨hhandled, -, htype, hisOpen⟩ := recovered_outcome w v rest _ hpos rfl rfl
      (List.prefix_refl _) hothers hvid hrecover (Option.some.inj h).symm
    exact ⟨hhandled, Or.inl ⟨hfd, Or.inr ⟨htype, hisOpen⟩⟩⟩
  · rw [if_neg hfd] at hopen
    obtain ⟨hfd₀, hclosed, rfl⟩ := openFd_eq_some hopen
    have hlost : ∀ w₂ text, tcpRecoverId (v.opened k.fd) id = some w₂ →
        tcpError w₂ fromId (w₂.sockets (getIndex w id)).id text = w' →
          Outcome w w' id rest (k.fd = -1) := by
      intro w₂ text hrecover heq
      obtain ⟨hhandled, hreported, -, hisOpen⟩ := recovered_outcome w (v.opened k.fd) rest text
        hpos rfl rfl (List.prefix_append _ _) hothers hvid hrecover heq.symm
      refine ⟨hhandled, Or.inr ⟨hfd, hreported, Or.inr ⟨k.fd, ?_, hclosed⟩⟩⟩
      rw [hisOpen]
      exact Function.update_self ..
    split at h
    · obtain ⟨w₂, hrecover, h⟩ := Option.bind_eq_some_iff.mp h
      exact hlost w₂ _ hrecover (Option.some.inj h)
    · -- the event is created on a slot without a descriptor
      have hok₁ : (v.opened k.fd).Ok :=
        (hrest.of_same (World.same_modify _ (getIndex w id) (f := fun s =>
          { s with fromId := fromId }) fun _ => ⟨rfl, rfl, rfl, rfl⟩) rfl rfl rfl rfl).opened hfd₀
      have hneg₁ : ((v.opened k.fd).sockets (getIndex w id)).fd < 0 := by
        show (v.sockets (getIndex w id)).fd < 0
        rw [hv]
        exact hneg
      rw [socketConnect, hok₁.refused hneg₁] at h
      obtain ⟨w₂, hrecover, h⟩ := Option.bind_eq_some_iff.mp h
      exact hlost w₂ _ hrecover (Option.some.inj h)

end

theorem handle_outcome {req : TcpRequest} {rest : List TcpRequest} {id : Int} {k : Kernel}
    (hl : w.Ledger) (hok : w.Ok) (hem : w.em = req :: rest) (hreq : req.claim = some id)
    (h : tcpStep w (.handle k) = some w') : Outcome w w' id rest (Answered w k req) := by
  obtain ⟨hsome, ht, -, hfd, -⟩ := hl.next hok hem hreq
  simp only [tcpStep, hem] at h
  cases req with
  | listen =>
      cases hreq
      exact listen_outcome hsome ht h
  | connect =>
      cases hreq
      exact connect_outcome hsome ht h
  | asyncConnect =>
      cases hreq
      exact asyncConnect_outcome hsome hok hfd h
  | start | close | send | stop => cases hreq

-- ============================================================================
-- Runs
-- ============================================================================

theorem openingStep_eq_some {op : TcpOp} (h : openingStep w op = some w') :
    op.isOpening = true ∧ tcpStep w op = some w' := by
  unfold openingStep at h
  split at h
  · rename_i hop
    exact ⟨hop, h⟩
  · cases h

theorem World.Ledger.step {op : TcpOp} (h : w.Ok ∧ w.Ledger) (hstep : openingStep w op = some w')
    (hanswered : w.AtRequest Answered op) : w'.Ok ∧ w'.Ledger := by
  obtain ⟨hok, hl⟩ := h
  obtain ⟨hop, hstep⟩ := openingStep_eq_some hstep
  have hm : StepMoves True False False w w' :=
    tcp_step_moves hok (hl.vacant hok) False.elim False.elim False.elim hstep
  refine ⟨hok.step_moves hm, ?_⟩
  cases op with
  | listen => exact hl.reserveAndPost (r := fun id => .listen _ id _ _ _) (fun _ => rfl) hstep
  | connect => exact hl.reserveAndPost (r := fun id => .connect _ id _ _ _) (fun _ => rfl) hstep
  | asyncConnect =>
      exact hl.reserveAndPost (r := fun id => .asyncConnect _ id _ _ _) (fun _ => rfl) hstep
  | handle k =>
      cases hem : w.em with
      | nil =>
          simp only [tcpStep, hem] at hstep
          cases hstep
      | cons req rest =>
          obtain ⟨id, hreq⟩ := Option.ne_none_iff_exists'.mp
            (hl.claimed req (by rw [hem]; exact List.mem_cons_self))
          obtain ⟨hhandled, houtcome⟩ := handle_outcome hl hok hem hreq hstep
          rcases houtcome with ⟨-, hsettled | hrecovered⟩ | ⟨hnot, -⟩
          · exact hl.settle hok hem hreq hhandled.others hsettled.type.2 (fun _ => hsettled.state)
              hhandled.setsize hhandled.em
          · refine hl.settle hok hem hreq hhandled.others ?_ (fun ht => absurd hrecovered.type ht)
              hhandled.setsize hhandled.em
            rw [hrecovered.type]
            decide
          · exact absurd (hanswered req rest hem) hnot
  | start | close | send | stop | event => cases hop

/-- A failed request leaves its slot free and no descriptor open, exactly when
    the network answers as it can bear. -/
theorem World.Ledger.reverts_iff {op : TcpOp} (h : w.Ok ∧ w.Ledger)
    (hstep : openingStep w op = some w') :
    Reverts w op ↔ w.AtRequest Answered op := by
  obtain ⟨hok, hl⟩ := h
  obtain ⟨hop, htcp⟩ := openingStep_eq_some hstep
  cases op with
  | handle k =>
      constructor
      · intro hreverts req rest hem
        obtain ⟨id, hreq⟩ := Option.ne_none_iff_exists'.mp
          (hl.claimed req (by rw [hem]; exact List.mem_cons_self))
        obtain ⟨hhandled, houtcome⟩ := handle_outcome hl hok hem hreq htcp
        rcases houtcome with ⟨hanswered, -⟩ | ⟨-, hlost⟩
        · exact hanswered
        · -- the error has been reported, but something is lost
          obtain ⟨ht, hopen⟩ := hreverts req rest id w' hem hreq hstep hlost.reported
          rcases hlost.lost with ht' | ⟨fd, hopen', hclosed⟩
          · rw [ht] at ht'
            cases ht'
          · rw [hopen fd hopen'] at hclosed
            cases hclosed
      · intro hanswered req rest id w'' hem hreq hstep'' hreported
        cases hstep.symm.trans hstep''
        obtain ⟨hhandled, houtcome⟩ := handle_outcome hl hok hem hreq htcp
        rcases houtcome with ⟨-, hsettled | hrecovered⟩ | ⟨hnot, -⟩
        · exact absurd hreported hsettled.silent
        · exact ⟨hrecovered.type, fun fd hopen => hrecovered.isOpen ▸ hopen⟩
        · exact absurd (hanswered req rest hem) hnot
  | listen | connect | asyncConnect => exact Iff.rfl
  | start | close | send | stop | event => cases hop

end

/-- Failed requests leave nothing behind and every slot is accounted for, exactly
    in the runs in which every network call of `listen` and `connect` succeeds
    and every one of an asynchronous connect fails. -/
theorem slots_accounted_iff (n : Nat) (aeSetsize : Int) (ops : List TcpOp) :
    (AllSteps openingStep Reverts (tcpInit (2 ^ n) aeSetsize) ops ∧
      Always openingStep World.Accounted (tcpInit (2 ^ n) aeSetsize) ops) ↔
    AllSteps openingStep (fun w op => w.AtRequest Answered op)
      (tcpInit (2 ^ n) aeSetsize) ops := by
  have hinit : (tcpInit (2 ^ n) aeSetsize).Ok ∧ (tcpInit (2 ^ n) aeSetsize).Ledger :=
    ⟨tcpInit_ok _ _, tcpInit_ledger (Nat.two_pow_pos n) _⟩
  have hiff : AllSteps openingStep Reverts (tcpInit (2 ^ n) aeSetsize) ops ↔
      AllSteps openingStep (fun w op => w.AtRequest Answered op) (tcpInit (2 ^ n) aeSetsize) ops :=
    allSteps_iff (fun _ _ _ h => World.Ledger.step h)
      (fun _ _ _ h => World.Ledger.reverts_iff h) hinit
  rw [hiff]
  refine ⟨fun h => h.1, fun h => ⟨h, ?_⟩⟩
  exact always_of_allSteps (fun _ h => h.2.accounted h.1) (fun _ _ _ h => World.Ledger.step h)
    hinit h

/-- A refused connect. -/
theorem connect_leaks : ¬ AllSteps openingStep Reverts (tcpInit 4 64)
    [.connect 1 1 "127.0.0.1" 80 false, .handle { fd := -1 }] := by
  intro h
  have hreverts := ((h _ rfl).2 _ rfl).1
  obtain ⟨ht, -⟩ := hreverts _ _ 1 _ rfl rfl rfl ⟨_, List.mem_singleton_self _, rfl, rfl⟩
  cases ht

end ZServer.Tcp
