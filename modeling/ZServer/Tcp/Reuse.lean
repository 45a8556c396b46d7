/-
  ZServer.Tcp.Reuse

  Connections that have a slot one after the other.  What is seen of a connection
  does not depend on the earlier ones when its buffers are empty at its start; a
  slot filled by `handleTcpSocketConnect` still has what the last connection left
  in them.
-/

import ZServer.Tcp.Link

namespace ZServer.Tcp

open Lib

-- ============================================================================
-- What a step does to a slot
-- ============================================================================

/-- Nothing waits in the buffers of the slot. -/
def Blank (w : World) (i : Nat) : Prop :=
  bufferBytes (w.sockets i).readBuffer = [] ∧ bufferBytes (w.sockets i).sendBuffer = []

/-- The buffers of the slot are the same. -/
def SameBuffers (w w' : World) (i : Nat) : Prop :=
  (w'.sockets i).readBuffer = (w.sockets i).readBuffer ∧
    (w'.sockets i).sendBuffer = (w.sockets i).sendBuffer

/-- A slot is not opened; while it waits its buffers do not change. -/
structure Quiet (w w' : World) (i : Nat) : Prop where
  idle : (w.sockets i).state = .kSocketDisconnected →
    (w'.sockets i).state = .kSocketDisconnected
  waiting : (w.sockets i).state = .kSocketConnecting →
    (w'.sockets i).state = .kSocketDisconnected ∨
      (w'.sockets i).state = .kSocketConnecting ∧ SameBuffers w w' i

section

variable {tidy unrecycled : Prop} {w w' w'' : World} {i : Nat}

theorem SameBuffers.blank (h : SameBuffers w w' i) : Blank w' i ↔ Blank w i := by
  unfold Blank
  rw [h.1, h.2]

theorem SameBuffers.trans (h : SameBuffers w w' i) (h' : SameBuffers w' w'' i) :
    SameBuffers w w'' i :=
  ⟨h'.1.trans h.1, h'.2.trans h.2⟩

theorem Quiet.of_same (hstate : (w'.sockets i).state = (w.sockets i).state)
    (hbuf : SameBuffers w w' i) : Quiet w w' i :=
  ⟨fun hs => hstate.trans hs, fun hs => Or.inr ⟨hstate.trans hs, hbuf⟩⟩

theorem Quiet.of_sockets (h : w'.sockets i = w.sockets i) : Quiet w w' i := by
  refine .of_same ?_ ⟨?_, ?_⟩ <;> rw [h]

theorem Quiet.of_freed (h : (w'.sockets i).state = .kSocketDisconnected) : Quiet w w' i :=
  ⟨fun _ => h, fun _ => Or.inl h⟩

theorem Quiet.trans (h : Quiet w w' i) (h' : Quiet w' w'' i) : Quiet w w'' i := by
  refine ⟨fun hs => h'.idle (h.idle hs), fun hs => ?_⟩
  rcases h.waiting hs with hgone | ⟨hs', hbuf⟩
  · exact Or.inl (h'.idle hgone)
  · rcases h'.waiting hs' with hgone | ⟨hs'', hbuf'⟩
    · exact Or.inl hgone
    · exact Or.inr ⟨hs'', hbuf.trans hbuf'⟩

/-- Another part of the slot changes. -/
theorem Quiet.modify (w : World) (j : Nat) (f : Socket → Socket)
    (hf : ∀ s, (f s).state = s.state ∧ (f s).readBuffer = s.readBuffer ∧
      (f s).sendBuffer = s.sendBuffer) (i : Nat) : Quiet w (w.modify j f) i := by
  by_cases hi : i = j
  · subst hi
    obtain ⟨hstate, hread, hsend⟩ := hf (w.sockets i)
    refine .of_same ?_ ⟨?_, ?_⟩ <;> rw [World.modify_self]
    · exact hstate
    · exact hread
    · exact hsend
  · exact .of_sockets (World.modify_of_ne w hi f)

theorem Move.quiet (hm : Move False tidy unrecycled w w') (i : Nat) : Quiet w w' i := by
  cases hm with
  | note | data | unwrite => exact .of_sockets (by simp [World.record, protoMessageCallback, zSendx])
  | reserve h =>
      obtain ⟨a, d, hres⟩ := tcpGetReserveId_reserved h
      rw [hres.eq]
      have hcount : Quiet w { w with allocId := a, drawn := d } i := .of_sockets rfl
      exact hcount.trans (Quiet.modify _ _ (Socket.reserved _) (fun _ => ⟨rfl, rfl, rfl⟩) i)
  | free j hs =>
      exact Quiet.modify w j (fun s => { s with type := .kSocketNoneType }) (fun _ => ⟨rfl, rfl, rfl⟩) i
  | own j fromId hs =>
      exact Quiet.modify w j (fun s => { s with fromId := fromId }) (fun _ => ⟨rfl, rfl, rfl⟩) i
  | buffers j f hs hf =>
      by_cases hi : i = j
      · -- a connected slot
        subst hi
        constructor
        · intro hidle
          rw [hs] at hidle
          cases hidle
        · intro hwaiting
          rw [hs] at hwaiting
          cases hwaiting
      · exact .of_sockets (World.modify_of_ne w hi f)
  | leak hopen hb =>
      obtain ⟨-, -, rfl⟩ := openFd_eq_some hopen
      exact .of_sockets rfl
  | establish j s ho => exact ho.elim
  | accept j hs hcreate =>
      obtain ⟨-, -, -, rfl⟩ := aeCreateFileEvent_eq hcreate
      exact .of_sockets rfl
  | start j ho => exact ho.elim
  | write j hs hcreate =>
      obtain ⟨-, -, -, rfl⟩ := aeCreateFileEvent_eq hcreate
      exact .of_sockets rfl
  | close j hs =>
      by_cases hi : i = j
      · subst hi
        exact .of_freed (by rw [closeSlot_self]; rfl)
      · exact .of_sockets (closeSlot_of_ne w hi)
  | stop j hs hb =>
      by_cases hi : i = j
      · subst hi
        exact .of_freed (by rw [stopSlot_self]; rfl)
      · exact .of_sockets (stopSlot_of_ne w hi)

theorem Moves.quiet (hm : Moves False tidy unrecycled w w') (i : Nat) : Quiet w w' i := by
  induction hm with
  | refl => exact .of_sockets rfl
  | tail _ hlast ih => exact ih.trans (hlast.quiet i)

theorem StepMoves.quiet (hm : StepMoves False tidy unrecycled w w') (i : Nat) : Quiet w w' i := by
  cases hm with
  | moved hm => exact hm.quiet i
  | posted req hreq => exact .of_sockets rfl
  | claimed req h hreq =>
      have hmove : Move False tidy unrecycled w _ := .reserve h
      exact (hmove.quiet i).trans (.of_sockets rfl)
  | handled req rest hem hm =>
      have hrest : Quiet w { w with em := rest } i := .of_sockets rfl
      exact hrest.trans (hm.quiet i)

-- ============================================================================
-- Steps that open or start a connection
-- ============================================================================

/-- A file event, not a call or a request. -/
def TcpOp.isEvent : TcpOp → Bool
  | .event _ _ _ => true
  | _ => false

/-- What a step does to slot `i`. -/
inductive SlotStep (w w' : World) (op : TcpOp) (i : Nat) : Prop where
  | quiet (h : Quiet w w' i)
  /-- a connection is accepted, with empty buffers, or connected, with the buffers
      as they are -/
  | opened (hidle : (w.sockets i).state = .kSocketDisconnected)
      (hstate : (w'.sockets i).state = .kSocketConnecting)
      (hbuf : if op.isEvent then Blank w' i else SameBuffers w w' i)
  | started (rest : List TcpRequest) (fromId : Int) (registered : Bool)
      (hwaiting : (w.sockets i).state = .kSocketConnecting)
      (htype : (w.sockets i).type ≠ .kAcceptType)
      (hstart : startByType (({ w with em := rest } : World).modify i fun s =>
        { s with fromId := fromId }) i registered = some (w', true))

/-- A slot is given a descriptor. -/
theorem SlotStep.of_modify {op : TcpOp} (j : Nat) (f : Socket → Socket) {v : World}
    (hsockets : v.sockets = w.sockets) (hidle : (w.sockets j).state = .kSocketDisconnected)
    (hstate : ∀ s, (f s).state = .kSocketConnecting)
    (hread : ∀ s, (f s).readBuffer = s.readBuffer) (hsend : ∀ s, (f s).sendBuffer = s.sendBuffer)
    (hop : op.isEvent = false) (i : Nat) : SlotStep w (v.modify j f) op i := by
  by_cases hi : i = j
  · subst hi
    refine .opened hidle ?_ ?_
    · rw [World.modify_self]
      exact hstate _
    · rw [hop, if_neg Bool.false_ne_true]
      refine ⟨?_, ?_⟩ <;> rw [World.modify_self, hsockets]
      · exact hread _
      · exact hsend _
  · refine .quiet (.of_sockets ?_)
    rw [World.modify_of_ne _ hi, hsockets]

theorem handleTcpSocketListen_slot {fromId id protoType : Int} {addr : String} {port : Int}
    {k : Kernel} {op : TcpOp} (hop : op.isEvent = false)
    (hvacant : ∀ i, tcpGetSocket w id = some i → k.fd ≠ -1 →
      (w.sockets i).state = .kSocketDisconnected)
    (h : handleTcpSocketListen w fromId id protoType addr port k = some w') (i : Nat) :
    SlotStep w w' op i := by
  unfold handleTcpSocketListen at h
  split at h
  · cases h
    exact .quiet (.of_sockets rfl)
  · rename_i hfd
    obtain ⟨w₁, hopen, h⟩ := Option.bind_eq_some_iff.mp h
    obtain ⟨-, -, rfl⟩ := openFd_eq_some hopen
    split at h
    · cases h
      exact .quiet (.of_sockets rfl)
    · rename_i j hsome
      cases h
      refine .of_modify (w := w) (v := w.opened k.fd) j _ rfl (hvacant j hsome hfd) ?_ ?_ ?_ hop i <;>
        exact fun _ => rfl

theorem handleTcpSocketConnect_slot {fromId id protoType : Int} {addr : String} {port : Int}
    {k : Kernel} {op : TcpOp} (hop : op.isEvent = false)
    (hvacant : ∀ i, tcpGetSocket w id = some i → k.fd ≠ -1 →
      (w.sockets i).state = .kSocketDisconnected)
    (h : handleTcpSocketConnect w fromId id protoType addr port k = some w') (i : Nat) :
    SlotStep w w' op i := by
  unfold handleTcpSocketConnect at h
  split at h
  · cases h
    exact .quiet (.of_sockets rfl)
  · rename_i j hsome
    split at h
    · cases h
      exact .quiet (.of_sockets rfl)
    · rename_i hfd
      obtain ⟨w₁, hopen, h⟩ := Option.bind_eq_some_iff.mp h
      obtain ⟨-, -, rfl⟩ := openFd_eq_some hopen
      cases h
      refine .of_modify (w := w) (v := w.opened k.fd) j _ rfl (hvacant j hsome hfd) ?_ ?_ ?_ hop i <;>
        exact fun _ => rfl

theorem startByType_accept {registered started : Bool}
    (htype : (w.sockets i).type = .kAcceptType)
    (h : startByType w i registered = some (w', started)) :
    aeCreateFileEvent w (w.sockets i).fd .readable .onAccept i registered = (w', started) := by
  unfold startByType at h
  rw [htype] at h
  simp only [socketAccept] at h
  split at h
  · cases h
  · exact Option.some.inj h

/-- A start concerns the slot that has the id, and only makes a connection of it
    when it succeeds and the slot does not listen. -/
theorem handleTcpSocketStart_slot {v : World} {rest : List TcpRequest} {fromId id : Int}
    {k : Kernel} {op : TcpOp} (hv : v = { w with em := rest }) (hok : v.Ok)
    (h : handleTcpSocketStart v fromId id k = some w') (i : Nat) : SlotStep w w' op i := by
  have hsockets : v.sockets = w.sockets := by rw [hv]
  cases hget : tcpGetSocket v id with
  | none =>
      unfold handleTcpSocketStart at h
      rw [hget] at h
      cases h
      exact .quiet (.of_sockets (congrFun hsockets i))
  | some j =>
      by_cases hs : (v.sockets j).state = .kSocketConnecting
      · have hown : Quiet w (v.modify j fun s => { s with fromId := fromId }) i := by
          have hrest : Quiet w v i := .of_sockets (congrFun hsockets i)
          exact hrest.trans (Quiet.modify v j (fun s => { s with fromId := fromId })
            (fun _ => ⟨rfl, rfl, rfl⟩) i)
        rcases handleTcpSocketStart_cases hok hget hs h with hstart | ⟨-, rfl⟩
        · by_cases hi : i = j
          · subst hi
            by_cases htype : (w.sockets i).type = .kAcceptType
            · -- it listens, and goes on waiting
              have htype' : ((v.modify i fun s => { s with fromId := fromId }).sockets i).type =
                  .kAcceptType := by
                rw [World.modify_self, hsockets]
                exact htype
              obtain ⟨-, -, -, rfl⟩ := aeCreateFileEvent_eq (startByType_accept htype' hstart)
              exact .quiet (hown.trans (.of_sockets rfl))
            · subst hv
              exact .started rest fromId k.registered hs htype hstart
          · refine .quiet (hown.trans (.of_sockets ?_))
            rcases startByType_cases hstart with ⟨-, hcreate⟩ | ⟨w₁, hcreate, heq⟩ | ⟨hfalse, -⟩
            · obtain ⟨-, -, -, rfl⟩ := aeCreateFileEvent_eq hcreate
              rfl
            · obtain ⟨-, -, -, rfl⟩ := aeCreateFileEvent_eq hcreate
              rw [heq]
              exact World.modify_of_ne _ hi fun s => { s with state := .kSocketConnected }
            · cases hfalse
        · by_cases hi : i = j
          · subst hi
            refine .quiet (.of_freed ?_)
            show (((v.modify i _).stopSlot i).sockets i).state = _
            rw [stopSlot_self]
            rfl
          · refine .quiet (hown.trans (.of_sockets ?_))
            exact stopSlot_of_ne _ hi
      · unfold handleTcpSocketStart at h
        simp only [hget] at h
        rw [if_pos hs] at h
        cases h
        exact .quiet (.of_sockets (congrFun hsockets i))

/-- A connection that is accepted starts with empty buffers. -/
theorem onAccept_slot {j : Nat} {k : Kernel} {op : TcpOp} (hop : op.isEvent = true) (hok : w.Ok)
    (h : onAccept w j k = some w') (i : Nat) : SlotStep w w' op i := by
  unfold onAccept at h
  split at h
  · cases h
    exact .quiet (.of_sockets rfl)
  · obtain ⟨w₁, hopen, h⟩ := Option.bind_eq_some_iff.mp h
    obtain ⟨-, -, rfl⟩ := openFd_eq_some hopen
    obtain ⟨⟨w₂, id⟩, hreserve, h⟩ := Option.bind_eq_some_iff.mp h
    obtain ⟨j', hget, h⟩ := Option.bind_eq_some_iff.mp h
    obtain ⟨a, d, hres⟩ := tcpGetReserveId_reserved hreserve
    obtain ⟨hindex, -⟩ := tcpGetSocket_eq_some hget
    have hj : getIndex w id = j' := by
      rw [hres.eq] at hindex
      exact hindex
    have hfree : (w.sockets (getIndex w id)).type = .kSocketNoneType := hres.was_free
    let accepted : Socket → Socket := fun s =>
      { s with
        fromId := 0, fd := k.fd, protoType := (w₂.sockets j).protoType,
        type := .kSocketType, state := .kSocketConnecting,
        readBuffer := s.readBuffer.map fun _ => [], sendBuffer := s.sendBuffer.map fun _ => [] }
    have hsockets : w'.sockets = (w₂.modify j' accepted).sockets := by
      cases h
      rfl
    by_cases hi : i = j'
    · subst hi
      have hself : w'.sockets i = accepted (w₂.sockets i) := by
        rw [hsockets, World.modify_self]
      have hnil : ∀ buf : Option (List UInt8), bufferBytes (buf.map fun _ => []) = [] := by
        rintro (_ | _) <;> rfl
      refine .opened ?_ ?_ ?_
      · rw [← hj]
        exact hok.free _ (Or.inl hfree)
      · rw [hself]
      · rw [hop, if_pos rfl]
        unfold Blank
        rw [hself]
        exact ⟨hnil _, hnil _⟩
    · refine .quiet (.of_sockets ?_)
      rw [hsockets, World.modify_of_ne _ hi, hres.eq]
      exact World.modify_of_ne _ (hj ▸ hi) _

theorem handleEvent_slot {v : World} {rest : List TcpRequest} {k : Kernel} {req : TcpRequest}
    {op : TcpOp} (hop : op.isEvent = false) (hv : v = { w with em := rest }) (hok : v.Ok)
    (hvacant : Vacant v k req) (h : handleEvent v k req = some w') (i : Nat) :
    SlotStep w w' op i := by
  have hrest : Quiet w v i := by
    rw [hv]
    exact .of_sockets rfl
  have hmoves : Moves False False False v w' → SlotStep w w' op i :=
    fun hm => .quiet (hrest.trans (hm.quiet i))
  have hopens : SlotStep v w' op i → SlotStep w w' op i := by
    subst hv
    rintro (hquiet | ⟨hidle, hstate, hbuf⟩ | ⟨rest', fromId, registered, hwaiting, htype, hstart⟩)
    · exact .quiet (hrest.trans hquiet)
    · exact .opened hidle hstate hbuf
    · exact .started rest' fromId registered hwaiting htype hstart
  cases req with
  | listen => exact hopens (handleTcpSocketListen_slot hop hvacant h i)
  | start => exact handleTcpSocketStart_slot hv hok h i
  | connect => exact hopens (handleTcpSocketConnect_slot hop hvacant h i)
  | asyncConnect => exact hmoves (handleTcpSocketAsyncConnect_moves hok hvacant False.elim h)
  | close => exact hmoves (handleTcpSocketClose_moves hok h)
  | send => exact hmoves (handleTcpSocketSend_moves hok h)
  | stop =>
      cases h
      exact .quiet hrest

theorem aeProcessEvent_slot {fd : Int} {mask : AeMask} {k : Kernel} (hok : w.Ok)
    (h : aeProcessEvent w fd mask k = some w') (i : Nat) :
    SlotStep w w' (.event fd mask k) i := by
  have hmoves : Moves False False False w w' → SlotStep w w' (.event fd mask k) i :=
    fun hm => .quiet (hm.quiet i)
  cases mask with
  | readable =>
      simp only [aeProcessEvent] at h
      split at h
      · rename_i hr
        rcases hok.accepting fd hr with hproc | hproc
        · rw [hproc] at h
          exact hmoves (onRead_moves hok (hok.reading fd hr hproc).1 h)
        · rw [hproc] at h
          exact onAccept_slot rfl hok h i
      · cases h
  | writable =>
      simp only [aeProcessEvent] at h
      split at h
      · rename_i hw
        obtain ⟨hproc, hs, -⟩ := hok.writing fd hw
        rw [hproc] at h
        exact hmoves (onWrite_moves hok hs h)
      · cases h

theorem tcpStep_slot {op : TcpOp} (hok : w.Ok) (hvacant : w.AtRequest Vacant op)
    (h : tcpStep w op = some w') (i : Nat) : SlotStep w w' op i := by
  have hmoves : StepMoves False False False w w' → SlotStep w w' op i :=
    fun hm => .quiet (hm.quiet i)
  cases op with
  | listen =>
      exact hmoves (reserveAndPost_moves (r := fun id => .listen _ id _ _ _) (fun _ => rfl) h)
  | start => exact hmoves (tcpPostRequest_moves rfl h)
  | connect =>
      exact hmoves (reserveAndPost_moves (r := fun id => .connect _ id _ _ _) (fun _ => rfl) h)
  | asyncConnect =>
      exact hmoves (reserveAndPost_moves (r := fun id => .asyncConnect _ id _ _ _) (fun _ => rfl) h)
  | close => exact hmoves (tcpPostRequest_moves rfl h)
  | send => exact hmoves (tcpPostRequest_moves rfl h)
  | stop => exact hmoves (tcpPostRequest_moves rfl h)
  | handle k =>
      simp only [tcpStep] at h
      split at h
      · cases h
      · rename_i req rest hem
        have hrest : World.Ok { w with em := rest } :=
          hok.of_same (fun _ => Socket.Same.refl _) rfl rfl rfl rfl
        exact handleEvent_slot rfl rfl hrest (hvacant req rest hem) h i
  | event fd mask k => exact aeProcessEvent_slot hok h i

/-- A started slot runs a connection with the buffers it had. -/
theorem started_running {rest : List TcpRequest} {fromId : Int} {registered : Bool} (hok : w.Ok)
    (hwaiting : (w.sockets i).state = .kSocketConnecting)
    (htype : (w.sockets i).type ≠ .kAcceptType)
    (hstart : startByType (({ w with em := rest } : World).modify i fun s =>
      { s with fromId := fromId }) i registered = some (w', true)) :
    SameBuffers w w' i ∧
      Running w' i (w'.sockets i) ⟨(w'.sockets i).protoType, true,
        bufferBytes (w.sockets i).readBuffer, bufferBytes (w.sockets i).sendBuffer, false⟩ := by
  let v := ({ w with em := rest } : World).modify i fun s => { s with fromId := fromId }
  have hself : v.sockets i = { w.sockets i with fromId := fromId } := World.modify_self ..
  have hfd : (v.sockets i).fd = (w.sockets i).fd := by rw [hself]
  obtain ⟨hattached, hnone, hsocket, hsetsize⟩ := startByType_attached hstart
    (by rw [hself]; exact htype) (by rw [hfd]; exact hok.not_writable hwaiting)
  rw [hfd] at hattached hnone
  have hslot : w'.sockets i =
      { w.sockets i with fromId := fromId, state := .kSocketConnected } := by
    rw [hsocket, hself]
  obtain ⟨hnat, hindex⟩ := hok.index_of_state (i := i) (by rw [hwaiting]; decide)
  refine ⟨⟨by rw [hslot], by rw [hslot]⟩, ⟨?_, rfl, rfl, ?_, ?_, rfl, rfl, ?_, ?_, ?_, by rintro ⟨⟩⟩⟩
  · rw [hslot]
    exact hattached
  · rw [hslot]
    exact hnat
  · rw [hslot]
    unfold getIndex
    rw [hsetsize]
    exact hindex
  · rw [hslot]
  · rw [hslot]
  · rw [hslot]
    exact hnone

end

-- ============================================================================
-- Histories
-- ============================================================================

/-- A history that ends by starting a connection in slot `i`: the slot is given a
    descriptor, waits, and is started. -/
structure History (setsize : Nat) (aeSetsize : Int) (i : Nat) where
  before : List TcpOp
  idle : World
  opening : TcpOp
  opened : World
  meanwhile : List TcpOp
  waiting : World
  starting : TcpOp
  started : World
  run_before : runFrom tcpStep (tcpInit setsize aeSetsize) before = some idle
  run_opening : tcpStep idle opening = some opened
  run_meanwhile : runFrom tcpStep opened meanwhile = some waiting
  run_starting : tcpStep waiting starting = some started
  is_idle : (idle.sockets i).state = .kSocketDisconnected
  is_waiting : Always tcpStep (fun w => (w.sockets i).state = .kSocketConnecting) opened meanwhile
  is_started : (started.sockets i).state = .kSocketConnected

variable {setsize : Nat} {aeSetsize : Int} {i : Nat}

/-- Every request that opens a descriptor finds its slot without one. -/
def History.Vacant (h : History setsize aeSetsize i) : Prop :=
  AllSteps tcpStep (fun w op => w.AtRequest Tcp.Vacant op) (tcpInit setsize aeSetsize)
    (h.before ++ h.opening :: (h.meanwhile ++ [h.starting]))

/-- The connection is accepted, or `handleTcpSocketConnect` finds empty buffers. -/
def History.Cleared (h : History setsize aeSetsize i) : Prop :=
  h.opening.isEvent = true ∨ Blank h.idle i

/-- Both connections start with empty buffers; if they have one protocol, the same
    is seen of them whatever happens. -/
def Isolated (h₁ h₂ : History setsize aeSetsize i) : Prop :=
  Blank h₁.started i ∧ Blank h₂.started i ∧
    ((h₁.started.sockets i).protoType = (h₂.started.sockets i).protoType →
      ∀ ops, traceOf i h₁.started ops = traceOf i h₂.started ops)

/-- While the slot waits its buffers do not change. -/
theorem waiting_sameBuffers {w w' : World} {ops : List TcpOp} (hok : w.Ok)
    (hvacant : AllSteps tcpStep (fun w op => w.AtRequest Tcp.Vacant op) w ops)
    (hwaiting : Always tcpStep (fun w => (w.sockets i).state = .kSocketConnecting) w ops)
    (hrun : runFrom tcpStep w ops = some w') : SameBuffers w w' i := by
  induction ops generalizing w with
  | nil =>
      cases hrun
      exact ⟨rfl, rfl⟩
  | cons op ops ih =>
      rw [runFrom_cons] at hrun
      obtain ⟨w₁, hstep, hrun⟩ := Option.bind_eq_some_iff.mp hrun
      obtain ⟨hvac, hvacant⟩ := hvacant w₁ hstep
      have hs : (w.sockets i).state = .kSocketConnecting := hwaiting.1
      have hrest := hwaiting.2 w₁ hstep
      have hs₁ := hrest.head
      have hok₁ := hok.step_moves (tcp_step_moves hok hvac False.elim False.elim False.elim hstep)
      refine SameBuffers.trans ?_ (ih hok₁ hvacant hrest hrun)
      rcases tcpStep_slot hok hvac hstep i with hquiet | ⟨hidle, -, -⟩ |
        ⟨rest, fromId, registered, -, htype, hstart⟩
      · rcases hquiet.waiting hs with hgone | ⟨-, hsame⟩
        · rw [hgone] at hs₁
          cases hs₁
        · exact hsame
      · rw [hidle] at hs
        cases hs
      · exact (started_running hok hs htype hstart).1

/-- The steps of a history, one after the other. -/
theorem History.steps (h : History setsize aeSetsize i) (hv : h.Vacant) :
    (if h.opening.isEvent then Blank h.opened i else SameBuffers h.idle h.opened i) ∧
      SameBuffers h.opened h.started i ∧
      Running h.started i (h.started.sockets i) ⟨(h.started.sockets i).protoType, true,
        bufferBytes (h.started.sockets i).readBuffer,
        bufferBytes (h.started.sockets i).sendBuffer, false⟩ := by
  have hkeep : ∀ (w : World) (op : TcpOp) (w' : World), w.Ok → tcpStep w op = some w' →
      w.AtRequest Tcp.Vacant op → w'.Ok := fun w op w' hok hstep hvac =>
    hok.step_moves (tcp_step_moves hok hvac False.elim False.elim False.elim hstep)
  obtain ⟨hidle, hv⟩ := AllSteps.split hkeep (tcpInit_ok setsize aeSetsize) hv h.run_before
  obtain ⟨hvac, hv⟩ := hv _ h.run_opening
  have hopened := hkeep _ _ _ hidle h.run_opening hvac
  obtain ⟨hwaiting, hv'⟩ := AllSteps.split hkeep hopened hv h.run_meanwhile
  obtain ⟨hvac', -⟩ := hv' _ h.run_starting
  have hs : (h.waiting.sockets i).state = .kSocketConnecting := h.is_waiting.last h.run_meanwhile
  have hs₁ := h.is_waiting.head
  have hsame := waiting_sameBuffers hopened hv.left h.is_waiting h.run_meanwhile
  refine ⟨?_, ?_⟩
  · rcases tcpStep_slot hidle hvac h.run_opening i with hquiet | ⟨-, -, hbuf⟩ | ⟨_, _, _, hwait, _, _⟩
    · rw [hquiet.idle h.is_idle] at hs₁
      cases hs₁
    · exact hbuf
    · rw [h.is_idle] at hwait
      cases hwait
  · have hdone := h.is_started
    rcases tcpStep_slot hwaiting hvac' h.run_starting i with hquiet | ⟨hidle', -, -⟩ |
      ⟨rest, fromId, registered, -, htype, hstart⟩
    · rcases hquiet.waiting hs with hgone | ⟨hstill, -⟩
      · rw [hgone] at hdone
        cases hdone
      · rw [hstill] at hdone
        cases hdone
    · rw [hidle'] at hs
      cases hs
    · obtain ⟨hsame', hrun⟩ := started_running hwaiting hs htype hstart
      rw [hsame'.1, hsame'.2]
      exact ⟨hsame.trans hsame', hrun⟩

/-- The buffers are empty at the start exactly when they were when the slot was
    opened, or were emptied then. -/
theorem History.blank_iff (h : History setsize aeSetsize i) (hv : h.Vacant) :
    Blank h.started i ↔ h.Cleared := by
  obtain ⟨hopening, hsame, -⟩ := h.steps hv
  rw [hsame.blank]
  unfold History.Cleared
  cases hevent : h.opening.isEvent with
  | true =>
      rw [hevent, if_pos rfl] at hopening
      exact iff_of_true hopening (Or.inl rfl)
  | false =>
      rw [hevent, if_neg Bool.false_ne_true] at hopening
      rw [hopening.blank]
      exact (or_iff_right Bool.false_ne_true).symm

/-- What is seen of a connection that starts with empty buffers. -/
theorem History.traceOf_eq (h : History setsize aeSetsize i) (hv : h.Vacant)
    (hblank : Blank h.started i) (ops : List LinkOp) :
    traceOf i h.started ops =
      ((Link.start (h.started.sockets i).protoType).run ops).map Prod.snd := by
  obtain ⟨-, -, hrun⟩ := h.steps hv
  rw [hblank.1, hblank.2] at hrun
  exact hrun.traceOf_eq ops

/-- Connections that share a slot do not interfere exactly when neither finds
    anything in the buffers of the slot. -/
theorem isolated_iff_cleared (h₁ h₂ : History setsize aeSetsize i) (hv₁ : h₁.Vacant)
    (hv₂ : h₂.Vacant) : Isolated h₁ h₂ ↔ h₁.Cleared ∧ h₂.Cleared := by
  rw [← h₁.blank_iff hv₁, ← h₂.blank_iff hv₂]
  refine ⟨fun h => ⟨h.1, h.2.1⟩, fun h => ⟨h.1, h.2, fun hproto ops => ?_⟩⟩
  rw [h₁.traceOf_eq hv₁ h.1, h₂.traceOf_eq hv₂ h.2, hproto]

def leftoverOps : List TcpOp :=
  [.connect 7 1 "h" 80 false, .handle { fd := 5 }, .start 7 1 false, .handle {},
    .send 7 [1] (some [1, 2, 3]) false, .handle { writes := [{ result := .ok 1 }] },
    .event 5 .readable { read := .ok [] }, .connect 8 1 "h" 80 false]

def leftoverIdle : World := (runFrom tcpStep (tcpInit 1 64) leftoverOps).get (by decide +kernel)

def leftoverOpened : World := (tcpStep leftoverIdle (.handle { fd := 6 })).get (by decide +kernel)

def leftoverWaiting : World :=
  (runFrom tcpStep leftoverOpened [.start 8 2 false]).get (by decide +kernel)

/-- The first connection of the only slot was closed by its peer with two bytes
    unsent; the second finds them. -/
def leftover : History 1 64 0 where
  before := leftoverOps
  idle := leftoverIdle
  opening := .handle { fd := 6 }
  opened := leftoverOpened
  meanwhile := [.start 8 2 false]
  waiting := leftoverWaiting
  starting := .handle {}
  started := (tcpStep leftoverWaiting (.handle {})).get (by decide +kernel)
  run_before := (Option.some_get _).symm
  run_opening := (Option.some_get _).symm
  run_meanwhile := (Option.some_get _).symm
  run_starting := (Option.some_get _).symm
  is_idle := by decide +kernel
  is_waiting := by decide +kernel
  is_started := by decide +kernel

theorem isolated_iff_cleared_leftover :
    Isolated leftover leftover ↔ leftover.Cleared ∧ leftover.Cleared :=
  isolated_iff_cleared leftover leftover (by unfold History.Vacant; decide +kernel)
    (by unfold History.Vacant; decide +kernel)

theorem connect_inherits : ¬ ∀ h₁ h₂ : History 1 64 0, Isolated h₁ h₂ := by
  intro h
  exact absurd (h leftover leftover).1.2 (by decide +kernel)

end ZServer.Tcp
