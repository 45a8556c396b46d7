/-
  ZServer.Tcp.Reserving

  What the table shows of each slot (`Entry`), what must hold of it at each
  program point, and what a worker that reserves slots does to that.

  A worker keeps what the event loop knows of the slots, with one exception: it
  gives an id to a slot that has been freed and that the event loop has yet to
  tell of.
-/

import ZServer.Tcp.Handover

namespace ZServer.Tcp

open Lib

-- ============================================================================
-- What the table shows of a slot
-- ============================================================================

structure Entry where
  type : SocketType
  state : SocketState
  id : Int
  fromId : Int
  conn : Int
  taken : Option Int
  holders : List Int

def Table.entry (s : Table) (j : Nat) : Entry :=
  { type := (s.slot j).type, state := (s.slot j).state, id := (s.slot j).id,
    fromId := (s.slot j).fromId, conn := s.conn j, taken := s.taken j, holders := s.holders j }

/-- The slot has a connection. -/
def Entry.InUse (e : Entry) : Prop := e.type ≠ .kSocketNoneType ∧ e.type ≠ .kReserveType

structure Entry.Ok (index : Int → Nat) (j : Nat) (e : Entry) : Prop where
  natural : 0 ≤ e.id
  used : e.InUse → index e.id = j ∧ e.conn = e.id
  busy : e.state ≠ .kSocketDisconnected → e.InUse
  taken : ∀ id, e.taken = some id → e.type = .kReserveType ∧ e.holders = [id]
  free : e.type = .kSocketNoneType → e.holders = []
  held : e.taken = none → e.holders = [] ∨ e.holders = [e.id]

/-- The notice names the connection and goes to its owner. -/
def Told.Right (t : Told) : Prop := t.notice.id = t.id ∧ t.notice.dest = t.fromId

structure Table.Ok (s : Table) : Prop where
  entries : ∀ j, (s.entry j).Ok (getIndex s.world) j
  told : ∀ t ∈ s.told, t.Right

theorem Entry.Ok.untaken {index : Int → Nat} {j : Nat} {e : Entry} (h : e.Ok index j)
    (htype : e.type ≠ .kReserveType) : e.taken = none := by
  cases htaken : e.taken with
  | none => rfl
  | some id => exact absurd (h.taken id htaken).1 htype

theorem Entry.Ok.holders_length {index : Int → Nat} {j : Nat} {e : Entry} (h : e.Ok index j) :
    e.holders.length ≤ 1 := by
  cases htaken : e.taken with
  | none =>
      rcases h.held htaken with hnil | hone
      · simp [hnil]
      · simp [hone]
  | some id => simp [(h.taken id htaken).2]

/-- Nothing of what the invariant is about differs. -/
structure Table.Same (s s' : Table) : Prop where
  entries : ∀ j, s'.entry j = s.entry j
  told : s'.told = s.told
  index : getIndex s'.world = getIndex s.world

theorem Table.Ok.of_same {s s' : Table} (hs : s.Ok) (h : s.Same s') : s'.Ok where
  entries := fun j => by
    rw [h.entries, h.index]
    exact hs.entries j
  told := by
    rw [h.told]
    exact hs.told

/-- One slot changes. -/
theorem Table.Ok.of_entry {s s' : Table} (hs : s.Ok) (i : Nat)
    (hothers : ∀ j, j ≠ i → s'.entry j = s.entry j)
    (hi : (s'.entry i).Ok (getIndex s.world) i) (htold : s'.told = s.told)
    (hindex : getIndex s'.world = getIndex s.world) : s'.Ok where
  entries := fun j => by
    rw [hindex]
    by_cases hj : j = i
    · subst hj
      exact hi
    · rw [hothers j hj]
      exact hs.entries j
  told := by
    rw [htold]
    exact hs.told

theorem getIndex_congr {w w' : World} (h : w'.setsize = w.setsize) : getIndex w' = getIndex w := by
  funext id
  unfold getIndex
  rw [h]

theorem Table.entry_congr {s s' : Table} {j : Nat} (hslot : s'.slot j = s.slot j)
    (hconn : s'.conn j = s.conn j) (htaken : s'.taken j = s.taken j)
    (hholders : s'.holders j = s.holders j) : s'.entry j = s.entry j := by
  unfold Table.entry
  rw [hslot, hconn, htaken, hholders]

theorem Table.slot_of_ne {s s' : Table} {i j : Nat} {f : Socket → Socket}
    (hworld : s'.world.sockets = (s.world.modify i f).sockets) (hj : j ≠ i) :
    s'.slot j = s.slot j := by
  show s'.world.sockets j = s.world.sockets j
  rw [hworld]
  exact s.world.modify_of_ne hj f

-- ============================================================================
-- Assertions
-- ============================================================================

/-- The notice of a tell names the connection that `e` ends, if it finds this
    owner and this id in the slot. -/
def Tell.Right (e : Ending) (fromId id : Int) : Tell → Prop
  | .close | .error _ => id = e.id ∧ fromId = e.fromId
  | .connectFail dest _ => id = e.id ∧ dest = e.fromId
  | .startFail dest id _ => id = e.id ∧ dest = e.fromId

theorem Tell.Right.told {s : Table} {e : Ending} {t : Tell}
    (h : t.Right e (s.entry e.slot).fromId (s.entry e.slot).id) :
    (⟨t.notice (s.slot e.slot), e.id, e.fromId⟩ : Told).Right := by
  cases t with
  | close => exact h
  | error err => exact h
  | connectFail dest err => exact h
  | startFail dest id err => exact h

def Table.Ready (s : Table) (e : Ending) (tells : List Tell) : Prop :=
  ∀ t ∈ tells, t.Right e (s.entry e.slot).fromId (s.entry e.slot).id

/-- A slot that has a connection has not lost it. -/
def Table.Settled (s : Table) (j : Nat) : Prop :=
  (s.entry j).InUse → (s.entry j).state ≠ .kSocketDisconnected

/-- The event loop is about to disconnect the slot. -/
structure Table.Closing (s : Table) (e : Ending) : Prop where
  settled : ∀ j, s.Settled j
  busy : (s.entry e.slot).state ≠ .kSocketDisconnected
  ready : s.Ready e e.tells

/-- The slot is disconnected and still has its id. -/
structure Table.Closed (s : Table) (e : Ending) : Prop where
  settled : ∀ j, j ≠ e.slot → s.Settled j
  index : getIndex s.world (s.entry e.slot).id = e.slot
  used : e.tells ≠ [] → (s.entry e.slot).InUse
  ready : s.Ready e e.tells

/-- The slot is about to be freed by `id`. -/
structure Table.Freeing (s : Table) (e : Ending) (id : Int) : Prop where
  settled : ∀ j, j ≠ e.slot → s.Settled j
  natural : 0 ≤ id
  index : getIndex s.world id = e.slot
  ready : ∀ t ∈ e.tells, t.Right e (s.entry e.slot).fromId id

def Table.AtLoop (s : Table) : LoopPc → Prop
  | .idle | .sending _ _ => ∀ j, s.Settled j
  | .deleteReadable e | .deleteWritable e | .closeFd e | .stopFd e | .disconnect e => s.Closing e
  | .readId e => s.Closed e
  | .recover e id => s.Freeing e id
  | .release e id => s.Freeing e id ∧ (s.entry e.slot).state = .kSocketDisconnected
  | .notify e tells => (∀ j, s.Settled j) ∧ s.Ready e tells

def Table.AtWorker (s : Table) : WorkerPc → Prop
  | .test _ _ id | .cas _ _ id => 0 ≤ id
  | .storeId _ j id => 0 ≤ id ∧ getIndex s.world id = j ∧ s.taken j = some id
  | _ => True

def Table.At (s : Table) : Pc → Prop
  | .worker pc => s.AtWorker pc
  | .loop pc => s.AtLoop pc

/-- There is one event loop, and no two workers have taken the same slot. -/
def Pc.Apart : Pc → Pc → Prop
  | .loop _, .loop _ => False
  | .worker (.storeId _ i _), .worker (.storeId _ j _) => i ≠ j
  | _, _ => True

-- ============================================================================
-- Workers
-- ============================================================================

section Workers

variable {s s' : Table} {pc pc' : WorkerPc} {choice : Choice}

/-- A worker takes a free slot, gives it its id, or changes nothing of what
    others look at. -/
inductive WorkerMove (s : Table) : WorkerPc → Table → WorkerPc → Prop where
  | quiet {pc pc' : WorkerPc} {s' : Table} (hsame : s.Same s') (ht : s.AtWorker pc → s'.AtWorker pc')
      (hpc : ∀ r j id, pc' ≠ .storeId r j id) : WorkerMove s pc s' pc'
  | take (r : Reservation) (rounds : Nat) (id : Int)
      (hfree : (s.slot (getIndex s.world id)).type = .kSocketNoneType) :
      WorkerMove s (.cas r rounds id)
        { s with
          world := s.world.modify (getIndex s.world id) fun s => { s with type := .kReserveType }
          taken := Function.update s.taken (getIndex s.world id) (some id)
          holders := Function.update s.holders (getIndex s.world id)
            (id :: s.holders (getIndex s.world id)) }
        (.storeId r (getIndex s.world id) id)
  | store (r : Reservation) (j : Nat) (id : Int) :
      WorkerMove s (.storeId r j id)
        { s with
          world := s.world.modify j fun s => { s with id := id }
          taken := Function.update s.taken j none } (.storeFd r j id)

theorem Table.same_world (s : Table) {w : World} (hsockets : w.sockets = s.world.sockets)
    (hsetsize : w.setsize = s.world.setsize) : s.Same { s with world := w } where
  entries := fun j => Table.entry_congr (congrFun hsockets j) rfl rfl rfl
  told := rfl
  index := getIndex_congr hsetsize

theorem Table.same_refl (s : Table) : s.Same s := ⟨fun _ => rfl, rfl, rfl⟩

theorem workerStep_moves (h : workerStep s pc choice = some (s', pc')) :
    WorkerMove s pc s' pc' := by
  unfold workerStep at h
  split at h
  case h_1 =>
    cases h
    exact .quiet s.same_refl (fun _ => trivial) (by rintro _ _ _ ⟨⟩)
  case h_2 =>
    split at h
    · cases h
      exact .quiet s.same_refl (fun _ => trivial) (by rintro _ _ _ ⟨⟩)
    · cases h
  case h_3 => cases h
  case h_4 r rounds =>
    dsimp only at h
    split at h
    · cases h
      exact .quiet (s.same_world rfl rfl) (fun _ => trivial) (by rintro _ _ _ ⟨⟩)
    · rename_i hid
      cases h
      exact .quiet (s.same_world rfl rfl) (fun _ => not_lt.mp hid) (by rintro _ _ _ ⟨⟩)
  case h_5 r rounds =>
    cases h
    exact .quiet (s.same_world rfl rfl) (fun _ => Int.natCast_nonneg _) (by rintro _ _ _ ⟨⟩)
  case h_6 =>
    split at h
    · cases h
      exact .quiet s.same_refl (fun ht => ht) (by rintro _ _ _ ⟨⟩)
    · cases h
      exact .quiet s.same_refl (fun _ => trivial) (by rintro _ _ _ ⟨⟩)
  case h_7 r rounds id =>
    dsimp only at h
    split at h
    · rename_i hfree
      cases h
      exact .take r rounds id hfree
    · cases h
      exact .quiet s.same_refl (fun _ => trivial) (by rintro _ _ _ ⟨⟩)
  case h_8 r j id =>
    cases h
    exact .store r j id
  case h_9 r j id =>
    cases h
    refine .quiet ⟨fun i => ?_, rfl, rfl⟩ (fun _ => trivial) (by rintro _ _ _ ⟨⟩)
    by_cases hi : i = j
    · subst hi
      unfold Table.entry
      simp only [Table.slot, World.modify_self]
    · exact Table.entry_congr (Table.slot_of_ne rfl hi) rfl rfl rfl
  case h_10 =>
    cases h
    exact .quiet (s.same_world rfl rfl) (fun _ => trivial) (by rintro _ _ _ ⟨⟩)
  case h_11 => cases h

/-- The entry of the slot that is taken, and of one that has been. -/
theorem WorkerMove.entries (h : WorkerMove s pc s' pc') :
    ∃ i, (∀ j, j ≠ i → s'.entry j = s.entry j) ∧ (s'.entry i = s.entry i ∨
      (s.entry i).type = .kSocketNoneType ∧ (∃ r id, pc' = .storeId r i id ∧
        s'.entry i = { s.entry i with
          type := .kReserveType, taken := some id, holders := id :: (s.entry i).holders }) ∨
      ∃ r id, pc = .storeId r i id ∧ s'.entry i = { s.entry i with id := id, taken := none }) := by
  cases h with
  | quiet hsame ht hpc => exact ⟨0, fun j _ => hsame.entries j, Or.inl (hsame.entries 0)⟩
  | take r rounds id hfree =>
      refine ⟨getIndex s.world id, fun j hj => ?_, Or.inr (Or.inl ⟨hfree, r, id, rfl, ?_⟩)⟩
      · exact Table.entry_congr (Table.slot_of_ne rfl hj) rfl (Function.update_of_ne hj ..)
          (Function.update_of_ne hj ..)
      · unfold Table.entry
        simp only [Table.slot, World.modify_self, Function.update_self]
  | store r i id =>
      refine ⟨i, fun j hj => ?_, Or.inr (Or.inr ⟨r, id, rfl, ?_⟩)⟩
      · exact Table.entry_congr (Table.slot_of_ne rfl hj) rfl (Function.update_of_ne hj ..) rfl
      · unfold Table.entry
        simp only [Table.slot, World.modify_self, Function.update_self]

theorem WorkerMove.index (h : WorkerMove s pc s' pc') : getIndex s'.world = getIndex s.world := by
  cases h with
  | quiet hsame ht hpc => exact hsame.index
  | take r rounds id hfree => exact getIndex_congr rfl
  | store r i id => exact getIndex_congr rfl

theorem WorkerMove.told (h : WorkerMove s pc s' pc') : s'.told = s.told := by
  cases h with
  | quiet hsame ht hpc => exact hsame.told
  | take r rounds id hfree => rfl
  | store r i id => rfl

theorem WorkerMove.ok (hs : s.Ok) (ht : s.AtWorker pc) (h : WorkerMove s pc s' pc') : s'.Ok := by
  obtain ⟨i, hothers, hi⟩ := h.entries
  refine hs.of_entry i hothers ?_ h.told h.index
  have hok := hs.entries i
  rcases hi with hsame | ⟨hfree, r, id, hpc, htaken⟩ | ⟨r, id, hpc, hstored⟩
  · rw [hsame]
    exact hok
  · -- the slot was free: nobody holds it yet
    have hidle : (s.entry i).state = .kSocketDisconnected := by
      by_contra hne
      exact (hok.busy hne).1 hfree
    rw [htaken]
    refine ⟨hok.natural, fun hused => absurd rfl hused.2, fun hne => absurd hidle hne, ?_,
      by rintro ⟨⟩, by rintro ⟨⟩⟩
    rintro _ ⟨⟩
    exact ⟨rfl, by rw [hok.free hfree]⟩
  · -- the id of the worker is the one the slot is handed out to
    subst hpc
    obtain ⟨hnat, -, htaken⟩ := ht
    obtain ⟨htype, hholders⟩ := hok.taken id htaken
    have hidle : (s.entry i).state = .kSocketDisconnected := by
      by_contra hne
      exact (hok.busy hne).2 htype
    rw [hstored]
    exact ⟨hnat, fun hused => absurd htype hused.2, fun hne => absurd hidle hne, by rintro _ ⟨⟩,
      fun hnone => absurd (htype.symm.trans hnone) (by decide), fun _ => Or.inr hholders⟩

theorem WorkerMove.at (ht : s.AtWorker pc) (h : WorkerMove s pc s' pc') : s'.AtWorker pc' := by
  cases h with
  | quiet hsame hat hpc => exact hat ht
  | take r rounds id hfree => exact ⟨ht, rfl, Function.update_self ..⟩
  | store r i id => trivial

/-- Another worker keeps what it has taken. -/
theorem WorkerMove.worker {q : WorkerPc} (hs : s.Ok) (hq : s.AtWorker q)
    (hapart : Pc.Apart (.worker pc) (.worker q)) (h : WorkerMove s pc s' pc') :
    s'.AtWorker q ∧ Pc.Apart (.worker pc') (.worker q) := by
  cases q with
  | test r rounds id => exact ⟨hq, by cases pc' <;> trivial⟩
  | cas r rounds id => exact ⟨hq, by cases pc' <;> trivial⟩
  | storeId r j id =>
      obtain ⟨hnat, hindex, htaken⟩ := hq
      have htype : (s.slot j).type = .kReserveType := ((hs.entries j).taken id htaken).1
      cases h with
      | quiet hsame hat hpc =>
          have htaken' : s'.taken j = s.taken j := congrArg Entry.taken (hsame.entries j)
          refine ⟨⟨hnat, by rw [hsame.index]; exact hindex, htaken'.trans htaken⟩, ?_⟩
          cases pc' with
          | storeId r' i id' => exact absurd rfl (hpc r' i id')
          | _ => trivial
      | take r' rounds id' hfree =>
          -- a free slot is not one that has been taken
          have hne : getIndex s.world id' ≠ j := by
            rintro rfl
            rw [htype] at hfree
            cases hfree
          exact ⟨⟨hnat, hindex, (Function.update_of_ne hne.symm ..).trans htaken⟩, hne⟩
      | store r' i id' =>
          have hne : j ≠ i := fun heq => hapart heq.symm
          exact ⟨⟨hnat, hindex, (Function.update_of_ne hne ..).trans htaken⟩, trivial⟩
  | _ => exact ⟨trivial, by cases pc' <;> trivial⟩

/-- A tell whose notice is made of the id in the slot. -/
def Tell.readsId : Tell → Bool
  | .startFail _ _ _ => false
  | _ => true

/-- The event loop is about to tell the owner of slot `j`, with the id in the slot. -/
def LoopPc.announces (j : Nat) : LoopPc → Bool
  | .notify e tells => e.slot == j && tells.any Tell.readsId
  | _ => false

theorem Tell.Right.of_not_reads {e : Ending} {fromId id id' : Int} {t : Tell}
    (ht : t.readsId = false) (h : t.Right e fromId id) : t.Right e fromId id' := by
  cases t with
  | startFail dest id err => exact h
  | _ => cases ht

/-- What a worker may do to a slot that the event loop looks at. -/
structure Table.Yields (s s' : Table) : Prop where
  index : getIndex s'.world = getIndex s.world
  state : ∀ j, (s'.entry j).state = (s.entry j).state
  fromId : ∀ j, (s'.entry j).fromId = (s.entry j).fromId
  inUse : ∀ j, (s'.entry j).InUse ↔ (s.entry j).InUse
  id : ∀ j, (s'.entry j).id = (s.entry j).id ∨
    ¬ (s.entry j).InUse ∧ getIndex s.world (s'.entry j).id = j

theorem WorkerMove.yields (hs : s.Ok) (ht : s.AtWorker pc) (h : WorkerMove s pc s' pc') :
    s.Yields s' := by
  obtain ⟨i, hothers, hi⟩ := h.entries
  have hentry : ∀ j, s'.entry j = s.entry j ∨ j = i := fun j => by
    by_cases hj : j = i
    · exact Or.inr hj
    · exact Or.inl (hothers j hj)
  rcases hi with hsame | ⟨hfree, r, id, hpc, htaken⟩ | ⟨r, id, hpc, hstored⟩
  · have hall : ∀ j, s'.entry j = s.entry j := fun j => by
      rcases hentry j with hj | rfl
      · exact hj
      · exact hsame
    exact ⟨h.index, fun j => by rw [hall], fun j => by rw [hall], fun j => by rw [hall],
      fun j => Or.inl (by rw [hall])⟩
  · refine ⟨h.index, fun j => ?_, fun j => ?_, fun j => ?_, fun j => Or.inl ?_⟩ <;>
      rcases hentry j with hj | rfl
    · rw [hj]
    · rw [htaken]
    · rw [hj]
    · rw [htaken]
    · rw [hj]
    · rw [htaken]
      exact iff_of_false (fun hused => hused.2 rfl) (fun hused => hused.1 hfree)
    · rw [hj]
    · rw [htaken]
  · subst hpc
    obtain ⟨-, hindex, htaken⟩ := ht
    have htype : (s.entry i).type = .kReserveType := ((hs.entries i).taken id htaken).1
    refine ⟨h.index, fun j => ?_, fun j => ?_, fun j => ?_, fun j => ?_⟩ <;>
      rcases hentry j with hj | rfl
    · rw [hj]
    · rw [hstored]
    · rw [hj]
    · rw [hstored]
    · rw [hj]
    · rw [hstored]
      exact Iff.rfl
    · exact Or.inl (by rw [hj])
    · rw [hstored]
      exact Or.inr ⟨fun hused => hused.2 htype, hindex⟩

/-- The id of a slot that the event loop is about to tell of stays. -/
theorem WorkerMove.id_eq (h : WorkerMove s pc s' pc') {j : Nat}
    (hpc : ∀ r id, pc ≠ .storeId r j id) : (s'.entry j).id = (s.entry j).id := by
  obtain ⟨i, hothers, hi⟩ := h.entries
  by_cases hj : j = i
  · subst hj
    rcases hi with hsame | ⟨-, r, id, -, htaken⟩ | ⟨r, id, heq, -⟩
    · rw [hsame]
    · rw [htaken]
    · exact absurd heq (hpc r id)
  · rw [hothers j hj]

theorem Table.Yields.settled (h : s.Yields s') {j : Nat} (hj : s.Settled j) : s'.Settled j := by
  intro hused
  rw [h.state]
  exact hj ((h.inUse j).mp hused)

theorem Table.Yields.ready (h : s.Yields s') {e : Ending} {tells : List Tell}
    (hused : tells ≠ [] → (s.entry e.slot).InUse) (hready : s.Ready e tells) :
    s'.Ready e tells := by
  intro t ht
  have hid : (s'.entry e.slot).id = (s.entry e.slot).id := by
    rcases h.id e.slot with hid | ⟨hne, -⟩
    · exact hid
    · exact absurd (hused (List.ne_nil_of_mem ht)) hne
  rw [h.fromId, hid]
  exact hready t ht

/-- What the event loop knows of the slots is not disturbed, unless the worker
    gives an id to a slot that is about to be told of. -/
theorem WorkerMove.loop {q : LoopPc} (hs : s.Ok) (ht : s.AtWorker pc) (hq : s.AtLoop q)
    (hquiet : ∀ r j id, pc = .storeId r j id → q.announces j = false)
    (h : WorkerMove s pc s' pc') : s'.AtLoop q := by
  have hy := h.yields hs ht
  have hclosing : ∀ {e : Ending}, s.Closing e → s'.Closing e := fun {e} hc => by
    refine ⟨fun j => hy.settled (hc.settled j), ?_, ?_⟩
    · rw [hy.state]
      exact hc.busy
    · exact hy.ready (fun _ => (hs.entries e.slot).busy hc.busy) hc.ready
  have hfreeing : ∀ {e : Ending} {id : Int}, s.Freeing e id → s'.Freeing e id := fun {e id} hf => by
    refine ⟨fun j hj => hy.settled (hf.settled j hj), hf.natural, ?_, fun t ht => ?_⟩
    · rw [hy.index]
      exact hf.index
    · rw [hy.fromId]
      exact hf.ready t ht
  cases q with
  | idle => exact fun j => hy.settled (hq j)
  | sending fromId ids => exact fun j => hy.settled (hq j)
  | deleteReadable e => exact hclosing hq
  | deleteWritable e => exact hclosing hq
  | closeFd e => exact hclosing hq
  | stopFd e => exact hclosing hq
  | disconnect e => exact hclosing hq
  | readId e =>
      refine ⟨fun j hj => hy.settled (hq.settled j hj), ?_, ?_, hy.ready hq.used hq.ready⟩
      · rw [hy.index]
        rcases hy.id e.slot with hid | ⟨-, hid⟩
        · rw [hid]
          exact hq.index
        · exact hid
      · exact fun hne => (hy.inUse e.slot).mpr (hq.used hne)
  | recover e id => exact hfreeing hq
  | release e id => exact ⟨hfreeing hq.1, (hy.state e.slot).trans hq.2⟩
  | notify e tells =>
      obtain ⟨hsettled, hready⟩ := hq
      refine ⟨fun j => hy.settled (hsettled j), fun t htell => ?_⟩
      rw [hy.fromId]
      cases hreads : t.readsId with
      | false => exact (hready t htell).of_not_reads hreads
      | true =>
          have hannounces : LoopPc.announces e.slot (.notify e tells) = true := by
            simp only [LoopPc.announces, beq_self_eq_true, Bool.true_and, List.any_eq_true]
            exact ⟨t, htell, hreads⟩
          rw [h.id_eq fun r id heq => by
            have hfalse := hquiet r e.slot id heq
            rw [hannounces] at hfalse
            cases hfalse]
          exact hready t htell

end Workers

end ZServer.Tcp
