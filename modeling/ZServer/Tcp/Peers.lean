/-
  ZServer.Tcp.Peers

  Two processes and the connection between them.  On either side a slot runs it
  (`ZServer.Tcp.Link`): services send packets of `net_pack`, the kernel takes what it
  likes of them, and the other side reads whatever has arrived by then, in chunks of any
  size.

  `peers_in_order`: at every moment, also after an error or a close, what `net_unpack`
  has given on one side are the first of the messages sent on the other, in order, as
  long as none of them has a name that is too long for the C stack.
-/

import ZServer.Lib.Transition
import ZServer.Net.RoundTrip
import ZServer.Tcp.Outgoing
import ZServer.Tcp.Link

namespace ZServer.Tcp

open Lib

-- ============================================================================
-- Two sides
-- ============================================================================

/-- One side of a connection, and its history. -/
structure Peer where
  world : World
  slot : Nat
  /-- the slot and the length of the log at the start -/
  socket : Socket
  started : Nat
  /-- the messages that services have sent -/
  messages : List NetMessage
  /-- how many bytes have been read -/
  consumed : Nat

/-- What has been seen of the connection. -/
def Peer.outs (p : Peer) : List LinkOut :=
  (p.world.log.drop p.started).filterMap (observed p.socket)

/-- The bytes that the kernel has taken. -/
def sentBytes (outs : List LinkOut) : List UInt8 :=
  outs.flatMap fun out =>
    match out with
    | .sent data => data
    | _ => []

/-- The frames that services have been given. -/
def frames (outs : List LinkOut) : List (List UInt8) :=
  outs.filterMap fun out =>
    match out with
    | .frame body => some body
    | _ => none

def Peer.wire (p : Peer) : List UInt8 := sentBytes p.outs

/-- On worker threads with that much stack for a name. -/
def Peer.received (stack : Nat) (p : Peer) : List (Option (Int × List UInt8 × List UInt8)) :=
  (frames p.outs).map (netUnpack stack)

/-- No name that was sent is longer than the stack allows. -/
def Peer.NamesFit (stack : Nat) (p : Peer) : Prop := ∀ m ∈ p.messages, m.name.length + 1 ≤ stack

/-- The world goes on; `msgs` have been sent and `n` bytes read. -/
def Peer.advance (p : Peer) (w : World) (msgs : List NetMessage) (n : Nat) : Peer :=
  { p with world := w, messages := p.messages ++ msgs, consumed := p.consumed + n }

/-- A service sends a message; the descriptor is writable; `n` bytes that have arrived are
    read, or fewer; the end of the stream or an error is read. -/
inductive PeerOp where
  | send (m : NetMessage) (a : WriteAnswer)
  | writable (sends : List WriteResult)
  | read (n : Nat)
  | hangup
  | error (errno : Nat)

def peerStep (other p : Peer) : PeerOp → Option Peer
  | .send m a =>
      match m.pack with
      | .error _ => none
      | .ok data => (linkStep p.slot p.world (.write data a)).map (p.advance · [m] 0)
  | .writable sends => (linkStep p.slot p.world (.writable sends)).map (p.advance · [] 0)
  | .read n =>
      let chunk := (other.wire.drop p.consumed).take n
      if chunk = [] then none
      else (linkStep p.slot p.world (.read (.ok chunk))).map (p.advance · [] chunk.length)
  | .hangup => (linkStep p.slot p.world (.read (.ok []))).map (p.advance · [] 0)
  | .error errno => (linkStep p.slot p.world (.read (.error errno))).map (p.advance · [] 0)

structure Peers where
  here : Peer
  there : Peer

def peersStep (ps : Peers) (op : Bool × PeerOp) : Option Peers :=
  if op.1 then (peerStep ps.there ps.here op.2).map fun p => { ps with here := p }
  else (peerStep ps.here ps.there op.2).map fun p => { ps with there := p }

/-- All that `p` has sent has been taken by the kernel and read by `q`, and the
    connection is up on both sides. -/
def NothingUnderWay (p q : Peer) : Prop :=
  (p.world.sockets p.slot).state = .kSocketConnected ∧
    (q.world.sockets q.slot).state = .kSocketConnected ∧
    bufferBytes (p.world.sockets p.slot).sendBuffer = [] ∧ q.consumed = p.wire.length

/-- What `q` has received is the first part of what `p` has sent, and all of it once the
    connection has settled. -/
structure InOrder (stack : Nat) (p q : Peer) : Prop where
  first : q.received stack <+: p.messages.map fun m => some m.content
  all : NothingUnderWay p q → q.received stack = p.messages.map fun m => some m.content

/-- A connection that has just been started, with nothing in its buffers. -/
structure Peer.Fresh (p : Peer) : Prop where
  running : Running p.world p.slot p.socket (Link.start HEAD_PROTO_TYPE)
  started : p.started = p.world.log.length
  messages : p.messages = []
  consumed : p.consumed = 0

-- ============================================================================
-- One side
-- ============================================================================

/-- The bytes of the packets. -/
def stream (msgs : List NetMessage) : List UInt8 :=
  (msgs.map fun m => leBytes 4 m.frame.length ++ m.frame).flatten

@[simp] theorem sentBytes_append (outs outs' : List LinkOut) :
    sentBytes (outs ++ outs') = sentBytes outs ++ sentBytes outs' := List.flatMap_append

@[simp] theorem frames_append (outs outs' : List LinkOut) :
    frames (outs ++ outs') = frames outs ++ frames outs' := List.filterMap_append

@[simp] theorem sentBytes_nil : sentBytes [] = [] := rfl

@[simp] theorem frames_nil : frames [] = [] := rfl

@[simp] theorem sentBytes_frames (bodies : List (List UInt8)) :
    sentBytes (bodies.map .frame) = [] := by
  induction bodies with
  | nil => rfl
  | cons body bodies ih => exact ih

@[simp] theorem frames_frames (bodies : List (List UInt8)) : frames (bodies.map .frame) = bodies := by
  induction bodies with
  | nil => rfl
  | cons body bodies ih => exact congrArg (body :: ·) ih

@[simp] theorem stream_append (msgs msgs' : List NetMessage) :
    stream (msgs ++ msgs') = stream msgs ++ stream msgs' := by
  simp [stream]

/-- What goes out on one side: what was sent is on the wire or waits, and once the
    connection is down at least nothing else is on the wire. -/
structure GoesOut (l : Link) (outs : List LinkOut) (data : List UInt8) : Prop where
  up : l.isOpen = true → sentBytes outs ++ l.sendBuffer = data
  down : l.isOpen = false → sentBytes outs <+: data

/-- What comes in on one side: the frames of what was read, and once the connection is
    down those of a part of it. -/
structure ComesIn (l : Link) (outs : List LinkOut) (data : List UInt8) : Prop where
  up : l.isOpen = true →
    headMessageCallback data = ⟨frames outs, l.readBuffer, false⟩
  down : l.isOpen = false →
    ∃ part, part <+: data ∧ frames outs = (headMessageCallback part).frames

section Links

variable {l l' : Link} {outs new : List LinkOut} {data : List UInt8}

theorem GoesOut.prefix (h : GoesOut l outs data) : sentBytes outs <+: data := by
  cases hopen : l.isOpen with
  | true => exact ⟨l.sendBuffer, h.up hopen⟩
  | false => exact h.down hopen

theorem ComesIn.prefix (h : ComesIn l outs data) :
    ∃ part, part <+: data ∧ frames outs = (headMessageCallback part).frames := by
  cases hopen : l.isOpen with
  | true => exact ⟨data, List.prefix_refl _, by simp [h.up hopen]⟩
  | false => exact h.down hopen

/-- Nothing is written. -/
theorem GoesOut.silent (h : GoesOut l outs data) (hnew : sentBytes new = [])
    (hopen : l'.isOpen = true → l.isOpen = true ∧ l'.sendBuffer = l.sendBuffer) :
    GoesOut l' (outs ++ new) data := by
  constructor
  · intro hup
    obtain ⟨hup', hbuf⟩ := hopen hup
    simp [hnew, hbuf, h.up hup']
  · intro _
    simp [hnew, h.prefix]

/-- Nothing is read. -/
theorem ComesIn.silent (h : ComesIn l outs data) (hnew : frames new = [])
    (hopen : l'.isOpen = true → l.isOpen = true ∧ l'.readBuffer = l.readBuffer) :
    ComesIn l' (outs ++ new) data := by
  constructor
  · intro hup
    obtain ⟨hup', hbuf⟩ := hopen hup
    simp [hnew, hbuf, h.up hup']
  · intro _
    simpa [hnew] using h.prefix

/-- More is queued on a connection that is down. -/
theorem GoesOut.late (h : GoesOut l outs data) (hdown : l.isOpen = false) (more : List UInt8) :
    GoesOut l outs (data ++ more) := by
  constructor
  · intro hup
    simp [hdown] at hup
  · intro _
    exact (h.down hdown).trans (List.prefix_append data more)

-- ============================================================================
-- Calls of `socketWrite`
-- ============================================================================

@[simp] theorem Link.append_isOpen (l : Link) (remaining : List UInt8) (registered : Bool) :
    (l.append remaining registered).isOpen = l.isOpen := by
  unfold Link.append
  split <;> rfl

@[simp] theorem Link.append_readBuffer (l : Link) (remaining : List UInt8) (registered : Bool) :
    (l.append remaining registered).readBuffer = l.readBuffer := by
  unfold Link.append
  split <;> rfl

@[simp] theorem Link.append_sendBuffer (l : Link) (remaining : List UInt8) (registered : Bool) :
    (l.append remaining registered).sendBuffer = l.sendBuffer ++ remaining := by
  unfold Link.append
  split <;> simp_all

@[simp] theorem Link.append_protoType (l : Link) (remaining : List UInt8) (registered : Bool) :
    (l.append remaining registered).protoType = l.protoType := by
  unfold Link.append
  split <;> rfl

theorem GoesOut.write (h : GoesOut l outs data) (more : List UInt8) (a : WriteAnswer) :
    GoesOut (l.send more a).1 (outs ++ (l.send more a).2) (data ++ more) := by
  unfold Link.send
  by_cases hopen : l.isOpen = false
  · simpa [hopen] using h.late hopen more
  · have hup := h.up (by simpa using hopen)
    rw [if_neg hopen]
    by_cases hbuf : l.sendBuffer = []
    · have hall := writtenBytes_append more a.result
      rw [hbuf, List.append_nil] at hup
      rw [if_neg (not_not.mpr hbuf)]
      rcases hrem : writeRemaining more a.result with ⟨remaining, _ | errno⟩
      · rw [hrem] at hall
        constructor
        · intro _
          have hgone : sentBytes [.sent (writtenBytes more a.result)] =
              writtenBytes more a.result := by simp [sentBytes]
          simp only [sentBytes_append, hgone, Link.append_sendBuffer, hbuf, hup, List.nil_append,
            List.append_assoc]
          rw [hall]
        · intro hdown
          simp [hopen] at hdown
      · constructor
        · intro hl
          simp [Link.shut] at hl
        · intro _
          refine ⟨remaining, ?_⟩
          rw [hrem] at hall
          have hgone : sentBytes [.sent (writtenBytes more a.result), .closed] =
              writtenBytes more a.result := by simp [sentBytes]
          simp only [sentBytes_append, hgone, hup, List.append_assoc]
          rw [hall]
    · rw [if_pos hbuf]
      constructor
      · intro _
        simp [← hup]
      · intro hdown
        simp [hopen] at hdown

theorem ComesIn.write (h : ComesIn l outs data) (more : List UInt8) (a : WriteAnswer) :
    ComesIn (l.send more a).1 (outs ++ (l.send more a).2) data := by
  unfold Link.send
  split
  · simpa using h
  · split
    · exact h.silent rfl fun hup => by simpa using hup
    · rcases writeRemaining more a.result with ⟨remaining, _ | errno⟩
      · exact h.silent rfl fun hup => by simpa using hup
      · exact h.silent rfl fun hup => by simp [Link.shut] at hup

-- ============================================================================
-- Write events
-- ============================================================================

/-- The loop of `onWrite` moves bytes from the buffer to the wire. -/
theorem GoesOut.drain (h : GoesOut l outs data) (hopen : l.isOpen = true)
    {sends : List WriteResult} (hdrain : l.drain sends = some (l', new)) :
    GoesOut l' (outs ++ new) data := by
  induction sends generalizing l outs new with
  | nil => simp [Link.drain] at hdrain
  | cons result sends ih =>
      cases result with
      | error errno =>
          simp only [Link.drain] at hdrain
          split at hdrain
          · cases hdrain
            simpa using h
          · cases hdrain
            exact h.silent rfl fun hup => by simp [Link.shut] at hup
      | ok n =>
          have hmove : GoesOut { l with sendBuffer := l.sendBuffer.drop n }
              (outs ++ [.sent (l.sendBuffer.take n)]) data := by
            constructor
            · intro _
              simp [sentBytes, ← h.up hopen]
            · intro hdown
              simp [hopen] at hdown
          simp only [Link.drain] at hdrain
          split at hdrain
          · cases hdrain
            simpa using h
          · split at hdrain
            · cases hdrain
              exact ⟨hmove.up, hmove.down⟩
            · obtain ⟨⟨l₁, new₁⟩, hrest, heq⟩ := Option.map_eq_some_iff.mp hdrain
              cases heq
              simpa using ih hmove hopen hrest

theorem ComesIn.drain (h : ComesIn l outs data) {sends : List WriteResult}
    (hdrain : l.drain sends = some (l', new)) : ComesIn l' (outs ++ new) data := by
  induction sends generalizing l outs new with
  | nil => simp [Link.drain] at hdrain
  | cons result sends ih =>
      cases result with
      | error errno =>
          simp only [Link.drain] at hdrain
          split at hdrain
          · cases hdrain
            simpa using h
          · cases hdrain
            exact h.silent rfl fun hup => by simp [Link.shut] at hup
      | ok n =>
          simp only [Link.drain] at hdrain
          have hsent : ComesIn { l with sendBuffer := l.sendBuffer.drop n }
              (outs ++ [.sent (l.sendBuffer.take n)]) data := h.silent rfl fun hup => ⟨hup, rfl⟩
          split at hdrain
          · cases hdrain
            simpa using h
          · split at hdrain
            · cases hdrain
              exact ⟨hsent.up, hsent.down⟩
            · obtain ⟨⟨l₁, new₁⟩, hrest, heq⟩ := Option.map_eq_some_iff.mp hdrain
              cases heq
              simpa using ih hsent hrest

-- ============================================================================
-- Read events
-- ============================================================================

/-- The frames are delivered; then the connection goes on with the rest, or ends. -/
theorem Link.receive_head (hproto : l.protoType = HEAD_PROTO_TYPE) {chunk : List UInt8}
    (hreceive : l.receive chunk = some (l', new)) :
    ∃ r, headMessageCallback (l.readBuffer ++ chunk) = r ∧ l'.protoType = l.protoType ∧
      (r.illegal = true ∧ l'.isOpen = false ∧ new = r.frames.map .frame ++ [.closed] ∨
        r.illegal = false ∧ l' = { l with readBuffer := r.rest } ∧ new = r.frames.map .frame) := by
  unfold Link.receive at hreceive
  rw [if_pos hproto] at hreceive
  refine ⟨_, rfl, ?_⟩
  cases hill : (headMessageCallback (l.readBuffer ++ chunk)).illegal with
  | true =>
      simp only [hill, if_true, Option.some.injEq, Prod.mk.injEq] at hreceive
      obtain ⟨rfl, rfl⟩ := hreceive
      exact ⟨rfl, Or.inl ⟨rfl, rfl, rfl⟩⟩
  | false =>
      simp only [hill, Bool.false_eq_true, if_false, Option.some.injEq, Prod.mk.injEq] at hreceive
      obtain ⟨rfl, rfl⟩ := hreceive
      exact ⟨rfl, Or.inr ⟨rfl, rfl, rfl⟩⟩

theorem GoesOut.receive (h : GoesOut l outs data) (hproto : l.protoType = HEAD_PROTO_TYPE)
    {chunk : List UInt8} (hreceive : l.receive chunk = some (l', new)) :
    GoesOut l' (outs ++ new) data := by
  obtain ⟨r, -, -, ⟨-, hdown, rfl⟩ | ⟨-, rfl, rfl⟩⟩ := Link.receive_head hproto hreceive
  · apply h.silent
    · rw [sentBytes_append, sentBytes_frames]
      rfl
    · simp [hdown]
  · exact h.silent (sentBytes_frames _) fun hup => ⟨hup, rfl⟩

theorem ComesIn.receive (h : ComesIn l outs data) (hopen : l.isOpen = true)
    (hproto : l.protoType = HEAD_PROTO_TYPE) {chunk : List UInt8}
    (hreceive : l.receive chunk = some (l', new)) : ComesIn l' (outs ++ new) (data ++ chunk) := by
  obtain ⟨r, hr, -, hcase⟩ := Link.receive_head hproto hreceive
  -- the loop goes on where it stopped
  have hwhole : headMessageCallback (data ++ chunk) = r.after (frames outs) := by
    have hbefore := h.up hopen
    rw [headMessageCallback_eq_parse] at hbefore hr ⊢
    rw [Framer.parse_append, hbefore, ← hr]
    rfl
  rcases hcase with ⟨-, hdown, rfl⟩ | ⟨hlegal, rfl, rfl⟩
  · constructor
    · simp [hdown]
    · intro _
      refine ⟨data ++ chunk, List.prefix_refl _, ?_⟩
      rw [hwhole]
      simp [frames, Parsed.after]
  · constructor
    · intro _
      rw [hwhole]
      simp [Parsed.after, hlegal]
    · simp [hopen]

end Links

-- ============================================================================
-- One connection
-- ============================================================================

/-- The link has queued `sent` and has read `got`. -/
structure Carries (l : Link) (outs : List LinkOut) (sent got : List UInt8) : Prop where
  goes : GoesOut l outs sent
  comes : ComesIn l outs got
  protoType : l.protoType = HEAD_PROTO_TYPE

/-- The bytes that a step queues. -/
def LinkOp.queued : LinkOp → List UInt8
  | .write data _ => data
  | .read _ | .writable _ => []

/-- The bytes that a step reads. -/
def LinkOp.taken : LinkOp → List UInt8
  | .read (.ok chunk) => chunk
  | .read (.error _) | .write _ _ | .writable _ => []

section Steps

variable {l l' : Link} {outs new : List LinkOut} {sent got : List UInt8}

theorem Link.drain_protoType {sends : List WriteResult} (h : l.drain sends = some (l', new)) :
    l'.protoType = l.protoType := by
  induction sends generalizing l l' new with
  | nil => simp [Link.drain] at h
  | cons result sends ih =>
      cases result with
      | error errno =>
          simp only [Link.drain] at h
          split at h <;> cases h <;> rfl
      | ok n =>
          simp only [Link.drain] at h
          split at h
          · cases h
            rfl
          · split at h
            · cases h
              rfl
            · obtain ⟨⟨l₁, new₁⟩, hrest, heq⟩ := Option.map_eq_some_iff.mp h
              cases heq
              have hsame := ih hrest
              exact hsame

theorem Link.send_protoType (l : Link) (data : List UInt8) (a : WriteAnswer) :
    (l.send data a).1.protoType = l.protoType := by
  unfold Link.send
  split
  · rfl
  · split
    · simp
    · rcases writeRemaining data a.result with ⟨remaining, _ | errno⟩
      · simp
      · rfl

/-- The connection is shut. -/
theorem Carries.shut (h : Carries l outs sent got) : Carries l.shut (outs ++ [.closed]) sent got :=
  ⟨h.goes.silent rfl fun hup => by simp [Link.shut] at hup,
    h.comes.silent rfl fun hup => by simp [Link.shut] at hup, h.protoType⟩

/-- Whatever a connection does, what was queued goes out in order and what was read
    comes in frame by frame. -/
theorem Carries.step (h : Carries l outs sent got) {op : LinkOp}
    (hstep : l.step op = some (l', new)) :
    Carries l' (outs ++ new) (sent ++ op.queued) (got ++ op.taken) := by
  cases op with
  | write data a =>
      have hsend : l.send data a = (l', new) := by simpa [Link.step] using hstep
      obtain ⟨rfl, rfl⟩ : l' = (l.send data a).1 ∧ new = (l.send data a).2 := by simp [hsend]
      rw [LinkOp.taken, List.append_nil]
      exact ⟨h.goes.write data a, h.comes.write data a, (l.send_protoType data a).trans h.protoType⟩
  | writable sends =>
      simp only [Link.step] at hstep
      split at hstep
      · rename_i hup
        have hopen : l.isOpen = true := by
          simp only [Bool.and_eq_true] at hup
          exact hup.1
        rw [LinkOp.queued, LinkOp.taken, List.append_nil, List.append_nil]
        exact ⟨h.goes.drain hopen hstep, h.comes.drain hstep,
          (Link.drain_protoType hstep).trans h.protoType⟩
      · cases hstep
  | read result =>
      simp only [Link.step] at hstep
      rw [LinkOp.queued, List.append_nil]
      split at hstep
      · rename_i hopen
        split at hstep
        · cases hstep
          simpa [LinkOp.taken] using h.shut
        · cases hstep
          simpa [LinkOp.taken] using h.shut
        · obtain ⟨-, -, hproto, -⟩ := Link.receive_head h.protoType hstep
          exact ⟨h.goes.receive h.protoType hstep, h.comes.receive hopen h.protoType hstep,
            hproto.trans h.protoType⟩
      · cases hstep

/-- The slot that runs the connection does the same. -/
theorem Carries.linkStep {w w' : World} {i : Nat} {s : Socket} {op : LinkOp}
    (hrep : Represents w i s l) (h : Carries l outs sent got)
    (hstep : linkStep i w op = some w') :
    ∃ l' new, Represents w' i s l' ∧ w'.log = w.log ++ new ∧
      Carries l' (outs ++ new.filterMap (observed s)) (sent ++ op.queued) (got ++ op.taken) := by
  have hagrees := hrep.step op
  rw [hstep] at hagrees
  cases hlink : l.step op with
  | none =>
      rw [hlink] at hagrees
      cases hagrees
  | some r =>
      rw [hlink] at hagrees
      cases hagrees with
      | both new hnext hlog => exact ⟨_, new, hnext, hlog, h.step hlink⟩

end Steps

-- ============================================================================
-- Both sides
-- ============================================================================

/-- One side has read `got`. -/
structure Peer.Sound (p : Peer) (got : List UInt8) : Prop where
  link : ∃ l, Represents p.world p.slot p.socket l ∧ Carries l p.outs (stream p.messages) got
  started : p.started ≤ p.world.log.length

section Sides

variable {p q p' : Peer} {got : List UInt8} {op : PeerOp}

/-- What a step of one side is. -/
theorem peerStep_cases (h : peerStep q p op = some p') :
    ∃ step w msgs, linkStep p.slot p.world step = some w ∧
      p' = p.advance w msgs step.taken.length ∧ step.queued = stream msgs ∧
      step.taken <+: q.wire.drop p.consumed := by
  have hnil : ([] : List UInt8) = stream [] := by simp [stream]
  cases op with
  | send m a =>
      simp only [peerStep, m.pack_eq] at h
      obtain ⟨w, hstep, rfl⟩ := Option.map_eq_some_iff.mp h
      refine ⟨_, w, [m], hstep, rfl, ?_, List.nil_prefix⟩
      simp [LinkOp.queued, stream]
  | writable sends =>
      obtain ⟨w, hstep, rfl⟩ := Option.map_eq_some_iff.mp h
      exact ⟨_, w, [], hstep, rfl, hnil, List.nil_prefix⟩
  | read n =>
      simp only [peerStep] at h
      split at h
      · cases h
      · obtain ⟨w, hstep, rfl⟩ := Option.map_eq_some_iff.mp h
        exact ⟨_, w, [], hstep, rfl, hnil, List.take_prefix ..⟩
  | hangup =>
      obtain ⟨w, hstep, rfl⟩ := Option.map_eq_some_iff.mp h
      exact ⟨_, w, [], hstep, rfl, hnil, List.nil_prefix⟩
  | error errno =>
      obtain ⟨w, hstep, rfl⟩ := Option.map_eq_some_iff.mp h
      exact ⟨_, w, [], hstep, rfl, hnil, List.nil_prefix⟩

theorem Peer.Sound.step (h : p.Sound got) {step : LinkOp} {w : World} {msgs : List NetMessage}
    (hstep : linkStep p.slot p.world step = some w) (hmsgs : step.queued = stream msgs) (n : Nat) :
    (p.advance w msgs n).Sound (got ++ step.taken) ∧ p.wire <+: (p.advance w msgs n).wire := by
  obtain ⟨l, hrep, hcarries⟩ := h.link
  obtain ⟨l', new, hrep', hlog, hcarries'⟩ := Carries.linkStep hrep hcarries hstep
  have houts : (p.advance w msgs n).outs = p.outs ++ new.filterMap (observed p.socket) := by
    unfold Peer.outs Peer.advance
    rw [hlog, List.drop_append_of_le_length h.started, List.filterMap_append]
  refine ⟨⟨⟨l', hrep', ?_⟩, ?_⟩, ?_⟩
  · rw [houts, Peer.advance, stream_append, ← hmsgs]
    exact hcarries'
  · have hstarted := h.started
    simp only [Peer.advance, hlog, List.length_append]
    omega
  · simp [Peer.wire, houts]

/-- What `q` has read came from `p`'s side of the wire. -/
structure Reads (q p : Peer) : Prop where
  sound : q.Sound (p.wire.take q.consumed)
  consumed : q.consumed ≤ p.wire.length

/-- A step of the reader. -/
theorem Reads.step (h : Reads p q) (hstep : peerStep q p op = some p') :
    Reads p' q ∧ p.wire <+: p'.wire := by
  obtain ⟨step, w, msgs, hlink, rfl, hmsgs, htaken⟩ := peerStep_cases hstep
  obtain ⟨hsound, hgrows⟩ := h.sound.step hlink hmsgs step.taken.length
  have htake : q.wire.take (p.consumed + step.taken.length) =
      q.wire.take p.consumed ++ step.taken := by
    rw [List.take_add, ← List.prefix_iff_eq_take.mp htaken]
  have hlen := htaken.length_le
  have hconsumed := h.consumed
  rw [List.length_drop] at hlen
  refine ⟨⟨?_, ?_⟩, hgrows⟩
  · rw [← htake] at hsound
    exact hsound
  · simp only [Peer.advance]
    omega

/-- A step of the other side. -/
theorem Reads.grow (h : Reads q p) (hgrows : p.wire <+: p'.wire) : Reads q p' := by
  obtain ⟨more, hmore⟩ := hgrows
  constructor
  · rw [← hmore, List.take_append_of_le_length h.consumed]
    exact h.sound
  · have hconsumed := h.consumed
    simp only [← hmore, List.length_append]
    omega

end Sides

-- ============================================================================
-- Messages
-- ============================================================================

/-- The frames of a part of the stream. -/
theorem frames_of_part {part : List UInt8} {msgs : List NetMessage} (h : part <+: stream msgs) :
    (headMessageCallback part).frames <+: msgs.map NetMessage.frame := by
  obtain ⟨more, hmore⟩ := h
  have hwhole := headMessageCallback_packets msgs
  rw [show (msgs.map fun m => leBytes 4 m.frame.length ++ m.frame).flatten = stream msgs from rfl,
    ← hmore, headMessageCallback_eq_parse, Framer.parse_append] at hwhole
  have hframes := congrArg Parsed.frames hwhole
  rw [headMessageCallback_eq_parse]
  split at hframes
  · exact ⟨[], by simpa using hframes⟩
  · exact ⟨_, hframes⟩

theorem netUnpack_frames {stack : Nat} {p : Peer} (hnames : p.NamesFit stack) :
    (p.messages.map NetMessage.frame).map (netUnpack stack) =
      p.messages.map fun m => some m.content := by
  rw [List.map_map]
  apply List.map_congr_left
  intro m hm
  apply m.netUnpack_frame (hnames m hm)

theorem InOrder.of_reads {stack : Nat} {p q : Peer} {got : List UInt8} (hp : p.Sound got)
    (hq : Reads q p) (hnames : p.NamesFit stack) : InOrder stack p q := by
  obtain ⟨l, hrep, hout⟩ := hp.link
  obtain ⟨m, hrep', hin⟩ := hq.sound.link
  constructor
  · obtain ⟨part, hpart, hframes⟩ := hin.comes.prefix
    have hsent : p.wire <+: stream p.messages := hout.goes.prefix
    rw [Peer.received, hframes, ← netUnpack_frames hnames]
    exact (frames_of_part (hpart.trans ((List.take_prefix ..).trans hsent))).map (netUnpack stack)
  · rintro ⟨hup, hup', hempty, hall⟩
    have hrun : Running p.world p.slot p.socket l :=
      hrep.resolve_right fun hover => hover.state hup
    have hrun' : Running q.world q.slot q.socket m :=
      hrep'.resolve_right fun hover => hover.state hup'
    -- the whole stream has been read
    have hwire : p.wire = stream p.messages := by
      have hgone := hout.goes.up hrun.isOpen
      rwa [← hrun.sendBuffer, hempty, List.append_nil] at hgone
    have hframes := hin.comes.up hrun'.isOpen
    rw [hall, List.take_length, hwire, stream, headMessageCallback_packets] at hframes
    rw [Peer.received, ← netUnpack_frames hnames]
    exact congrArg (List.map (netUnpack stack)) (congrArg Parsed.frames hframes).symm

theorem Peer.Fresh.reads {p q : Peer} (hp : p.Fresh) : Reads p q := by
  have houts : p.outs = [] := by
    simp [Peer.outs, hp.started]
  refine ⟨⟨⟨_, Or.inl hp.running, ?_⟩, hp.started.le⟩, ?_⟩
  · rw [houts, hp.messages, hp.consumed]
    refine ⟨⟨fun _ => rfl, fun _ => List.nil_prefix⟩, ⟨fun _ => ?_, ?_⟩, rfl⟩
    · have hnil := headMessageCallback_packets []
      exact hnil
    · rintro ⟨⟩
  · rw [hp.consumed]
    exact Nat.zero_le _

/-- Between two connections that have just been started, whatever the kernels take at a
    time, however the bytes arrive and whenever one of the sides gives up: as long as the
    stack has room for every name that was sent, the messages received are the first of
    those sent on the other side, in order and whole, and all of them once nothing is on
    its way. -/
theorem peers_in_order (stack : Nat) {ps : Peers} (hhere : ps.here.Fresh) (hthere : ps.there.Fresh)
    (ops : List (Bool × PeerOp)) :
    Always peersStep (fun ps =>
      (ps.here.NamesFit stack → InOrder stack ps.here ps.there) ∧
        (ps.there.NamesFit stack → InOrder stack ps.there ps.here)) ps ops := by
  refine always_of_invariant (J := fun ps => Reads ps.here ps.there ∧ Reads ps.there ps.here)
    ?_ ?_ ⟨hhere.reads, hthere.reads⟩
  · rintro ps ⟨hh, ht⟩
    exact ⟨InOrder.of_reads hh.sound ht, InOrder.of_reads ht.sound hh⟩
  · rintro ps ⟨side, op⟩ ps' ⟨hh, ht⟩ hstep
    unfold peersStep at hstep
    split at hstep
    · obtain ⟨p, hp, rfl⟩ := Option.map_eq_some_iff.mp hstep
      obtain ⟨hreads, hgrows⟩ := hh.step hp
      exact ⟨hreads, ht.grow hgrows⟩
    · obtain ⟨p, hp, rfl⟩ := Option.map_eq_some_iff.mp hstep
      obtain ⟨hreads, hgrows⟩ := ht.step hp
      exact ⟨hh.grow hgrows, hreads⟩

/-- The connection of `waiting` has been started. -/
def startedPeer : Peer where
  world := ((startByType (waiting.modify 1 fun s => { s with protoType := HEAD_PROTO_TYPE }) 1
    true).getD (waiting, false)).1
  slot := 1
  socket := { waiting.sockets 1 with protoType := HEAD_PROTO_TYPE, state := .kSocketConnected }
  started := 2
  messages := []
  consumed := 0

theorem startedPeer_fresh : startedPeer.Fresh := by
  refine ⟨⟨?_, rfl, rfl, by decide, by decide, rfl, rfl, rfl, rfl, rfl, by decide⟩, rfl, rfl, rfl⟩
  exact ⟨rfl, rfl, by decide, rfl, rfl, rfl, rfl, rfl, by decide⟩

/-- Two messages one way, the first of them in three pieces, an answer, and the end. -/
theorem peers_in_order_sample :
    Always peersStep (fun ps =>
      (ps.here.NamesFit 2 → InOrder 2 ps.here ps.there) ∧
        (ps.there.NamesFit 2 → InOrder 2 ps.there ps.here))
      ⟨startedPeer, startedPeer⟩
      [(true, .send ⟨7, [112], [1, 2], by decide, by decide⟩ { result := .ok 6 }),
        (false, .read 5),
        (true, .send ⟨-1, [], [3], by decide, by decide⟩ { result := .ok 0 }),
        (false, .send ⟨8, [113], [], by decide, by decide⟩ { result := .ok 13 }),
        (true, .writable [.ok 4, .ok 100]), (false, .read 20), (true, .read 13), (false, .read 20),
        (true, .hangup)] :=
  peers_in_order 2 startedPeer_fresh startedPeer_fresh _

end ZServer.Tcp
