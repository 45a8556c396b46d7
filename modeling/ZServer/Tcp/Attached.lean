/-
  ZServer.Tcp.Attached

  A running connection and its descriptor: open, watched by epoll, with the
  callbacks of the connection registered.  What the primitives do to it.
-/

import ZServer.Tcp.Moves

namespace ZServer.Tcp

open Lib

structure Attached (w : World) (i : Nat) (fd : Int) : Prop where
  state : (w.sockets i).state = .kSocketConnected
  fd_eq : (w.sockets i).fd = fd
  range : fd < w.aeSetsize
  isOpen : w.isOpen fd = true
  epoll : w.epoll fd = true
  readable : (w.events fd).readable = true
  reads : (w.events fd).rfileProc = .onRead
  client : (w.events fd).clientData = i
  writes : (w.events fd).writable = true → (w.events fd).wfileProc = .onWrite

section

variable {w w' : World} {i : Nat} {fd : Int}

theorem Attached.some (h : Attached w i fd) : (w.events fd).isNone = false := by
  unfold AeFileEvent.isNone
  rw [h.readable]
  rfl

theorem Attached.with_log (h : Attached w i fd) (log : List Effect) :
    Attached { w with log := log } i fd :=
  ⟨h.state, h.fd_eq, h.range, h.isOpen, h.epoll, h.readable, h.reads, h.client, h.writes⟩

/-- The slot changes otherwise. -/
theorem Attached.modify (h : Attached w i fd) (f : Socket → Socket)
    (hstate : ∀ s, (f s).state = s.state) (hfd : ∀ s, (f s).fd = s.fd) :
    Attached (w.modify i f) i fd := by
  refine { h with state := ?_, fd_eq := ?_ }
  · rw [World.modify_self, hstate]
    exact h.state
  · rw [World.modify_self, hfd]
    exact h.fd_eq

/-- An event is registered beside the one that reads, if the kernel agrees. -/
theorem Attached.register (h : Attached w i fd) (registered : Bool) :
    aeCreateFileEvent w fd .writable .onWrite i registered =
      if registered then (w.registered fd .writable .onWrite i, true) else (w, false) := by
  unfold aeCreateFileEvent aeApiAddEvent
  rw [if_neg (not_le.mpr h.range), h.isOpen, h.epoll, h.some]
  cases registered <;> rfl

theorem Attached.registered (h : Attached w i fd) :
    Attached (w.registered fd .writable .onWrite i) i fd ∧
      ((w.registered fd .writable .onWrite i).events fd).writable = true := by
  have hevent : (w.registered fd .writable .onWrite i).events fd =
      (w.events fd).add .writable .onWrite i := Function.update_self ..
  refine ⟨?_, by rw [hevent]; rfl⟩
  refine ⟨h.state, h.fd_eq, h.range, h.isOpen, Function.update_self .., ?_, ?_, ?_, fun _ => ?_⟩
  · rw [hevent]
    exact h.readable
  · rw [hevent]
    exact h.reads
  · rw [hevent]
    rfl
  · rw [hevent]
    rfl

/-- The descriptor goes on being read. -/
theorem Attached.unregister_eq (h : Attached w i fd) :
    aeDeleteFileEvent w fd .writable = { w with
      events := Function.update w.events fd ((w.events fd).remove .writable) } := by
  have hsome : ((w.events fd).remove .writable).isNone = false := by
    unfold AeFileEvent.isNone AeFileEvent.remove
    rw [h.readable]
    rfl
  unfold aeDeleteFileEvent
  rw [if_neg (not_le.mpr h.range), h.some]
  simp only [Bool.false_eq_true, if_false, hsome]

theorem Attached.unregister (h : Attached w i fd) :
    Attached (aeDeleteFileEvent w fd .writable) i fd ∧
      ((aeDeleteFileEvent w fd .writable).events fd).writable = false := by
  have heq := h.unregister_eq
  have hevent : (aeDeleteFileEvent w fd .writable).events fd = (w.events fd).remove .writable := by
    rw [heq]
    exact Function.update_self ..
  refine ⟨?_, by rw [hevent]; rfl⟩
  constructor
  · rw [heq]
    exact h.state
  · rw [heq]
    exact h.fd_eq
  · rw [heq]
    exact h.range
  · rw [heq]
    exact h.isOpen
  · rw [heq]
    exact h.epoll
  · rw [hevent]
    exact h.readable
  · rw [hevent]
    exact h.reads
  · rw [hevent]
    exact h.client
  · rw [hevent]
    rintro ⟨⟩

/-- A connection is started on a descriptor that nothing is written to. -/
theorem startByType_attached {registered : Bool}
    (hstart : startByType w i registered = some (w', true))
    (htype : (w.sockets i).type ≠ .kAcceptType)
    (hwritable : (w.events (w.sockets i).fd).writable = false) :
    Attached w' i (w.sockets i).fd ∧ (w'.events (w.sockets i).fd).writable = false ∧
      w'.sockets i = { w.sockets i with state := .kSocketConnected } ∧ w'.setsize = w.setsize := by
  rcases startByType_cases hstart with ⟨haccept, -⟩ | ⟨w₁, hcreate, heq⟩ | ⟨hfalse, -⟩
  · exact absurd haccept htype
  · obtain ⟨hrange, hopen, -, rfl⟩ := aeCreateFileEvent_eq hcreate
    rw [heq]
    let v := w.modify i fun s => { s with state := .kSocketConnected }
    have hself : v.sockets i = { w.sockets i with state := .kSocketConnected } :=
      World.modify_self ..
    have hevent : (v.registered (w.sockets i).fd .readable .onRead i).events (w.sockets i).fd =
        (w.events (w.sockets i).fd).add .readable .onRead i := Function.update_self ..
    have hnone : ((v.registered (w.sockets i).fd .readable .onRead i).events
        (w.sockets i).fd).writable = false := by
      rw [hevent]
      exact hwritable
    refine ⟨⟨?_, ?_, hrange, hopen, Function.update_self .., ?_, ?_, ?_, fun hw => ?_⟩, hnone, hself,
      rfl⟩
    · show (v.sockets i).state = _
      rw [hself]
    · show (v.sockets i).fd = _
      rw [hself]
    · show ((v.registered _ _ _ _).events _).readable = true
      rw [hevent]
      rfl
    · show ((v.registered _ _ _ _).events _).rfileProc = _
      rw [hevent]
      rfl
    · show ((v.registered _ _ _ _).events _).clientData = _
      rw [hevent]
      rfl
    · have hw' : ((v.registered (w.sockets i).fd .readable .onRead i).events
          (w.sockets i).fd).writable = true := hw
      rw [hnone] at hw'
      cases hw'
  · cases hfalse

end

end ZServer.Tcp
