/-
  ZServer.Event.FileEvents

  The file events of `src/ae.c` and the interest list that `src/ae_epoll.c` keeps in the
  kernel.  The callbacks and their data are any types.

  `aeLoop_agrees_iff`: the kernel watches what is registered, and `maxfd` is the greatest
  descriptor with something registered, exactly as long as no descriptor is closed with
  events still registered on it.
-/

import ZServer.Lib.Transition

namespace ZServer
namespace Ae

open Lib

-- ============================================================================
-- The loop and the kernel
-- ============================================================================

/-- `AE_READABLE` and `AE_WRITABLE`; `EPOLLIN` and `EPOLLOUT` in the kernel. -/
@[ext] structure Mask where
  readable : Bool
  writable : Bool
  deriving DecidableEq, Repr

def AE_NONE : Mask := ⟨false, false⟩

/-- `mask | other` -/
def Mask.merge (mask other : Mask) : Mask :=
  ⟨mask.readable || other.readable, mask.writable || other.writable⟩

/-- `mask & (~delmask)` -/
def Mask.without (mask delmask : Mask) : Mask :=
  ⟨mask.readable && !delmask.readable, mask.writable && !delmask.writable⟩

variable {π δ : Type}

/-- `aeFileEvent` -/
structure FileEvent (π δ : Type) where
  mask : Mask
  rfileProc : Option π
  wfileProc : Option π
  clientData : Option δ

/-- `aeEventLoop`; and of the kernel, which descriptors are open, and the interest list of
    `epfd`. -/
structure AeEventLoop (π δ : Type) where
  setsize : Nat
  maxfd : Int
  events : Nat → FileEvent π δ
  isOpen : Nat → Bool
  interest : Nat → Option Mask

def aeCreateEventLoop (setsize : Nat) (isOpen : Nat → Bool) : AeEventLoop π δ where
  setsize := setsize
  maxfd := -1
  events := fun _ => ⟨AE_NONE, none, none, none⟩
  isOpen := isOpen
  interest := fun _ => none

inductive EpollOp where
  | EPOLL_CTL_ADD
  | EPOLL_CTL_MOD
  | EPOLL_CTL_DEL
  deriving DecidableEq, Repr

variable (L : AeEventLoop π δ)

/-- `none` if it fails: an addition of what is there, or of a closed descriptor, or that the
    kernel does not grant; a change of what is not there. -/
def epollCtl (op : EpollOp) (fd : Nat) (mask : Mask) (granted : Bool) :
    Option (AeEventLoop π δ) :=
  match op with
  | .EPOLL_CTL_ADD =>
      if L.isOpen fd ∧ L.interest fd = none ∧ granted then
        some { L with interest := Function.update L.interest fd (some mask) }
      else none
  | .EPOLL_CTL_MOD =>
      if L.interest fd ≠ none then
        some { L with interest := Function.update L.interest fd (some mask) }
      else none
  | .EPOLL_CTL_DEL =>
      if L.interest fd ≠ none then
        some { L with interest := Function.update L.interest fd none }
      else none

def aeApiAddEvent (fd : Nat) (mask : Mask) (granted : Bool) : Option (AeEventLoop π δ) :=
  let op := if (L.events fd).mask = AE_NONE then EpollOp.EPOLL_CTL_ADD else .EPOLL_CTL_MOD
  epollCtl L op fd (mask.merge (L.events fd).mask) granted

/-- What `epoll_ctl` answers is ignored. -/
def aeApiDelEvent (fd : Nat) (delmask : Mask) : AeEventLoop π δ :=
  let mask := (L.events fd).mask.without delmask
  let op := if mask ≠ AE_NONE then EpollOp.EPOLL_CTL_MOD else .EPOLL_CTL_DEL
  (epollCtl L op fd mask true).getD L

/-- `AE_OK`, or `AE_ERR`. -/
def aeCreateFileEvent (fd : Nat) (mask : Mask) (proc : π) (clientData : δ) (granted : Bool) :
    AeEventLoop π δ × Bool :=
  if L.setsize ≤ fd then (L, false)
  else
    match aeApiAddEvent L fd mask granted with
    | none => (L, false)
    | some L =>
        let fe := L.events fd
        let fe : FileEvent π δ :=
          { mask := fe.mask.merge mask
            rfileProc := if mask.readable then some proc else fe.rfileProc
            wfileProc := if mask.writable then some proc else fe.wfileProc
            clientData := some clientData }
        ({ L with
          events := Function.update L.events fd fe
          maxfd := if L.maxfd < fd then fd else L.maxfd }, true)

/-- The loop that updates the max fd, from `n - 1` down. -/
def lastUsed (events : Nat → FileEvent π δ) : Nat → Int
  | 0 => -1
  | n + 1 => if (events n).mask ≠ AE_NONE then n else lastUsed events n

def aeDeleteFileEvent (fd : Nat) (mask : Mask) : AeEventLoop π δ :=
  if L.setsize ≤ fd then L
  else if (L.events fd).mask = AE_NONE then L
  else
    let fe := { L.events fd with mask := (L.events fd).mask.without mask }
    let events := Function.update L.events fd fe
    let maxfd := if (fd : Int) = L.maxfd ∧ fe.mask = AE_NONE then lastUsed events fd else L.maxfd
    aeApiDelEvent { L with events := events, maxfd := maxfd } fd mask

inductive AeOp (π δ : Type) where
  | create (fd : Nat) (mask : Mask) (proc : π) (clientData : δ) (granted : Bool)
  | delete (fd : Nat) (mask : Mask)
  /-- the kernel hands out a descriptor -/
  | opened (fd : Nat)
  /-- `close(fd)`, which takes it off the interest list -/
  | close (fd : Nat)

def aeStep : AeOp π δ → Option (AeEventLoop π δ)
  | .create fd mask proc clientData granted =>
      -- nobody asks for nothing
      if mask = AE_NONE then none
      else some (aeCreateFileEvent L fd mask proc clientData granted).1
  | .delete fd mask => some (aeDeleteFileEvent L fd mask)
  | .opened fd =>
      if L.isOpen fd then none else some { L with isOpen := Function.update L.isOpen fd true }
  | .close fd =>
      if L.isOpen fd then
        some { L with
          isOpen := Function.update L.isOpen fd false
          interest := Function.update L.interest fd none }
      else none

/-- What the kernel watches of a descriptor with these events. -/
def Mask.watched (mask : Mask) : Option Mask := if mask = AE_NONE then none else some mask

/-- `maxfd` is the greatest descriptor with an event, or -1. -/
structure GreatestFd (events : Nat → FileEvent π δ) (maxfd : Int) : Prop where
  lower : -1 ≤ maxfd
  used : ∀ fd : Nat, (fd : Int) = maxfd → (events fd).mask ≠ AE_NONE
  above : ∀ fd : Nat, maxfd < fd → (events fd).mask = AE_NONE

/-- The kernel watches what is registered. -/
structure AeEventLoop.Agrees (L : AeEventLoop π δ) : Prop where
  interest : ∀ fd, L.interest fd = (L.events fd).mask.watched
  maxfd : GreatestFd L.events L.maxfd
  inRange : ∀ fd, L.setsize ≤ fd → (L.events fd).mask = AE_NONE

/-- No descriptor is closed with an event on it. -/
def ClosesUnwatched (L : AeEventLoop π δ) : AeOp π δ → Prop
  | .close fd => (L.events fd).mask = AE_NONE
  | _ => True

-- ============================================================================
-- Masks
-- ============================================================================

@[simp] theorem Mask.merge_none (mask : Mask) : mask.merge AE_NONE = mask := by
  ext <;> simp [Mask.merge, AE_NONE]

theorem Mask.merge_comm (mask other : Mask) : mask.merge other = other.merge mask := by
  ext <;> simp [Mask.merge, Bool.or_comm]

theorem Mask.merge_ne_none {mask : Mask} (h : mask ≠ AE_NONE) (other : Mask) :
    mask.merge other ≠ AE_NONE := by
  intro heq
  simp only [Mask.merge, AE_NONE, Mask.mk.injEq, Bool.or_eq_false_iff] at heq
  exact h (Mask.ext heq.1.1 heq.2.1)

/-- What has been taken away is not taken away again. -/
@[simp] theorem Mask.without_without (mask delmask : Mask) :
    (mask.without delmask).without delmask = mask.without delmask := by
  ext <;> simp [Mask.without]

@[simp] theorem Mask.watched_none : AE_NONE.watched = none := if_pos rfl

theorem Mask.watched_of_ne {mask : Mask} (h : mask ≠ AE_NONE) : mask.watched = some mask :=
  if_neg h

-- ============================================================================
-- The greatest descriptor
-- ============================================================================

theorem lastUsed_greatest {events : Nat → FileEvent π δ} {n : Nat}
    (h : ∀ fd, n ≤ fd → (events fd).mask = AE_NONE) : GreatestFd events (lastUsed events n) := by
  induction n with
  | zero =>
      refine ⟨Int.le_refl _, ?_, ?_⟩
      · intro fd hfd
        simp only [lastUsed] at hfd
        omega
      · intro fd _
        exact h fd (Nat.zero_le fd)
  | succ n ih =>
      unfold lastUsed
      by_cases hused : (events n).mask = AE_NONE
      · rw [if_neg (not_not.mpr hused)]
        apply ih
        intro fd hfd
        by_cases heq : fd = n
        · rw [heq, hused]
        · exact h fd (by omega)
      · rw [if_pos hused]
        refine ⟨by omega, ?_, ?_⟩
        · intro fd hfd
          rw [Int.natCast_inj.mp hfd]
          exact hused
        · intro fd hfd
          exact h fd (by omega)

theorem GreatestFd.update {events : Nat → FileEvent π δ} {maxfd : Int} (h : GreatestFd events maxfd)
    {fd : Nat} {fe : FileEvent π δ} (hfe : fe.mask ≠ AE_NONE) :
    GreatestFd (Function.update events fd fe) (if maxfd < fd then fd else maxfd) := by
  have hlower := h.lower
  refine ⟨by split <;> omega, ?_, ?_⟩
  · intro fd' hfd'
    by_cases heq : fd' = fd
    · rw [heq, Function.update_self]
      exact hfe
    · rw [Function.update_of_ne heq]
      split at hfd'
      · omega
      · exact h.used fd' hfd'
  · intro fd' hfd'
    have hne : fd' ≠ fd := by
      split at hfd' <;> omega
    rw [Function.update_of_ne hne]
    apply h.above
    split at hfd' <;> omega

/-- Events are taken away. -/
theorem GreatestFd.remove {events : Nat → FileEvent π δ} {maxfd : Int} (h : GreatestFd events maxfd)
    {fd : Nat} (fe : FileEvent π δ) (hused : (events fd).mask ≠ AE_NONE) :
    GreatestFd (Function.update events fd fe)
      (if (fd : Int) = maxfd ∧ fe.mask = AE_NONE then lastUsed (Function.update events fd fe) fd
        else maxfd) := by
  have hle : (fd : Int) ≤ maxfd := by
    by_contra hlt
    exact hused (h.above fd (by omega))
  split
  · rename_i hmax
    apply lastUsed_greatest
    intro fd' hfd'
    by_cases heq : fd' = fd
    · rw [heq, Function.update_self]
      exact hmax.2
    · rw [Function.update_of_ne heq]
      exact h.above fd' (by omega)
  · rename_i hmax
    refine ⟨h.lower, ?_, ?_⟩
    · intro fd' hfd'
      by_cases heq : fd' = fd
      · rw [heq, Function.update_self]
        intro hnone
        exact hmax ⟨by omega, hnone⟩
      · rw [Function.update_of_ne heq]
        exact h.used fd' hfd'
    · intro fd' hfd'
      have hne : fd' ≠ fd := by omega
      rw [Function.update_of_ne hne]
      exact h.above fd' hfd'

-- ============================================================================
-- Steps
-- ============================================================================

section Steps

variable {L L' : AeEventLoop π δ}

/-- An event is added beside those that there are, or nothing happens. -/
theorem aeApiAddEvent_cases (h : L.Agrees) (fd : Nat) (mask : Mask) (granted : Bool) :
    aeApiAddEvent L fd mask granted = none ∨
      aeApiAddEvent L fd mask granted = some { L with
        interest := Function.update L.interest fd (some (mask.merge (L.events fd).mask)) } := by
  unfold aeApiAddEvent epollCtl
  by_cases hnone : (L.events fd).mask = AE_NONE
  · simp only [hnone, if_true]
    split
    · exact Or.inr rfl
    · exact Or.inl rfl
  · have hinterest : L.interest fd ≠ none := by
      rw [h.interest, Mask.watched_of_ne hnone]
      simp
    simp [hnone, hinterest]

theorem AeEventLoop.Agrees.create (h : L.Agrees) {fd : Nat} {mask : Mask} (hmask : mask ≠ AE_NONE)
    (proc : π) (clientData : δ) (granted : Bool) :
    (aeCreateFileEvent L fd mask proc clientData granted).1.Agrees := by
  unfold aeCreateFileEvent
  split
  · exact h
  · rename_i hrange
    rcases aeApiAddEvent_cases h fd mask granted with hfail | hadd
    · rw [hfail]
      exact h
    · rw [hadd]
      have hmerged := Mask.merge_ne_none hmask (L.events fd).mask
      have hne : (L.events fd).mask.merge mask ≠ AE_NONE := by rwa [Mask.merge_comm]
      refine ⟨?_, h.maxfd.update hne, ?_⟩
      · intro fd'
        by_cases heq : fd' = fd
        · subst heq
          simp [Mask.merge_comm (L.events fd').mask, Mask.watched_of_ne hmerged]
        · simp [Function.update_of_ne heq, h.interest]
      · intro fd' hfd'
        have hne' : fd' ≠ fd := by
          rintro rfl
          exact hrange hfd'
        simp only [Function.update_of_ne hne']
        exact h.inRange fd' hfd'

/-- The kernel is told what is left. -/
theorem aeApiDelEvent_interest {fd : Nat} {mask : Mask} (hinterest : L.interest fd ≠ none) :
    aeApiDelEvent L fd mask = { L with
      interest := Function.update L.interest fd ((L.events fd).mask.without mask).watched } := by
  unfold aeApiDelEvent epollCtl
  by_cases hnone : (L.events fd).mask.without mask = AE_NONE
  · simp [hnone, hinterest]
  · simp [hnone, hinterest, Mask.watched_of_ne hnone]

theorem AeEventLoop.Agrees.delete (h : L.Agrees) (fd : Nat) (mask : Mask) :
    (aeDeleteFileEvent L fd mask).Agrees := by
  unfold aeDeleteFileEvent
  split
  · exact h
  · rename_i hrange
    split
    · exact h
    · rename_i hused
      have hinterest : L.interest fd ≠ none := by
        rw [h.interest, Mask.watched_of_ne hused]
        simp
      simp only
      rw [aeApiDelEvent_interest (by exact hinterest)]
      refine ⟨?_, h.maxfd.remove _ hused, ?_⟩
      · intro fd'
        by_cases heq : fd' = fd
        · subst heq
          simp
        · simp [Function.update_of_ne heq, h.interest]
      · intro fd' hfd'
        have hne : fd' ≠ fd := by
          rintro rfl
          exact hrange hfd'
        simp only [Function.update_of_ne hne]
        exact h.inRange fd' hfd'

theorem AeEventLoop.Agrees.step (h : L.Agrees) {op : AeOp π δ} (hs : aeStep L op = some L')
    (hok : ClosesUnwatched L op) : L'.Agrees := by
  cases op with
  | create fd mask proc clientData granted =>
      simp only [aeStep] at hs
      split at hs
      · cases hs
      · rename_i hmask
        cases hs
        exact h.create hmask proc clientData granted
  | delete fd mask =>
      cases hs
      exact h.delete fd mask
  | opened fd =>
      simp only [aeStep] at hs
      split at hs <;> cases hs
      exact ⟨h.interest, h.maxfd, h.inRange⟩
  | close fd =>
      simp only [aeStep] at hs
      split at hs <;> cases hs
      refine ⟨?_, h.maxfd, h.inRange⟩
      intro fd'
      by_cases heq : fd' = fd
      · subst heq
        have hnone : (L.events fd').mask = AE_NONE := hok
        simp [hnone]
      · simp [Function.update_of_ne heq, h.interest]

/-- A descriptor that is closed with an event on it is watched no longer. -/
theorem AeEventLoop.Agrees.closed {op : AeOp π δ} (hs : aeStep L op = some L') (h' : L'.Agrees) :
    ClosesUnwatched L op := by
  cases op with
  | close fd =>
      simp only [aeStep] at hs
      split at hs <;> cases hs
      have hnone := h'.interest fd
      simp only [Function.update_self, Mask.watched] at hnone
      unfold ClosesUnwatched
      by_contra hused
      simp [hused] at hnone
  | _ => trivial

end Steps

theorem aeCreateEventLoop_agrees (setsize : Nat) (isOpen : Nat → Bool) :
    (aeCreateEventLoop setsize isOpen : AeEventLoop π δ).Agrees := by
  refine ⟨by simp [aeCreateEventLoop], ⟨by simp [aeCreateEventLoop], ?_, ?_⟩, ?_⟩
  · intro fd hfd
    simp only [aeCreateEventLoop] at hfd
    omega
  · simp [aeCreateEventLoop]
  · simp [aeCreateEventLoop]

/-- From the creation of the loop on: what the kernel watches is what is registered, and
    `maxfd` is the greatest descriptor with something registered, in every state of a run
    just in case the run closes no descriptor with an event still registered on it. -/
theorem aeLoop_agrees_iff (setsize : Nat) (isOpen : Nat → Bool) (ops : List (AeOp π δ)) :
    Always aeStep AeEventLoop.Agrees (aeCreateEventLoop setsize isOpen) ops ↔
      AllSteps aeStep ClosesUnwatched (aeCreateEventLoop setsize isOpen) ops := by
  refine always_iff_allSteps (J := AeEventLoop.Agrees) (fun _ h => h) ?_ ?_
    (aeCreateEventLoop_agrees setsize isOpen)
  · intro L op L' h hs hok
    exact h.step hs hok
  · intro L op L' _ hs h'
    exact AeEventLoop.Agrees.closed hs h'

end Ae
end ZServer
