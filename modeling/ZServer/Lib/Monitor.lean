/-
  ZServer.Lib.Monitor

  A mutex with a condition variable, for threads named by `ι`.

  A thread that waits gives the mutex back and is on the list `waiting` until a
  signal, a broadcast or a spurious wake-up takes it off; then it has to take the
  mutex again.  A signal takes one thread off, if there is one; which one is up to
  the environment.
-/

import Mathlib.Data.List.Basic

namespace ZServer.Lib

structure Monitor (ι : Type) where
  owner : Option ι
  /-- the threads that are blocked and have not been signalled -/
  waiting : List ι

namespace Monitor

variable {ι : Type}

def free : Monitor ι := ⟨none, []⟩

/-- `pthread_mutex_lock`, when it returns. -/
def lock (m : Monitor ι) (i : ι) : Option (Monitor ι) :=
  if m.owner = none then some { m with owner := some i } else none

/-- `pthread_mutex_unlock` -/
def unlock (m : Monitor ι) : Monitor ι := { m with owner := none }

/-- `pthread_cond_wait`, up to the moment when the thread is blocked. -/
def wait (m : Monitor ι) (i : ι) : Monitor ι := ⟨none, i :: m.waiting⟩

/-- `pthread_cond_broadcast` -/
def broadcast (m : Monitor ι) : Monitor ι := { m with waiting := [] }

variable {m m' : Monitor ι} {i j : ι}

theorem lock_eq_some (h : m.lock i = some m') :
    m.owner = none ∧ m'.owner = some i ∧ m'.waiting = m.waiting := by
  unfold lock at h
  split at h
  · cases h
    exact ⟨‹_›, rfl, rfl⟩
  · cases h

variable [DecidableEq ι]

/-- A thread that is not blocked any more returns from `pthread_cond_wait`. -/
def resume (m : Monitor ι) (i : ι) : Option (Monitor ι) :=
  if i ∈ m.waiting then none else m.lock i

/-- Thread `j` is not blocked any more. -/
def wake (m : Monitor ι) (j : ι) : Monitor ι :=
  { m with waiting := m.waiting.filter fun k => k ≠ j }

/-- `pthread_cond_signal`, which wakes `j`. -/
def signal (m : Monitor ι) (j : ι) : Option (Monitor ι) :=
  if m.waiting = [] then some m else if j ∈ m.waiting then some (m.wake j) else none

theorem resume_eq_some (h : m.resume i = some m') :
    i ∉ m.waiting ∧ m.owner = none ∧ m'.owner = some i ∧ m'.waiting = m.waiting := by
  unfold resume at h
  split at h
  · cases h
  · exact ⟨‹_›, lock_eq_some h⟩

theorem mem_wake : i ∈ (m.wake j).waiting ↔ i ∈ m.waiting ∧ i ≠ j := by
  unfold wake
  rw [List.mem_filter, decide_eq_true_eq]

/-- After a signal nobody is blocked, or somebody is not who was before. -/
theorem signal_eq_some (h : m.signal j = some m') :
    m'.owner = m.owner ∧ (m'.waiting = [] ∧ m.waiting = [] ∨
      j ∈ m.waiting ∧ ∀ i, i ∈ m'.waiting ↔ i ∈ m.waiting ∧ i ≠ j) := by
  unfold signal at h
  split at h
  · rename_i hnil
    cases h
    exact ⟨rfl, Or.inl ⟨hnil, hnil⟩⟩
  · split at h
    · rename_i hj
      cases h
      exact ⟨rfl, Or.inr ⟨hj, fun _ => mem_wake⟩⟩
    · cases h

end Monitor

end ZServer.Lib
