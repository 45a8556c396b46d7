/-
  ZServer.Ring.Basic

  The lock-free ring that `src/messagequeue.c`, `src/contextqueue.c` and
  `src/arraylockfreequeue.c` all contain, with the same code up to the type of
  an item.  `ringStep` lets one thread execute one access to the shared memory
  (a read of an index, a slot access, a CAS or an atomic addition); the local
  computation up to the next access belongs to the same step.

  The indices are `uint32_t` in the source and are counted here without wrap
  (`countToIndex` only looks at their low bits, and the sizes divide `2 ^ 32`).
-/

import Mathlib.Logic.Function.Basic
import ZServer.Lib.Word

namespace ZServer

/-! ## Memory -/

/-- `struct messageQueue`, `struct contextQueue`, `struct arrayLockFreeQueue`. -/
structure RingQueue (α : Type) where
  count : Int
  writeIndex : Nat
  readIndex : Nat
  maximumReadIndex : Nat
  /-- `messages`, `contexts`, `items` -/
  items : Nat → α
  size : Nat

/-- The queue with its history: no step reads these fields. -/
structure Ring (α : Type) extends RingQueue α where
  /-- the items in the order in which their pushes reserved `writeIndex` -/
  reserved : List α
  /-- the items in the order in which pops claimed `readIndex` -/
  claimed : List α
  /-- the reservations of the pushes that returned true -/
  accepted : List Nat
  /-- what the pops returned, with the `readIndex` each had claimed -/
  handed : List (Nat × α)

/-- `nextpow2`: smear the highest bit of `num - 1` to the right, on 32 bits. -/
def nextpow2 (num : Nat) : Nat :=
  let num := Lib.u32Sub num 1
  let num := num ||| num >>> 1
  let num := num ||| num >>> 2
  let num := num ||| num >>> 4
  let num := num ||| num >>> 8
  let num := num ||| num >>> 16
  Lib.u32 (num + 1)

/-- An empty ring of `size` zeroed slots. -/
def ringOfSize {α : Type} [Inhabited α] (size : Nat) : Ring α where
  count := 0
  writeIndex := 0
  readIndex := 0
  maximumReadIndex := 0
  items := fun _ => default
  size := size
  reserved := []
  claimed := []
  accepted := []
  handed := []

/-- `messageQueueCreate`, `contextQueueCreate`, `arrayLockFreeQueueCreate`. -/
def ringCreate {α : Type} [Inhabited α] (size : Nat) : Ring α := ringOfSize (nextpow2 size)

/-- `countToIndex`. -/
def countToIndex {α : Type} (queue : Ring α) (count : Nat) : Nat := count &&& (queue.size - 1)

/-- `messageQueueSize` and its siblings, which return a `uint32_t`. -/
def ringCount {α : Type} (queue : Ring α) : Int := queue.count % 2 ^ 32

/-! ## Program points -/

/-- Where a thread stands in a push or a pop: before which shared access, with
    which local variables. -/
inductive RingPc (α : Type) where
  | idle
  /-- `currentWriteIndex = queue->writeIndex` -/
  | pushReadWrite (item : α)
  /-- `currentReadIndex = queue->readIndex` and the test for a full queue -/
  | pushReadRead (item : α) (currentWriteIndex : Nat)
  /-- `CAS(&queue->writeIndex, ...)` -/
  | pushReserve (item : α) (currentWriteIndex : Nat)
  /-- `queue->items[countToIndex(...)] = item` -/
  | pushStore (item : α) (currentWriteIndex : Nat)
  /-- `CAS(&queue->maximumReadIndex, ...)` -/
  | pushPublish (item : α) (currentWriteIndex : Nat)
  /-- `AtomicAdd(&queue->count, 1)` -/
  | pushCount (currentWriteIndex : Nat)
  | pushRet (ret : Bool)
  /-- `currentReadIndex = queue->readIndex` -/
  | popReadRead
  /-- `currentMaximumReadIndex = queue->maximumReadIndex` and the test for an
      empty queue -/
  | popReadMax (currentReadIndex : Nat)
  /-- `item = queue->items[countToIndex(...)]` -/
  | popLoad (currentReadIndex : Nat)
  /-- `CAS(&queue->readIndex, ...)` -/
  | popClaim (currentReadIndex : Nat) (item : α)
  /-- `AtomicSub(&queue->count, 1)` -/
  | popCount (currentReadIndex : Nat) (item : α)
  | popRet (ret : Option α)
  deriving DecidableEq, Repr

/-- Which operation an idle thread calls. -/
inductive RingCall (α : Type) where
  | push (item : α)
  | pop
  deriving DecidableEq, Repr

def RingPc.isIdle {α : Type} : RingPc α → Bool
  | .idle => true
  | _ => false

variable {α : Type}

/-- One shared access of one thread; `call` matters to an idle thread only. -/
def ringStep (queue : Ring α) (pc : RingPc α) (call : RingCall α) : Option (Ring α × RingPc α) :=
  match pc with
  | .idle =>
      match call with
      | .push item => some (queue, .pushReadWrite item)
      | .pop => some (queue, .popReadRead)
  | .pushReadWrite item => some (queue, .pushReadRead item queue.writeIndex)
  | .pushReadRead item currentWriteIndex =>
      if countToIndex queue (currentWriteIndex + 1) = countToIndex queue queue.readIndex then
        some (queue, .pushRet false)
      else some (queue, .pushReserve item currentWriteIndex)
  | .pushReserve item currentWriteIndex =>
      if queue.writeIndex = currentWriteIndex then
        some ({ queue with
          writeIndex := currentWriteIndex + 1
          reserved := queue.reserved ++ [item] }, .pushStore item currentWriteIndex)
      else some (queue, .pushReadWrite item)
  | .pushStore item currentWriteIndex =>
      some ({ queue with
        items := Function.update queue.items (countToIndex queue currentWriteIndex) item },
        .pushPublish item currentWriteIndex)
  | .pushPublish item currentWriteIndex =>
      if queue.maximumReadIndex = currentWriteIndex then
        some ({ queue with maximumReadIndex := currentWriteIndex + 1 }, .pushCount currentWriteIndex)
      else
        -- `sched_yield()` and try again
        some (queue, .pushPublish item currentWriteIndex)
  | .pushCount currentWriteIndex =>
      some ({ queue with
        count := queue.count + 1
        accepted := queue.accepted ++ [currentWriteIndex] }, .pushRet true)
  | .pushRet _ => some (queue, .idle)
  | .popReadRead => some (queue, .popReadMax queue.readIndex)
  | .popReadMax currentReadIndex =>
      if countToIndex queue currentReadIndex = countToIndex queue queue.maximumReadIndex then
        some (queue, .popRet none)
      else some (queue, .popLoad currentReadIndex)
  | .popLoad currentReadIndex =>
      some (queue, .popClaim currentReadIndex (queue.items (countToIndex queue currentReadIndex)))
  | .popClaim currentReadIndex item =>
      if queue.readIndex = currentReadIndex then
        some ({ queue with
          readIndex := currentReadIndex + 1
          claimed := queue.claimed ++ [item] }, .popCount currentReadIndex item)
      else some (queue, .popReadRead)
  | .popCount currentReadIndex item =>
      some ({ queue with
        count := queue.count - 1
        handed := queue.handed ++ [(currentReadIndex, item)] }, .popRet (some item))
  | .popRet _ => some (queue, .idle)

/-! ## Sizes -/

/-- A size that is already a power of two is kept. -/
theorem nextpow2_two_pow {k : Nat} (hk : k < 32) : nextpow2 (2 ^ k) = 2 ^ k := by
  have hall : ∀ k : Fin 32, nextpow2 (2 ^ k.val) = 2 ^ k.val := by decide
  exact hall ⟨k, hk⟩

theorem ringCreate_two_pow [Inhabited α] {k : Nat} (hk : k < 32) :
    (ringCreate (2 ^ k) : Ring α) = ringOfSize (2 ^ k) := by
  rw [ringCreate, nextpow2_two_pow hk]

theorem countToIndex_eq_mod {queue : Ring α} {k : Nat} (hsize : queue.size = 2 ^ k) (count : Nat) :
    countToIndex queue count = count % queue.size := by
  rw [countToIndex, hsize, Nat.and_two_pow_sub_one_eq_mod]

end ZServer
