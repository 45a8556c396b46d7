/-
  ZServer.Actor.Context

  Services (`src/context.c`) and the messages between them (`src/message.h`).

  A context is a record on the heap, named by its address.  Addresses are not
  reused: the record of a context that has been freed stays, marked `freed`,
  and what a stale pointer does to it is seen.  The message queue is a list; a
  call of `messageQueuePush` or `messageQueuePop` is one operation on it.
-/

import Mathlib.Data.List.Basic
import ZServer.Lib.Word

namespace ZServer

open Lib

/-- The address of a `struct context`. -/
abbrev Ptr := Nat

/-- `struct message`; `data` is the address of the payload, `none` for `NULL`. -/
structure Message where
  /-- `from` -/
  fromId : Nat
  session : Nat
  type : Nat
  ud : Nat
  sz : Nat
  data : Option Nat
  deriving DecidableEq, Repr

def MSG_TYPE_EXIT_CONTEXT : Nat := 0xFFFFFFFF

def MSG_TYPE_NEWSESSION : Nat := 0x00080000

/-- `struct context`, with the history of its messages and of the reference
    that the context manager holds. -/
structure Context where
  id : Nat
  name : List Char
  ref : Int
  sessionid : Nat
  /-- `cb != NULL` -/
  cb : Bool
  queue : List Message
  inGlobal : Bool
  /-- `zfree(ctx)` was called -/
  freed : Bool
  /-- 1 from creation on, less every release of the manager's reference -/
  mgrRef : Int
  /-- all messages pushed, in order -/
  accepted : List Message
  /-- how many of them have been popped -/
  taken : Nat
  /-- the positions in `accepted` of the messages given to the callback -/
  handled : List Nat
  deriving DecidableEq, Repr

/-- Memory that no context has used yet. -/
def Context.blank : Context where
  id := 0
  name := []
  ref := 0
  sessionid := 0
  cb := false
  queue := []
  inGlobal := false
  freed := false
  mgrRef := 0
  accepted := []
  taken := 0
  handled := []

/-- `contextCreate` on a block that `zcalloc` returned. -/
def contextCreate (ctx : Context) : Context :=
  { ctx with sessionid := 1, ref := 1, mgrRef := 1 }

/-- `contextRetain`. -/
def contextRetain (ctx : Context) : Context := { ctx with ref := ctx.ref + 1 }

/-- `contextRelease`; the flag says that it returned `NULL`. -/
def contextRelease (ctx : Context) : Context × Bool :=
  if ctx.ref = 1 then ({ ctx with ref := 0, freed := true }, true)
  else ({ ctx with ref := ctx.ref - 1 }, false)

/-- A release of the reference that the manager got at the creation. -/
def contextReleaseMgr (ctx : Context) : Context × Bool :=
  contextRelease { ctx with mgrRef := ctx.mgrRef - 1 }

/-- `messageQueuePush`. -/
def Context.push (ctx : Context) (msg : Message) : Context :=
  { ctx with queue := ctx.queue ++ [msg], accepted := ctx.accepted ++ [msg] }

/-- `snprintf(ctx->name, 32, ...)`. -/
def snprintfName (name : List Char) : List Char := name.take 31

/-- `struct messageQueue` and `struct contextQueue` are made with
    `messageQueueCreate(1024)` and `contextQueueCreate(1024)`: 1023 fit. -/
def queueRoom : Nat := 1023

/-! ## Small facts -/

@[simp] theorem contextRelease_id (ctx : Context) : (contextRelease ctx).1.id = ctx.id := by
  unfold contextRelease
  split <;> rfl

@[simp] theorem contextRelease_inGlobal (ctx : Context) :
    (contextRelease ctx).1.inGlobal = ctx.inGlobal := by
  unfold contextRelease
  split <;> rfl

@[simp] theorem contextRelease_queue (ctx : Context) : (contextRelease ctx).1.queue = ctx.queue := by
  unfold contextRelease
  split <;> rfl

@[simp] theorem contextRelease_ref (ctx : Context) : (contextRelease ctx).1.ref = ctx.ref - 1 := by
  unfold contextRelease
  split
  · rename_i h
    rw [h]
    rfl
  · rfl

@[simp] theorem contextRelease_mgrRef (ctx : Context) :
    (contextRelease ctx).1.mgrRef = ctx.mgrRef := by
  unfold contextRelease
  split <;> rfl

@[simp] theorem contextRelease_accepted (ctx : Context) :
    (contextRelease ctx).1.accepted = ctx.accepted := by
  unfold contextRelease
  split <;> rfl

@[simp] theorem contextRelease_taken (ctx : Context) : (contextRelease ctx).1.taken = ctx.taken := by
  unfold contextRelease
  split <;> rfl

@[simp] theorem contextRelease_handled (ctx : Context) :
    (contextRelease ctx).1.handled = ctx.handled := by
  unfold contextRelease
  split <;> rfl

@[simp] theorem contextRelease_name (ctx : Context) : (contextRelease ctx).1.name = ctx.name := by
  unfold contextRelease
  split <;> rfl

theorem contextRelease_freed (ctx : Context) :
    (contextRelease ctx).1.freed = true ↔ ctx.freed = true ∨ ctx.ref = 1 := by
  unfold contextRelease
  split
  · rename_i h
    simp [h]
  · rename_i h
    simp [h]

theorem contextRelease_null (ctx : Context) : (contextRelease ctx).2 = true ↔ ctx.ref = 1 := by
  unfold contextRelease
  split
  · rename_i h
    simp [h]
  · rename_i h
    simp [h]

end ZServer
