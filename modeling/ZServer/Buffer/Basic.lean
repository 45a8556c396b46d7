/-
  ZServer.Buffer.Basic

  The connection buffer of `src/buffer.c`, with the part of `socketRead`
  (`src/socket.c`) that fills it.

  A `zmalloc`ed block is the list of its bytes.  A store outside the block and
  an allocation that no allocator can satisfy (`zmalloc_default_oom` aborts)
  end the operation with a `Fault`; the bytes of fresh memory are taken as zero.
  The third `Fault` is one of the functions with a local array of a length that the
  input chooses.
-/

import ZServer.Lib.Word

namespace ZServer

open Lib

/-- How a buffer operation can go wrong. -/
inductive Fault where
  /-- a store at an offset that the block does not have -/
  | outOfBounds
  /-- `zmalloc_default_oom` -/
  | outOfMemory
  /-- a local array that the C stack has no room for -/
  | stackOverflow
  deriving DecidableEq, Repr

/-- `struct buffer`. -/
structure Buffer where
  writeIndex : Nat
  readIndex : Nat
  initSize : Nat
  size : Nat
  data : Option (List UInt8)
  deriving DecidableEq, Repr

/-- What a `const char *data` with its `uint32_t dataLen` denotes. -/
abbrev Chunk := { bs : List UInt8 // bs.length < 2 ^ 32 }

def kCheapPrepend : Nat := 0

/-! ## Memory -/

def zmalloc (n : Nat) : List UInt8 := List.replicate n 0

/-- `zrealloc` of a block: the common prefix is kept.  A request above
    `PTRDIFF_MAX` fails, and `je_realloc(ptr, 0)` returns `NULL`. -/
def zrealloc (d : List UInt8) (n : Nat) : Except Fault (List UInt8) :=
  if 0 < n ∧ n < 2 ^ 63 then .ok (d.take n ++ List.replicate (n - d.length) 0)
  else .error .outOfMemory

/-- `memcpy(data + off, bs, len(bs))`. -/
def memcpy (data : Option (List UInt8)) (off : Nat) (bs : List UInt8) :
    Except Fault (Option (List UInt8)) :=
  match data with
  | none => if bs = [] then .ok none else .error .outOfBounds
  | some d =>
      if off + bs.length ≤ d.length then
        .ok (some (d.take off ++ bs ++ d.drop (off + bs.length)))
      else .error .outOfBounds

/-- `memmove(data + dst, data + src, n)`. -/
def memmove (d : List UInt8) (dst src n : Nat) : Except Fault (List UInt8) :=
  if dst + n ≤ d.length ∧ src + n ≤ d.length then
    .ok (d.take dst ++ (d.drop src).take n ++ d.drop (dst + n))
  else .error .outOfBounds

/-! ## `buffer.c` -/

def bufferCreate (initSize : Nat) : Buffer where
  readIndex := kCheapPrepend
  writeIndex := kCheapPrepend
  size := initSize
  initSize := initSize
  data := if initSize = 0 then none else some (zmalloc (kCheapPrepend + initSize))

def bufferWriteableBytes (buf : Buffer) : Nat := u32Sub buf.size buf.writeIndex

def bufferReadableBytes (buf : Buffer) : Nat := u32Sub buf.writeIndex buf.readIndex

def bufferPrependableBytes (buf : Buffer) : Nat := buf.readIndex

def bufferGetSize (buf : Buffer) : Nat := buf.size

/-- The bytes `bufferReadIndex` points to, as many as `bufferReadableBytes`. -/
def bufferReadable (buf : Buffer) : List UInt8 :=
  ((buf.data.getD []).drop buf.readIndex).take (bufferReadableBytes buf)

def bufferMoveWriteIndex (buf : Buffer) (moveLen : Nat) : Buffer :=
  { buf with writeIndex := u32 (buf.writeIndex + moveLen) }

def bufferSetWriteIndex (buf : Buffer) (index : Nat) : Buffer := { buf with writeIndex := index }

def bufferRetrieveAll (buf : Buffer) : Buffer :=
  { buf with writeIndex := kCheapPrepend, readIndex := kCheapPrepend }

def bufferMoveReadIndex (buf : Buffer) (moveLen : Nat) : Buffer :=
  if moveLen < bufferReadableBytes buf then { buf with readIndex := u32 (buf.readIndex + moveLen) }
  else bufferRetrieveAll buf

/-- One doubling, whatever was asked for; `reallocSize` is an `int`. -/
def bufferExpand (buf : Buffer) : Except Fault Buffer := do
  let reallocSize := u32 (buf.size * 2)
  let tmp ← zrealloc (buf.data.getD []) (intToSize reallocSize)
  return { buf with size := reallocSize, data := some tmp }

def bufferMakeSpace (buf : Buffer) (more : Nat) : Except Fault Buffer :=
  match buf.data with
  | none =>
      .ok { buf with
        data := some (zmalloc (u32 (more + kCheapPrepend)))
        writeIndex := kCheapPrepend
        readIndex := kCheapPrepend }
  | some d =>
      if u32 (bufferWriteableBytes buf + bufferPrependableBytes buf) < u32 (more + kCheapPrepend) then
        bufferExpand buf
      else do
        let used := bufferReadableBytes buf
        let d' ← memmove d kCheapPrepend buf.readIndex used
        return { buf with
          data := some d'
          readIndex := kCheapPrepend
          writeIndex := u32 (kCheapPrepend + used) }

def bufferAppend (buf : Buffer) (data : List UInt8) : Except Fault Buffer := do
  let dataLen := data.length
  let buf ← if dataLen > bufferWriteableBytes buf then bufferMakeSpace buf dataLen else .ok buf
  let block ← memcpy buf.data buf.writeIndex data
  return { buf with data := block, writeIndex := u32 (buf.writeIndex + dataLen) }

/-! ## `socketRead` -/

/-- `sizeof(extrabuf)`. -/
def extrabufSize : Nat := 65536

/-- `socketRead` for the bytes `received` that `readv` delivered (`n > 0`). -/
def socketRead (buf : Buffer) (received : List UInt8) : Except Fault Buffer := do
  let writeable := bufferWriteableBytes buf
  -- `readv` fills `vec[0]`, the free space behind `writeIndex`, first
  let block ← memcpy buf.data buf.writeIndex (received.take writeable)
  let buf := { buf with data := block }
  if received.length ≤ writeable then return bufferMoveWriteIndex buf received.length
  else bufferAppend (bufferSetWriteIndex buf (bufferGetSize buf)) (received.drop writeable)

end ZServer
