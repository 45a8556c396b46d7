/-
  ZServer.Dict.Basic

  The hash table of `src/dict.c`, that of the names and of the timers.

  A bucket is a chain of entries, the newest first.  While a table is replaced by one of
  another size there are two of them, and every operation moves one bucket over: a
  dictionary rearranges itself whenever it is asked for something.

  The hash function is a parameter, keys are compared by equality, and neither keys nor
  values are duplicated, as in both dictionaries of the program.  An operation is `none`
  where the C code would leave a table, follow a null pointer or fail an assertion.
-/

import ZServer.Lib.Word

namespace ZServer

open Lib

variable {K V : Type}

-- ============================================================================
-- The tables
-- ============================================================================

def DICT_OK : Int := 0

def DICT_ERR : Int := 1

def DICT_HT_INITIAL_SIZE : Nat := 4

def dictForceResizeRatio : Nat := 5

def LONG_MAX : Nat := 2 ^ 63 - 1

/-- `struct dictht`; the table of no buckets is NULL. -/
structure DictHt (K V : Type) where
  table : List (List (K × V))
  size : Nat
  sizemask : Nat
  used : Nat
  deriving DecidableEq, Repr

/-- `struct dict`, with what its destructors have been called with. -/
structure Dict (K V : Type) where
  ht0 : DictHt K V
  ht1 : DictHt K V
  /-- `none` for -1 -/
  rehashidx : Option Nat
  iterators : Int
  keysFreed : List K
  valsFreed : List V
  deriving DecidableEq, Repr

def dictReset : DictHt K V := ⟨[], 0, 0, 0⟩

def dictCreate : Dict K V := ⟨dictReset, dictReset, none, 0, [], []⟩

def dictIsRehashing (d : Dict K V) : Bool := d.rehashidx.isSome

def dictSize (d : Dict K V) : Nat := d.ht0.used + d.ht1.used

/-- `a - b` on `unsigned long`. -/
def ulongSub (a b : Nat) : Nat := (a + (2 ^ 64 - b)) % 2 ^ 64

/-- The bucket of a key. -/
def DictHt.index (hash : K → UInt32) (ht : DictHt K V) (key : K) : Nat :=
  (hash key).toNat &&& ht.sizemask

/-- A new entry, at the head of the bucket `i`. -/
def DictHt.link (ht : DictHt K V) (i : Nat) (entry : K × V) : Option (DictHt K V) :=
  ht.table[i]?.map fun chain =>
    { ht with table := ht.table.set i (entry :: chain), used := ht.used + 1 }

-- ============================================================================
-- Another size
-- ============================================================================

def nextPowerLoop : Nat → Nat → Nat → Nat
  | 0, i, _ => i
  | fuel + 1, i, size => if size ≤ i then i else nextPowerLoop fuel (i * 2) size

/-- `_dictNextPower` -/
def dictNextPower (size : Nat) : Nat :=
  if LONG_MAX ≤ size then LONG_MAX else nextPowerLoop 64 DICT_HT_INITIAL_SIZE size

/-- `zcalloc(realsize*sizeof(dictEntry*))`, the product being an `unsigned long`. -/
def zcallocBuckets (realsize : Nat) : List (List (K × V)) :=
  List.replicate (realsize * 8 % 2 ^ 64 / 8) []

def dictExpand (d : Dict K V) (size : Nat) : Dict K V × Int :=
  let realsize := dictNextPower size
  if dictIsRehashing d ∨ size < d.ht0.used then (d, DICT_ERR)
  else
    let n : DictHt K V := ⟨zcallocBuckets realsize, realsize, realsize - 1, 0⟩
    if d.ht0.table.isEmpty then ({ d with ht0 := n }, DICT_OK)
    else ({ d with ht1 := n, rehashidx := some 0 }, DICT_OK)

/-- `dictResize`; `minimal` is an `int`. -/
def dictResize (canResize : Bool) (d : Dict K V) : Dict K V × Int :=
  if canResize = false ∨ dictIsRehashing d then (d, DICT_ERR)
  else
    let minimal := intOf (u32 d.ht0.used)
    dictExpand d (if minimal < DICT_HT_INITIAL_SIZE then DICT_HT_INITIAL_SIZE else minimal.toNat)

/-- `_dictExpandIfNeeded` -/
def dictExpandIfNeeded (canResize : Bool) (d : Dict K V) : Dict K V × Int :=
  if dictIsRehashing d then (d, DICT_OK)
  else if d.ht0.size = 0 then dictExpand d DICT_HT_INITIAL_SIZE
  else if d.ht0.size ≤ d.ht0.used ∧
      (canResize ∨ dictForceResizeRatio < d.ht0.used / d.ht0.size) then
    dictExpand d (d.ht0.used * 2 % 2 ^ 64)
  else (d, DICT_OK)

-- ============================================================================
-- Moving over
-- ============================================================================

variable (hash : K → UInt32)

/-- The entries of a bucket go over to the new table, one after the other. -/
def moveEntries : List (K × V) → DictHt K V → DictHt K V → Option (DictHt K V × DictHt K V)
  | [], ht0, ht1 => some (ht0, ht1)
  | de :: nextde, ht0, ht1 =>
      (ht1.link (ht1.index hash de.1) de).bind fun ht1 =>
        moveEntries nextde { ht0 with used := ulongSub ht0.used 1 } ht1

/-- One round of the loop of `dictRehash`: whether it goes on. -/
def dictRehashRound (d : Dict K V) (rehashidx : Nat) : Option (Dict K V × Bool) :=
  if d.ht0.used = 0 then
    some ({ d with ht0 := d.ht1, ht1 := dictReset, rehashidx := none }, false)
  else if d.ht0.size ≤ rehashidx then none
  else
    -- `while(d->ht[0].table[d->rehashidx] == NULL) d->rehashidx++`
    ((d.ht0.table.drop rehashidx).findIdx? fun chain => ¬chain.isEmpty).bind fun skipped =>
      let idx := rehashidx + skipped
      (moveEntries hash (d.ht0.table.getD idx []) d.ht0 d.ht1).bind fun (ht0, ht1) =>
        -- `rehashidx` is an `int`
        if idx + 1 < 2 ^ 31 then
          some ({ d with
            ht0 := { ht0 with table := ht0.table.set idx [] }
            ht1 := ht1
            rehashidx := some (idx + 1) }, true)
        else none

/-- `dictRehash`, with its result. -/
def dictRehash (d : Dict K V) : Nat → Option (Dict K V × Int)
  | 0 => some (d, if dictIsRehashing d then 1 else 0)
  | n + 1 =>
      match d.rehashidx with
      | none => some (d, 0)
      | some rehashidx =>
          (dictRehashRound hash d rehashidx).bind fun (d, more) =>
            if more then dictRehash d n else some (d, 0)

/-- `if (dictIsRehashing(d)) _dictRehashStep(d)` -/
def dictRehashStep (d : Dict K V) : Option (Dict K V) :=
  if d.iterators = 0 then (dictRehash hash d 1).map Prod.fst else some d

-- ============================================================================
-- The operations
-- ============================================================================

variable [DecidableEq K]

/-- A `dictEntry *`: its table, its bucket and its place in the chain. -/
structure EntryPtr where
  second : Bool
  idx : Nat
  pos : Nat
  deriving DecidableEq, Repr

def Dict.ht (d : Dict K V) (second : Bool) : DictHt K V := if second then d.ht1 else d.ht0

def Dict.setHt (d : Dict K V) (second : Bool) (ht : DictHt K V) : Dict K V :=
  if second then { d with ht1 := ht } else { d with ht0 := ht }

/-- The loop over the chains in which a key can be; `none` for the NULL at their end. -/
def searchTable (d : Dict K V) (key : K) (second : Bool) : Option (Option EntryPtr) :=
  let idx := (d.ht second).index hash key
  (d.ht second).table[idx]?.map fun chain =>
    (chain.findIdx? fun he => he.1 = key).map fun pos => ⟨second, idx, pos⟩

def searchTables (d : Dict K V) (key : K) : Option (Option EntryPtr) :=
  (searchTable hash d key false).bind fun found =>
    if found.isSome ∨ dictIsRehashing d = false then some found else searchTable hash d key true

/-- `_dictKeyIndex`; -1 when the key is there. -/
def dictKeyIndex (canResize : Bool) (d : Dict K V) (key : K) : Option (Dict K V × Int) :=
  let (d, ret) := dictExpandIfNeeded canResize d
  if ret = DICT_ERR then some (d, -1)
  else
    (searchTables hash d key).map fun found =>
      if found.isSome then (d, -1)
      else (d, intOf ((d.ht (dictIsRehashing d)).index hash key))

/-- `dictAddRaw`, with the value that its caller stores in the entry. -/
def dictAddRaw (canResize : Bool) (d : Dict K V) (key : K) (val : V) :
    Option (Dict K V × Bool) :=
  (dictRehashStep hash d).bind fun d =>
    (dictKeyIndex hash canResize d key).bind fun (d, index) =>
      if index = -1 then some (d, false)
      else if index < 0 then none
      else
        ((d.ht (dictIsRehashing d)).link index.toNat (key, val)).map fun ht =>
          (d.setHt (dictIsRehashing d) ht, true)

def dictAdd (canResize : Bool) (d : Dict K V) (key : K) (val : V) : Option (Dict K V × Int) :=
  (dictAddRaw hash canResize d key val).map fun (d, entry) =>
    (d, if entry then DICT_OK else DICT_ERR)

def dictFind (d : Dict K V) (key : K) : Option (Dict K V × Option EntryPtr) :=
  if d.ht0.size = 0 then some (d, none)
  else (dictRehashStep hash d).bind fun d => (searchTables hash d key).map fun he => (d, he)

/-- `*he` -/
def Dict.entry? (d : Dict K V) (he : EntryPtr) : Option (K × V) :=
  (d.ht he.second).table[he.idx]?.bind fun chain => chain[he.pos]?

/-- Another chain in the bucket of `he`. -/
def Dict.setChain (d : Dict K V) (he : EntryPtr) (chain : List (K × V)) : Dict K V :=
  let ht := d.ht he.second
  d.setHt he.second { ht with table := ht.table.set he.idx chain }

def Dict.chain (d : Dict K V) (he : EntryPtr) : List (K × V) :=
  (d.ht he.second).table.getD he.idx []

def dictFetchValue (d : Dict K V) (key : K) : Option (Dict K V × Option V) :=
  (dictFind hash d key).bind fun (d, he) =>
    match he with
    | none => some (d, none)
    | some he => (d.entry? he).map fun entry => (d, some entry.2)

/-- `dictReplace`: 1 for a new key. -/
def dictReplace (canResize : Bool) (d : Dict K V) (key : K) (val : V) :
    Option (Dict K V × Int) :=
  (dictAdd hash canResize d key val).bind fun (d, ret) =>
    if ret = DICT_OK then some (d, 1)
    else
      (dictFind hash d key).bind fun (d, entry) =>
        entry.bind fun entry =>
          (d.entry? entry).map fun auxentry =>
            let d := d.setChain entry ((d.chain entry).set entry.pos (auxentry.1, val))
            ({ d with valsFreed := d.valsFreed ++ [auxentry.2] }, 0)

/-- `dictGenericDelete` -/
def dictGenericDelete (d : Dict K V) (key : K) (nofree : Bool) : Option (Dict K V × Int) :=
  if d.ht0.size = 0 then some (d, DICT_ERR)
  else
    (dictRehashStep hash d).bind fun d =>
      (searchTables hash d key).bind fun found =>
        match found with
        | none => some (d, DICT_ERR)
        | some he =>
            (d.entry? he).map fun entry =>
              let d := d.setChain he ((d.chain he).eraseIdx he.pos)
              let ht := d.ht he.second
              let d := d.setHt he.second { ht with used := ulongSub ht.used 1 }
              if nofree then (d, DICT_OK)
              else
                ({ d with
                  keysFreed := d.keysFreed ++ [entry.1]
                  valsFreed := d.valsFreed ++ [entry.2] }, DICT_OK)

def dictDelete (d : Dict K V) (key : K) : Option (Dict K V × Int) :=
  dictGenericDelete hash d key false

def dictDeleteNoFree (d : Dict K V) (key : K) : Option (Dict K V × Int) :=
  dictGenericDelete hash d key true

omit [DecidableEq K]

/-- The entries that `_dictClear` frees: it stops when `used` entries are freed. -/
def clearBuckets : List (List (K × V)) → Nat → List (K × V)
  | [], _ => []
  | chain :: rest, used =>
      if used = 0 then [] else chain ++ clearBuckets rest (ulongSub used chain.length)

/-- What `_dictClear` frees, both tables one after the other. -/
def dictClear (d : Dict K V) : Dict K V :=
  let freed := clearBuckets d.ht0.table d.ht0.used ++ clearBuckets d.ht1.table d.ht1.used
  { d with
    ht0 := dictReset
    ht1 := dictReset
    keysFreed := d.keysFreed ++ freed.map Prod.fst
    valsFreed := d.valsFreed ++ freed.map Prod.snd }

def dictEmpty (d : Dict K V) : Dict K V := { dictClear d with rehashidx := none, iterators := 0 }

end ZServer
