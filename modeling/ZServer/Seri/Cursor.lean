/-
  ZServer.Seri.Cursor

  The cursor keeps to the buffer, and the values to the Lua stack: `_luaseri_unpack` does
  what the format says, and every read is safe, unless something is refused that reading
  the stream asks for.
-/

import ZServer.Seri.Unpack

namespace ZServer.Seri

open Lib Format Decoder

-- ============================================================================
-- Safe reads
-- ============================================================================

/-- A read of a buffer of `len` bytes. -/
structure Read.Safe (len : Int) (r : Read) : Prop where
  nonneg : 0 ≤ r.ptr
  le : r.ptr ≤ len
  sum : r.ptr + r.remaining = len
  inside : r.success = true → 0 ≤ r.sz ∧ r.sz ≤ r.remaining ∧ r.ptr + r.sz ≤ len

/-- So far every read has been safe, and every value has taken a byte. -/
structure ReadBlock.Safe (bytes : List UInt8) (rb : ReadBlock) : Prop where
  reads : ∀ r ∈ rb.reads, r.Safe bytes.length
  values : ∀ v ∈ rb.values, v.1 + 1 ≤ v.2

/-- The cursor is in the buffer, before the bytes `bs`. -/
structure ReadBlock.At (bytes : List UInt8) (rb : ReadBlock) (bs : List UInt8) : Prop where
  safe : rb.Safe bytes
  buffer : rb.buffer = bytes
  nonneg : 0 ≤ rb.ptr
  sum : rb.ptr + rb.len = bytes.length
  rest : bs = bytes.drop rb.ptr.toNat
  length : (bs.length : Int) = rb.len

/-- The cursor is before the bytes `bs`, and there are `used` values on the Lua stack, which
    has room for `limit`. -/
structure Frame.Ready (bytes : List UInt8) (limit used : Nat) (f : Frame) (bs : List UInt8) :
    Prop where
  cursor : f.rb.At bytes bs
  top : f.stack.top = used
  limit : f.stack.limit = limit

/-- What becomes of the failures of the format. -/
def Fails (bytes : List UInt8) : FormatError → UnpackError → Frame → Prop
  | .invalid, .invalidStream _ _, f => f.rb.Safe bytes
  | .nanKey, .indexIsNaN, f => f.rb.Safe bytes
  | .fuel, .fuel, f => f.rb.Safe bytes
  | _, _, _ => False

/-- What becomes of what is refused. -/
def UnpackError.Refusal : UnpackError → Prop
  | .stringSize _ | .luaStack | .cStack | .memory => True
  | .invalidStream _ _ | .indexIsNaN | .fuel => False

/-- What a call with `nargs` arguments has, and how it fails. -/
def terms (host : Host) (nargs : Nat) (bytes : List UInt8) :
    Terms Frame Demand FormatError UnpackError where
  grants := host.Grants nargs
  fails := Fails bytes
  refuses := UnpackError.Refusal

variable {bytes : List UInt8} {host : Host} {nargs : Nat} {α : Type}

theorem rballInit_at (bytes : List UInt8) : (rballInit bytes bytes.length).At bytes bytes where
  safe := ⟨by rintro _ ⟨⟩, by rintro _ ⟨⟩⟩
  buffer := rfl
  nonneg := le_refl 0
  sum := Int.zero_add _
  rest := rfl
  length := rfl

-- ============================================================================
-- The cursor
-- ============================================================================

section Cursor

variable {limit used : Nat}

/-- A read that finds too few bytes. -/
theorem rbRead_fails {f : Frame} {bs : List UInt8} {sz : Nat} (h : f.Ready bytes limit used bs)
    (hlt : bs.length < sz) :
    ∃ f', rbRead sz f = .ok none f' ∧ f'.Ready bytes limit used bs := by
  have hlen := h.cursor.length
  have hsum := h.cursor.sum
  have hnonneg := h.cursor.nonneg
  refine ⟨_, if_pos (by omega), ⟨⟨?_, h.cursor.safe.values⟩, h.cursor.buffer, hnonneg, hsum,
    h.cursor.rest, hlen⟩, h.top, h.limit⟩
  intro r hr
  rcases List.mem_append.mp hr with hr | hr
  · exact h.cursor.safe.reads r hr
  · rw [List.mem_singleton.mp hr]
    exact ⟨hnonneg, by show f.rb.ptr ≤ _; omega, hsum, by rintro ⟨⟩⟩

/-- A read that finds its bytes. -/
theorem rbRead_succeeds {f : Frame} {bs : List UInt8} {sz : Nat} (h : f.Ready bytes limit used bs)
    (hle : sz ≤ bs.length) :
    ∃ f', rbRead sz f = .ok (some (bs.take sz)) f' ∧ f'.Ready bytes limit used (bs.drop sz) := by
  have hlen := h.cursor.length
  have hsum := h.cursor.sum
  have hnonneg := h.cursor.nonneg
  have hread : rbRead sz f = .ok (some (bs.take sz)) { f with rb := { f.rb with
      ptr := f.rb.ptr + sz, len := f.rb.len - sz
      reads := f.rb.reads ++ [⟨f.rb.ptr, f.rb.len, sz, true⟩] } } := by
    unfold rbRead
    dsimp only
    rw [if_neg (by omega), h.cursor.buffer, h.cursor.rest, Int.toNat_natCast]
  refine ⟨_, hread, ⟨⟨?_, h.cursor.safe.values⟩, h.cursor.buffer, ?_, ?_, ?_, ?_⟩, h.top, h.limit⟩
  · intro r hr
    rcases List.mem_append.mp hr with hr | hr
    · exact h.cursor.safe.reads r hr
    · rw [List.mem_singleton.mp hr]
      refine ⟨hnonneg, ?_, hsum, fun _ => ?_⟩
      · show f.rb.ptr ≤ _
        omega
      · show 0 ≤ (sz : Int) ∧ (sz : Int) ≤ f.rb.len ∧ f.rb.ptr + sz ≤ _
        omega
  · show 0 ≤ f.rb.ptr + sz
    omega
  · show f.rb.ptr + sz + (f.rb.len - sz) = _
    omega
  · rw [h.cursor.rest, List.drop_drop]
    congr 1
    show _ = (f.rb.ptr + sz).toNat
    omega
  · rw [List.length_drop]
    show _ = f.rb.len - sz
    omega

theorem invalidStream_refines (line : Nat) :
    Refines (terms host nargs bytes) (Frame.Ready bytes limit used) (Frame.Ready bytes limit used)
      (invalidStream line : Unpack α) (Plan.fail .invalid : Format α) := by
  apply Refines.of_free
  intro f bs h
  exact ⟨rfl, _, f, rfl, h.cursor.safe⟩

/-- A read that must succeed takes as many bytes off the front. -/
theorem readOr_refines (n : Nat) (line : Nat) :
    Refines (terms host nargs bytes) (Frame.Ready bytes limit used) (Frame.Ready bytes limit used)
      (readOr n line) (Format.bytes n) := by
  apply Refines.of_free
  intro f bs h
  unfold Format.bytes Decoder.take
  by_cases hle : n ≤ bs.length
  · obtain ⟨f', hread, hready⟩ := rbRead_succeeds h hle
    rw [if_pos hle]
    exact ⟨rfl, f', by unfold readOr; rw [run_bind_ok hread]; rfl, hready⟩
  · obtain ⟨f', hread, hready⟩ := rbRead_fails h (Nat.lt_of_not_le hle)
    rw [if_neg hle]
    refine ⟨rfl, .invalidStream f'.rb.len line, f', ?_, hready.cursor.safe⟩
    unfold readOr
    rw [run_bind_ok hread]
    rfl

theorem unsigned_refines (n : Nat) (line : Nat) {k : Nat → α} :
    Refines (terms host nargs bytes) (Frame.Ready bytes limit used) (Frame.Ready bytes limit used)
      (do return k (leNat (← readOr n line))) (k <$> unsigned n) := by
  unfold unsigned
  rw [Functor.map_map]
  exact (readOr_refines n line).map _

theorem getInteger_refines : ∀ cookie : Nat,
    Refines (terms host nargs bytes) (Frame.Ready bytes limit used) (Frame.Ready bytes limit used)
      (getInteger cookie) (integer cookie)
  | 0 => Refines.pure (fun _ _ h => h) 0
  | 1 => unsigned_refines 1 381
  | 2 => unsigned_refines 2 388
  | 3 => invalidStream_refines 399
  | 4 => unsigned_refines 4 395
  | _ + 5 => invalidStream_refines 399

theorem getNumber_refines (cookie : Nat) :
    Refines (terms host nargs bytes) (Frame.Ready bytes limit used) (Frame.Ready bytes limit used)
      (getNumber cookie) (number cookie) := by
  unfold getNumber number
  split
  · exact (readOr_refines 8 409).map _
  · exact (getInteger_refines cookie).map _

theorem getArraySize_refines (cookie : Nat) :
    Refines (terms host nargs bytes) (Frame.Ready bytes limit used) (Frame.Ready bytes limit used)
      (getArraySize host cookie) (arraySize host.overflow cookie) := by
  unfold getArraySize arraySize
  split
  · unfold head unsigned
    rw [Functor.map_map]
    apply (readOr_refines 1 441).bind_map
    intro bs
    show Refines _ _ _ (if leNat bs % 8 ≠ TYPE_NUMBER then _ else _)
      (if leNat bs % 8 = TYPE_NUMBER then _ else _)
    by_cases htype : leNat bs % 8 = TYPE_NUMBER
    · rw [if_neg (not_not.mpr htype), if_pos htype]
      exact (getNumber_refines _).map _
    · rw [if_pos htype, if_neg htype]
      exact invalidStream_refines 441
  · exact Refines.pure (fun _ _ h => h) _

/-- A value more on the Lua stack, where there is a slot for it. -/
theorem pushed_ok {f : Frame} {bs : List UInt8} (h : f.Ready bytes limit used bs)
    (hlt : used < limit) (o : Obj) :
    ∃ f', pushed o f = .ok o f' ∧ f'.Ready bytes limit (used + 1) bs := by
  refine ⟨{ f with stack := ⟨used + 1, limit⟩ }, ?_, h.cursor, rfl, rfl⟩
  unfold pushed
  rw [LuaStack.push_of_lt h.top h.limit hlt]

theorem pushed_fails {f : Frame} {bs : List UInt8} (h : f.Ready bytes limit used bs)
    (hle : ¬used < limit) (o : Obj) : pushed o f = .error .luaStack f := by
  unfold pushed
  rw [LuaStack.push_of_not_lt h.top h.limit hle]

theorem popped_ready {f : Frame} {bs : List UInt8} (n : Nat)
    (h : f.Ready bytes limit (used + n) bs) :
    ∃ f', popped n f = .ok () f' ∧ f'.Ready bytes limit used bs := by
  refine ⟨_, rfl, h.cursor, ?_, h.limit⟩
  show f.stack.top - n = _
  rw [h.top, Nat.add_sub_cancel]

theorem frames_refines (depth len : Nat) :
    Refines (terms host nargs bytes) (Frame.Ready bytes limit used) (Frame.Ready bytes limit used)
      (frames host depth len) (Plan.ask (.frames depth len)) := by
  apply Refines.ask
  · intro f bs h hgranted
    exact ⟨f, if_pos hgranted, h⟩
  · intro f bs h hrefused
    exact ⟨.cStack, f, if_neg hrefused, trivial⟩

end Cursor

-- ============================================================================
-- Values
-- ============================================================================

/-- At this place `m` does what `d` says, and leaves `n` values more on the Lua stack. -/
abbrev Reads (host : Host) (nargs : Nat) (bytes : List UInt8) (p : Place) (n : Nat)
    (m : Unpack α) (d : Format α) : Prop :=
  Refines (terms host nargs bytes) (Frame.Ready bytes (host.frameTop nargs (p.round + 1)) p.used)
    (Frame.Ready bytes (host.frameTop nargs (p.round + 1)) (p.used + n)) m d

theorem pushed_reads (p : Place) (o : Obj) :
    Reads host nargs bytes p 1 (pushed o) (push p o) := by
  intro f bs h
  show (Terms.Meet _ [Demand.slot p.round p.used] → _) ∧ (¬Terms.Meet _ [_] → _)
  have hmeet : (terms host nargs bytes).Meet [Demand.slot p.round p.used] ↔
      p.used < host.frameTop nargs (p.round + 1) := by simp [terms, Host.Grants]
  rw [hmeet]
  constructor
  · intro hlt
    exact pushed_ok h hlt o
  · intro hle
    exact ⟨.luaStack, f, pushed_fails h hle o, trivial⟩

theorem createtable_reads (p : Place) (size : Int) :
    Reads host nargs bytes p 1 (createtable host size) (newTable p size.toNat) := by
  have hnew : newTable p size.toNat = push p (.table []) >>= fun _ => Plan.ask (.array size.toNat) :=
    rfl
  rw [hnew]
  apply (pushed_reads p (.table [])).bind
  intro o
  apply Refines.ask
  · intro f bs h hgranted
    refine ⟨f, ?_, h⟩
    rw [if_neg]
    · rfl
    · rintro ⟨hpos, hmemory⟩
      rcases hgranted with hzero | hmem
      · omega
      · rw [hmem] at hmemory
        cases hmemory
  · intro f bs h hrefused
    refine ⟨.memory, f, ?_, trivial⟩
    rw [if_pos]
    · rfl
    · constructor
      · by_contra hnot
        exact hrefused (Or.inl (by omega))
      · exact Bool.eq_false_of_not_eq_true fun hmem => hrefused (Or.inr hmem)

theorem getBuffer_reads (p : Place) (len : Nat) :
    Reads host nargs bytes p 1 (getBuffer host p.depth len) (Format.string p len) := by
  apply (frames_refines p.depth len).bind
  rintro ⟨⟩
  apply (readOr_refines len 429).bind
  intro s
  unfold pushlstring
  rw [if_neg (by omega)]
  exact pushed_reads p (.string s)

/-- The length is an `int`: from `2 ^ 31` on it is negative, and the read succeeds. -/
theorem getBuffer_negative {f : Frame} {len : Int} (hneg : len < 0) (hlen : 0 ≤ f.rb.len)
    (depth : Nat) : ∃ e f', getBuffer host depth len f = .error e f' ∧ e.Refusal := by
  unfold getBuffer
  by_cases hroom : host.cstack depth len.toNat = true
  · have hframes : frames host depth len f = .ok () f := if_pos hroom
    have hread : ∃ bs f', rbRead len f = .ok (some bs) f' := ⟨_, _, if_neg (by omega)⟩
    obtain ⟨bs, f', hread⟩ := hread
    refine ⟨.stringSize len, f', ?_, trivial⟩
    rw [run_bind_ok hframes]
    unfold readOr
    rw [bind_assoc, run_bind_ok hread]
    show pushlstring bs len f' = _
    unfold pushlstring
    rw [if_pos hneg]
    rfl
  · have hframes : frames host depth len f = .error .cStack f := if_neg hroom
    exact ⟨.cStack, f, run_bind_error hframes, trivial⟩

theorem getBuffer_intOf_reads (p : Place) {len : Nat} (hlt : len < 2 ^ 32) :
    Reads host nargs bytes p 1 (getBuffer host p.depth (intOf len))
      (Plan.ask (.length len) >>= fun _ => Format.string p len) := by
  by_cases hlong : len < 2 ^ 31
  · have hint : intOf len = (len : Int) := if_pos hlong
    rw [hint]
    exact (getBuffer_reads p len).granted hlong
  · have hneg : intOf len < 0 := by
      unfold intOf
      omega
    apply Refines.refused hlong
    intro f bs h
    have hlen := h.cursor.length
    exact getBuffer_negative hneg (by omega) p.depth

/-- A length of `n` bytes, and the string that follows it. -/
theorem lengthString_reads (p : Place) (n : Nat) (line : Nat) (hn : 256 ^ n ≤ 2 ^ 32)
    (len : Nat → Int) (hlen : ∀ m, m < 256 ^ n → len m = intOf m) :
    Reads host nargs bytes p 1 (do getBuffer host p.depth (len (leNat (← readOr n line))))
      (unsigned n >>= fun m => Plan.ask (.length m) >>= fun _ => Format.string p m) := by
  have hbytes : ∀ t bs t', (Format.bytes n t).result = .ok (bs, t') → leNat bs < 256 ^ n := by
    intro t bs t' h
    have hlength : bs.length = n := length_of_take h
    rw [← hlength]
    exact leNat_lt bs
  unfold unsigned
  rw [bind_map_left]
  apply (readOr_refines n line).bind_of hbytes
  intro bs hlt
  rw [hlen _ hlt]
  exact getBuffer_intOf_reads p (Nat.lt_of_lt_of_le hlt hn)

theorem getLongString_reads (p : Place) (cookie : Nat) :
    Reads host nargs bytes p 1 (getLongString host p.depth cookie)
      (stringLength cookie >>= fun m => Plan.ask (.length m) >>= fun _ => Format.string p m) := by
  unfold getLongString stringLength
  by_cases htwo : cookie = 2
  · rw [if_pos htwo, if_pos htwo]
    exact lengthString_reads p 2 484 (by decide) (fun m => (m : Int))
      fun m hm => (if_pos (by omega)).symm
  · rw [if_neg htwo, if_neg htwo]
    by_cases hfour : cookie = 4
    · rw [if_neg (not_not.mpr hfour), if_pos hfour]
      exact lengthString_reads p 4 493 (by decide) intOf fun _ _ => rfl
    · rw [if_pos hfour, if_neg hfour]
      apply Refines.of_free
      intro f bs h
      exact ⟨rfl, _, f, rfl, h.cursor.safe⟩

section

variable {one : Unpack Obj} {one' : Place → Format Obj} {p : Place}

theorem unpackArray_reads
    (hone : ∀ q : Place, q.depth = p.depth + 1 → Reads host nargs bytes q 1 one (one' q)) (n : Nat)
    (i : Int) (t : List (Obj × Obj)) :
    Reads host nargs bytes (p.inside 1) 0 (unpackArray one n i t) (array one' p n i t) := by
  induction n generalizing i t with
  | zero => exact Refines.pure (fun _ _ h => h) t
  | succ n ih =>
      have helem : Reads host nargs bytes (p.inside 1) 0
          (one >>= fun v => popped 1 >>= fun _ => pure v) (one' (p.inside 1)) := by
        apply (hone (p.inside 1) rfl).then
        intro v f bs h
        obtain ⟨f', hrun, hready⟩ := popped_ready 1 h
        exact ⟨f', by rw [run_bind_ok hrun]; rfl, hready⟩
      have hloop := helem.bind fun v => ih (i + 1) (rawseti t i v)
      simp only [bind_assoc, pure_bind] at hloop
      exact hloop

theorem unpackHash_reads
    (hone : ∀ q : Place, q.depth = p.depth + 1 → Reads host nargs bytes q 1 one (one' q))
    (fuel : Nat) (t : List (Obj × Obj)) :
    Reads host nargs bytes (p.inside 1) 0 (unpackHash one fuel t) (Format.hash one' p fuel t) := by
  induction fuel generalizing t with
  | zero => exact Refines.fail fun _ _ h => h.cursor.safe
  | succ fuel ih =>
      unfold unpackHash Format.hash
      apply (hone (p.inside 1) rfl).bind
      intro k
      split
      · -- the nil that ends the table
        apply Refines.of_free
        intro f bs h
        obtain ⟨f', hrun, hready⟩ := popped_ready 1 h
        exact ⟨rfl, f', by rw [run_bind_ok hrun]; rfl, hready⟩
      · apply (hone (p.inside 2) rfl).bind
        intro v
        split
        · exact Refines.fail fun _ _ h => h.cursor.safe
        · intro f bs h
          obtain ⟨f', hrun, hready⟩ := popped_ready 2 h
          rw [run_bind_ok hrun]
          exact ih (rawset t k v) f' bs hready

theorem unpackTable_reads
    (hone : ∀ q : Place, q.depth = p.depth + 1 → Reads host nargs bytes q 1 one (one' q))
    (fuel cookie : Nat) :
    Reads host nargs bytes p 1 (unpackTable host one p.depth fuel cookie)
      (table host.overflow one' p fuel cookie) := by
  apply (frames_refines (p.depth + 1) 0).bind
  rintro ⟨⟩
  apply (getArraySize_refines cookie).bind
  intro size
  apply (createtable_reads p size).bind
  rintro ⟨⟩
  apply (unpackArray_reads hone size.toNat 1 []).bind
  intro t
  exact (unpackHash_reads hone fuel t).map Obj.table

theorem pushValue_reads
    (hone : ∀ q : Place, q.depth = p.depth + 1 → Reads host nargs bytes q 1 one (one' q))
    (fuel : Nat) : ∀ h : Nat × Nat,
    Reads host nargs bytes p 1 (pushValue host one p.depth fuel h)
      (value host.overflow one' p fuel h)
  | (0, _) => pushed_reads p .nil
  | (1, cookie) => pushed_reads p (.boolean (cookie ≠ 0))
  | (2, cookie) => (getNumber_refines cookie).bind fun n => pushed_reads p (.number n)
  | (3, _) => by
      show Refines _ _ _ (getPointer >>= fun n => pushed (.lightuserdata n))
        (unsigned 8 >>= fun n => push p (.lightuserdata (UInt64.ofNat n)))
      unfold getPointer unsigned
      rw [bind_map_left, bind_assoc]
      exact (readOr_refines 8 420).bind fun bs => pushed_reads p _
  | (4, cookie) => getBuffer_reads p cookie
  | (5, cookie) => getLongString_reads p cookie
  | (6, cookie) => unpackTable_reads hone fuel cookie
  | (_ + 7, _) => by
      apply Refines.of_free
      intro f bs h
      exact ⟨rfl, _, f, rfl, h.cursor.safe⟩

/-- A note of where the value begins and ends. -/
theorem valueRead_reads {m : Unpack Obj} {d : Format Obj} {n : Nat}
    (hm : Reads host nargs bytes p n m d)
    (hd : ∀ bs o rest, (d bs).result = .ok (o, rest) → rest.length < bs.length) :
    Reads host nargs bytes p n
      (do let start := (← get).rb.ptr; let o ← m; valueRead start; return o) d := by
  intro f bs h
  obtain ⟨hmeets, hrefused⟩ := hm f bs h
  show (_ → Complies _ _ ((m >>= fun o => valueRead f.rb.ptr >>= fun _ => pure o) f) _) ∧
    (_ → ∃ e f', (m >>= fun o => valueRead f.rb.ptr >>= fun _ => pure o) f = .error e f' ∧ _)
  constructor
  · intro hmeet
    have hcomplies := hmeets hmeet
    cases hresult : (d bs).result with
    | error e =>
        rw [hresult] at hcomplies
        obtain ⟨e', f', hrun, hfails⟩ := hcomplies
        exact ⟨e', f', run_bind_error hrun, hfails⟩
    | ok r =>
        rw [hresult] at hcomplies
        obtain ⟨f', hrun, hready⟩ := hcomplies
        have hshrinks := hd bs r.1 r.2 hresult
        have hlen := h.cursor.length
        have hlen' := hready.cursor.length
        have hsum := h.cursor.sum
        have hsum' := hready.cursor.sum
        refine ⟨_, (run_bind_ok hrun).trans rfl, ⟨⟨hready.cursor.safe.reads, ?_⟩,
          hready.cursor.buffer, hready.cursor.nonneg, hready.cursor.sum, hready.cursor.rest,
          hready.cursor.length⟩, hready.top, hready.limit⟩
        intro v hv
        rcases List.mem_append.mp hv with hv | hv
        · exact hready.cursor.safe.values v hv
        · rw [List.mem_singleton.mp hv]
          show f.rb.ptr + 1 ≤ f'.rb.ptr
          omega
  · intro hnot
    obtain ⟨e, f', hrun, hrefuses⟩ := hrefused hnot
    exact ⟨e, f', run_bind_error hrun, hrefuses⟩

end

theorem unpackOne_reads (fuel : Nat) (p : Place) :
    Reads host nargs bytes p 1 (unpackOne host fuel p.depth) (decodeOne host.overflow fuel p) := by
  induction fuel generalizing p with
  | zero => exact Refines.fail fun _ _ h => h.cursor.safe
  | succ fuel ih =>
      have hone : ∀ q : Place, q.depth = p.depth + 1 → Reads host nargs bytes q 1
          (unpackOne host fuel (p.depth + 1)) (decodeOne host.overflow fuel q) := by
        intro q hq
        rw [← hq]
        exact ih q
      have hvalue : Reads host nargs bytes p 1
          (do
            let t := leNat (← readOr 1 514)
            pushValue host (unpackOne host fuel (p.depth + 1)) p.depth fuel (t % 8, t / 8))
          (decodeOne host.overflow (fuel + 1) p) := by
        show Refines _ _ _ _ (head >>= value host.overflow (decodeOne host.overflow fuel) p fuel)
        unfold head unsigned
        rw [Functor.map_map]
        exact (readOr_refines 1 514).bind_map fun bs => pushValue_reads hone fuel _
      have hread := valueRead_reads hvalue fun _ _ _ => decodeOne_shrinks
      simp only [bind_assoc] at hread
      exact hread

theorem request_ready {f : Frame} {bs : List UInt8} {i : Nat}
    (h : f.Ready bytes (host.frameTop nargs i) i bs) :
    ∃ f', request host i f = .ok () f' ∧ f'.Ready bytes (host.frameTop nargs (i + 1)) i bs := by
  refine ⟨_, rfl, ?_⟩
  unfold Host.frameTop
  split
  · cases host.requests i with
    | none => exact h
    | some n =>
        refine ⟨h.cursor, h.top, ?_⟩
        show max f.stack.limit (f.stack.top + n) = _
        rw [h.limit, h.top]
        rfl
  · exact h

/-- The loop of `_luaseri_unpack` ends where the stream does. -/
theorem unpackAll_refines (fuel i : Nat) :
    Refines (terms host nargs bytes) (Frame.Ready bytes (host.frameTop nargs i) i)
      (fun f bs => f.rb.At bytes bs) (unpackAll host fuel i) (decodeAll host.overflow i fuel) := by
  induction fuel generalizing i with
  | zero => exact Refines.fail fun _ _ h => h.cursor.safe
  | succ fuel ih =>
      intro f bs h
      obtain ⟨f₁, hrequest, hready⟩ := request_ready h
      unfold decodeAll
      by_cases hbs : bs = []
      · obtain ⟨f₂, hrun, hready'⟩ := rbRead_fails hready (show bs.length < 1 by rw [hbs]; simp)
        rw [if_pos hbs]
        refine ⟨fun _ => ⟨f₂, ?_, hbs ▸ hready'.cursor⟩, fun hnot => absurd Terms.meet_nil hnot⟩
        rw [unpackAll, run_bind_ok hrequest]
        show (rbRead 1 >>= _) f₁ = _
        rw [Nat.cast_one] at hrun
        rw [run_bind_ok hrun]
        rfl
      · have hpos : 1 ≤ bs.length := List.length_pos_iff.mpr hbs
        obtain ⟨f₂, hrun, -⟩ := rbRead_succeeds hready hpos
        rw [Nat.cast_one] at hrun
        -- the loop reads a value as `_unpack_one` does
        have hone : unpackAll host (fuel + 1) i f =
            (do
              let o ← unpackOne host (fuel + 1) 0
              let os ← unpackAll host fuel (i + 1)
              return o :: os : Unpack (List Obj)) f₁ := by
          rw [unpackAll, run_bind_ok hrequest, unpackOne]
          unfold readOr
          simp only [bind_assoc, pure_bind]
          show (rbRead 1 >>= _) f₁ = (rbRead 1 >>= _) f₁
          rw [run_bind_ok hrun, run_bind_ok hrun]
          rfl
        rw [if_neg hbs, hone]
        exact ((unpackOne_reads (fuel + 1) ⟨i, i, 0⟩).bind fun o =>
          (ih (i + 1)).map fun os => o :: os) f₁ bs hready

-- ============================================================================
-- Safe calls
-- ============================================================================

/-- The cursor as a call leaves it. -/
def cursorAfter {α : Type} : EStateM.Result UnpackError Frame α → ReadBlock
  | .ok _ f => f.rb
  | .error _ f => f.rb

/-- A call on a buffer of `len` bytes that keeps to the buffer, takes a byte at
    least for every value, and ends with values or with an error of Lua. -/
structure SafeCall (len : Nat) (out : EStateM.Result UnpackError Frame (List Obj)) : Prop where
  reads : ∀ r ∈ (cursorAfter out).reads, r.Safe len
  values : ∀ v ∈ (cursorAfter out).values, v.1 + 1 ≤ v.2
  ends : (∃ os f, out = .ok os f) ∨ (∃ n line f, out = .error (.invalidStream n line) f) ∨
    ∃ f, out = .error .indexIsNaN f

/-- What reading the stream asks for. -/
def streamDemands (overflow : Binary64 → Int) (bytes : List UInt8) : List Demand :=
  (decodeAll overflow 0 (bytes.length + 1) bytes).asks

/-- What the call makes of the whole stream. -/
theorem luaseriUnpack_refines (host : Host) (nargs : Nat) (bytes : List UInt8) :
    ((terms host nargs bytes).Meet (streamDemands host.overflow bytes) →
      Complies (terms host nargs bytes) (fun f bs => f.rb.At bytes bs)
        (luaseriUnpack host nargs bytes bytes.length)
        (decodeAll host.overflow 0 (bytes.length + 1) bytes).result) ∧
    (¬(terms host nargs bytes).Meet (streamDemands host.overflow bytes) →
      ∃ e f, luaseriUnpack host nargs bytes bytes.length = .error e f ∧ e.Refusal) := by
  unfold luaseriUnpack streamDemands
  by_cases hbytes : bytes = []
  · subst hbytes
    exact ⟨fun _ => ⟨_, rfl, rballInit_at []⟩, fun hnot => absurd Terms.meet_nil hnot⟩
  · have hlength : ¬(bytes.length : Int) = 0 := by
      simpa using hbytes
    rw [if_neg hlength]
    exact unpackAll_refines (bytes.length + 1) 0 _ bytes ⟨rballInit_at bytes, rfl, rfl⟩

/-- A call that has all it asks for. -/
theorem luaseriUnpack_safe (hmeet : ∀ d ∈ streamDemands host.overflow bytes, host.Grants nargs d) :
    SafeCall bytes.length (luaseriUnpack host nargs bytes bytes.length) := by
  have hcomplies := (luaseriUnpack_refines host nargs bytes).1 hmeet
  cases hdecode : (decodeAll host.overflow 0 (bytes.length + 1) bytes).result with
  | ok r =>
      rw [hdecode] at hcomplies
      obtain ⟨f, hrun, hat⟩ := hcomplies
      rw [hrun]
      exact ⟨hat.safe.reads, hat.safe.values, Or.inl ⟨r.1, f, rfl⟩⟩
  | error e =>
      rw [hdecode] at hcomplies
      obtain ⟨e', f, hrun, hfails⟩ := hcomplies
      rw [hrun]
      cases e with
      | invalid =>
          cases e' with
          | invalidStream n line =>
              exact ⟨hfails.reads, hfails.values, Or.inr (Or.inl ⟨n, line, f, rfl⟩)⟩
          | _ => exact hfails.elim
      | nanKey =>
          cases e' with
          | indexIsNaN => exact ⟨hfails.reads, hfails.values, Or.inr (Or.inr ⟨f, rfl⟩)⟩
          | _ => exact hfails.elim
      | fuel => exact absurd hdecode (decodeAll_fuel (Nat.lt_succ_self _))

/-- The deserializer is safe exactly where it is granted all that reading the stream asks
    for. -/
theorem luaseriUnpack_safe_iff (host : Host) (nargs : Nat) (bytes : List UInt8) :
    SafeCall bytes.length (luaseriUnpack host nargs bytes bytes.length) ↔
      ∀ d ∈ streamDemands host.overflow bytes, host.Grants nargs d := by
  constructor
  · intro hsafe
    by_contra hnot
    obtain ⟨e, f, hrun, hrefusal⟩ := (luaseriUnpack_refines host nargs bytes).2 hnot
    rw [hrun] at hsafe
    rcases hsafe.ends with ⟨os, f', h⟩ | ⟨n, line, f', h⟩ | ⟨f', h⟩
    · cases h
    · cases h
      exact hrefusal
    · cases h
      exact hrefusal
  · exact luaseriUnpack_safe

/-- A machine with room for everything that is not on the Lua stack. -/
def boundless (overflow : Binary64 → Int) (slots : Nat) (requests : Nat → Option Nat) : Host where
  overflow := overflow
  slots := slots
  requests := requests
  cstack _ _ := true
  memory _ := true

/-- The type byte of a long string with a length of four bytes, and `2 ^ 32 - 1`. -/
theorem long_string_unsafe :
    ¬ ∀ (host : Host) (nargs : Nat) (bytes : List UInt8),
      SafeCall bytes.length (luaseriUnpack host nargs bytes bytes.length) := by
  intro h
  have hsafe := h (boundless (fun _ => 0) LUA_MINSTACK some) 2 [0x25, 0xFF, 0xFF, 0xFF, 0xFF]
  have hread : (⟨5, 0, -1, true⟩ : Read) ∈ (cursorAfter (luaseriUnpack
      (boundless (fun _ => 0) LUA_MINSTACK some) 2 [0x25, 0xFF, 0xFF, 0xFF, 0xFF] 5)).reads := by
    decide +kernel
  have hinside := (hsafe.reads _ hread).inside rfl
  exact absurd hinside.1 (by decide)

end ZServer.Seri
