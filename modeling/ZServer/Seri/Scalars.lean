/-
  ZServer.Seri.Scalars

  What packing appends to the blocks (`Appends`), and that the bytes of a scalar
  decode to it (`Encodes`), in each of the forms that its size may choose.
-/

import ZServer.Seri.Pack

namespace ZServer.Seri

open Lib

-- ============================================================================
-- Appending
-- ============================================================================

/-- `f` appends `bytes`, and keeps count of them. -/
def Appends (f : WriteBlock → WriteBlock) (bytes : List UInt8) : Prop :=
  ∀ wb, (f wb).contents = wb.contents ++ bytes ∧ (wb.Counts → (f wb).Counts)

theorem Appends.push (bytes : List UInt8) : Appends (wbPush · bytes) bytes :=
  fun wb => ⟨contents_wbPush wb bytes, fun h => h.wbPush bytes⟩

theorem Appends.comp {f g : WriteBlock → WriteBlock} {b b' : List UInt8} (hf : Appends f b)
    (hg : Appends g b') : Appends (fun wb => g (f wb)) (b ++ b') := by
  intro wb
  obtain ⟨hcontents, hcounts⟩ := hf wb
  obtain ⟨hcontents', hcounts'⟩ := hg (f wb)
  refine ⟨?_, fun h => hcounts' (hcounts h)⟩
  rw [hcontents', hcontents, List.append_assoc]

-- ============================================================================
-- The bytes of a scalar
-- ============================================================================

def integerBytes (v : Int) (type : Nat) : List UInt8 :=
  if v = 0 then [combineType type 0]
  else if v < 0 then [combineType type 4] ++ leBytes 4 (int32Bits v)
  else if v < 0x100 then [combineType type 1] ++ leBytes 1 v.toNat
  else if v < 0x10000 then [combineType type 2] ++ leBytes 2 v.toNat
  else [combineType type 4] ++ leBytes 4 (int32Bits v)

theorem wbInteger_appends (v : Int) (type : Nat) :
    Appends (wbInteger · v type) (integerBytes v type) := by
  unfold wbInteger integerBytes
  split
  · exact Appends.push _
  · split
    · exact (Appends.push _).comp (Appends.push _)
    · split
      · exact (Appends.push _).comp (Appends.push _)
      · split
        · exact (Appends.push _).comp (Appends.push _)
        · exact (Appends.push _).comp (Appends.push _)

def stringBytes (s : List UInt8) : List UInt8 :=
  if s.length < MAX_COOKIE then [combineType TYPE_SHORT_STRING s.length] ++ s
  else if s.length < 0x10000 then
    [combineType TYPE_LONG_STRING 2] ++ leBytes 2 s.length ++ s
  else [combineType TYPE_LONG_STRING 4] ++ leBytes 4 s.length ++ s

theorem wbString_appends (s : List UInt8) :
    Appends (wbString · s s.length) (stringBytes s) := by
  unfold wbString stringBytes
  have htake : s.take (s.length : Int).toNat = s := by simp
  rw [htake]
  split
  · rename_i hlen
    rw [if_pos (by exact_mod_cast hlen)]
    split
    · exact (Appends.push _).comp (Appends.push _)
    · rename_i hpos
      -- nothing is pushed for an empty string
      have hnil : s = [] := List.length_eq_zero_iff.mp (by omega)
      rw [hnil, List.append_nil]
      exact Appends.push _
  · rename_i hlen
    rw [if_neg (by exact_mod_cast hlen)]
    split
    · rename_i hshort
      rw [if_pos (by exact_mod_cast hshort)]
      exact ((Appends.push _).comp (Appends.push _)).comp (Appends.push _)
    · rename_i hshort
      rw [if_neg (by exact_mod_cast hshort)]
      exact ((Appends.push _).comp (Appends.push _)).comp (Appends.push _)

/-- The bytes of a value that is not a table. -/
def scalarBytes : Value → List UInt8
  | .nil => [UInt8.ofNat TYPE_NIL]
  | .boolean b => [combineType TYPE_BOOLEAN (if b then 1 else 0)]
  | .number n =>
      match n.int32? with
      | some x => integerBytes x TYPE_NUMBER
      | none => [combineType TYPE_NUMBER 8] ++ n.toBytes
  | .string s => stringBytes s
  | .lightuserdata p => [UInt8.ofNat TYPE_USERDATA] ++ leBytes 8 p.toNat
  | .table _ => []

theorem scalarBytes_int {n : Binary64} {x : Int} (hn : n.int32? = some x) :
    scalarBytes (.number n) = integerBytes x TYPE_NUMBER := by
  simp [scalarBytes, hn]

theorem scalarBytes_double {n : Binary64} (hn : n.int32? = none) :
    scalarBytes (.number n) = [combineType TYPE_NUMBER 8] ++ n.toBytes := by
  simp [scalarBytes, hn]

theorem length_stringBytes (s : List UInt8) : (stringBytes s).length = stringSize s.length := by
  unfold stringBytes stringSize
  split
  · rw [List.length_append]
    rfl
  · split
    · rw [List.length_append, List.length_append, length_leBytes]
      rfl
    · rw [List.length_append, List.length_append, length_leBytes]
      rfl

-- ============================================================================
-- Decoding them
-- ============================================================================

open Format Decoder

theorem combineType_toNat : ∀ t < 8, ∀ v < 32, (combineType t (v : Nat)).toNat = t + 8 * v := by
  decide

theorem bytes_append {n : Nat} {xs : List UInt8} (h : xs.length = n) (rest : List UInt8) :
    bytes n (xs ++ rest) = ⟨[], .ok (xs, rest)⟩ :=
  take_append _ h rest

/-- A type byte says what has been combined in it. -/
theorem head_combineType {t v : Nat} (ht : t < 8) (hv : v < 32) (rest : List UInt8) :
    head (combineType t v :: rest) = ⟨[], .ok ((t, v), rest)⟩ := by
  have htoNat := combineType_toNat t ht v hv
  have hbyte : leNat [combineType t v] = t + 8 * v := by simp [leNat, htoNat]
  have hmap := Plan.map_of_ok (f := fun b => (b % 8, b / 8)) (Plan.map_of_ok (f := leNat)
    (bytes_append (show [combineType t v].length = 1 from rfl) rest))
  rw [hbyte, show (t + 8 * v) % 8 = t by omega, show (t + 8 * v) / 8 = v by omega] at hmap
  exact hmap

theorem unsigned_leBytes {k n : Nat} (h : n < 256 ^ k) (rest : List UInt8) :
    unsigned k (leBytes k n ++ rest) = ⟨[], .ok (n, rest)⟩ := by
  have hmap := Plan.map_of_ok (f := leNat) (bytes_append (length_leBytes k n) rest)
  rw [leNat_leBytes, Nat.mod_eq_of_lt h] at hmap
  exact hmap

/-- Every form of an `int` decodes to it. -/
theorem integerBytes_eq {v : Int} (type : Nat) (hlo : -2 ^ 31 ≤ v) (hhi : v < 2 ^ 31) :
    ∃ (cookie : Nat) (payload : List UInt8), integerBytes v type = combineType type cookie :: payload ∧
      cookie < 8 ∧ payload.length + 1 = integerSize v ∧
      ∀ rest, integer cookie (payload ++ rest) = ⟨[], .ok (v, rest)⟩ := by
  have hfour : ∀ rest, integer 4 (leBytes 4 (int32Bits v) ++ rest) = ⟨[], .ok (v, rest)⟩ :=
    fun rest => by
      have hmap := Plan.map_of_ok (f := intOf) (unsigned_leBytes (k := 4) (int32Bits_lt v) rest)
      rw [intOf_int32Bits hlo hhi] at hmap
      exact hmap
  unfold integerBytes integerSize
  by_cases hzero : v = 0
  · rw [if_pos hzero, if_pos hzero, hzero]
    exact ⟨0, [], rfl, by decide, rfl, fun rest => rfl⟩
  · rw [if_neg hzero, if_neg hzero]
    by_cases hneg : v < 0
    · rw [if_pos hneg, if_pos hneg]
      exact ⟨4, leBytes 4 (int32Bits v), rfl, by decide, by rw [length_leBytes], hfour⟩
    · have hcast : ((v.toNat : Nat) : Int) = v := Int.toNat_of_nonneg (not_lt.mp hneg)
      rw [if_neg hneg, if_neg hneg]
      by_cases hbyte : v < 0x100
      · rw [if_pos hbyte, if_pos hbyte]
        refine ⟨1, leBytes 1 v.toNat, rfl, by decide, by rw [length_leBytes], fun rest => ?_⟩
        have hmap := Plan.map_of_ok (f := Int.ofNat)
          (unsigned_leBytes (k := 1) (n := v.toNat) (by omega) rest)
        rw [Int.ofNat_eq_natCast, hcast] at hmap
        exact hmap
      · rw [if_neg hbyte, if_neg hbyte]
        by_cases hword : v < 0x10000
        · rw [if_pos hword, if_pos hword]
          refine ⟨2, leBytes 2 v.toNat, rfl, by decide, by rw [length_leBytes], fun rest => ?_⟩
          have hmap := Plan.map_of_ok (f := Int.ofNat)
            (unsigned_leBytes (k := 2) (n := v.toNat) (by omega) rest)
          rw [Int.ofNat_eq_natCast, hcast] at hmap
          exact hmap
        · rw [if_neg hword, if_neg hword]
          exact ⟨4, leBytes 4 (int32Bits v), rfl, by decide, by rw [length_leBytes], hfour⟩

theorem number_of_integer {cookie : Nat} {bs rest : List UInt8} {v : Int} (hcookie : cookie < 8)
    (h : integer cookie bs = ⟨[], .ok (v, rest)⟩) :
    number cookie bs = ⟨[], .ok (Binary64.ofInt v, rest)⟩ := by
  unfold number
  rw [if_neg (by omega)]
  exact Plan.map_of_ok h

/-- What is decoded without asking for anything, and pushed. -/
theorem push_of_ok {α : Type} {d : Format α} {f : α → Obj} {a : α} {bs rest : List UInt8}
    (p : Place) (h : d bs = ⟨[], .ok (a, rest)⟩) :
    (d >>= fun a => push p (f a)) bs = ⟨[.slot p.round p.used], .ok (f a, rest)⟩ := by
  rw [Plan.bind_of_ok h]
  rfl

/-- Whatever follows, `bs` decodes at `p` to the value, with as much fuel as it has bytes, and
    asks for `ds`. -/
def Encodes (overflow : Binary64 → Int) (h : Heap) (p : Place) (v : Value) (bs : List UInt8)
    (ds : List Demand) : Prop :=
  ∀ fuel, bs.length ≤ fuel →
    ∃ o, DeepEq h v o ∧ ∀ rest, decodeOne overflow fuel p (bs ++ rest) = ⟨ds, .ok (o, rest)⟩

def stringDemands (p : Place) (len : Nat) : List Demand :=
  (if len < MAX_COOKIE then [] else [.length len]) ++ [.frames p.depth len, .slot p.round p.used]

/-- What reading a value that is not a table asks for. -/
def scalarDemands (p : Place) : Value → List Demand
  | .string s => stringDemands p s.length
  | _ => [.slot p.round p.used]

variable {overflow : Binary64 → Int} {h : Heap} {p : Place}

/-- A type byte and what it announces. -/
theorem Encodes.of_value {v : Value} {t c : Nat} {payload : List UInt8} {ds : List Demand}
    (ht : t < 8) (hc : c < 32)
    (hvalue : ∀ fuel, payload.length ≤ fuel → ∃ o, DeepEq h v o ∧ ∀ rest,
      value overflow (decodeOne overflow fuel) p fuel (t, c) (payload ++ rest) =
        ⟨ds, .ok (o, rest)⟩) :
    Encodes overflow h p v (combineType t c :: payload) ds := by
  intro fuel hfuel
  cases fuel with
  | zero => exact absurd hfuel (Nat.not_succ_le_zero _)
  | succ fuel =>
      obtain ⟨o, heq, hdecode⟩ := hvalue fuel (Nat.le_of_succ_le_succ hfuel)
      refine ⟨o, heq, fun rest => ?_⟩
      unfold decodeOne
      rw [List.cons_append, Plan.bind_of_ok (head_combineType ht hc _), hdecode rest]
      rfl

theorem nil_encodes : Encodes overflow h p .nil [UInt8.ofNat TYPE_NIL] [.slot p.round p.used] :=
  Encodes.of_value (t := 0) (c := 0) (by decide) (by decide) fun _ _ =>
    ⟨.nil, .nil, fun _ => rfl⟩

theorem boolean_encodes (b : Bool) :
    Encodes overflow h p (.boolean b) [combineType TYPE_BOOLEAN (if b then 1 else 0)]
      [.slot p.round p.used] := by
  cases b with
  | false =>
      exact Encodes.of_value (t := 1) (c := 0) (by decide) (by decide) fun _ _ =>
        ⟨.boolean false, .boolean false, fun _ => rfl⟩
  | true =>
      exact Encodes.of_value (t := 1) (c := 1) (by decide) (by decide) fun _ _ =>
        ⟨.boolean true, .boolean true, fun _ => rfl⟩

/-- A number that is an `int` comes out as the double of that. -/
theorem integer_encodes {n : Binary64} {v : Int} (hn : n.int32? = some v) :
    (integerBytes v TYPE_NUMBER).length = integerSize v ∧
      Encodes overflow h p (.number n) (integerBytes v TYPE_NUMBER) [.slot p.round p.used] := by
  obtain ⟨hlo, hhi, heq⟩ := Binary64.int32?_eq_some.mp hn
  obtain ⟨cookie, payload, hbytes, hcookie, hlength, hinteger⟩ :=
    integerBytes_eq TYPE_NUMBER hlo hhi
  rw [hbytes]
  refine ⟨hlength, Encodes.of_value (by decide) (by omega) fun _ _ =>
    ⟨.number (.ofInt v), .number (Or.inl (Binary64.eq_symm heq)), fun rest => ?_⟩⟩
  exact push_of_ok p (number_of_integer hcookie (hinteger rest))

/-- Any other comes out with the same bits. -/
theorem number_encodes (n : Binary64) :
    Encodes overflow h p (.number n) ([combineType TYPE_NUMBER 8] ++ n.toBytes)
      [.slot p.round p.used] := by
  refine Encodes.of_value (t := 2) (c := 8) (by decide) (by decide) fun _ _ =>
    ⟨.number n, .number ?_, fun rest => ?_⟩
  · cases hnan : n.isNaN with
    | true => exact Or.inr ⟨rfl, rfl⟩
    | false => exact Or.inl (Binary64.eq_refl hnan)
  · have hmap := Plan.map_of_ok (f := Binary64.ofBytes)
      (bytes_append (show n.toBytes.length = 8 from length_leBytes ..) rest)
    rw [Binary64.ofBytes_toBytes] at hmap
    exact push_of_ok p hmap

theorem lightuserdata_encodes (u : UInt64) :
    Encodes overflow h p (.lightuserdata u) ([UInt8.ofNat TYPE_USERDATA] ++ leBytes 8 u.toNat)
      [.slot p.round p.used] := by
  refine Encodes.of_value (t := 3) (c := 0) (by decide) (by decide) fun _ _ =>
    ⟨.lightuserdata u, .lightuserdata u, fun rest => ?_⟩
  have hlt : u.toNat < 256 ^ 8 := u.toNat_lt
  have hpush := push_of_ok (f := fun n => Obj.lightuserdata (UInt64.ofNat n)) p
    (unsigned_leBytes hlt rest)
  rw [UInt64.ofNat_toNat] at hpush
  exact hpush

/-- The bytes of a string, once its length is known. -/
theorem string_append (s rest : List UInt8) :
    Format.string p s.length (s ++ rest) =
      ⟨[.frames p.depth s.length, .slot p.round p.used], .ok (.string s, rest)⟩ := by
  unfold Format.string
  rw [Plan.ask_bind, push_of_ok p (bytes_append rfl rest)]

/-- A string after its length. -/
theorem string_of_length {cookie k : Nat} {s : List UInt8} (hlt : s.length < 256 ^ k)
    (hlen : stringLength cookie = unsigned k) (rest : List UInt8) :
    (stringLength cookie >>= fun len => Plan.ask (.length len) >>= fun _ => Format.string p len)
        (leBytes k s.length ++ s ++ rest) =
      ⟨[.length s.length, .frames p.depth s.length, .slot p.round p.used],
        .ok (.string s, rest)⟩ := by
  rw [hlen, List.append_assoc, Plan.bind_of_ok (unsigned_leBytes hlt _), Plan.ask_bind,
    string_append]
  rfl

theorem string_encodes {s : List UInt8} (hlong : s.length < 2 ^ 31) :
    Encodes overflow h p (.string s) (stringBytes s) (stringDemands p s.length) := by
  unfold stringBytes stringDemands
  by_cases hlen : s.length < MAX_COOKIE
  · rw [if_pos hlen, if_pos hlen]
    exact Encodes.of_value (t := 4) (by decide) hlen fun _ _ =>
      ⟨.string s, .string s, fun rest => string_append s rest⟩
  · rw [if_neg hlen, if_neg hlen]
    split
    · rename_i hshort
      exact Encodes.of_value (t := 5) (c := 2) (by decide) (by decide) fun _ _ =>
        ⟨.string s, .string s, fun rest => string_of_length (k := 2) hshort rfl rest⟩
    · exact Encodes.of_value (t := 5) (c := 4) (by decide) (by decide) fun _ _ =>
        ⟨.string s, .string s, fun rest => string_of_length (k := 4) (by omega) rfl rest⟩

/-- Whatever is not a table comes out as it was. -/
theorem scalar_encodes {v : Value} (hv : ∀ ref, v ≠ .table ref)
    (hlt : (scalarBytes v).length < 2 ^ 31) :
    Encodes overflow h p v (scalarBytes v) (scalarDemands p v) := by
  cases v with
  | nil => exact nil_encodes
  | boolean b => exact boolean_encodes b
  | number n =>
      cases hn : n.int32? with
      | some x =>
          rw [scalarBytes_int hn]
          exact (integer_encodes hn).2
      | none =>
          rw [scalarBytes_double hn]
          exact number_encodes n
  | string s =>
      apply string_encodes
      have hlength : (scalarBytes (.string s)).length = _ := length_stringBytes s
      unfold stringSize at hlength
      omega
  | lightuserdata u => exact lightuserdata_encodes u
  | table ref => exact absurd rfl (hv ref)

end ZServer.Seri
