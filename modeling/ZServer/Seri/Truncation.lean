/-
  ZServer.Seri.Truncation

  Streams of `src/lua-seri.c` that end too early.

  A front of a stream decodes as the stream does, as far as it goes, and asks for no more
  (`decodeOne_extends`).  So `_luaseri_unpack` gives the values that are there as a
  whole, when the cut is between two of them, and raises an error when it is inside one;
  it never makes up another value.
-/

import ZServer.Seri.RoundTrip

namespace ZServer.Seri

open Lib Format Decoder

-- ============================================================================
-- Fronts of streams
-- ============================================================================

/-- The errors that more bytes, and more fuel, may heal. -/
def FormatError.Early (e : FormatError) : Prop := e = .invalid ∨ e = .fuel

theorem invalid_early : FormatError.Early .invalid := Or.inl rfl

theorem fuel_early : FormatError.Early .fuel := Or.inr rfl

section Extends

variable {overflow : Binary64 → Int} {one one' : Place → Format Obj}

theorem bytes_extends (n : Nat) : Extends FormatError.Early (Format.bytes n) (Format.bytes n) :=
  Extends.take invalid_early n

theorem unsigned_extends (n : Nat) : Extends FormatError.Early (unsigned n) (unsigned n) :=
  (bytes_extends n).map leNat

theorem head_extends : Extends FormatError.Early head head := (unsigned_extends 1).map _

theorem integer_extends (cookie : Nat) :
    Extends FormatError.Early (integer cookie) (integer cookie) := by
  unfold integer
  split
  · exact Extends.pure 0
  · exact (unsigned_extends 1).map _
  · exact (unsigned_extends 2).map _
  · exact (unsigned_extends 4).map _
  · exact Extends.fail _

theorem number_extends (cookie : Nat) :
    Extends FormatError.Early (number cookie) (number cookie) := by
  unfold number
  split
  · exact (bytes_extends 8).map _
  · exact (integer_extends cookie).map _

theorem stringLength_extends (cookie : Nat) :
    Extends FormatError.Early (stringLength cookie) (stringLength cookie) := by
  unfold stringLength
  split
  · exact unsigned_extends 2
  · split
    · exact unsigned_extends 4
    · exact Extends.fail _

theorem push_extends (p : Place) (o : Obj) :
    Extends FormatError.Early (push p o) (push p o) :=
  (Extends.ask _).bind fun _ => Extends.pure o

theorem string_extends (p : Place) (len : Nat) :
    Extends FormatError.Early (Format.string p len) (Format.string p len) := by
  apply (Extends.ask _).bind
  rintro ⟨⟩
  apply (bytes_extends len).bind
  intro s
  exact push_extends p (.string s)

theorem arraySize_extends (cookie : Nat) :
    Extends FormatError.Early (arraySize overflow cookie) (arraySize overflow cookie) := by
  unfold arraySize
  split
  · apply head_extends.bind
    rintro ⟨type, cookie⟩
    dsimp only
    split
    · exact (number_extends cookie).map _
    · exact Extends.fail _
  · exact Extends.pure _

theorem array_extends (hone : ∀ q, Extends FormatError.Early (one q) (one' q)) (p : Place) (n : Nat)
    (i : Int) (t : List (Obj × Obj)) :
    Extends FormatError.Early (array one p n i t) (array one' p n i t) := by
  induction n generalizing i t with
  | zero => exact Extends.pure t
  | succ n ih => exact (hone (p.inside 1)).bind fun v => ih (i + 1) _

theorem hash_extends (hone : ∀ q, Extends FormatError.Early (one q) (one' q)) (p : Place)
    {fuel fuel' : Nat} (hle : fuel ≤ fuel') (t : List (Obj × Obj)) :
    Extends FormatError.Early (hash one p fuel t) (hash one' p fuel' t) := by
  induction fuel generalizing fuel' t with
  | zero => exact Extends.want fuel_early _
  | succ fuel ih =>
      obtain ⟨fuel', rfl⟩ : ∃ n, fuel' = n + 1 := ⟨fuel' - 1, by omega⟩
      unfold Format.hash
      apply (hone (p.inside 1)).bind
      intro k
      split
      · exact Extends.pure t
      · apply (hone (p.inside 2)).bind
        intro v
        split
        · exact Extends.fail _
        · exact ih (by omega) _

theorem value_extends (hone : ∀ q, Extends FormatError.Early (one q) (one' q)) (p : Place)
    {fuel fuel' : Nat} (hle : fuel ≤ fuel') (h : Nat × Nat) :
    Extends FormatError.Early (value overflow one p fuel h) (value overflow one' p fuel' h) := by
  unfold value
  split
  · exact push_extends p _
  · exact push_extends p _
  · exact (number_extends _).bind fun n => push_extends p _
  · exact (unsigned_extends 8).bind fun n => push_extends p _
  · exact string_extends p _
  · apply (stringLength_extends _).bind
    intro len
    exact (Extends.ask _).bind fun _ => string_extends p len
  · apply (Extends.ask _).bind
    rintro ⟨⟩
    apply (arraySize_extends _).bind
    intro size
    apply ((Extends.ask _).bind fun _ => Extends.ask _).bind
    rintro ⟨⟩
    apply (array_extends hone p _ _ _).bind
    intro t
    exact (hash_extends hone p hle t).map _
  · exact Extends.fail _

/-- A value that a front of a stream gives is the one that the stream gives. -/
theorem decodeOne_extends {fuel fuel' : Nat} (hle : fuel ≤ fuel') (p : Place) :
    Extends FormatError.Early (decodeOne overflow fuel p) (decodeOne overflow fuel' p) := by
  induction fuel generalizing fuel' p with
  | zero => exact Extends.want fuel_early _
  | succ fuel ih =>
      obtain ⟨fuel', rfl⟩ : ∃ n, fuel' = n + 1 := ⟨fuel' - 1, by omega⟩
      unfold decodeOne
      apply head_extends.bind
      intro h
      exact value_extends (ih (by omega)) p (by omega) h

end Extends

-- ============================================================================
-- Cuts
-- ============================================================================

variable {overflow : Binary64 → Int} {host : Host} {nargs slots : Nat} {h : Heap}
  {vs : List Value}

/-- Too little of a value, and what it has asked for until then. -/
theorem decodeOne_cut {v : Value} {place : Place} {p q : List UInt8} {ds : List Demand}
    {fuel : Nat} (hencodes : Encodes overflow h place v (p ++ q) ds) (hq : q ≠ [])
    (hfuel : p.length < fuel) :
    ∃ asks, decodeOne overflow fuel place p = ⟨asks, .error .invalid⟩ ∧ asks <+: ds := by
  obtain ⟨o, -, hwhole⟩ := hencodes (fuel + (p ++ q).length) (by omega)
  have hwhole := hwhole []
  rw [List.append_nil] at hwhole
  have hextends : Extends FormatError.Early (decodeOne overflow fuel place)
      (decodeOne overflow (fuel + (p ++ q).length) place) := decodeOne_extends (by omega) place
  obtain ⟨hok, herror⟩ := hextends p q
  have hnotfuel : (decodeOne overflow fuel place p).result ≠ .error .fuel := decodeOne_fuel hfuel
  rcases hcut : decodeOne overflow fuel place p with ⟨asks, e | ⟨o', rest⟩⟩
  · rw [hcut] at herror hnotfuel
    obtain ⟨hasks, hmore⟩ := herror e rfl
    rw [hwhole] at hasks hmore
    rcases hmore with (rfl | rfl) | hmore
    · exact ⟨asks, rfl, hasks⟩
    · exact absurd rfl hnotfuel
    · cases hmore
  · rw [hcut] at hok
    have hmore := hok o' rest rfl
    rw [hwhole] at hmore
    simp only [Asking.mk.injEq, Except.ok.injEq, Prod.mk.injEq] at hmore
    have hnil : rest ++ q = [] := hmore.2.2.symm
    exact absurd (List.append_eq_nil_iff.mp hnil).2 hq

/-- A front of the values' bytes: some of the values, or one of them in part. -/
theorem decodeAll_cut {p q : List UInt8} {i fuel : Nat}
    (hvs : ∀ v ∈ vs, ∀ place, 1 ≤ (valueBytes h (MAX_DEPTH + 1) v).length ∧
      Encodes overflow h place v (valueBytes h (MAX_DEPTH + 1) v)
        (valueDemands h (MAX_DEPTH + 1) place v))
    (hpq : p ++ q = vs.flatMap (valueBytes h (MAX_DEPTH + 1))) (hfuel : p.length < fuel) :
    (∃ j, p = (vs.take j).flatMap (valueBytes h (MAX_DEPTH + 1))) ∨
      ∃ asks, decodeAll overflow i fuel p = ⟨asks, .error .invalid⟩ ∧
        asks <+: unpackDemands h i vs := by
  induction vs generalizing p i fuel with
  | nil =>
      simp only [List.flatMap_nil, List.append_eq_nil_iff] at hpq
      exact Or.inl ⟨0, hpq.1⟩
  | cons v vs ih =>
      obtain ⟨fuel, rfl⟩ : ∃ n, fuel = n + 1 := ⟨fuel - 1, by omega⟩
      obtain ⟨hpos, hencodes⟩ := hvs v (by simp) ⟨i, i, 0⟩
      rw [List.flatMap_cons, List.append_eq_append_iff] at hpq
      by_cases hp : p = []
      · exact Or.inl ⟨0, by simp [hp]⟩
      rcases hpq with ⟨r, hv, -⟩ | ⟨p', rfl, hvs'⟩
      · by_cases hr : r = []
        · -- the cut is after the first value
          exact Or.inl ⟨1, by simp [hv, hr]⟩
        · rw [hv] at hencodes
          obtain ⟨asks, hcut, hasks⟩ := decodeOne_cut hencodes hr hfuel
          right
          refine ⟨asks, ?_, hasks.trans (List.prefix_append _ _)⟩
          unfold decodeAll
          rw [if_neg hp, Plan.bind_of_error hcut]
      · have hlen : (valueBytes h (MAX_DEPTH + 1) v ++ p').length =
            (valueBytes h (MAX_DEPTH + 1) v).length + p'.length := List.length_append
        obtain ⟨o, -, hone⟩ := hencodes (fuel + 1) (by omega)
        have hrest := @ih p' (i + 1) fuel (fun v' hv' => hvs v' (by simp [hv'])) hvs'.symm
          (by omega)
        rcases hrest with ⟨j, rfl⟩ | ⟨asks, herror, hasks⟩
        · exact Or.inl ⟨j + 1, by simp⟩
        · right
          refine ⟨valueDemands h (MAX_DEPTH + 1) ⟨i, i, 0⟩ v ++ asks, ?_, ?_⟩
          · unfold decodeAll
            rw [if_neg hp, Plan.bind_of_ok (hone p'), Plan.bind_of_error herror]
          · exact (List.prefix_append_right_inj _).mpr hasks

theorem luaseriUnpack_of_invalid {bs : List UInt8} {asks : List Demand}
    (hdecode : decodeAll host.overflow 0 (bs.length + 1) bs = ⟨asks, .error .invalid⟩)
    (hgranted : ∀ d ∈ asks, host.Grants nargs d) :
    ∃ n line f, luaseriUnpack host nargs bs bs.length = .error (.invalidStream n line) f := by
  have hcomplies := (luaseriUnpack_refines host nargs bs).1
  unfold streamDemands at hcomplies
  rw [hdecode] at hcomplies
  obtain ⟨e, f, hrun, hfails⟩ := hcomplies hgranted
  cases e with
  | invalidStream n line => exact ⟨n, line, f, hrun⟩
  | _ => exact hfails.elim

/-- The first values are the first bytes. -/
theorem take_flatMap_valueBytes (vs : List Value) (j : Nat) :
    (vs.flatMap (valueBytes h (MAX_DEPTH + 1))).take (encodedSize h (vs.take j)) =
      (vs.take j).flatMap (valueBytes h (MAX_DEPTH + 1)) := by
  have hsplit : vs.flatMap (valueBytes h (MAX_DEPTH + 1)) =
      (vs.take j).flatMap (valueBytes h (MAX_DEPTH + 1)) ++
        (vs.drop j).flatMap (valueBytes h (MAX_DEPTH + 1)) := by
    rw [← List.flatMap_append, List.take_append_drop]
  rw [hsplit, ← length_flatMap_valueBytes, List.take_left]

/-- They ask first. -/
theorem unpackDemands_take (i j : Nat) (vs : List Value) :
    unpackDemands h i (vs.take j) <+: unpackDemands h i vs := by
  induction vs generalizing i j with
  | nil => simp
  | cons v vs ih =>
      cases j with
      | zero => exact List.nil_prefix
      | succ j => exact (List.prefix_append_right_inj _).mpr (ih (i + 1) j)

/-- The size of fewer values. -/
theorem encodedSize_take_le (vs : List Value) (j : Nat) :
    encodedSize h (vs.take j) ≤ encodedSize h vs := by
  rw [← length_flatMap_valueBytes, ← length_flatMap_valueBytes, ← take_flatMap_valueBytes]
  exact List.length_take_le' ..

theorem not_tooDeep_take (hnot : ¬TooDeep h vs) (j : Nat) : ¬TooDeep h (vs.take j) := by
  intro hdeep
  obtain ⟨v, hv, hdeep⟩ := tooDeep_iff.mp hdeep
  exact hnot (tooDeep_iff.mpr ⟨v, List.mem_of_mem_take hv, hdeep⟩)

/-- A stream that is cut off after `k` bytes gives the values that end there, or the error
    for a broken stream. -/
theorem luaseriUnpack_cut (hnot : ¬TooDeep h vs) (hsize : encodedSize h vs < 2 ^ 31)
    (hslots : ∀ n ∈ packDemands h vs, n < vs.length + slots)
    (hgranted : ∀ d ∈ unpackDemands h 0 vs, host.Grants nargs d) {k : Nat}
    (hk : k ≤ encodedSize h vs) :
    ∃ buffer, luaseriPack slots h vs = .ok (buffer, (encodedSize h vs : Int)) ∧
      (∀ j, k = encodedSize h (vs.take j) → ∃ objs f,
        luaseriUnpack host nargs (buffer.take k) k = .ok objs f ∧
          List.Forall₂ (DeepEq h) (vs.take j) objs) ∧
      ((∀ j, k ≠ encodedSize h (vs.take j)) → ∃ n line f,
        luaseriUnpack host nargs (buffer.take k) k = .error (.invalidStream n line) f) := by
  refine ⟨_, luaseriPack_ok hsize hnot hslots, ?_, ?_⟩
  · intro j hj
    have hle := encodedSize_take_le (h := h) vs j
    obtain ⟨objs, f, hrun, hobjs⟩ := luaseriUnpack_ok (not_tooDeep_take hnot j) (by omega)
      fun d hd => hgranted d ((unpackDemands_take 0 j vs).subset hd)
    refine ⟨objs, f, ?_, hobjs⟩
    rw [hj, take_flatMap_valueBytes]
    exact hrun
  · intro hinside
    have hlen : ((vs.flatMap (valueBytes h (MAX_DEPTH + 1))).take k).length = k := by
      rw [List.length_take, length_flatMap_valueBytes]
      omega
    rcases @decodeAll_cut host.overflow h vs _ _ 0 _ (fun v hv p => values_encode host.overflow hnot
      hsize p v hv) (List.take_append_drop k _) (Nat.lt_succ_self _) with ⟨j, hj⟩ | herror
    · have hboundary := congrArg List.length hj
      rw [hlen, length_flatMap_valueBytes] at hboundary
      exact absurd hboundary (hinside j)
    · obtain ⟨asks, herror, hasks⟩ := herror
      have hrun := luaseriUnpack_of_invalid herror fun d hd => hgranted d (hasks.subset hd)
      rwa [hlen] at hrun

theorem luaseriUnpack_cut_greeting :
    ∃ buffer, luaseriPack LUA_MINSTACK (fun _ => greeting) [.table 0, .nil] =
        .ok (buffer, (encodedSize (fun _ => greeting) [.table 0, .nil] : Int)) ∧
      (∀ j, 5 = encodedSize (fun _ => greeting) ([Value.table 0, .nil].take j) → ∃ objs f,
        luaseriUnpack (boundless (fun _ => 0) LUA_MINSTACK some) 2 (buffer.take 5) (5 : Nat) =
            .ok objs f ∧
          List.Forall₂ (DeepEq fun _ => greeting) ([Value.table 0, .nil].take j) objs) ∧
      ((∀ j, 5 ≠ encodedSize (fun _ => greeting) ([Value.table 0, .nil].take j)) →
        ∃ n line f, luaseriUnpack (boundless (fun _ => 0) LUA_MINSTACK some) 2 (buffer.take 5)
          (5 : Nat) = .error (.invalidStream n line) f) :=
  luaseriUnpack_cut greeting_not_tooDeep (by decide +kernel) (by decide +kernel)
    (by decide +kernel) (by decide +kernel)

end ZServer.Seri
