/-
  ZServer.Seri.RoundTrip

  What `_luaseri_pack` makes of a list of values `_luaseri_unpack` reads back, and
  it fails on those that are nested too deep and on no others; as long as both are granted
  what they ask for: slots of the Lua stack, and for reading also room on the C stack and
  memory.  Neither sees to that itself.
-/

import ZServer.Seri.Cursor
import ZServer.Seri.Encoding

namespace ZServer.Seri

open Lib Format Decoder

variable {h : Heap}

-- ============================================================================
-- Packing
-- ============================================================================

section Pack

variable {limit used slots : Nat} {vs : List Value}

theorem length_flatMap_valueBytes (vs : List Value) :
    (vs.flatMap (valueBytes h (MAX_DEPTH + 1))).length = encodedSize h vs := by
  unfold encodedSize
  rw [List.length_flatMap]
  simp only [length_valueBytes]

theorem valueSize_lt_of_mem {v : Value} (hsize : encodedSize h vs < 2 ^ 31) (hv : v ∈ vs) :
    valueSize h (MAX_DEPTH + 1) v < 2 ^ 31 := by
  have hle := length_le_flatMap (f := valueBytes h (MAX_DEPTH + 1)) hv
  rw [length_flatMap_valueBytes, length_valueBytes] at hle
  omega

theorem packFrom_refines (hsize : encodedSize h vs < 2 ^ 31) :
    Refines (packTerms limit) (PackState.Ready limit used) (PackState.Ready limit used)
      (packFrom h vs) (vs.forM (encode h (MAX_DEPTH + 1) used)) :=
  Refines.forM vs fun _ hv => packOne_refines _ (valueSize_lt_of_mem hsize hv)

/-- The two results are pushed above the arguments. -/
theorem packClose_eq {s : PackState} {bytes : List UInt8}
    (hs : s.Ready limit used (wbInit.contents ++ bytes)) (hlt : bytes.length < 2 ^ 31) :
    packClose s = (do
      pushSlot
      pushSlot
      return (bytes, (bytes.length : Int)) : Pack (List UInt8 × Int)) s := by
  have hheader : wbInit.contents.length = 4 := by rw [wbInit_contents, length_leBytes]
  have hdrop : s.wb.contents.drop 4 = bytes := by
    rw [hs.contents]
    exact List.drop_left' hheader
  have hlength : s.wb.contents.length - 4 = bytes.length := by
    rw [← List.length_drop, hdrop]
  have hseri := seri_wbClose hs.counts (by rw [hlength]; exact hlt)
  rw [hdrop, hlength] at hseri
  have hget : (get : Pack PackState) s = .ok s s := rfl
  unfold packClose
  rw [run_bind_ok hget, hseri]

theorem packClose_ok {s : PackState} {bytes : List UInt8}
    (hs : s.Ready limit used (wbInit.contents ++ bytes)) (hlt : bytes.length < 2 ^ 31)
    (htwo : used + 1 < limit) : ∃ s', packClose s = .ok (bytes, (bytes.length : Int)) s' := by
  obtain ⟨s₁, hpush, hready⟩ := pushSlot_ok hs (by omega)
  obtain ⟨s₂, hpush', -⟩ := pushSlot_ok hready htwo
  refine ⟨s₂, ?_⟩
  rw [packClose_eq hs hlt, run_bind_ok hpush, run_bind_ok hpush']
  rfl

theorem packClose_luaStack {s : PackState} {bytes : List UInt8}
    (hs : s.Ready limit used (wbInit.contents ++ bytes)) (hlt : bytes.length < 2 ^ 31)
    (hnot : ¬used + 1 < limit) : ∃ s', packClose s = .error .luaStack s' := by
  rw [packClose_eq hs hlt]
  by_cases hone : used < limit
  · obtain ⟨s', hpush, hready⟩ := pushSlot_ok hs hone
    rw [run_bind_ok hpush]
    exact ⟨s', run_bind_error (pushSlot_fails hready hnot)⟩
  · exact ⟨s, run_bind_error (pushSlot_fails hs hone)⟩

theorem packStart_ready (slots : Nat) (vs : List Value) :
    PackState.Ready (vs.length + slots) vs.length ⟨wbInit, .enter vs.length slots⟩
      wbInit.contents :=
  ⟨rfl, wbInit_counts, rfl, rfl⟩

/-- What is nested too deep asks for no results. -/
theorem packDemands_of_tooDeep (hdeep : TooDeep h vs) :
    (vs.forM (encode h (MAX_DEPTH + 1) vs.length)) wbInit.contents =
      ⟨packDemands h vs, .error ()⟩ := by
  obtain ⟨v, hv, hdeep⟩ := tooDeep_iff.mp hdeep
  obtain ⟨asks, hrun⟩ := RunsOut.forM hv (@encode_runsOut h vs.length _ _ hdeep) wbInit.contents
  unfold packDemands encodeAll
  rw [Plan.bind_of_error hrun, hrun]

theorem packDemands_of_not_tooDeep (hnot : ¬TooDeep h vs) :
    ∃ asks, (vs.forM (encode h (MAX_DEPTH + 1) vs.length)) wbInit.contents =
        ⟨asks, .ok ((), wbInit.contents ++ vs.flatMap (valueBytes h (MAX_DEPTH + 1)))⟩ ∧
      packDemands h vs = asks ++ [vs.length, vs.length + 1] ∧
      ∀ limit, vs.length ≤ limit → ((∀ n ∈ asks, n < limit) ↔
        vs.length + maxSlots (vs.map (packSlots h (MAX_DEPTH + 1))) ≤ limit) := by
  have hemits := Emits.forM vs fun v hv =>
    @encode_emits h vs.length _ _ fun hdeep => hnot (tooDeep_iff.mpr ⟨v, hv, hdeep⟩)
  obtain ⟨asks, hrun, hasks⟩ := hemits wbInit.contents
  refine ⟨asks, hrun, ?_, hasks⟩
  unfold packDemands encodeAll
  rw [Plan.bind_of_ok hrun]
  rfl

/-- The slots that all pushes of packing need. -/
theorem packDemands_lt_iff (hnot : ¬TooDeep h vs) (slots : Nat) :
    (∀ n ∈ packDemands h vs, n < vs.length + slots) ↔
      (∀ v ∈ vs, packSlots h (MAX_DEPTH + 1) v ≤ slots) ∧ 2 ≤ slots := by
  obtain ⟨asks, -, hdemands, hasks⟩ := packDemands_of_not_tooDeep hnot
  have hmax := @maxSlots_le (vs.map (packSlots h (MAX_DEPTH + 1))) slots
  rw [List.forall_mem_map] at hmax
  rw [hdemands, List.forall_mem_append, hasks _ (Nat.le_add_right ..), ← hmax]
  simp only [List.forall_mem_cons, List.not_mem_nil, false_implies, implies_true, and_true]
  omega

/-- A push that finds no slot is not seen: it writes beyond the last. -/
theorem luaseriPack_luaStack (hsize : encodedSize h vs < 2 ^ 31)
    (hslots : ¬∀ n ∈ packDemands h vs, n < vs.length + slots) :
    luaseriPack slots h vs = .error .luaStack := by
  obtain ⟨hmeets, hrefused⟩ := packFrom_refines hsize _ _ (packStart_ready slots vs)
  have hfails : ∃ s, (packFrom h vs >>= fun _ => packClose) ⟨wbInit, .enter vs.length slots⟩ =
      .error .luaStack s := by
    by_cases hfrom : (packTerms (vs.length + slots)).Meet
        ((vs.forM (encode h (MAX_DEPTH + 1) vs.length)) wbInit.contents).asks
    · -- the values are packed, and there is no slot for the results
      have hnot : ¬TooDeep h vs := by
        intro hdeep
        rw [packDemands_of_tooDeep hdeep] at hfrom
        exact hslots hfrom
      obtain ⟨asks, hrun, hdemands, -⟩ := packDemands_of_not_tooDeep hnot
      have hcomplies := hmeets hfrom
      rw [hrun] at hcomplies hfrom
      obtain ⟨s, hpack, hready⟩ := hcomplies
      rw [run_bind_ok hpack]
      apply packClose_luaStack hready (by rw [length_flatMap_valueBytes]; exact hsize)
      intro htwo
      apply hslots
      rw [hdemands]
      refine List.forall_mem_append.mpr ⟨hfrom, ?_⟩
      simp only [List.forall_mem_cons, List.not_mem_nil, false_implies, implies_true, and_true]
      omega
    · obtain ⟨e, s, hpack, rfl⟩ := hrefused hfrom
      exact ⟨s, run_bind_error hpack⟩
  obtain ⟨s, hfails⟩ := hfails
  unfold luaseriPack
  rw [hfails]

/-- Where packing makes a stream it has had its slots. -/
theorem packDemands_of_ok {r : List UInt8 × Int} (hsize : encodedSize h vs < 2 ^ 31)
    (hpack : luaseriPack slots h vs = .ok r) : ∀ n ∈ packDemands h vs, n < vs.length + slots := by
  by_contra hslots
  rw [luaseriPack_luaStack hsize hslots] at hpack
  cases hpack

/-- What is nested too deep is refused. -/
theorem luaseriPack_tooDepth (hsize : encodedSize h vs < 2 ^ 31) (hdeep : TooDeep h vs)
    (hslots : ∀ n ∈ packDemands h vs, n < vs.length + slots) :
    luaseriPack slots h vs = .error .tooDepth := by
  have hcomplies := (packFrom_refines hsize _ _ (packStart_ready slots vs)).1
  rw [packDemands_of_tooDeep hdeep] at hcomplies
  obtain ⟨e, s, hpack, rfl⟩ := hcomplies hslots
  unfold luaseriPack
  rw [run_bind_error hpack]

/-- What is not is packed into its bytes. -/
theorem luaseriPack_ok (hsize : encodedSize h vs < 2 ^ 31) (hnot : ¬TooDeep h vs)
    (hslots : ∀ n ∈ packDemands h vs, n < vs.length + slots) :
    luaseriPack slots h vs =
      .ok (vs.flatMap (valueBytes h (MAX_DEPTH + 1)), (encodedSize h vs : Int)) := by
  obtain ⟨asks, hrun, hdemands, -⟩ := packDemands_of_not_tooDeep hnot
  have htwo := ((packDemands_lt_iff hnot slots).mp hslots).2
  have hcomplies := (packFrom_refines hsize _ _ (packStart_ready slots vs)).1
  rw [hrun] at hcomplies
  rw [hdemands, List.forall_mem_append] at hslots
  obtain ⟨s, hpack, hready⟩ := hcomplies hslots.1
  obtain ⟨s', hclose⟩ := packClose_ok hready (by rw [length_flatMap_valueBytes]; exact hsize)
    (by omega)
  unfold luaseriPack
  rw [run_bind_ok hpack, hclose, length_flatMap_valueBytes]

end Pack

-- ============================================================================
-- Reading back
-- ============================================================================

/-- What reading a value asks for, down to `levels` levels. -/
def valueDemands (h : Heap) : Nat → Place → Value → List Demand
  | 0, _, _ => []
  | levels + 1, p, .table ref =>
      tableDemands p (h ref) (fun i => valueDemands h levels (p.inside 1) ((h ref).rawgeti i))
        (fun e => valueDemands h levels (p.inside 1) e.1)
        fun e => valueDemands h levels (p.inside 2) e.2
  | _ + 1, p, v => scalarDemands p v

/-- What reading all values asks for, from round `i` on. -/
def unpackDemands (h : Heap) : Nat → List Value → List Demand
  | _, [] => []
  | i, v :: vs => valueDemands h (MAX_DEPTH + 1) ⟨i, i, 0⟩ v ++ unpackDemands h (i + 1) vs

section Unpack

variable {overflow : Binary64 → Int} {host : Host} {nargs : Nat} {vs : List Value}

/-- The bytes of a value that is not too deep decode to it. -/
theorem valueBytes_encodes {levels : Nat} {p : Place} {v : Value} (hnot : ¬Deep h levels v)
    (hsize : valueSize h levels v < 2 ^ 31) :
    1 ≤ (valueBytes h levels v).length ∧
      Encodes overflow h p v (valueBytes h levels v) (valueDemands h levels p v) := by
  induction levels generalizing p v with
  | zero => exact absurd trivial hnot
  | succ levels ih =>
      refine ⟨by rw [length_valueBytes]; exact valueSize_pos levels v, ?_⟩
      cases v with
      | table ref =>
          apply table_encodes
          · intro i hi
            have hitem := valueSize_item hsize hi
            exact (ih (fun hdeep => hnot (Or.inl ⟨i, hi, hdeep⟩)) hitem).2
          · intro e he
            have hmem := (List.mem_filter.mp he).1
            have hkey := (valueSize_entry hsize he).1
            exact ih (fun hdeep => hnot (Or.inr ⟨e, hmem, Or.inl hdeep⟩)) hkey
          · intro e he
            have hmem := (List.mem_filter.mp he).1
            have hvalue := (valueSize_entry hsize he).2
            exact (ih (fun hdeep => hnot (Or.inr ⟨e, hmem, Or.inr hdeep⟩)) hvalue).2
      | _ =>
          apply scalar_encodes (by rintro _ ⟨⟩)
          rw [length_scalarBytes (by rintro _ ⟨⟩)]
          exact hsize

theorem values_encode (overflow : Binary64 → Int) (hnot : ¬TooDeep h vs)
    (hsize : encodedSize h vs < 2 ^ 31) (p : Place) : ∀ v ∈ vs,
      1 ≤ (valueBytes h (MAX_DEPTH + 1) v).length ∧
        Encodes overflow h p v (valueBytes h (MAX_DEPTH + 1) v)
          (valueDemands h (MAX_DEPTH + 1) p v) := by
  intro v hv
  exact valueBytes_encodes (fun hdeep => hnot (tooDeep_iff.mpr ⟨v, hv, hdeep⟩))
    (valueSize_lt_of_mem hsize hv)

/-- Values one after another decode one after another, up to the end. -/
theorem decodeAll_flatMap (vs : List Value) (i fuel : Nat)
    (hfuel : (vs.flatMap (valueBytes h (MAX_DEPTH + 1))).length < fuel)
    (hvs : ∀ v ∈ vs, ∀ p, 1 ≤ (valueBytes h (MAX_DEPTH + 1) v).length ∧
      Encodes overflow h p v (valueBytes h (MAX_DEPTH + 1) v)
        (valueDemands h (MAX_DEPTH + 1) p v)) :
    ∃ objs, List.Forall₂ (DeepEq h) vs objs ∧
      decodeAll overflow i fuel (vs.flatMap (valueBytes h (MAX_DEPTH + 1))) =
        ⟨unpackDemands h i vs, .ok (objs, [])⟩ := by
  induction vs generalizing i fuel with
  | nil =>
      cases fuel with
      | zero => exact absurd hfuel (Nat.not_lt_zero _)
      | succ fuel => exact ⟨[], .nil, rfl⟩
  | cons v vs ih =>
      cases fuel with
      | zero => exact absurd hfuel (Nat.not_lt_zero _)
      | succ fuel =>
          obtain ⟨hpos, hencodes⟩ := hvs v (by simp) ⟨i, i, 0⟩
          rw [List.flatMap_cons] at hfuel ⊢
          rw [List.length_append] at hfuel
          obtain ⟨o, ho, hone⟩ := hencodes (fuel + 1) (by omega)
          obtain ⟨objs, hobjs, hall⟩ := ih (i + 1) fuel (by omega)
            fun v' hv' => hvs v' (by simp [hv'])
          refine ⟨o :: objs, .cons ho hobjs, ?_⟩
          have hne : valueBytes h (MAX_DEPTH + 1) v ++
              vs.flatMap (valueBytes h (MAX_DEPTH + 1)) ≠ [] := by
            intro hnil
            rw [(List.append_eq_nil_iff.mp hnil).1] at hpos
            exact absurd hpos (Nat.not_succ_le_zero 0)
          have hrest := Plan.map_of_ok (f := (o :: ·)) hall
          unfold decodeAll
          rw [if_neg hne]
          exact Plan.bind_eq (f := fun o => (o :: ·) <$> decodeAll overflow (i + 1) fuel) (hone _)
            hrest

/-- What has been packed asks for what the values ask for. -/
theorem streamDemands_eq (overflow : Binary64 → Int) (hnot : ¬TooDeep h vs)
    (hsize : encodedSize h vs < 2 ^ 31) :
    streamDemands overflow (vs.flatMap (valueBytes h (MAX_DEPTH + 1))) = unpackDemands h 0 vs := by
  obtain ⟨objs, -, hall⟩ := decodeAll_flatMap vs 0 _ (Nat.lt_succ_self _)
    fun v hv p => values_encode overflow hnot hsize p v hv
  unfold streamDemands
  rw [hall]

/-- The values come out again. -/
theorem luaseriUnpack_ok (hnot : ¬TooDeep h vs) (hsize : encodedSize h vs < 2 ^ 31)
    (hgranted : ∀ d ∈ unpackDemands h 0 vs, host.Grants nargs d) :
    ∃ objs f, luaseriUnpack host nargs (vs.flatMap (valueBytes h (MAX_DEPTH + 1)))
        (encodedSize h vs) = .ok objs f ∧ List.Forall₂ (DeepEq h) vs objs := by
  obtain ⟨objs, hobjs, hall⟩ := decodeAll_flatMap vs 0 _ (Nat.lt_succ_self _)
    fun v hv p => values_encode host.overflow hnot hsize p v hv
  have hcomplies := (luaseriUnpack_refines host nargs
    (vs.flatMap (valueBytes h (MAX_DEPTH + 1)))).1
  rw [streamDemands_eq _ hnot hsize, hall, length_flatMap_valueBytes] at hcomplies
  obtain ⟨f, hrun, -⟩ := hcomplies hgranted
  exact ⟨objs, f, hrun, hobjs⟩

/-- Something is refused, and the values do not come out. -/
theorem luaseriUnpack_refused (hnot : ¬TooDeep h vs) (hsize : encodedSize h vs < 2 ^ 31)
    (hrefused : ¬∀ d ∈ unpackDemands h 0 vs, host.Grants nargs d) :
    ∃ e f, luaseriUnpack host nargs (vs.flatMap (valueBytes h (MAX_DEPTH + 1)))
      (encodedSize h vs) = .error e f := by
  have hfails := (luaseriUnpack_refines host nargs
    (vs.flatMap (valueBytes h (MAX_DEPTH + 1)))).2
  rw [streamDemands_eq _ hnot hsize, length_flatMap_valueBytes] at hfails
  obtain ⟨e, f, hrun, -⟩ := hfails hrefused
  exact ⟨e, f, hrun⟩

/-- Where the stream is read, all has been granted that it asks for. -/
theorem unpackDemands_of_ok {objs : List Obj} {f : Frame} (hnot : ¬TooDeep h vs)
    (hsize : encodedSize h vs < 2 ^ 31)
    (hunpack : luaseriUnpack host nargs (vs.flatMap (valueBytes h (MAX_DEPTH + 1)))
      (encodedSize h vs) = .ok objs f) : ∀ d ∈ unpackDemands h 0 vs, host.Grants nargs d := by
  by_contra hrefused
  obtain ⟨e, f', hrun⟩ := luaseriUnpack_refused hnot hsize hrefused
  rw [hrun] at hunpack
  cases hunpack

end Unpack

-- ============================================================================
-- The round trip
-- ============================================================================

/-- In a call with so many slots above its arguments packing fails on what is nested too
    deep and on nothing else, and what it makes of anything else is read back. -/
structure RoundTrips (slots : Nat) (host : Host) (nargs : Nat) (h : Heap) (vs : List Value) :
    Prop where
  fails : luaseriPack slots h vs = .error .tooDepth ↔ TooDeep h vs
  returns : ¬TooDeep h vs → ∃ buffer sz objs f, luaseriPack slots h vs = .ok (buffer, sz) ∧
    luaseriUnpack host nargs buffer sz = .ok objs f ∧ List.Forall₂ (DeepEq h) vs objs

/-- Values make the round trip exactly where packing has a slot for each of its pushes, and
    reading is granted all it asks for. -/
theorem luaseriUnpack_luaseriPack (slots : Nat) (host : Host) (nargs : Nat) (h : Heap)
    (vs : List Value) (hsize : encodedSize h vs < 2 ^ 31) :
    RoundTrips slots host nargs h vs ↔
      (∀ n ∈ packDemands h vs, n < vs.length + slots) ∧
        (¬TooDeep h vs → ∀ d ∈ unpackDemands h 0 vs, host.Grants nargs d) := by
  constructor
  · intro htrips
    constructor
    · by_cases hdeep : TooDeep h vs
      · have hfails := htrips.fails.mpr hdeep
        by_contra hslots
        rw [luaseriPack_luaStack hsize hslots] at hfails
        cases hfails
      · obtain ⟨buffer, sz, objs, f, hpack, -⟩ := htrips.returns hdeep
        exact packDemands_of_ok hsize hpack
    · intro hnot
      obtain ⟨buffer, sz, objs, f, hpack, hunpack, -⟩ := htrips.returns hnot
      rw [luaseriPack_ok hsize hnot (packDemands_of_ok hsize hpack)] at hpack
      cases hpack
      exact unpackDemands_of_ok hnot hsize hunpack
  · rintro ⟨hslots, hgranted⟩
    constructor
    · constructor
      · intro hfails
        by_contra hnot
        rw [luaseriPack_ok hsize hnot hslots] at hfails
        cases hfails
      · intro hdeep
        exact luaseriPack_tooDepth hsize hdeep hslots
    · intro hnot
      obtain ⟨objs, f, hunpack, hobjs⟩ := luaseriUnpack_ok hnot hsize (hgranted hnot)
      exact ⟨_, _, objs, f, luaseriPack_ok hsize hnot hslots, hunpack, hobjs⟩

/-- `{"hi", k = true}` -/
def greeting : LuaTable where
  entries := [(.number (.ofInt 1), .string [104, 105]), (.string [107], .boolean true)]
  border := 1
  keys := by
    rintro e (_ | ⟨_, _ | ⟨_, ⟨⟩⟩⟩)
    · exact Binary64.isNaN_ofInt (by decide)
    · exact trivial
  values := by
    rintro e (_ | ⟨_, _ | ⟨_, ⟨⟩⟩⟩)
    · rintro ⟨⟩
    · rintro ⟨⟩
  distinct := by decide
  border_lt := by decide

theorem greeting_not_tooDeep : ¬ TooDeep (fun _ => greeting) [.table 0, .nil] := by
  intro hdeep
  obtain ⟨v, hv, hdeep⟩ := tooDeep_iff.mp hdeep
  have htwo := hdeep.mono (show 2 ≤ MAX_DEPTH + 1 by decide)
  rcases hv with _ | ⟨_, _ | ⟨_, ⟨⟩⟩⟩
  · rcases htwo with ⟨i, hi, hitem⟩ | ⟨e, he, hentry⟩
    · have hone : i = 1 := by
        have hrange : 1 ≤ i ∧ i < 1 + 1 := List.mem_range'_1.mp hi
        omega
      have hget : greeting.rawgeti 1 = .string [104, 105] := by decide +kernel
      rw [hone, hget] at hitem
      exact hitem
    · rcases he with _ | ⟨_, _ | ⟨_, ⟨⟩⟩⟩
      · exact hentry.elim id id
      · exact hentry.elim id id
  · exact htwo

theorem luaseriUnpack_luaseriPack_greeting :
    RoundTrips LUA_MINSTACK (boundless (fun _ => 0) LUA_MINSTACK some) 2 (fun _ => greeting)
      [.table 0, .nil] :=
  (luaseriUnpack_luaseriPack _ _ 2 _ _ (by decide +kernel)).mpr
    ⟨by decide +kernel, fun _ => by decide +kernel⟩

/-- Tables of one entry, each in the next. -/
def nest : Heap
  | 0 =>
      { entries := []
        border := 0
        keys := by rintro e ⟨⟩
        values := by rintro e ⟨⟩
        distinct := .nil
        border_lt := by decide }
  | n + 1 =>
      { entries := [(.string [120], .table n)]
        border := 0
        keys := by
          rintro e (_ | ⟨_, ⟨⟩⟩)
          exact trivial
        values := by
          rintro e (_ | ⟨_, ⟨⟩⟩)
          rintro ⟨⟩
        distinct := List.pairwise_singleton _ _
        border_lt := by decide }

theorem nest_deep {levels n : Nat} (hdeep : Deep nest levels (.table n)) : levels ≤ n + 1 := by
  induction n generalizing levels with
  | zero =>
      cases levels with
      | zero => exact Nat.zero_le _
      | succ levels =>
          rcases hdeep with ⟨i, hi, -⟩ | ⟨e, he, -⟩
          · cases hi
          · cases he
  | succ n ih =>
      cases levels with
      | zero => exact Nat.zero_le _
      | succ levels =>
          rcases hdeep with ⟨i, hi, -⟩ | ⟨e, he, hentry⟩
          · cases hi
          · cases List.mem_singleton.mp he
            rcases hentry with hkey | hvalue
            · cases levels with
              | zero => omega
              | succ levels => exact hkey.elim
            · exact Nat.succ_le_succ (ih hvalue)

theorem nest_not_tooDeep {n : Nat} (hn : n < MAX_DEPTH) : ¬TooDeep nest [.table n] := by
  intro hdeep
  obtain ⟨v, hv, hdeep⟩ := tooDeep_iff.mp hdeep
  rw [List.mem_singleton.mp hv] at hdeep
  have hle := nest_deep hdeep
  omega

theorem string_not_tooDeep (s : List UInt8) : ¬TooDeep h [.string s] := by
  intro hdeep
  obtain ⟨v, hv, hdeep⟩ := tooDeep_iff.mp hdeep
  rw [List.mem_singleton.mp hv] at hdeep
  exact hdeep

/-- A string that the C stack has no room for. -/
theorem string_not_roundTrips {slots nargs : Nat} {host : Host} {s : List UInt8}
    (hsize : encodedSize h [.string s] < 2 ^ 31) (hslots : 2 ≤ slots)
    (hstack : host.cstack 0 s.length = false) : ¬RoundTrips slots host nargs h [.string s] := by
  intro htrips
  have hnot := string_not_tooDeep (h := h) s
  have hpacks := (packDemands_lt_iff hnot slots).mpr ⟨by simp [packSlots], hslots⟩
  obtain ⟨buffer, sz, objs, f, hpack, hunpack, -⟩ := htrips.returns hnot
  rw [luaseriPack_ok hsize hnot hpacks] at hpack
  cases hpack
  have hframes : Demand.frames 0 s.length ∈ unpackDemands h 0 [.string s] := by
    simp [unpackDemands, valueDemands, scalarDemands, stringDemands]
  have hroom : host.cstack 0 s.length = true := unpackDemands_of_ok hnot hsize hunpack _ hframes
  rw [hstack] at hroom
  cases hroom

/-- In a Lua state with the 40 slots it begins with there is none for packing 32 tables,
    each in the next; and with a C stack of 8 MiB no room for reading a string of 16 MiB. -/
theorem not_roundTrips :
    (¬TooDeep nest [.table 31] ∧ encodedSize nest [.table 31] < 2 ^ 31 ∧
      ¬RoundTrips 40 (boundless (fun _ => 0) 40 some) 2 nest [.table 31]) ∧
    ∀ s : List UInt8, s.length = 2 ^ 24 →
      ¬TooDeep nest [.string s] ∧ encodedSize nest [.string s] < 2 ^ 31 ∧
        ¬RoundTrips 40
          { boundless (fun _ => 0) 40 some with cstack _ len := decide (len < 2 ^ 23) } 2
          nest [.string s] := by
  have hnot : ¬TooDeep nest [.table 31] := nest_not_tooDeep (by decide)
  have hsize : encodedSize nest [.table 31] < 2 ^ 31 := by decide +kernel
  refine ⟨⟨hnot, hsize, fun htrips => ?_⟩, fun s hlength => ?_⟩
  · obtain ⟨buffer, sz, objs, f, hpack, -⟩ := htrips.returns hnot
    have hslots := packDemands_of_ok hsize hpack
    revert hslots
    decide +kernel
  · have hsize : encodedSize nest [.string s] < 2 ^ 31 := by
      simp [encodedSize, valueSize, stringSize, hlength, MAX_DEPTH, MAX_COOKIE]
    refine ⟨string_not_tooDeep s, hsize, string_not_roundTrips hsize (by decide) ?_⟩
    rw [hlength]
    rfl

end ZServer.Seri
