/-
  ZServer.Seri.Slots

  The contract of the Lua stack: a C function has `LUA_MINSTACK` slots above its arguments,
  and what `lua_checkstack` has granted it; whatever else the machine has.

  What packing takes is `packSlots` of a value; what reading takes is `unpackSlots`.
-/

import ZServer.Seri.RoundTrip

namespace ZServer.Seri

open Lib

/-- The slots that the contract gives, on a machine that refuses nothing else; in the rounds
    of `grants` the request of as many slots as there are values succeeds. -/
def contract (overflow : Binary64 → Int) (grants : Nat → Bool) : Host :=
  boundless overflow LUA_MINSTACK fun i => if grants i then some i else none

/-- How many slots there are before round `i`. -/
abbrev frameTop (nargs : Nat) (grants : Nat → Bool) (i : Nat) : Nat :=
  (contract (fun _ => 0) grants).frameTop nargs i

/-- How many slots reading a value takes, with the one that it ends in. -/
def unpackSlots (h : Heap) : Nat → Value → Nat
  | levels + 1, .table ref =>
      let t := h ref
      max (maxSlots ((List.range' 1 t.border).map fun i => unpackSlots h levels (t.rawgeti i)))
        (max (maxSlots (t.hashPart.map fun e =>
          max (unpackSlots h levels e.1) (unpackSlots h levels e.2 + 1))) 1) + 1
  | _, _ => 1

variable {overflow : Binary64 → Int} {grants : Nat → Bool} {nargs : Nat} {h : Heap}
  {vs : List Value}

theorem contract_frameTop (overflow : Binary64 → Int) (i : Nat) :
    (contract overflow grants).frameTop nargs i = frameTop nargs grants i := by
  induction i with
  | zero => rfl
  | succ i ih =>
      unfold frameTop at ih ⊢
      simp only [Host.frameTop, ih]
      rfl

/-- Where there is room outside the Lua stack, a slot is all that can be wanting. -/
theorem slot_granted_iff {round used : Nat} :
    (contract overflow grants).Grants nargs (.slot round used) ↔
      used + 1 ≤ frameTop nargs grants (round + 1) := by
  rw [← contract_frameTop overflow]
  exact Iff.rfl

theorem frames_granted (depth len : Nat) :
    (contract overflow grants).Grants nargs (.frames depth len) := rfl

theorem array_granted (size : Nat) : (contract overflow grants).Grants nargs (.array size) :=
  Or.inr rfl

theorem scalarDemands_granted_iff {p : Place} {v : Value} (hv : ∀ ref, v ≠ .table ref)
    (hlt : (scalarBytes v).length < 2 ^ 31) :
    (∀ d ∈ scalarDemands p v, (contract overflow grants).Grants nargs d) ↔
      p.used + 1 ≤ frameTop nargs grants (p.round + 1) := by
  cases v with
  | string s =>
      have hlength : (scalarBytes (.string s)).length = _ := length_stringBytes s
      have hlong : (contract overflow grants).Grants nargs (.length s.length) := by
        unfold stringSize at hlength
        show s.length < 2 ^ 31
        omega
      show (∀ d ∈ stringDemands p s.length, _) ↔ _
      unfold stringDemands
      split
      · simp [frames_granted, slot_granted_iff]
      · simp [hlong, frames_granted, slot_granted_iff]
  | table ref => exact absurd rfl (hv ref)
  | _ => simp [scalarDemands, slot_granted_iff]

theorem tableDemands_granted_iff {p : Place} {t : LuaTable} {items : Nat → List Demand}
    {keys values : Value × Value → List Demand} :
    (∀ d ∈ tableDemands p t items keys values, (contract overflow grants).Grants nargs d) ↔
      p.used + 2 ≤ frameTop nargs grants (p.round + 1) ∧
        (∀ i ∈ List.range' 1 t.border, ∀ d ∈ items i, (contract overflow grants).Grants nargs d) ∧
        ∀ e ∈ t.hashPart, (∀ d ∈ keys e, (contract overflow grants).Grants nargs d) ∧
          ∀ d ∈ values e, (contract overflow grants).Grants nargs d := by
  unfold tableDemands
  simp only [List.forall_mem_append, List.forall_mem_cons, List.forall_mem_flatMap, frames_granted,
    array_granted, slot_granted_iff, List.not_mem_nil, false_implies, implies_true, and_true,
    true_and]
  constructor
  · rintro ⟨-, hitems, hentries, hlast⟩
    exact ⟨hlast, hitems, hentries⟩
  · rintro ⟨hlast, hitems, hentries⟩
    exact ⟨by omega, hitems, hentries, hlast⟩

/-- What a table takes is what each of its values takes where it is read. -/
theorem unpackSlots_table_le {levels ref used top : Nat} :
    used + unpackSlots h (levels + 1) (.table ref) ≤ top ↔
      used + 2 ≤ top ∧
        (∀ i ∈ List.range' 1 (h ref).border,
          used + 1 + unpackSlots h levels ((h ref).rawgeti i) ≤ top) ∧
        ∀ e ∈ (h ref).hashPart, used + 1 + unpackSlots h levels e.1 ≤ top ∧
          used + 2 + unpackSlots h levels e.2 ≤ top := by
  show used + (max (maxSlots _) (max (maxSlots _) 1) + 1) ≤ _ ↔ _
  by_cases htop : used + 2 ≤ top
  · -- what is left above the table
    obtain ⟨m, rfl⟩ : ∃ m, top = used + 1 + m := ⟨top - (used + 1), by omega⟩
    have hleft : ∀ a b, used + (max a (max b 1) + 1) ≤ used + 1 + m ↔ a ≤ m ∧ b ≤ m := by
      omega
    rw [hleft, maxSlots_le, maxSlots_le, List.forall_mem_map, List.forall_mem_map,
      and_iff_right htop]
    apply and_congr
    · apply forall₂_congr
      omega
    · apply forall₂_congr
      omega
  · exact iff_of_false (by omega) fun hall => htop hall.1

/-- A value asks for its slots. -/
theorem valueDemands_granted_iff {levels : Nat} {p : Place} {v : Value}
    (hnot : ¬Deep h levels v) (hsize : valueSize h levels v < 2 ^ 31) :
    (∀ d ∈ valueDemands h levels p v, (contract overflow grants).Grants nargs d) ↔
      p.used + unpackSlots h levels v ≤ frameTop nargs grants (p.round + 1) := by
  induction levels generalizing p v with
  | zero => exact absurd trivial hnot
  | succ levels ih =>
      cases v with
      | table ref =>
          have hitems : ∀ i ∈ List.range' 1 (h ref).border,
              (∀ d ∈ valueDemands h levels (p.inside 1) ((h ref).rawgeti i),
                (contract overflow grants).Grants nargs d) ↔
              p.used + 1 + unpackSlots h levels ((h ref).rawgeti i) ≤
                frameTop nargs grants (p.round + 1) := fun i hi =>
            ih (fun hdeep => hnot (Or.inl ⟨i, hi, hdeep⟩)) (valueSize_item hsize hi)
          have hentries : ∀ e ∈ (h ref).hashPart,
              ((∀ d ∈ valueDemands h levels (p.inside 1) e.1,
                (contract overflow grants).Grants nargs d) ∧
              ∀ d ∈ valueDemands h levels (p.inside 2) e.2,
                (contract overflow grants).Grants nargs d) ↔
              p.used + 1 + unpackSlots h levels e.1 ≤ frameTop nargs grants (p.round + 1) ∧
                p.used + 2 + unpackSlots h levels e.2 ≤ frameTop nargs grants (p.round + 1) :=
            fun e he =>
              have hmem := (List.mem_filter.mp he).1
              have hless := valueSize_entry hsize he
              and_congr (ih (fun hdeep => hnot (Or.inr ⟨e, hmem, Or.inl hdeep⟩)) hless.1)
                (ih (fun hdeep => hnot (Or.inr ⟨e, hmem, Or.inr hdeep⟩)) hless.2)
          unfold valueDemands
          rw [tableDemands_granted_iff, forall₂_congr hitems, forall₂_congr hentries,
            unpackSlots_table_le]
      | _ =>
          apply scalarDemands_granted_iff (by rintro _ ⟨⟩)
          rw [length_scalarBytes (by rintro _ ⟨⟩)]
          exact hsize

/-- Every value asks for its slots above the values before it. -/
theorem unpackDemands_granted_iff (i : Nat)
    (hvs : ∀ v ∈ vs, ¬Deep h (MAX_DEPTH + 1) v ∧ valueSize h (MAX_DEPTH + 1) v < 2 ^ 31) :
    (∀ d ∈ unpackDemands h i vs, (contract overflow grants).Grants nargs d) ↔
      ∀ k v, vs[k]? = some v →
        i + k + unpackSlots h (MAX_DEPTH + 1) v ≤ frameTop nargs grants (i + k + 1) := by
  induction vs generalizing i with
  | nil => simp [unpackDemands]
  | cons v vs ih =>
      obtain ⟨hnot, hsize⟩ := hvs v (by simp)
      unfold unpackDemands
      rw [List.forall_mem_append, valueDemands_granted_iff hnot hsize,
        ih (i + 1) fun v' hv' => hvs v' (by simp [hv'])]
      constructor
      · rintro ⟨hfirst, hrest⟩ k v' hk
        cases k with
        | zero =>
            cases hk
            exact hfirst
        | succ k =>
            have hle := hrest k v' hk
            rwa [Nat.add_assoc i 1 k, Nat.add_comm 1 k] at hle
      · intro hall
        refine ⟨hall 0 v rfl, fun k v' hk => ?_⟩
        have hle := hall (k + 1) v' hk
        rwa [Nat.add_assoc i 1 k, Nat.add_comm 1 k]

-- ============================================================================
-- The contract
-- ============================================================================

/-- No push of packing the arguments, and none of unpacking the stream in a call with
    `nargs` arguments, goes beyond the slots that there are. -/
structure KeepsToStack (overflow : Binary64 → Int) (grants : Nat → Bool) (nargs : Nat) (h : Heap)
    (vs : List Value) : Prop where
  packs : luaseriPack LUA_MINSTACK h vs ≠ .error .luaStack
  unpacks : ∀ slots buffer sz, luaseriPack slots h vs = .ok (buffer, sz) →
    ∃ objs f, luaseriUnpack (contract overflow grants) nargs buffer sz = .ok objs f

theorem packs_iff (hnot : ¬TooDeep h vs) (hsize : encodedSize h vs < 2 ^ 31) :
    luaseriPack LUA_MINSTACK h vs ≠ .error .luaStack ↔
      ∀ v ∈ vs, packSlots h (MAX_DEPTH + 1) v ≤ LUA_MINSTACK := by
  have hdemands := packDemands_lt_iff hnot LUA_MINSTACK
  rw [and_iff_left (by decide)] at hdemands
  rw [← hdemands]
  constructor
  · intro hpack
    by_contra hslots
    exact hpack (luaseriPack_luaStack hsize hslots)
  · intro hslots hpack
    rw [luaseriPack_ok hsize hnot hslots] at hpack
    cases hpack

/-- With enough slots packing makes a stream of the values. -/
theorem exists_luaseriPack_ok (hnot : ¬TooDeep h vs) (hsize : encodedSize h vs < 2 ^ 31) :
    ∃ slots, luaseriPack slots h vs =
      .ok (vs.flatMap (valueBytes h (MAX_DEPTH + 1)), (encodedSize h vs : Int)) := by
  refine ⟨maxSlots (vs.map (packSlots h (MAX_DEPTH + 1))) + 2, luaseriPack_ok hsize hnot ?_⟩
  refine (packDemands_lt_iff hnot _).mpr ⟨fun v hv => ?_, Nat.le_add_left ..⟩
  have hle := maxSlots_le.mp (Nat.le_refl _) _ (List.mem_map_of_mem
    (f := packSlots h (MAX_DEPTH + 1)) hv)
  omega

/-- The stack is kept to just in case every argument can be packed in the slots that a
    call has, and every value be unpacked in what has been granted by its round. -/
theorem keepsToStack_iff (grants : Nat → Bool) (nargs : Nat) (hnot : ¬TooDeep h vs)
    (hsize : encodedSize h vs < 2 ^ 31) :
    KeepsToStack overflow grants nargs h vs ↔
      (∀ v ∈ vs, packSlots h (MAX_DEPTH + 1) v ≤ LUA_MINSTACK) ∧
        ∀ i v, vs[i]? = some v →
          i + unpackSlots h (MAX_DEPTH + 1) v ≤ frameTop nargs grants (i + 1) := by
  have hgranted : (∀ d ∈ unpackDemands h 0 vs, (contract overflow grants).Grants nargs d) ↔ _ :=
    unpackDemands_granted_iff 0 fun v hv =>
      ⟨fun hdeep => hnot (tooDeep_iff.mpr ⟨v, hv, hdeep⟩), valueSize_lt_of_mem hsize hv⟩
  simp only [Nat.zero_add] at hgranted
  rw [← packs_iff hnot hsize, ← hgranted]
  constructor
  · intro hkeeps
    refine ⟨hkeeps.packs, ?_⟩
    obtain ⟨slots, hpack⟩ := exists_luaseriPack_ok hnot hsize
    obtain ⟨objs, f, hrun⟩ := hkeeps.unpacks slots _ _ hpack
    exact unpackDemands_of_ok hnot hsize hrun
  · rintro ⟨hpacks, hall⟩
    refine ⟨hpacks, fun slots buffer sz hpack => ?_⟩
    rw [luaseriPack_ok hsize hnot (packDemands_of_ok hsize hpack)] at hpack
    cases hpack
    obtain ⟨objs, f, hrun, -⟩ := luaseriUnpack_ok hnot hsize hall
    exact ⟨objs, f, hrun⟩

/-- `{"hi", k = true}` and a nil. -/
theorem keepsToStack_greeting :
    KeepsToStack (fun _ => 0) (fun _ => true) 2 (fun _ => greeting) [.table 0, .nil] := by
  refine (keepsToStack_iff (fun _ => true) 2 greeting_not_tooDeep (by decide +kernel)).mpr
    ⟨by decide +kernel, ?_⟩
  rintro (_ | _ | i) v hv
  · cases hv
    decide +kernel
  · cases hv
    decide +kernel
  · cases hv

/-- Eleven tables, each in the next, take a slot more for packing than there are; and the
    last of 31 scalars a slot more for unpacking. -/
theorem not_keepsToStack :
    (¬TooDeep nest [.table 10] ∧
      ¬KeepsToStack (fun _ => 0) (fun _ => true) 2 nest [.table 10]) ∧
    (¬TooDeep nest (List.replicate 31 .nil) ∧
      ¬KeepsToStack (fun _ => 0) (fun _ => true) 2 nest (List.replicate 31 .nil)) := by
  have hnot : ¬TooDeep nest [.table 10] := nest_not_tooDeep (by decide)
  have hnot' : ¬TooDeep nest (List.replicate 31 .nil) := by
    intro hdeep
    obtain ⟨v, hv, hdeep⟩ := tooDeep_iff.mp hdeep
    rw [List.eq_of_mem_replicate hv] at hdeep
    exact hdeep
  refine ⟨⟨hnot, fun hkeeps => ?_⟩, hnot', fun hkeeps => ?_⟩
  · have hslots := (packs_iff hnot (by decide +kernel)).mp hkeeps.packs (.table 10) (by simp)
    revert hslots
    decide +kernel
  · have hsize : encodedSize nest (List.replicate 31 .nil) < 2 ^ 31 := by decide +kernel
    obtain ⟨slots, hpack⟩ := exists_luaseriPack_ok hnot' hsize
    obtain ⟨objs, f, hrun⟩ := hkeeps.unpacks slots _ _ hpack
    have hgranted := unpackDemands_of_ok hnot' hsize hrun
    revert hgranted
    decide +kernel

end ZServer.Seri
