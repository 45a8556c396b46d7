/-
  ZServer.Seri.Tables

  Tables round trip, if what is in them does: the loops of `_unpack_table` build
  the array part and then the hash part, entry by entry, and ask for what the entries
  ask for.
-/

import ZServer.Seri.Entries

namespace ZServer.Seri

open Lib Format Decoder

variable {overflow : Binary64 → Int} {h : Heap} {one : Place → Format Obj} {p : Place}

/-- `bs` decodes to the value by `one`, which asks for `ds`. -/
def DecodesTo (h : Heap) (one : Format Obj) (v : Value) (bs : List UInt8) (ds : List Demand) :
    Prop :=
  ∃ o, DeepEq h v o ∧ ∀ rest, one (bs ++ rest) = ⟨ds, .ok (o, rest)⟩

-- ============================================================================
-- The array part
-- ============================================================================

/-- The keys of the entries are indices below `i`. -/
def IndexedBelow (i : Nat) (es : List (Value × Value)) : Prop :=
  ∀ e ∈ es, e.1.IsKey ∧ ∃ j < i, e.1.rawequal (.number (.ofInt (j : Nat))) = true

theorem deepEq_index {k : Value} {i : Nat} (hk : k.rawequal (.number (.ofInt i)) = true) :
    DeepEq h k (.number (.ofInt i)) := by
  cases k with
  | number n => exact .number (Or.inl hk)
  | _ => cases hk

/-- An element is put at its index: a hole leaves the table as it is. -/
theorem rawseti_eq {t : LuaTable} {i : Nat} (hi : i < 2 ^ 31) {es : List (Value × Value)}
    {os : List (Obj × Obj)} (hes : IndexedBelow i es) (heq : EntriesEq h es os) {o : Obj}
    (ho : DeepEq h (t.rawgeti i) o) :
    EntriesEq h (es ++ (t.find i).toList) (rawseti os i o) ∧
      IndexedBelow (i + 1) (es ++ (t.find i).toList) := by
  have hself : DeepEq h (.number (.ofInt i)) (.number (.ofInt i)) :=
    deepEq_index (Binary64.eq_refl (Binary64.isNaN_ofInt (by omega)))
  have hnew := heq.differs hself (Binary64.isNaN_ofInt (by omega)) fun e he => by
    obtain ⟨hkey, j, hj, hindex⟩ := hes e he
    refine ⟨hkey, Bool.eq_false_of_not_eq_true fun htrue => ?_⟩
    exact absurd (index_injective (by omega) hi hindex htrue) (by omega)
  have hbelow : IndexedBelow (i + 1) es := fun e he =>
    have hindexed := hes e he
    ⟨hindexed.1, hindexed.2.imp fun _ hj => ⟨Nat.lt_succ_of_lt hj.1, hj.2⟩⟩
  unfold rawseti
  rw [rawset_new hnew]
  unfold LuaTable.rawgeti at ho
  cases hfind : t.find i with
  | none =>
      rw [hfind] at ho
      rw [if_pos (ho.isNil_iff.mpr rfl), Option.toList_none, List.append_nil]
      exact ⟨heq, hbelow⟩
  | some e =>
      rw [hfind] at ho
      obtain ⟨he, hkey⟩ := LuaTable.find_mem hfind
      have hnil : ¬ o.isNil = true := fun hnil => t.values e he (ho.isNil_iff.mp hnil)
      rw [if_neg hnil, Option.toList_some]
      refine ⟨heq.append (.cons (deepEq_index hkey) ho .nil), fun e' he' => ?_⟩
      rcases List.mem_append.mp he' with he' | he'
      · exact hbelow e' he'
      · rw [List.mem_singleton.mp he']
        exact ⟨t.keys e he, i, Nat.lt_succ_self i, hkey⟩

/-- The loop over the array part, from index `i` on. -/
theorem array_decode {t : LuaTable} {items : Nat → List UInt8} {asks : Nat → List Demand}
    (n i : Nat) (hlt : i + n ≤ 2 ^ 31)
    (hone : ∀ k ∈ List.range' i n,
      DecodesTo h (one (p.inside 1)) (t.rawgeti k) (items k) (asks k))
    {es : List (Value × Value)} {os : List (Obj × Obj)} (hes : IndexedBelow i es)
    (heq : EntriesEq h es os) :
    ∃ os', EntriesEq h (es ++ (List.range' i n).flatMap fun k => (t.find k).toList) os' ∧
      ∀ rest, array one p n i os ((List.range' i n).flatMap items ++ rest) =
        ⟨(List.range' i n).flatMap asks, .ok (os', rest)⟩ := by
  induction n generalizing i es os with
  | zero => exact ⟨os, by simpa using heq, fun rest => rfl⟩
  | succ n ih =>
      rw [List.range'_succ] at hone ⊢
      obtain ⟨o, ho, hdecode⟩ := hone i List.mem_cons_self
      obtain ⟨heq', hes'⟩ := rawseti_eq (by omega) hes heq ho
      obtain ⟨os', hos', hrest⟩ := ih (i + 1) (by omega)
        (fun k hk => hone k (List.mem_cons_of_mem i hk)) hes' heq'
      refine ⟨os', ?_, fun rest => ?_⟩
      · rw [List.flatMap_cons, ← List.append_assoc]
        exact hos'
      · rw [List.flatMap_cons, List.append_assoc, List.flatMap_cons]
        simp only [Nat.cast_succ] at hrest
        exact Plan.bind_eq (f := fun v => array one p n (i + 1) (rawseti os i v)) (hdecode _)
          (hrest rest)

-- ============================================================================
-- The hash part
-- ============================================================================

/-- A round of the loop over the hash part. -/
theorem hash_round {fuel : Nat} {os : List (Obj × Obj)} {k v : Obj} {kbytes vbytes bs : List UInt8}
    {kasks vasks : List Demand} {out : Asking Demand FormatError (List (Obj × Obj) × List UInt8)}
    (hkey : ∀ rest, one (p.inside 1) (kbytes ++ rest) = ⟨kasks, .ok (k, rest)⟩)
    (hvalue : ∀ rest, one (p.inside 2) (vbytes ++ rest) = ⟨vasks, .ok (v, rest)⟩)
    (hnil : k.isNil = false) (hnan : k.isNaN = false)
    (hrest : Format.hash one p fuel (rawset os k v) bs = out) :
    Format.hash one p (fuel + 1) os (kbytes ++ vbytes ++ bs) =
      ⟨kasks ++ vasks ++ out.asks, out.result⟩ := by
  unfold Format.hash
  rw [List.append_assoc, Plan.bind_of_ok (hkey _)]
  simp only [hnil, Bool.false_eq_true, if_false]
  rw [Plan.bind_of_ok (hvalue _)]
  simp only [hnan, Bool.false_eq_true, if_false]
  rw [hrest, List.append_assoc]

/-- The nil that ends the loop. -/
theorem hash_end {fuel : Nat} {last : List Demand} {bs rest : List UInt8} (os : List (Obj × Obj))
    (hend : one (p.inside 1) bs = ⟨last, .ok (.nil, rest)⟩) :
    Format.hash one p (fuel + 1) os bs = ⟨last, .ok (os, rest)⟩ := by
  unfold Format.hash
  rw [Plan.bind_of_ok hend]
  show Asking.mk (last ++ []) _ = _
  rw [List.append_nil]
  rfl

/-- The loop over the hash part, up to the nil that ends it. -/
theorem hash_decode {keys values : Value × Value → List UInt8}
    {kasks vasks : Value × Value → List Demand} {last : List Demand}
    (hend : ∀ rest, one (p.inside 1) (UInt8.ofNat TYPE_NIL :: rest) = ⟨last, .ok (.nil, rest)⟩)
    (hs : List (Value × Value)) (fuel : Nat) (hfuel : hs.length < fuel)
    (hone : ∀ e ∈ hs, DecodesTo h (one (p.inside 1)) e.1 (keys e) (kasks e) ∧
      DecodesTo h (one (p.inside 2)) e.2 (values e) (vasks e))
    {es : List (Value × Value)} {os : List (Obj × Obj)} (heq : EntriesEq h es os)
    (hkeys : ∀ e ∈ es ++ hs, e.1.IsKey) (hvalues : ∀ e ∈ hs, e.2 ≠ .nil)
    (hdistinct : (es ++ hs).Pairwise fun e e' => e.1.rawequal e'.1 = false) :
    ∃ os', EntriesEq h (es ++ hs) os' ∧ ∀ rest,
      Format.hash one p fuel os
          ((hs.flatMap fun e => keys e ++ values e) ++ UInt8.ofNat TYPE_NIL :: rest) =
        ⟨(hs.flatMap fun e => kasks e ++ vasks e) ++ last, .ok (os', rest)⟩ := by
  induction hs generalizing fuel es os with
  | nil =>
      cases fuel with
      | zero => exact absurd hfuel (Nat.not_lt_zero _)
      | succ fuel => exact ⟨os, by simpa using heq, fun rest => hash_end os (hend rest)⟩
  | cons e hs ih =>
      cases fuel with
      | zero => exact absurd hfuel (Nat.not_lt_zero _)
      | succ fuel =>
          obtain ⟨⟨k, hk, hdecodek⟩, v, hv, hdecodev⟩ := hone e List.mem_cons_self
          have hkey : e.1.IsKey := hkeys e (List.mem_append_right es List.mem_cons_self)
          obtain ⟨hknil, hknan⟩ := hk.key hkey
          have hvnil : v.isNil = false := Bool.eq_false_of_not_eq_true fun hnil =>
            hvalues e List.mem_cons_self (hv.isNil_iff.mp hnil)
          have hnew := heq.differs hk hkey fun e' he' =>
            ⟨hkeys e' (List.mem_append_left _ he'),
              (List.pairwise_append.mp hdistinct).2.2 e' he' e List.mem_cons_self⟩
          have hset : rawset os k v = os ++ [(k, v)] := by
            rw [rawset_new hnew, if_neg (by rw [hvnil]; exact Bool.false_ne_true)]
          have happend : es ++ e :: hs = (es ++ [e]) ++ hs := by simp
          rw [happend] at hkeys hdistinct ⊢
          obtain ⟨os', hos', hrest⟩ := ih fuel (Nat.lt_of_succ_lt_succ hfuel)
            (fun e' he' => hone e' (List.mem_cons_of_mem e he'))
            (heq.append (.cons hk hv .nil)) hkeys
            (fun e' he' => hvalues e' (List.mem_cons_of_mem e he')) hdistinct
          refine ⟨os', hos', fun rest => ?_⟩
          rw [← hset] at hrest
          rw [List.flatMap_cons, List.append_assoc,
            hash_round hdecodek hdecodev hknil hknan (hrest rest), List.flatMap_cons,
            List.append_assoc _ _ last]

-- ============================================================================
-- A table
-- ============================================================================

def arraySizeBytes (arraySize : Nat) : List UInt8 :=
  if MAX_COOKIE - 1 ≤ arraySize then
    [combineType TYPE_TABLE (MAX_COOKIE - 1 : Nat)] ++ integerBytes arraySize TYPE_NUMBER
  else [combineType TYPE_TABLE arraySize]

/-- The type byte of a table and what follows it for its size. -/
theorem arraySizeBytes_eq {n : Nat} (hlt : n < 2 ^ 31) :
    ∃ (cookie : Nat) (payload : List UInt8),
      arraySizeBytes n = combineType TYPE_TABLE cookie :: payload ∧ cookie < 32 ∧
        payload.length = (if MAX_COOKIE - 1 ≤ n then integerSize n else 0) ∧
        ∀ rest, arraySize overflow cookie (payload ++ rest) = ⟨[], .ok ((n : Int), rest)⟩ := by
  unfold arraySizeBytes
  by_cases hn : MAX_COOKIE - 1 ≤ n
  · obtain ⟨cookie, payload, hbytes, hcookie, hlength, hinteger⟩ :=
      integerBytes_eq (v := n) TYPE_NUMBER (by omega) (by omega)
    rw [if_pos hn, if_pos hn]
    refine ⟨MAX_COOKIE - 1, integerBytes n TYPE_NUMBER, rfl, by decide, ?_, fun rest => ?_⟩
    · rw [hbytes]
      exact hlength
    · unfold arraySize
      rw [if_pos rfl, hbytes, List.cons_append,
        Plan.bind_of_ok (head_combineType (by decide) (by omega) _)]
      dsimp only
      rw [if_pos rfl, Plan.map_of_ok (number_of_integer hcookie (hinteger rest)),
        Binary64.toInt_ofInt overflow (by omega) (by omega)]
      rfl
  · have hlt32 : n < 32 := by
      unfold MAX_COOKIE at hn
      omega
    rw [if_neg hn, if_neg hn]
    refine ⟨n, [], rfl, hlt32, rfl, fun rest => ?_⟩
    unfold arraySize
    rw [if_neg (by omega)]
    rfl

theorem length_le_flatMap {α : Type} {f : α → List UInt8} {x : α} {xs : List α} (hx : x ∈ xs) :
    (f x).length ≤ (xs.flatMap f).length := by
  induction xs with
  | nil => cases hx
  | cons y ys ih =>
      rw [List.flatMap_cons, List.length_append]
      rcases List.mem_cons.mp hx with rfl | hx
      · exact Nat.le_add_right ..
      · exact (ih hx).trans (Nat.le_add_left ..)

/-- Every entry takes a byte at least. -/
theorem length_le_length_flatMap {α : Type} {f : α → List UInt8} (xs : List α)
    (hf : ∀ x ∈ xs, 1 ≤ (f x).length) : xs.length ≤ (xs.flatMap f).length := by
  induction xs with
  | nil => exact le_refl 0
  | cons y ys ih =>
      rw [List.flatMap_cons, List.length_append, List.length_cons]
      have hy := hf y List.mem_cons_self
      have hys := ih fun x hx => hf x (List.mem_cons_of_mem y hx)
      omega

def tableBytes (t : LuaTable) (items : Nat → List UInt8) (keys values : Value × Value → List UInt8) :
    List UInt8 :=
  arraySizeBytes t.border ++ ((List.range' 1 t.border).flatMap items ++
    ((t.hashPart.flatMap fun e => keys e ++ values e) ++ [UInt8.ofNat TYPE_NIL]))

/-- What reading a table asks for, its entries asking for `items`, `keys` and `values`. -/
def tableDemands (p : Place) (t : LuaTable) (items : Nat → List Demand)
    (keys values : Value × Value → List Demand) : List Demand :=
  [.frames (p.depth + 1) 0, .slot p.round p.used, .array t.border] ++
    ((List.range' 1 t.border).flatMap items ++
      ((t.hashPart.flatMap fun e => keys e ++ values e) ++ [.slot p.round (p.used + 1)]))

section Encodes

variable {ref : Nat} {items : Nat → List UInt8} {keys values : Value × Value → List UInt8}
  {asks : Nat → List Demand} {kasks vasks : Value × Value → List Demand}
  (hitems : ∀ i ∈ List.range' 1 (h ref).border,
    Encodes overflow h (p.inside 1) ((h ref).rawgeti i) (items i) (asks i))
  (hkeys : ∀ e ∈ (h ref).hashPart,
    1 ≤ (keys e).length ∧ Encodes overflow h (p.inside 1) e.1 (keys e) (kasks e))
  (hvalues : ∀ e ∈ (h ref).hashPart, Encodes overflow h (p.inside 2) e.2 (values e) (vasks e))

include hitems in
/-- The elements of the array part are read with fuel for as many bytes as they have. -/
theorem arrayPart_decode {fuel : Nat}
    (hfuel : ((List.range' 1 (h ref).border).flatMap items).length < fuel) :
    ∃ os, EntriesEq h (h ref).arrayPart os ∧
      ∀ rest, array (decodeOne overflow fuel) p (h ref).border 1 []
          ((List.range' 1 (h ref).border).flatMap items ++ rest) =
        ⟨(List.range' 1 (h ref).border).flatMap asks, .ok (os, rest)⟩ := by
  have hborder := (h ref).border_lt
  have hone : ∀ i ∈ List.range' 1 (h ref).border, DecodesTo h (decodeOne overflow fuel (p.inside 1))
      ((h ref).rawgeti i) (items i) (asks i) := by
    intro i hi
    have hle := length_le_flatMap (f := items) hi
    exact hitems i hi fuel (by omega)
  obtain ⟨os, hos, harray⟩ := array_decode (h ref).border 1 (by omega) hone (by rintro _ ⟨⟩) .nil
  exact ⟨os, hos, by rwa [Nat.cast_one] at harray⟩

include hkeys hvalues in
/-- And so is what follows them. -/
theorem hashPart_decode {fuel : Nat} {os : List (Obj × Obj)}
    (hos : EntriesEq h (h ref).arrayPart os)
    (hfuel : ((h ref).hashPart.flatMap fun e => keys e ++ values e).length < fuel) :
    ∃ os', EntriesEq h ((h ref).arrayPart ++ (h ref).hashPart) os' ∧ ∀ rest,
      Format.hash (decodeOne overflow fuel) p fuel os
          (((h ref).hashPart.flatMap fun e => keys e ++ values e) ++ UInt8.ofNat TYPE_NIL :: rest) =
        ⟨((h ref).hashPart.flatMap fun e => kasks e ++ vasks e) ++ [.slot p.round (p.used + 1)],
          .ok (os', rest)⟩ := by
  have hcount := length_le_length_flatMap (f := fun e => keys e ++ values e) (h ref).hashPart
    fun e he => by
      rw [List.length_append]
      exact (hkeys e he).1.trans (Nat.le_add_right ..)
  have hparts := (h ref).parts_perm
  have hdistinct := hparts.symm.pairwise (h ref).distinct fun heq => Value.rawequal_symm.trans heq
  apply hash_decode _ _ fuel (by omega) _ hos
  · intro e he
    exact (h ref).keys e (hparts.mem_iff.mp he)
  · intro e he
    exact (h ref).values e (List.mem_filter.mp he).1
  · exact hdistinct
  · intro rest
    obtain ⟨o, ho, hnil⟩ := @nil_encodes overflow h (p.inside 1) fuel (by simp; omega)
    cases ho
    exact hnil rest
  · intro e he
    have hle := length_le_flatMap (f := fun e => keys e ++ values e) he
    rw [List.length_append] at hle
    exact ⟨(hkeys e he).2 fuel (by omega), hvalues e he fuel (by omega)⟩

include hitems hkeys hvalues in
theorem table_encodes : Encodes overflow h p (.table ref) (tableBytes (h ref) items keys values)
    (tableDemands p (h ref) asks kasks vasks) := by
  obtain ⟨cookie, payload, hbytes, hcookie, -, hsize⟩ :=
    @arraySizeBytes_eq overflow _ (h ref).border_lt
  unfold tableBytes
  rw [hbytes, List.cons_append]
  refine Encodes.of_value (by decide) hcookie fun fuel hfuel => ?_
  simp only [List.length_append, List.length_singleton] at hfuel
  obtain ⟨os, hos, harray⟩ := @arrayPart_decode overflow h p _ _ _ hitems fuel (by omega)
  obtain ⟨os', hos', hhash⟩ := @hashPart_decode overflow h p _ _ _ _ _ hkeys hvalues fuel _ hos (by omega)
  refine ⟨.table os', .table (h ref).parts_perm hos', fun rest => ?_⟩
  show table overflow (decodeOne overflow fuel) p fuel cookie _ = _
  have hnew : ∀ bs, newTable p (h ref).border bs =
      ⟨[.slot p.round p.used, .array (h ref).border], .ok ((), bs)⟩ := fun _ => rfl
  -- the size, the table, its array part and its hash part, one after the other
  let tail (t : List (Obj × Obj)) := Obj.table <$> Format.hash (decodeOne overflow fuel) p fuel t
  let body (n : Nat) := array (decodeOne overflow fuel) p n 1 [] >>= tail
  have hentries := Plan.bind_eq (f := tail) (harray _) (Plan.map_of_ok (hhash rest))
  have htable := Plan.bind_eq (f := fun _ => body (h ref).border) (hnew _) hentries
  have hwhole := Plan.bind_eq (f := fun size => newTable p size.toNat >>= fun _ => body size.toNat)
    (hsize _) htable
  unfold table
  rw [Plan.ask_bind]
  simp only [List.append_assoc, List.singleton_append]
  rw [hwhole]
  rfl

end Encodes

end ZServer.Seri
