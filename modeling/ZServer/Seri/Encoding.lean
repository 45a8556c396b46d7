/-
  ZServer.Seri.Encoding

  What `_luaseri_pack` writes, and how many values are on the Lua stack before each of its
  pushes: a plan without blocks (`encode`), which packing keeps to as long as there are
  slots.  Where a value has more levels below it than are left the plan fails; otherwise it
  writes the bytes of the value and takes `packSlots` slots.
-/

import Mathlib.Algebra.Order.BigOperators.Group.List
import Mathlib.Algebra.Order.Group.Nat
import ZServer.Seri.Tables

namespace ZServer.Seri

open Lib

variable {h : Heap}

-- ============================================================================
-- Nesting
-- ============================================================================

/-- The value has `levels` levels below it, or more. -/
def Deep (h : Heap) : Nat → Value → Prop
  | 0, _ => True
  | levels + 1, .table ref =>
      (∃ i ∈ List.range' 1 (h ref).border, Deep h levels ((h ref).rawgeti i)) ∨
        ∃ e ∈ (h ref).entries, Deep h levels e.1 ∨ Deep h levels e.2
  | _ + 1, _ => False

theorem Deep.of_succ {levels : Nat} {v : Value} (hdeep : Deep h (levels + 1) v) :
    Deep h levels v := by
  induction levels generalizing v with
  | zero => exact trivial
  | succ levels ih =>
      cases v with
      | table ref =>
          rcases hdeep with ⟨i, hi, hitem⟩ | ⟨e, he, hentry⟩
          · exact Or.inl ⟨i, hi, ih hitem⟩
          · exact Or.inr ⟨e, he, hentry.imp ih ih⟩
      | _ => exact hdeep.elim

theorem Deep.mono {m n : Nat} {v : Value} (hle : m ≤ n) (hdeep : Deep h n v) : Deep h m v := by
  induction n, hle using Nat.le_induction with
  | base => exact hdeep
  | succ n _ ih => exact ih hdeep.of_succ

/-- Levels below a value that is reached are levels below one of the list. -/
theorem Reached.deep {vs : List Value} {d : Nat} {v : Value} (hv : Reached h vs d v) {n : Nat}
    (hdeep : Deep h n v) : ∃ u ∈ vs, Deep h (d + n) u := by
  induction hv generalizing n with
  | top hv => exact ⟨_, hv, by rw [Nat.zero_add]; exact hdeep⟩
  | item ht hi ih =>
      rw [Nat.add_assoc, Nat.add_comm 1]
      exact ih (Or.inl ⟨_, hi, hdeep⟩)
  | key ht he ih =>
      rw [Nat.add_assoc, Nat.add_comm 1]
      exact ih (Or.inr ⟨_, he, Or.inl hdeep⟩)
  | value ht he ih =>
      rw [Nat.add_assoc, Nat.add_comm 1]
      exact ih (Or.inr ⟨_, he, Or.inr hdeep⟩)

theorem Deep.reached {vs : List Value} {d n : Nat} {v : Value} (hv : Reached h vs d v)
    (hdeep : Deep h n v) : ∃ u, Reached h vs (d + n) u := by
  induction n generalizing d v with
  | zero => exact ⟨v, hv⟩
  | succ n ih =>
      rw [← Nat.add_assoc, Nat.add_right_comm]
      cases v with
      | table ref =>
          rcases hdeep with ⟨i, hi, hitem⟩ | ⟨e, he, hkey | hvalue⟩
          · exact ih (.item hv hi) hitem
          · exact ih (.key hv he) hkey
          · exact ih (.value hv he) hvalue
      | _ => exact hdeep.elim

theorem tooDeep_iff {vs : List Value} : TooDeep h vs ↔ ∃ v ∈ vs, Deep h (MAX_DEPTH + 1) v := by
  constructor
  · rintro ⟨d, v, hv, hd⟩
    obtain ⟨u, hu, hdeep⟩ := hv.deep (n := 0) trivial
    exact ⟨u, hu, hdeep.mono hd⟩
  · rintro ⟨v, hv, hdeep⟩
    obtain ⟨u, hu⟩ := hdeep.reached (.top hv)
    exact ⟨_, u, hu, by omega⟩

/-- An entry that is skipped is in the array part, with its value. -/
theorem Deep.of_skipped {t : LuaTable} {e : Value × Value} {levels : Nat} (he : e ∈ t.entries)
    (hskip : inArray t.border e.1 = true) (hdeep : Deep h levels e.1 ∨ Deep h levels e.2) :
    ∃ i ∈ List.range' 1 t.border, Deep h levels (t.rawgeti i) := by
  obtain ⟨m, x, hm, hint, hlo, hhi⟩ := inArray_iff.mp hskip
  have hx : ((x.toNat : Nat) : Int) = x := Int.toNat_of_nonneg hlo.le
  have hfind : t.find x.toNat = some e := by
    refine LuaTable.find_eq he ?_
    rw [hm, hx]
    exact rawequal_of_int32? hint
  refine ⟨x.toNat, List.mem_range'_1.mpr (by omega), ?_⟩
  have hget : t.rawgeti x.toNat = e.2 := by
    unfold LuaTable.rawgeti
    rw [hfind]
    rfl
  rw [hget]
  rcases hdeep with hdeep | hdeep
  · rw [hm] at hdeep
    cases levels with
    | zero => exact trivial
    | succ levels => exact hdeep.elim
  · exact hdeep

-- ============================================================================
-- The plan
-- ============================================================================

/-- A plan on the bytes that have been written; it asks for a slot above so many values, and
    fails only where there are no levels left. -/
abbrev Encode := Plan (List UInt8) Nat Unit Unit

def emit (bytes : List UInt8) : Encode := fun out => ⟨[], .ok ((), out ++ bytes)⟩

/-- A value is packed above `used` values. -/
def encode (h : Heap) : Nat → Nat → Value → Encode
  | 0, _, _ => Plan.fail ()
  | levels + 1, used, .table ref => do
      emit (arraySizeBytes (h ref).border)
      (List.range' 1 (h ref).border).forM fun i => do
        Plan.ask used
        encode h levels (used + 1) ((h ref).rawgeti i)
      Plan.ask used
      (h ref).entries.forM fun e => do
        Plan.ask (used + 1)
        if inArray (h ref).border e.1 then pure ()
        else do
          encode h levels (used + 2) e.1
          encode h levels (used + 2) e.2
      emit [UInt8.ofNat TYPE_NIL]
  | _ + 1, _, v => emit (scalarBytes v)

/-- All values, and the two results. -/
def encodeAll (h : Heap) (vs : List Value) : Encode := do
  vs.forM (encode h (MAX_DEPTH + 1) vs.length)
  Plan.ask vs.length
  Plan.ask (vs.length + 1)

/-- How many values are on the Lua stack before each push of a call. -/
def packDemands (h : Heap) (vs : List Value) : List Nat := (encodeAll h vs wbInit.contents).asks

/-- The bytes of a value, down to `levels` levels. -/
def valueBytes (h : Heap) : Nat → Value → List UInt8
  | 0, _ => []
  | levels + 1, .table ref =>
      tableBytes (h ref) (fun i => valueBytes h levels ((h ref).rawgeti i))
        (fun e => valueBytes h levels e.1) fun e => valueBytes h levels e.2
  | _ + 1, v => scalarBytes v

/-- How many slots packing a value takes. -/
def packSlots (h : Heap) : Nat → Value → Nat
  | levels + 1, .table ref =>
      let t := h ref
      max (maxSlots ((List.range' 1 t.border).map fun i => packSlots h levels (t.rawgeti i) + 1))
        (maxSlots (t.entries.map fun e =>
          if inArray t.border e.1 then 1
          else max (packSlots h levels e.1) (packSlots h levels e.2) + 1) + 1)
  | _, _ => 0

theorem length_tableBytes {t : LuaTable} {items : Nat → List UInt8}
    {keys values : Value × Value → List UInt8} :
    (tableBytes t items keys values).length =
      1 + (if MAX_COOKIE - 1 ≤ t.border then integerSize t.border else 0) +
        ((List.range' 1 t.border).map fun i => (items i).length).sum +
        (t.hashPart.map fun e => (keys e).length + (values e).length).sum + 1 := by
  obtain ⟨cookie, payload, hbytes, -, hlength, -⟩ :=
    @arraySizeBytes_eq (fun _ => 0) _ t.border_lt
  unfold tableBytes
  rw [hbytes]
  simp only [List.length_append, List.length_cons, List.length_flatMap, List.length_nil, hlength]
  omega

theorem length_scalarBytes {levels : Nat} {v : Value} (hv : ∀ ref, v ≠ .table ref) :
    (scalarBytes v).length = valueSize h (levels + 1) v := by
  cases v with
  | nil => rfl
  | boolean b => rfl
  | number n =>
      cases hn : n.int32? with
      | none =>
          rw [scalarBytes_double hn]
          simp [valueSize, hn, Binary64.toBytes, length_leBytes]
      | some x =>
          rw [scalarBytes_int hn]
          simp only [valueSize, hn]
          exact (@integer_encodes (fun _ => 0) h ⟨0, 0, 0⟩ n x hn).1
  | string s => exact length_stringBytes s
  | lightuserdata p =>
      show (leBytes 8 p.toNat).length + 1 = 9
      rw [length_leBytes]
  | table ref => exact absurd rfl (hv ref)

/-- The encoded size is that of the bytes. -/
theorem length_valueBytes (levels : Nat) (v : Value) :
    (valueBytes h levels v).length = valueSize h levels v := by
  induction levels generalizing v with
  | zero => rfl
  | succ levels ih =>
      cases v with
      | table ref =>
          show (tableBytes ..).length = _
          rw [length_tableBytes]
          unfold valueSize
          simp only [ih]
      | _ => exact length_scalarBytes (by rintro _ ⟨⟩)

/-- What is in a table takes no more than the table. -/
theorem valueSize_item {levels ref i m : Nat} (hsize : valueSize h (levels + 1) (.table ref) < m)
    (hi : i ∈ List.range' 1 (h ref).border) : valueSize h levels ((h ref).rawgeti i) < m := by
  have hle := List.single_le_sum (fun _ _ => Nat.zero_le _) _ (List.mem_map_of_mem
    (f := fun i => valueSize h levels ((h ref).rawgeti i)) hi)
  unfold valueSize at hsize
  dsimp only at hsize
  omega

theorem valueSize_entry {levels ref m : Nat} (hsize : valueSize h (levels + 1) (.table ref) < m)
    {e : Value × Value} (he : e ∈ (h ref).hashPart) :
    valueSize h levels e.1 < m ∧ valueSize h levels e.2 < m := by
  have hle := List.single_le_sum (fun _ _ => Nat.zero_le _) _ (List.mem_map_of_mem
    (f := fun e : Value × Value => valueSize h levels e.1 + valueSize h levels e.2) he)
  unfold valueSize at hsize
  dsimp only at hsize
  omega

theorem valueSize_pos (levels : Nat) (v : Value) : 1 ≤ valueSize h (levels + 1) v := by
  cases v with
  | nil => exact le_refl 1
  | boolean b => exact le_refl 1
  | number n =>
      unfold valueSize integerSize
      split
      · split_ifs <;> omega
      · omega
  | string s => exact (Nat.le_add_right 1 _).trans (Nat.le_add_right _ s.length)
  | lightuserdata p => exact Nat.le_add_left 1 8
  | table ref => exact Nat.le_add_left 1 _

theorem flatMap_filter {α : Type} (p : α → Bool) (f : α → List UInt8) (xs : List α) :
    (xs.filter p).flatMap f = xs.flatMap fun x => if p x then f x else [] := by
  induction xs with
  | nil => rfl
  | cons x xs ih =>
      rw [List.flatMap_cons, List.filter_cons, ← ih]
      cases p x with
      | true => rfl
      | false => rfl

-- ============================================================================
-- Packing keeps to the plan
-- ============================================================================

/-- The blocks hold what has been written, and there are `used` values on the Lua stack,
    which has room for `limit`. -/
structure PackState.Ready (limit used : Nat) (s : PackState) (out : List UInt8) : Prop where
  contents : s.wb.contents = out
  counts : s.wb.Counts
  top : s.stack.top = used
  limit : s.stack.limit = limit

def packTerms (limit : Nat) : Terms PackState Nat Unit PackError where
  grants n := n < limit
  fails _ e _ := e = .tooDepth
  refuses e := e = .luaStack

section Refines

variable {limit used : Nat}

theorem write_refines {f : WriteBlock → WriteBlock} {bytes : List UInt8} (hf : Appends f bytes) :
    Refines (packTerms limit) (PackState.Ready limit used) (PackState.Ready limit used)
      (write f) (emit bytes) := by
  apply Refines.of_free
  intro s out h
  obtain ⟨hcontents, hcounts⟩ := hf s.wb
  exact ⟨rfl, _, rfl, hcontents.trans (by rw [h.contents]), hcounts h.counts, h.top, h.limit⟩

theorem pushSlot_ok {s : PackState} {out : List UInt8} (h : s.Ready limit used out)
    (hlt : used < limit) : ∃ s', pushSlot s = .ok () s' ∧ s'.Ready limit (used + 1) out := by
  refine ⟨{ s with stack := ⟨used + 1, limit⟩ }, ?_, h.contents, h.counts, rfl, rfl⟩
  unfold pushSlot
  rw [LuaStack.push_of_lt h.top h.limit hlt]

theorem pushSlot_fails {s : PackState} {out : List UInt8} (h : s.Ready limit used out)
    (hnot : ¬used < limit) : pushSlot s = .error .luaStack s := by
  unfold pushSlot
  rw [LuaStack.push_of_not_lt h.top h.limit hnot]

theorem pushSlot_refines :
    Refines (packTerms limit) (PackState.Ready limit used) (PackState.Ready limit (used + 1))
      pushSlot (Plan.ask used) := by
  apply Refines.ask
  · intro s out h hlt
    exact pushSlot_ok h hlt
  · intro s out h hnot
    exact ⟨.luaStack, s, pushSlot_fails h hnot, rfl⟩

theorem popSlot_ready {s : PackState} {out : List UInt8} (h : s.Ready limit (used + 1) out) :
    ∃ s', popSlot s = .ok () s' ∧ s'.Ready limit used out := by
  refine ⟨_, rfl, h.contents, h.counts, ?_, h.limit⟩
  show s.stack.top - 1 = _
  rw [h.top, Nat.add_sub_cancel]

/-- Above a slot that is free again in the end. -/
theorem popSlot_refines {m : Pack Unit} {p : Encode}
    (hm : Refines (packTerms limit) (PackState.Ready limit used)
      (PackState.Ready limit (used + 1)) m p) :
    Refines (packTerms limit) (PackState.Ready limit used) (PackState.Ready limit used)
      (m >>= fun _ => popSlot) p :=
  hm.then fun _ _ _ h => popSlot_ready h

theorem wbArraySize_appends (n : Nat) : Appends (wbArraySize · n) (arraySizeBytes n) := by
  unfold wbArraySize arraySizeBytes
  by_cases hn : MAX_COOKIE - 1 ≤ n
  · have hsize := (Appends.push [combineType TYPE_TABLE (MAX_COOKIE - 1 : Nat)]).comp
      (wbInteger_appends n TYPE_NUMBER)
    simp only [if_pos hn]
    exact hsize
  · simp only [if_neg hn]
    exact Appends.push _

theorem scalar_refines {levels : Nat} {v : Value} (hv : ∀ ref, v ≠ .table ref)
    (hlt : (scalarBytes v).length < 2 ^ 31) :
    Refines (packTerms limit) (PackState.Ready limit used) (PackState.Ready limit used)
      (packOne h (levels + 1) v) (emit (scalarBytes v)) := by
  cases v with
  | nil => exact write_refines (Appends.push _)
  | boolean b => exact write_refines (Appends.push _)
  | number n =>
      unfold packOne
      cases hn : n.int32? with
      | some x =>
          rw [scalarBytes_int hn]
          exact write_refines (wbInteger_appends x TYPE_NUMBER)
      | none =>
          rw [scalarBytes_double hn]
          exact write_refines ((Appends.push _).comp (Appends.push _))
  | string s =>
      have hlength : (scalarBytes (.string s)).length = _ := length_stringBytes s
      have hint : intOf (u32 s.length) = (s.length : Int) := by
        unfold stringSize at hlength
        unfold intOf u32
        omega
      show Refines _ _ _ (write (wbString · s (intOf (u32 s.length)))) (emit (stringBytes s))
      rw [hint]
      exact write_refines (wbString_appends s)
  | lightuserdata p => exact write_refines ((Appends.push _).comp (Appends.push _))
  | table ref => exact absurd rfl (hv ref)

variable {one : Value → Pack Unit} {one' : Nat → Value → Encode} {t : LuaTable}

theorem wbTableArray_refines
    (hone : ∀ i ∈ List.range' 1 t.border, Refines (packTerms limit)
      (PackState.Ready limit (used + 1)) (PackState.Ready limit (used + 1))
      (one (t.rawgeti i)) (one' (used + 1) (t.rawgeti i))) :
    Refines (packTerms limit) (PackState.Ready limit used) (PackState.Ready limit used)
      (wbTableArray one t)
      (emit (arraySizeBytes t.border) >>= fun _ => (List.range' 1 t.border).forM fun i =>
        Plan.ask used >>= fun _ => one' (used + 1) (t.rawgeti i)) := by
  apply (write_refines (wbArraySize_appends t.border)).bind
  rintro ⟨⟩
  apply Refines.forM
  intro i hi
  have hitem := popSlot_refines (pushSlot_refines.bind fun _ => hone i hi)
  rw [bind_assoc] at hitem
  exact hitem

theorem wbTableHash_refines
    (hone : ∀ e ∈ t.hashPart,
      Refines (packTerms limit) (PackState.Ready limit (used + 2))
        (PackState.Ready limit (used + 2)) (one e.1) (one' (used + 2) e.1) ∧
      Refines (packTerms limit) (PackState.Ready limit (used + 2))
        (PackState.Ready limit (used + 2)) (one e.2) (one' (used + 2) e.2)) :
    Refines (packTerms limit) (PackState.Ready limit used) (PackState.Ready limit used)
      (wbTableHash one t t.border)
      (Plan.ask used >>= fun _ => (t.entries.forM fun e => do
        Plan.ask (used + 1)
        if inArray t.border e.1 then pure ()
        else do
          one' (used + 2) e.1
          one' (used + 2) e.2) >>= fun _ => emit [UInt8.ofNat TYPE_NIL]) := by
  have hentries : Refines (packTerms limit) (PackState.Ready limit (used + 1))
      (PackState.Ready limit (used + 1))
      (t.entries.forM fun e => do
        pushSlot
        if inArray t.border e.1 then popSlot
        else do
          one e.1
          one e.2
          popSlot)
      (t.entries.forM fun e => do
        Plan.ask (used + 1)
        if inArray t.border e.1 then pure ()
        else do
          one' (used + 2) e.1
          one' (used + 2) e.2) := by
    apply Refines.forM
    intro e he
    by_cases hskip : inArray t.border e.1 = true
    · simp only [hskip, if_true]
      have hpush := popSlot_refines (@pushSlot_refines limit (used + 1))
      rw [← bind_pure (Plan.ask _)] at hpush
      exact hpush
    · simp only [hskip]
      obtain ⟨hkey, hvalue⟩ := hone e (List.mem_filter.mpr ⟨he, by simpa using hskip⟩)
      have hboth := popSlot_refines (pushSlot_refines.bind fun _ => hkey.bind fun _ => hvalue)
      simp only [bind_assoc] at hboth
      exact hboth
  have hhash := (popSlot_refines (pushSlot_refines.bind fun _ => hentries)).bind fun _ =>
    write_refines (Appends.push [UInt8.ofNat TYPE_NIL])
  simp only [bind_assoc] at hhash
  exact hhash

/-- As long as there are slots, a value is packed as planned. -/
theorem packOne_refines (levels : Nat) {v : Value} (hsize : valueSize h levels v < 2 ^ 31) :
    Refines (packTerms limit) (PackState.Ready limit used) (PackState.Ready limit used)
      (packOne h levels v) (encode h levels used v) := by
  induction levels generalizing v used with
  | zero => exact Refines.fail fun _ _ _ => rfl
  | succ levels ih =>
      cases v with
      | table ref =>
          have harray := @wbTableArray_refines limit used (packOne h levels) (encode h levels)
            (h ref) fun i hi => ih (valueSize_item hsize hi)
          have htable := harray.bind fun _ => @wbTableHash_refines limit used (packOne h levels)
            (encode h levels) (h ref) fun e he =>
              ⟨ih (valueSize_entry hsize he).1, ih (valueSize_entry hsize he).2⟩
          simp only [bind_assoc] at htable
          exact htable
      | _ =>
          apply scalar_refines (by rintro _ ⟨⟩)
          rw [length_scalarBytes (by rintro _ ⟨⟩)]
          exact hsize

end Refines

-- ============================================================================
-- What the plan comes to
-- ============================================================================

/-- `p` writes `bytes`, and takes `slots` slots above `used` values. -/
def Emits (used : Nat) (bytes : List UInt8) (slots : Nat) (p : Encode) : Prop :=
  ∀ out, ∃ asks, p out = ⟨asks, .ok ((), out ++ bytes)⟩ ∧
    ∀ limit, used ≤ limit → ((∀ n ∈ asks, n < limit) ↔ used + slots ≤ limit)

section Emits

variable {used m n : Nat} {b b' : List UInt8} {p q : Encode}

theorem Emits.emit (used : Nat) (bytes : List UInt8) : Emits used bytes 0 (emit bytes) := by
  intro out
  exact ⟨[], rfl, fun limit hle => by simpa using hle⟩

theorem Emits.nothing (used : Nat) : Emits used [] 0 (pure ()) := by
  intro out
  refine ⟨[], ?_, fun limit hle => by simpa using hle⟩
  rw [List.append_nil]
  rfl

theorem Emits.bind (hp : Emits used b m p) (hq : Emits used b' n q) :
    Emits used (b ++ b') (max m n) (p >>= fun _ => q) := by
  intro out
  obtain ⟨asks, hrun, hslots⟩ := hp out
  obtain ⟨asks', hrun', hslots'⟩ := hq (out ++ b)
  refine ⟨asks ++ asks', ?_, fun limit hle => ?_⟩
  · rw [Plan.bind_of_ok hrun, hrun', List.append_assoc]
  · simp only [List.mem_append, or_imp, forall_and]
    rw [hslots limit hle, hslots' limit hle]
    omega

/-- Above a slot. -/
theorem Emits.above (hp : Emits (used + 1) b n p) :
    Emits used b (n + 1) (Plan.ask used >>= fun _ => p) := by
  intro out
  obtain ⟨asks, hrun, hslots⟩ := hp out
  refine ⟨used :: asks, ?_, fun limit hle => ?_⟩
  · rw [Plan.ask_bind, hrun]
  · rw [List.forall_mem_cons]
    constructor
    · rintro ⟨hlt, hasks⟩
      have hle' := (hslots limit hlt).mp hasks
      omega
    · intro hle'
      have hlt : used < limit := by omega
      exact ⟨hlt, (hslots limit hlt).mpr (by omega)⟩

theorem Emits.forM {α : Type} {f : α → Encode} {bytes : α → List UInt8} {slots : α → Nat}
    (xs : List α) (h : ∀ x ∈ xs, Emits used (bytes x) (slots x) (f x)) :
    Emits used (xs.flatMap bytes) (maxSlots (xs.map slots)) (xs.forM f) := by
  induction xs with
  | nil => exact Emits.nothing used
  | cons x xs ih =>
      rw [List.flatMap_cons]
      exact (h x (by simp)).bind (ih fun y hy => h y (by simp [hy]))

/-- One round over the hash part; an entry that is skipped takes a slot for its value. -/
theorem entry_emits {arraySize : Nat} {e : Value × Value}
    (hboth : ¬inArray arraySize e.1 = true → Emits (used + 2) b m p ∧ Emits (used + 2) b' n q) :
    Emits (used + 1) (if !inArray arraySize e.1 then b ++ b' else [])
      (if inArray arraySize e.1 then 1 else max m n + 1)
      (do
        Plan.ask (used + 1)
        if inArray arraySize e.1 then pure ()
        else do
          p
          q) := by
  cases hskip : inArray arraySize e.1 with
  | true => exact (Emits.nothing (used + 2)).above
  | false =>
      obtain ⟨hp, hq⟩ := hboth (by rw [hskip]; exact Bool.false_ne_true)
      exact (hp.bind hq).above

/-- What is not too deep is written, in the slots that it takes. -/
theorem encode_emits {levels : Nat} {v : Value} (hnot : ¬Deep h levels v) :
    Emits used (valueBytes h levels v) (packSlots h levels v) (encode h levels used v) := by
  induction levels generalizing v used with
  | zero => exact absurd trivial hnot
  | succ levels ih =>
      cases v with
      | table ref =>
          have hitems := Emits.forM (List.range' 1 (h ref).border) fun i hi =>
            (@ih (used + 1) ((h ref).rawgeti i) fun hdeep => hnot (Or.inl ⟨i, hi, hdeep⟩)).above
          have hentries := Emits.forM (h ref).entries fun e he =>
            @entry_emits used _ _ _ _ (encode h levels (used + 2) e.1)
              (encode h levels (used + 2) e.2) (h ref).border e fun _ =>
                ⟨ih fun hdeep => hnot (Or.inr ⟨e, he, Or.inl hdeep⟩),
                  ih fun hdeep => hnot (Or.inr ⟨e, he, Or.inr hdeep⟩)⟩
          have htable := (Emits.emit used (arraySizeBytes (h ref).border)).bind
            (hitems.bind (hentries.bind (Emits.emit (used + 1) [UInt8.ofNat TYPE_NIL])).above)
          rw [← flatMap_filter, Nat.zero_max, Nat.max_zero] at htable
          exact htable
      | _ => exact Emits.emit used _

end Emits

/-- There are no levels left for what `p` is to write. -/
def RunsOut (p : Encode) : Prop := ∀ out, ∃ asks, p out = ⟨asks, .error ()⟩

section RunsOut

variable {used : Nat} {p q : Encode}

theorem RunsOut.bind (hp : RunsOut p) (q : Encode) : RunsOut (p >>= fun _ => q) := by
  intro out
  obtain ⟨asks, hrun⟩ := hp out
  exact ⟨asks, Plan.bind_of_error hrun⟩

theorem RunsOut.after (hq : RunsOut q) (p : Encode) : RunsOut (p >>= fun _ => q) := by
  intro out
  rcases hrun : p out with ⟨asks, ⟨⟩ | ⟨⟨⟩, out'⟩⟩
  · exact ⟨asks, Plan.bind_of_error hrun⟩
  · obtain ⟨asks', hrun'⟩ := hq out'
    exact ⟨asks ++ asks', by rw [Plan.bind_of_ok hrun, hrun']⟩

theorem RunsOut.forM {α : Type} {f : α → Encode} {x : α} {xs : List α} (hx : x ∈ xs)
    (hf : RunsOut (f x)) : RunsOut (xs.forM f) := by
  induction xs with
  | nil => cases hx
  | cons y ys ih =>
      rcases List.mem_cons.mp hx with rfl | hx
      · exact hf.bind (ys.forM f)
      · exact (ih hx).after (f y)

theorem encode_runsOut {levels : Nat} {v : Value} (hdeep : Deep h levels v) :
    RunsOut (encode h levels used v) := by
  induction levels generalizing v used with
  | zero => exact fun out => ⟨[], rfl⟩
  | succ levels ih =>
      cases v with
      | table ref =>
          apply RunsOut.after
          by_cases hitem : ∃ i ∈ List.range' 1 (h ref).border, Deep h levels ((h ref).rawgeti i)
          · obtain ⟨i, hi, hitem⟩ := hitem
            apply RunsOut.bind
            apply RunsOut.forM hi
            exact (ih hitem).after (Plan.ask used)
          · obtain ⟨e, he, hentry⟩ := hdeep.resolve_left hitem
            have hskip : ¬inArray (h ref).border e.1 = true := fun hskip =>
              hitem (Deep.of_skipped he hskip hentry)
            apply RunsOut.after
            apply RunsOut.after
            apply RunsOut.bind
            apply RunsOut.forM he
            apply RunsOut.after
            rw [if_neg hskip]
            rcases hentry with hkey | hvalue
            · exact (ih hkey).bind _
            · exact (ih hvalue).after _
      | _ => exact hdeep.elim

end RunsOut

end ZServer.Seri
