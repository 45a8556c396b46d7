/-
  ZServer.Dict.Operations

  What each operation of a dictionary does to the entries, wherever the buckets are:
  a search finds the entry of the key in either table, an addition links a new one, a
  deletion unlinks it, a replacement changes its value.

    * `Found` — the entry at a pointer.
    * `searchTables_ok`, `dictFind_ok` — found exactly when it is there.
    * `dictAdd_ok`, `dictReplace_ok`, `dictGenericDelete_ok`, `dictClear_entries`.
-/

import ZServer.Dict.Invariant

namespace ZServer

open Lib

variable {K V : Type} {hash : K → UInt32} {d : Dict K V}

/-- The most entries for which every table has a number of buckets below `2 ^ 31`. -/
def dictRoom : Nat := 2 ^ 29

-- ============================================================================
-- Enough buckets
-- ============================================================================

/-- After `_dictExpandIfNeeded` there is a table. -/
structure Expanded (hash : K → UInt32) (canResize : Bool) (d d' : Dict K V) : Prop where
  rearranged : Rearranged hash d d'
  size : d'.ht0.size ≠ 0
  going : dictIsRehashing d → d' = d
  idle : dictIsRehashing d = false → dictIsRehashing d' = false →
    d.ht0.used < d'.ht0.size ∨ canResize = false ∧ d' = d ∧ d.ht0.used < 6 * d'.ht0.size
  start : dictIsRehashing d = false → dictIsRehashing d' →
    d'.ht0 = d.ht0 ∧ d.ht0.size ≤ d.ht0.used ∧ d.ht0.used * 2 ≤ d'.ht1.size

theorem dictExpandIfNeeded_ok (h : d.Ok hash) (hroom : dictSize d ≤ dictRoom) (canResize : Bool) :
    ∃ d', dictExpandIfNeeded canResize d = (d', DICT_OK) ∧ Expanded hash canResize d d' := by
  have hused : d.ht0.used ≤ 2 ^ 29 := by
    unfold dictSize dictRoom at hroom
    omega
  unfold dictExpandIfNeeded
  cases hgo : dictIsRehashing d with
  | true =>
      obtain ⟨i, hi⟩ := isRehashing_iff.mp hgo
      exact ⟨d, by simp, Rearranged.refl h, (h.moving i hi).1, fun _ => rfl, by simp [hgo],
        by simp [hgo]⟩
  | false =>
      by_cases hzero : d.ht0.size = 0
      · have hused0 : d.ht0.used = 0 := by
          rw [h.ht0.used, h.ht0.nil_of_size hzero, List.flatten_nil, List.length_nil]
        obtain ⟨d', hexpand, hd', hsize, hfirst, -⟩ :=
          dictExpand_ok h DICT_HT_INITIAL_SIZE hgo (by omega) (by decide)
        obtain ⟨hidle', -⟩ := hfirst hzero
        refine ⟨d', by simp [hzero, hexpand], hd', hsize, by simp [hgo],
          fun _ _ => Or.inl (by omega), by simp [hidle']⟩
      · by_cases hfull : d.ht0.size ≤ d.ht0.used ∧
            (canResize = true ∨ dictForceResizeRatio < d.ht0.used / d.ht0.size)
        · have hmod : d.ht0.used * 2 % 2 ^ 64 = d.ht0.used * 2 := by omega
          obtain ⟨d', hexpand, hd', hsize, -, hsecond⟩ :=
            dictExpand_ok h (d.ht0.used * 2) hgo (by omega) (by omega)
          obtain ⟨hgo', hht0, hle⟩ := hsecond hzero
          refine ⟨d', ?_, hd', hsize, by simp [hgo], by simp [hgo'],
            fun _ _ => ⟨hht0, hfull.1, hle⟩⟩
          rw [if_neg (by simp), if_neg hzero, if_pos hfull, hmod, hexpand]
        · refine ⟨d, ?_, Rearranged.refl h, hzero, by simp [hgo], fun _ _ => ?_, by simp [hgo]⟩
          · rw [if_neg (by simp), if_neg hzero, if_neg hfull]
          · by_cases hlt : d.ht0.used < d.ht0.size
            · exact Or.inl hlt
            · rw [not_and_or, not_or] at hfull
              obtain ⟨hresize, hratio⟩ := hfull.resolve_left (by omega)
              unfold dictForceResizeRatio at hratio
              have hdiv := (Nat.div_lt_iff_lt_mul (Nat.pos_of_ne_zero hzero)).mp
                (show d.ht0.used / d.ht0.size < 6 by omega)
              exact Or.inr ⟨by simpa using hresize, rfl, hdiv⟩

-- ============================================================================
-- A bucket of either table
-- ============================================================================

section Buckets

variable {second : Bool} {i : Nat} {chain chain' : List (K × V)}

/-- What is in the other buckets of both tables. -/
def Dict.rest (d : Dict K V) (second : Bool) (i : Nat) : List (K × V) :=
  others (d.ht second).table i ++ (d.ht (!second)).table.flatten

theorem Dict.Ok.ht (h : d.Ok hash) (second : Bool) : (d.ht second).Ok hash := by
  cases second with
  | false => exact h.ht0
  | true => exact h.ht1

/-- A second table is there only for the time of a move. -/
theorem Dict.Ok.size_ht (h : d.Ok hash) (hsize : d.ht0.size ≠ 0)
    (hgo : second = true → dictIsRehashing d = true) : (d.ht second).size ≠ 0 := by
  cases second with
  | false => exact hsize
  | true =>
      obtain ⟨i, hi⟩ := isRehashing_iff.mp (hgo rfl)
      exact (h.moving i hi).2.1

theorem Dict.entries_setHt (d : Dict K V) (second : Bool) (ht : DictHt K V) :
    (d.setHt second ht).entries.Perm (ht.table.flatten ++ (d.ht (!second)).table.flatten) := by
  cases second with
  | false => exact List.Perm.refl _
  | true => exact List.perm_append_comm

theorem Dict.entries_bucket (hchain : (d.ht second).table[i]? = some chain) :
    d.entries.Perm (chain ++ d.rest second i) := by
  have hself : d.setHt second (d.ht second) = d := by cases second <;> rfl
  have hperm := d.entries_setHt second (d.ht second)
  rw [hself] at hperm
  refine hperm.trans (((flatten_bucket hchain).append_right _).trans ?_)
  rw [List.append_assoc]
  exact List.Perm.refl _

/-- The bucket `i` becomes `chain'`. -/
def Dict.setBucket (d : Dict K V) (second : Bool) (i : Nat) (chain' : List (K × V)) (used : Nat) :
    Dict K V :=
  d.setHt second
    { d.ht second with table := (d.ht second).table.set i chain', used := used }

theorem Dict.entries_setBucket (hchain : (d.ht second).table[i]? = some chain) (used : Nat) :
    (d.setBucket second i chain' used).entries.Perm (chain' ++ d.rest second i) := by
  have hlt := (List.getElem?_eq_some_iff.mp hchain).1
  refine (d.entries_setHt second _).trans (((flatten_set hlt chain').append_right _).trans ?_)
  rw [List.append_assoc]
  exact List.Perm.refl _

@[simp] theorem Dict.iterators_setBucket (used : Nat) :
    (d.setBucket second i chain' used).iterators = d.iterators := by
  cases second <;> rfl

@[simp] theorem Dict.keysFreed_setBucket (used : Nat) :
    (d.setBucket second i chain' used).keysFreed = d.keysFreed := by
  cases second <;> rfl

@[simp] theorem Dict.valsFreed_setBucket (used : Nat) :
    (d.setBucket second i chain' used).valsFreed = d.valsFreed := by
  cases second <;> rfl

@[simp] theorem Dict.rehashidx_setBucket (used : Nat) :
    (d.setBucket second i chain' used).rehashidx = d.rehashidx := by
  cases second <;> rfl

@[simp] theorem Dict.size0_setBucket (used : Nat) :
    (d.setBucket second i chain' used).ht0.size = d.ht0.size := by
  cases second <;> rfl

@[simp] theorem Dict.size1_setBucket (used : Nat) :
    (d.setBucket second i chain' used).ht1.size = d.ht1.size := by
  cases second <;> rfl

/-- The entries of the other buckets stay where they are; the new ones have to belong
    into theirs, and an old bucket that was moved over stays empty. -/
theorem Dict.Ok.setBucket (h : d.Ok hash) (hchain : (d.ht second).table[i]? = some chain)
    (chain' : List (K × V)) (used : Nat) (hplaced : ∀ e ∈ chain', (d.ht second).index hash e.1 = i)
    (hused : used + chain.length = (d.ht second).used + chain'.length)
    (hkeys : KeysNodup (chain' ++ d.rest second i))
    (hsecond : second = true → dictIsRehashing d = true)
    (hfirst : second = false → dictIsRehashing d = true → chain' = [] ∨ chain ≠ []) :
    (d.setBucket second i chain' used).Ok hash := by
  have hlt := (List.getElem?_eq_some_iff.mp hchain).1
  have hcount : used = ((d.ht second).table.set i chain').flatten.length := by
    have hbefore := (flatten_bucket hchain).length_eq
    rw [List.length_append, ← (h.ht second).used] at hbefore
    rw [(flatten_set hlt chain').length_eq, List.length_append]
    omega
  have hok := (h.ht second).set hplaced hcount
  have hkeys' : KeysNodup (d.setBucket second i chain' used).entries :=
    hkeys.perm (Dict.entries_setBucket hchain used).symm
  cases second with
  | false =>
      refine ⟨hok, h.ht1, hkeys', h.idle, fun j hj => ?_⟩
      obtain ⟨hsize0, hsize1, hempty⟩ := h.moving j hj
      refine ⟨hsize0, hsize1, hempty.set fun hij => ?_⟩
      rcases hfirst rfl (isRehashing_iff.mpr ⟨j, hj⟩) with hnil | hne
      · exact hnil
      · exact absurd (hempty i chain hij hchain) hne
  | true =>
      obtain ⟨j, hj⟩ := isRehashing_iff.mp (hsecond rfl)
      refine ⟨h.ht0, hok, hkeys', fun hnone => ?_, fun j hj => h.moving j hj⟩
      rw [show d.rehashidx = none from hnone] at hj
      cases hj

end Buckets

-- ============================================================================
-- Searching
-- ============================================================================

variable {key : K} {val : V} {he : EntryPtr} {e : K × V}

/-- The entry of the key is at `he`. -/
structure Found (hash : K → UInt32) (d : Dict K V) (key : K) (he : EntryPtr) (e : K × V) :
    Prop where
  eq : e.1 = key
  idx : he.idx = (d.ht he.second).index hash key
  chain : (d.ht he.second).table[he.idx]? = some (d.chain he)
  pos : (d.chain he)[he.pos]? = some e
  second : he.second = true → dictIsRehashing d = true

section Found

theorem Found.entry? (h : Found hash d key he e) : d.entry? he = some e := by
  unfold Dict.entry?
  rw [h.chain, Option.bind_some, h.pos]

/-- The entry and all others. -/
theorem Found.perm (h : Found hash d key he e) :
    d.entries.Perm (e :: ((d.chain he).eraseIdx he.pos ++ d.rest he.second he.idx)) := by
  obtain ⟨hlt, hget⟩ := List.getElem?_eq_some_iff.mp h.pos
  have hchain : (d.chain he).Perm (e :: (d.chain he).eraseIdx he.pos) := by
    rw [← hget]
    exact (List.getElem_cons_eraseIdx_perm hlt).symm
  exact (Dict.entries_bucket h.chain).trans (hchain.append_right _)

theorem Found.mem (h : Found hash d key he e) : e ∈ d.entries :=
  h.perm.mem_iff.mpr List.mem_cons_self

theorem Found.ne_nil (h : Found hash d key he e) : d.chain he ≠ [] := by
  intro hnil
  have hpos := h.pos
  rw [hnil] at hpos
  simp at hpos

theorem Found.placed (h : Found hash d key he e) (hok : d.Ok hash) (e' : K × V)
    (he' : e' ∈ d.chain he) : (d.ht he.second).index hash e'.1 = he.idx :=
  (hok.ht he.second).placed _ _ h.chain e' he'

end Found

/-- The rounds that an operation makes. -/
def rounds (d : Dict K V) : Nat := if d.iterators = 0 then 1 else 0

theorem lt_of_room (h : dictSize d ≤ dictRoom) : dictSize d < 2 ^ 64 := by
  unfold dictRoom at h
  omega

theorem Dict.Ok.entries_of_size (h : d.Ok hash) (hsize : d.ht0.size = 0) : d.entries = [] := by
  have hidle : d.rehashidx = none := by
    cases hi : d.rehashidx with
    | none => rfl
    | some i => exact absurd hsize (h.moving i hi).1
  rw [h.entries_idle hidle, h.ht0.nil_of_size hsize, List.flatten_nil]

variable [DecidableEq K]

theorem searchTable_ok (h : d.Ok hash) (hsize : d.ht0.size ≠ 0) (key : K) (second : Bool)
    (hgo : second = true → dictIsRehashing d = true) :
    (searchTable hash d key second = some none ∧
        ∀ e ∈ (d.ht second).table.flatten, e.1 ≠ key) ∨
      ∃ he e, searchTable hash d key second = some (some he) ∧ Found hash d key he e := by
  obtain ⟨chain, hchain⟩ := (h.ht second).chain (h.size_ht hsize hgo) key
  unfold searchTable
  dsimp only
  rw [hchain, Option.map_some]
  cases hfind : chain.findIdx? fun he => he.1 = key with
  | none =>
      refine Or.inl ⟨rfl, fun e he hkey => ?_⟩
      have hmem : e ∈ chain := by
        have hown : (d.ht second).table[(d.ht second).index hash e.1]? = some chain := by
          rw [hkey]
          exact hchain
        exact ((h.ht second).placed.mem_iff hown).mp he
      simpa [hkey] using List.findIdx?_eq_none_iff.mp hfind e hmem
  | some pos =>
      obtain ⟨hpos, hkey, -⟩ := List.findIdx?_eq_some_iff_getElem.mp hfind
      have hget : d.chain ⟨second, (d.ht second).index hash key, pos⟩ = chain := by
        unfold Dict.chain
        simp [List.getD_eq_getElem?_getD, hchain]
      refine Or.inr ⟨_, chain[pos], rfl, by simpa using hkey, rfl, ?_, ?_, hgo⟩
      · rw [hget]
        exact hchain
      · rw [hget]
        exact List.getElem?_eq_getElem hpos

theorem searchTables_ok (h : d.Ok hash) (hsize : d.ht0.size ≠ 0) (key : K) :
    (searchTables hash d key = some none ∧ ∀ e ∈ d.entries, e.1 ≠ key) ∨
      ∃ he e, searchTables hash d key = some (some he) ∧ Found hash d key he e := by
  unfold searchTables
  rcases searchTable_ok h hsize key false (by simp) with
    ⟨hnone, habsent⟩ | ⟨he, e, hsome, hfound⟩
  · rw [hnone, Option.bind_some]
    cases hgo : dictIsRehashing d with
    | false =>
        refine Or.inl ⟨by simp, ?_⟩
        rw [h.entries_idle (isRehashing_eq_false.mp hgo)]
        exact habsent
    | true =>
        rcases searchTable_ok h hsize key true (by simp [hgo]) with ⟨hnone', habsent'⟩ | hfound
        · refine Or.inl ⟨by simp [hnone'], fun e he => ?_⟩
          rcases List.mem_append.mp he with h0 | h1
          · exact habsent e h0
          · exact habsent' e h1
        · exact Or.inr (by simpa using hfound)
  · exact Or.inr ⟨he, e, by simp [hsome], hfound⟩


theorem dictFind_ok (h : d.Ok hash) (hroom : dictSize d ≤ dictRoom) (key : K) :
    ∃ d' found, dictFind hash d key = some (d', found) ∧ Rearranged hash d d' ∧
      Moved d d' (rounds d) ∧
      (found = none ∧ (∀ e ∈ d.entries, e.1 ≠ key) ∨
        ∃ he e, found = some he ∧ Found hash d' key he e) := by
  unfold dictFind
  by_cases hsize : d.ht0.size = 0
  · refine ⟨d, none, if_pos hsize, Rearranged.refl h, ?_, Or.inl ⟨rfl, ?_⟩⟩
    · apply Moved.refl
      intro hgo
      obtain ⟨i, hi⟩ := isRehashing_iff.mp hgo
      exact absurd hsize (h.moving i hi).1
    · rw [h.entries_of_size hsize]
      simp
  · obtain ⟨mid, hstep, hmid, hmoved⟩ := dictRehashStep_ok h (lt_of_room hroom)
    rw [if_neg hsize, hstep, Option.bind_some]
    rcases searchTables_ok hmid.ok (hmid.size hsize) key with
      ⟨hnone, habsent⟩ | ⟨he, e, hsome, hfound⟩
    · exact ⟨mid, none, by rw [hnone, Option.map_some], hmid, hmoved,
        Or.inl ⟨rfl, fun e he => habsent e (hmid.entries.mem_iff.mpr he)⟩⟩
    · exact ⟨mid, some he, by rw [hsome, Option.map_some], hmid, hmoved,
        Or.inr ⟨he, e, rfl, hfound⟩⟩

/-- The value of the key, if it is there. -/
theorem dictFetchValue_ok (h : d.Ok hash) (hroom : dictSize d ≤ dictRoom) (key : K) :
    ∃ d', dictFetchValue hash d key = some (d', d.entries.lookup key) ∧ Rearranged hash d d' ∧
      Moved d d' (rounds d) := by
  obtain ⟨d', found, hfind, hd', hmoved, hcases⟩ := dictFind_ok h hroom key
  refine ⟨d', ?_, hd', hmoved⟩
  unfold dictFetchValue
  rw [hfind, Option.bind_some]
  rcases hcases with ⟨rfl, habsent⟩ | ⟨he, e, rfl, hfound⟩
  · dsimp only
    rw [lookup_eq_find?, find?_eq_none.mpr habsent, Option.map_none]
  · dsimp only
    have hmem : e ∈ d.entries := hd'.entries.mem_iff.mp hfound.mem
    rw [hfound.entry?, Option.map_some, lookup_eq_find?,
      (find?_eq_some h.keys).mpr ⟨hmem, hfound.eq⟩, Option.map_some]

-- ============================================================================
-- Adding
-- ============================================================================

/-- An entry more. -/
structure Linked (hash : K → UInt32) (d d' : Dict K V) (e : K × V) : Prop where
  ok : d'.Ok hash
  entries : d'.entries.Perm (e :: d.entries)
  iterators : d'.iterators = d.iterators
  keysFreed : d'.keysFreed = d.keysFreed
  valsFreed : d'.valsFreed = d.valsFreed
  going : dictIsRehashing d' = dictIsRehashing d
  size0 : d'.ht0.size = d.ht0.size
  size1 : d'.ht1.size = d.ht1.size
  used : dictIsRehashing d = true → d'.ht0.used = d.ht0.used

theorem intOf_of_lt {n : Nat} (h : n < 2 ^ 31) : intOf n = n := if_pos h

omit [DecidableEq K] in
theorem Dict.Ok.link (h : d.Ok hash) (hsize : d.ht0.size ≠ 0)
    (habsent : ∀ e ∈ d.entries, e.1 ≠ key) (val : V) :
    ∃ ht, (d.ht (dictIsRehashing d)).link ((d.ht (dictIsRehashing d)).index hash key) (key, val) =
        some ht ∧ Linked hash d (d.setHt (dictIsRehashing d) ht) (key, val) := by
  obtain ⟨chain, hchain⟩ := (h.ht (dictIsRehashing d)).chain (h.size_ht hsize id) key
  refine ⟨_, by unfold DictHt.link; rw [hchain, Option.map_some], ?_⟩
  have hbucket := Dict.entries_bucket hchain
  have hset : (d.setBucket (dictIsRehashing d) _ ((key, val) :: chain) _).entries.Perm _ :=
    Dict.entries_setBucket hchain ((d.ht (dictIsRehashing d)).used + 1)
  have hentries := hset.trans (hbucket.symm.cons (key, val))
  have hkeys : KeysNodup ((key, val) :: d.entries) := keysNodup_cons.mpr ⟨habsent, h.keys⟩
  have hok := h.setBucket hchain ((key, val) :: chain) ((d.ht (dictIsRehashing d)).used + 1) ?_ ?_
    (hkeys.perm (hbucket.cons _)) id ?_
  · refine ⟨hok, hentries, Dict.iterators_setBucket _, Dict.keysFreed_setBucket _,
      Dict.valsFreed_setBucket _, congrArg Option.isSome (Dict.rehashidx_setBucket _),
      Dict.size0_setBucket _, Dict.size1_setBucket _, fun hgo => ?_⟩
    rw [hgo]
    rfl
  · intro e he
    rcases List.mem_cons.mp he with rfl | hold
    · rfl
    · exact (h.ht _).placed _ _ hchain e hold
  · rw [List.length_cons]
    omega
  · intro hfalse htrue
    rw [hfalse] at htrue
    cases htrue

/-- A new key gets an entry; one that is there is refused. -/
theorem dictAdd_ok (h : d.Ok hash) (hroom : dictSize d ≤ dictRoom) (canResize : Bool) (key : K)
    (val : V) :
    ∃ mid mid', Rearranged hash d mid ∧ Moved d mid (rounds d) ∧
      Expanded hash canResize mid mid' ∧
      ((∃ e ∈ d.entries, e.1 = key) ∧
          dictAdd hash canResize d key val = some (mid', DICT_ERR) ∨
        (∀ e ∈ d.entries, e.1 ≠ key) ∧
          ∃ d', dictAdd hash canResize d key val = some (d', DICT_OK) ∧
            Linked hash mid' d' (key, val)) := by
  obtain ⟨mid, hstep, hmid, hmoved⟩ := dictRehashStep_ok h (lt_of_room hroom)
  obtain ⟨mid', hexpand, hmid'⟩ :=
    dictExpandIfNeeded_ok hmid.ok (by rw [hmid.dictSize h]; exact hroom) canResize
  have hall := hmid.trans hmid'.rearranged
  refine ⟨mid, mid', hmid, hmoved, hmid', ?_⟩
  unfold dictAdd dictAddRaw dictKeyIndex
  rw [hstep, Option.bind_some, hexpand]
  dsimp only
  rw [if_neg (by decide)]
  rcases searchTables_ok hall.ok hmid'.size key with ⟨hnone, habsent⟩ | ⟨he, e, hsome, hfound⟩
  · obtain ⟨ht, hlink, hlinked⟩ := hall.ok.link hmid'.size habsent val
    have hlt := (hall.ok.ht (dictIsRehashing mid')).index_lt (hall.ok.size_ht hmid'.size id) key
    have hle := (hall.ok.ht (dictIsRehashing mid')).le
    refine Or.inr ⟨fun e he => habsent e (hall.entries.mem_iff.mpr he), _, ?_, hlinked⟩
    rw [hnone, Option.map_some, Option.bind_some]
    rw [Option.isSome_none, if_neg Bool.false_ne_true]
    dsimp only
    rw [intOf_of_lt (by omega), if_neg (by omega), if_neg (by omega), Int.toNat_natCast, hlink]
    rfl
  · refine Or.inl ⟨⟨e, hall.entries.mem_iff.mp hfound.mem, hfound.eq⟩, ?_⟩
    rw [hsome]
    rfl

-- ============================================================================
-- Replacing and deleting
-- ============================================================================

omit [DecidableEq K] in
/-- The bucket of an entry, with other entries of its keys in it. -/
theorem Found.setBucket_ok (h : Found hash d key he e) (hok : d.Ok hash) (chain' : List (K × V))
    (used : Nat) (hplaced : ∀ e' ∈ chain', (d.ht he.second).index hash e'.1 = he.idx)
    (hused : used + (d.chain he).length = (d.ht he.second).used + chain'.length)
    (hkeys : KeysNodup (chain' ++ d.rest he.second he.idx)) :
    (d.setBucket he.second he.idx chain' used).Ok hash :=
  hok.setBucket h.chain chain' used hplaced hused hkeys h.second fun _ _ => Or.inr h.ne_nil

/-- Another value for an entry. -/
structure Revalued (hash : K → UInt32) (d d' : Dict K V) (key : K) (val old : V) : Prop where
  ok : d'.Ok hash
  entries : d'.entries.Perm (setKey key val d.entries)
  iterators : d'.iterators = d.iterators
  keysFreed : d'.keysFreed = d.keysFreed
  valsFreed : d'.valsFreed = d.valsFreed ++ [old]
  rehashidx : d'.rehashidx = d.rehashidx
  size0 : d'.ht0.size = d.ht0.size
  size1 : d'.ht1.size = d.ht1.size
  used : d'.ht0.used = d.ht0.used

theorem Found.revalue (h : Found hash d key he e) (hok : d.Ok hash) (val : V) :
    Revalued hash d
      { d.setChain he ((d.chain he).set he.pos (e.1, val)) with
        valsFreed := (d.setChain he ((d.chain he).set he.pos (e.1, val))).valsFreed ++ [e.2] }
      key val e.2 := by
  obtain ⟨hlt, hget⟩ := List.getElem?_eq_some_iff.mp h.pos
  have hset : ((d.chain he).set he.pos (e.1, val)).Perm
      ((e.1, val) :: (d.chain he).eraseIdx he.pos) := List.set_perm_cons_eraseIdx hlt _
  have hchain : d.setChain he ((d.chain he).set he.pos (e.1, val)) =
      d.setBucket he.second he.idx ((d.chain he).set he.pos (e.1, val))
        (d.ht he.second).used := rfl
  have hold := hok.keys.perm h.perm
  obtain ⟨hnew, hrest⟩ := keysNodup_cons.mp hold
  have hafter : (((d.chain he).set he.pos (e.1, val)) ++ d.rest he.second he.idx).Perm
      ((e.1, val) :: ((d.chain he).eraseIdx he.pos ++ d.rest he.second he.idx)) :=
    hset.append_right _
  have hkeys : KeysNodup ((e.1, val) :: ((d.chain he).eraseIdx he.pos ++
      d.rest he.second he.idx)) := keysNodup_cons.mpr ⟨hnew, hrest⟩
  have hok' := h.setBucket_ok hok _ (d.ht he.second).used ?_ ?_ (hkeys.perm hafter.symm)
  · rw [hchain]
    refine ⟨⟨hok'.ht0, hok'.ht1, hok'.keys, hok'.idle, hok'.moving⟩, ?_,
      Dict.iterators_setBucket _, Dict.keysFreed_setBucket _,
      congrArg (· ++ [e.2]) (Dict.valsFreed_setBucket _), Dict.rehashidx_setBucket _,
      Dict.size0_setBucket _, Dict.size1_setBucket _, ?_⟩
    · refine ((Dict.entries_setBucket h.chain _).trans hafter).trans ?_
      refine List.Perm.trans ?_ (setKey_perm h.perm).symm
      rw [setKey_cons_of_nodup hold h.eq]
    · cases hsecond : he.second <;> simp [Dict.setBucket, Dict.setHt, Dict.ht]
  · intro e' he'
    rcases List.mem_cons.mp (hset.mem_iff.mp he') with rfl | hin
    · exact h.placed hok e (List.mem_of_getElem? h.pos)
    · exact h.placed hok e' (List.mem_of_mem_eraseIdx hin)
  · rw [List.length_set]

/-- A new key gets an entry; the value of one that is there is replaced, and the old one
    freed. -/
theorem dictReplace_ok (h : d.Ok hash) (hroom : dictSize d ≤ dictRoom) (canResize : Bool)
    (key : K) (val : V) :
    ∃ mid mid' d', Rearranged hash d mid ∧ Moved d mid (rounds d) ∧
      Expanded hash canResize mid mid' ∧
      ((∀ e ∈ d.entries, e.1 ≠ key) ∧
          dictReplace hash canResize d key val = some (d', 1) ∧ Linked hash mid' d' (key, val) ∨
        ∃ old mid'', d.entries.lookup key = some old ∧
          dictReplace hash canResize d key val = some (d', 0) ∧
          Rearranged hash mid' mid'' ∧ Moved mid' mid'' (rounds mid') ∧
          Revalued hash mid'' d' key val old) := by
  obtain ⟨mid, mid', hmid, hmoved, hmid', hcases⟩ := dictAdd_ok h hroom canResize key val
  have hall := hmid.trans hmid'.rearranged
  unfold dictReplace
  rcases hcases with ⟨⟨e, he, hkey⟩, hadd⟩ | ⟨habsent, d', hadd, hlinked⟩
  · obtain ⟨mid'', found, hfind, hmid'', hmoved', hfound⟩ :=
      dictFind_ok hall.ok (by rw [hall.dictSize h]; exact hroom) key
    rcases hfound with ⟨-, habsent⟩ | ⟨ptr, e', rfl, hfound⟩
    · exact absurd hkey (habsent e (hall.entries.mem_iff.mpr he))
    · have hmem : e' ∈ d.entries := (hmid''.entries.trans hall.entries).mem_iff.mp hfound.mem
      refine ⟨mid, mid', _, hmid, hmoved, hmid', Or.inr ⟨e'.2, mid'', ?_, ?_, hmid'', hmoved',
        hfound.revalue hmid''.ok val⟩⟩
      · rw [lookup_eq_find?, (find?_eq_some h.keys).mpr ⟨hmem, hfound.eq⟩, Option.map_some]
      · rw [hadd, Option.bind_some]
        dsimp only
        rw [if_neg (by decide), hfind, Option.bind_some]
        dsimp only
        rw [Option.bind_some, hfound.entry?, Option.map_some]
  · refine ⟨mid, mid', d', hmid, hmoved, hmid', Or.inl ⟨habsent, ?_, hlinked⟩⟩
    rw [hadd, Option.bind_some]
    rfl

/-- An entry less. -/
structure Unlinked (hash : K → UInt32) (d d' : Dict K V) (key : K) : Prop where
  ok : d'.Ok hash
  entries : d'.entries.Perm (eraseKey key d.entries)
  iterators : d'.iterators = d.iterators
  rehashidx : d'.rehashidx = d.rehashidx
  size0 : d'.ht0.size = d.ht0.size
  size1 : d'.ht1.size = d.ht1.size
  used : d'.ht0.used ≤ d.ht0.used

theorem Found.unlink (h : Found hash d key he e) (hok : d.Ok hash) (hroom : dictSize d ≤ dictRoom) :
    Unlinked hash d (d.setBucket he.second he.idx ((d.chain he).eraseIdx he.pos)
      (ulongSub (d.ht he.second).used 1)) key := by
  obtain ⟨hlt, hget⟩ := List.getElem?_eq_some_iff.mp h.pos
  have hold := hok.keys.perm h.perm
  obtain ⟨hnew, hrest⟩ := keysNodup_cons.mp hold
  have hle : (d.chain he).length ≤ (d.ht he.second).used := by
    rw [(hok.ht he.second).used, (flatten_bucket h.chain).length_eq, List.length_append]
    omega
  have hlt64 : (d.ht he.second).used < 2 ^ 64 := by
    have hroom' := lt_of_room hroom
    unfold dictSize at hroom'
    cases hsecond : he.second
    · show d.ht0.used < 2 ^ 64
      omega
    · show d.ht1.used < 2 ^ 64
      omega
  have hsub : ulongSub (d.ht he.second).used 1 = (d.ht he.second).used - 1 :=
    ulongSub_of_le (by omega) hlt64
  have hok' := h.setBucket_ok hok _ (ulongSub (d.ht he.second).used 1)
    (fun e' he' => h.placed hok e' (List.mem_of_mem_eraseIdx he'))
    (by rw [hsub, List.length_eraseIdx_of_lt hlt]; omega) hrest
  refine ⟨hok', ?_, Dict.iterators_setBucket _, Dict.rehashidx_setBucket _,
    Dict.size0_setBucket _, Dict.size1_setBucket _, ?_⟩
  · refine (Dict.entries_setBucket h.chain _).trans ?_
    refine List.Perm.trans ?_ (eraseKey_perm h.perm).symm
    rw [eraseKey_cons_of_nodup hold h.eq]
  · rw [hsub]
    cases hsecond : he.second <;> simp [Dict.setBucket, Dict.setHt, Dict.ht]

/-- The entry of the key is taken out and freed. -/
theorem dictGenericDelete_ok (h : d.Ok hash) (hroom : dictSize d ≤ dictRoom) (key : K)
    (nofree : Bool) :
    ∃ mid, Rearranged hash d mid ∧ Moved d mid (rounds d) ∧
      (d.entries.lookup key = none ∧
          dictGenericDelete hash d key nofree = some (mid, DICT_ERR) ∨
        ∃ old d', d.entries.lookup key = some old ∧
          dictGenericDelete hash d key nofree = some (d', DICT_OK) ∧ Unlinked hash mid d' key ∧
          d'.keysFreed = mid.keysFreed ++ (if nofree then [] else [key]) ∧
          d'.valsFreed = mid.valsFreed ++ (if nofree then [] else [old])) := by
  obtain ⟨mid, found, hfind, hmid, hmoved, hcases⟩ := dictFind_ok h hroom key
  refine ⟨mid, hmid, hmoved, ?_⟩
  unfold dictGenericDelete
  by_cases hsize : d.ht0.size = 0
  · have hmid' : mid = d := by
      unfold dictFind at hfind
      rw [if_pos hsize] at hfind
      cases hfind
      rfl
    refine Or.inl ⟨?_, by rw [if_pos hsize, hmid']⟩
    rw [h.entries_of_size hsize, List.lookup_nil]
  · unfold dictFind at hfind
    rw [if_neg hsize] at hfind
    obtain ⟨mid', hstep, hsearch⟩ := Option.bind_eq_some_iff.mp hfind
    obtain ⟨found', hsearch, heq⟩ := Option.map_eq_some_iff.mp hsearch
    cases heq
    rw [if_neg hsize, hstep, Option.bind_some, hsearch, Option.bind_some]
    rcases hcases with ⟨rfl, habsent⟩ | ⟨he, e, rfl, hfound⟩
    · refine Or.inl ⟨?_, rfl⟩
      rw [lookup_eq_find?, find?_eq_none.mpr habsent, Option.map_none]
    · have hmem : e ∈ d.entries := hmid.entries.mem_iff.mp hfound.mem
      have hunlink := hfound.unlink hmid.ok (by rw [hmid.dictSize h]; exact hroom)
      have hset : ((mid.setChain he ((mid.chain he).eraseIdx he.pos)).setHt he.second
          { (mid.setChain he ((mid.chain he).eraseIdx he.pos)).ht he.second with
            used := ulongSub
              ((mid.setChain he ((mid.chain he).eraseIdx he.pos)).ht he.second).used 1 }) =
          mid.setBucket he.second he.idx ((mid.chain he).eraseIdx he.pos)
            (ulongSub (mid.ht he.second).used 1) := by
        unfold Dict.setChain Dict.setBucket
        cases he.second <;> rfl
      have hlookup : d.entries.lookup key = some e.2 := by
        rw [lookup_eq_find?, (find?_eq_some h.keys).mpr ⟨hmem, hfound.eq⟩, Option.map_some]
      dsimp only
      rw [hfound.entry?, Option.map_some, hset]
      cases nofree with
      | true =>
          refine Or.inr ⟨e.2, _, hlookup, rfl, hunlink, ?_, ?_⟩
          · simp
          · simp
      | false =>
          refine Or.inr ⟨e.2, _, hlookup, rfl,
            ⟨⟨hunlink.ok.ht0, hunlink.ok.ht1, hunlink.ok.keys, hunlink.ok.idle,
              hunlink.ok.moving⟩, hunlink.entries, hunlink.iterators, hunlink.rehashidx,
              hunlink.size0, hunlink.size1, hunlink.used⟩, ?_, ?_⟩
          · simp [hfound.eq]
          · simp

-- ============================================================================
-- Clearing
-- ============================================================================

omit [DecidableEq K] in
/-- The count of what is left to free runs out with the entries. -/
theorem clearBuckets_eq (table : List (List (K × V))) (hlt : table.flatten.length < 2 ^ 64) :
    clearBuckets table table.flatten.length = table.flatten := by
  induction table with
  | nil => rfl
  | cons chain rest ih =>
      rw [List.flatten_cons, List.length_append] at hlt ⊢
      unfold clearBuckets
      by_cases hzero : chain.length + rest.flatten.length = 0
      · rw [if_pos hzero, List.eq_nil_of_length_eq_zero (show chain.length = 0 by omega),
          List.eq_nil_of_length_eq_zero (show rest.flatten.length = 0 by omega)]
        rfl
      · have hsub : ulongSub (chain.length + rest.flatten.length) chain.length =
            rest.flatten.length := by
          rw [ulongSub_of_le (by omega) hlt]
          omega
        rw [if_neg hzero, hsub, ih (by omega)]

omit [DecidableEq K] in
theorem dictEmpty_ok (h : d.Ok hash) (hlt : dictSize d < 2 ^ 64) :
    (dictEmpty d).Ok hash ∧ (dictEmpty d).entries = [] ∧
      (dictEmpty d).keysFreed = d.keysFreed ++ d.entries.map Prod.fst ∧
      (dictEmpty d).valsFreed = d.valsFreed ++ d.entries.map Prod.snd := by
  unfold dictSize at hlt
  have hfreed : clearBuckets d.ht0.table d.ht0.used ++ clearBuckets d.ht1.table d.ht1.used =
      d.entries := by
    rw [h.ht0.used, h.ht1.used, clearBuckets_eq _ (by rw [← h.ht0.used]; omega),
      clearBuckets_eq _ (by rw [← h.ht1.used]; omega)]
    rfl
  refine ⟨⟨dictReset_ok, dictReset_ok, KeysNodup.nil, fun _ => rfl, (fun i hi => by cases hi)⟩,
    rfl, ?_, ?_⟩
  · show d.keysFreed ++ _ = _
    rw [hfreed]
  · show d.valsFreed ++ _ = _
    rw [hfreed]

end ZServer
