/-
  ZServer.Dict.Invariant

  What holds between two operations of a dictionary, and that it rearranges itself
  without a change of what is in it.

    * `Dict.Ok` — the tables have a power of two of buckets, every entry is in the bucket
      of its key, no key is there twice, and the buckets before `rehashidx` are empty.
    * `Rearranged` — the same entries in other buckets.
    * `dictRehash_ok` — any number of rounds moves entries only.
-/

import ZServer.Dict.Basic
import ZServer.Lib.Buckets
import Mathlib.Algebra.Group.Nat.Defs

namespace ZServer

open Lib

variable {K V : Type} {hash : K → UInt32}

-- ============================================================================
-- One table
-- ============================================================================

structure DictHt.Ok (hash : K → UInt32) (ht : DictHt K V) : Prop where
  length : ht.table.length = ht.size
  size : ht.size = 0 ∨ ∃ k, 2 ≤ k ∧ k ≤ 30 ∧ ht.size = 2 ^ k
  mask : ht.sizemask = ht.size - 1
  used : ht.used = ht.table.flatten.length
  placed : Placed (fun e => ht.index hash e.1) ht.table

section Table

variable {ht : DictHt K V}

theorem dictReset_ok : (dictReset : DictHt K V).Ok hash :=
  ⟨rfl, Or.inl rfl, rfl, rfl, placed_replicate 0⟩

theorem DictHt.Ok.le (h : ht.Ok hash) : ht.size ≤ 2 ^ 30 := by
  rcases h.size with hzero | ⟨k, -, hk, heq⟩
  · omega
  · rw [heq]
    exact Nat.pow_le_pow_right (by decide) hk

theorem DictHt.Ok.index_lt (h : ht.Ok hash) (hsize : ht.size ≠ 0) (key : K) :
    ht.index hash key < ht.size := by
  rcases h.size with hzero | ⟨k, -, -, heq⟩
  · exact absurd hzero hsize
  · unfold DictHt.index
    rw [h.mask, heq, Nat.and_two_pow_sub_one_eq_mod]
    exact Nat.mod_lt _ (Nat.two_pow_pos k)

/-- The chain of a key. -/
theorem DictHt.Ok.chain (h : ht.Ok hash) (hsize : ht.size ≠ 0) (key : K) :
    ∃ chain, ht.table[ht.index hash key]? = some chain := by
  have hlt : ht.index hash key < ht.table.length := by
    rw [h.length]
    exact h.index_lt hsize key
  exact ⟨_, List.getElem?_eq_getElem hlt⟩

theorem DictHt.Ok.nil_of_size (h : ht.Ok hash) (hsize : ht.size = 0) : ht.table = [] :=
  List.eq_nil_of_length_eq_zero (h.length.trans hsize)

theorem DictHt.Ok.nil_of_used (h : ht.Ok hash) (hused : ht.used = 0) : ht.table.flatten = [] :=
  List.eq_nil_of_length_eq_zero (h.used.symm.trans hused)

/-- A bucket of its own entries in the place of another. -/
theorem DictHt.Ok.set (h : ht.Ok hash) {i used : Nat} {chain : List (K × V)}
    (hplaced : ∀ e ∈ chain, ht.index hash e.1 = i)
    (hused : used = (ht.table.set i chain).flatten.length) :
    DictHt.Ok hash { ht with table := ht.table.set i chain, used := used } :=
  ⟨List.length_set.trans h.length, h.size, h.mask, hused, h.placed.set hplaced⟩

theorem DictHt.Ok.link (h : ht.Ok hash) (hsize : ht.size ≠ 0) (e : K × V) :
    ∃ ht', ht.link (ht.index hash e.1) e = some ht' ∧ ht'.Ok hash ∧ ht'.size = ht.size ∧
      ht'.sizemask = ht.sizemask ∧ ht'.used = ht.used + 1 ∧
      ht'.table.flatten.Perm (e :: ht.table.flatten) := by
  obtain ⟨chain, hchain⟩ := h.chain hsize e.1
  have hlt := (List.getElem?_eq_some_iff.mp hchain).1
  have hperm : (ht.table.set (ht.index hash e.1) (e :: chain)).flatten.Perm
      (e :: ht.table.flatten) :=
    (flatten_set hlt _).trans ((flatten_bucket hchain).symm.cons e)
  refine ⟨{ ht with
    table := ht.table.set (ht.index hash e.1) (e :: chain), used := ht.used + 1 }, ?_, ?_, rfl,
    rfl, rfl, hperm⟩
  · unfold DictHt.link
    rw [hchain, Option.map_some]
  · apply h.set
    · intro e' he'
      rcases List.mem_cons.mp he' with rfl | hold
      · rfl
      · exact h.placed _ _ hchain e' hold
    · rw [hperm.length_eq, List.length_cons, h.used]

end Table

-- ============================================================================
-- Both tables
-- ============================================================================

/-- What is in the dictionary. -/
def Dict.entries (d : Dict K V) : List (K × V) := d.ht0.table.flatten ++ d.ht1.table.flatten

structure Dict.Ok (hash : K → UInt32) (d : Dict K V) : Prop where
  ht0 : d.ht0.Ok hash
  ht1 : d.ht1.Ok hash
  keys : KeysNodup d.entries
  idle : d.rehashidx = none → d.ht1 = dictReset
  moving : ∀ i, d.rehashidx = some i →
    d.ht0.size ≠ 0 ∧ d.ht1.size ≠ 0 ∧ EmptyBelow i d.ht0.table

theorem dictCreate_ok : (dictCreate : Dict K V).Ok hash :=
  ⟨dictReset_ok, dictReset_ok, KeysNodup.nil, fun _ => rfl, fun i hi => by cases hi⟩

section Both

variable {d d' d'' : Dict K V}

theorem isRehashing_iff : dictIsRehashing d = true ↔ ∃ i, d.rehashidx = some i :=
  Option.isSome_iff_exists

theorem isRehashing_eq_false : dictIsRehashing d = false ↔ d.rehashidx = none := by
  unfold dictIsRehashing
  simp

theorem Dict.Ok.size_eq (h : d.Ok hash) : dictSize d = d.entries.length := by
  unfold dictSize Dict.entries
  rw [h.ht0.used, h.ht1.used, List.length_append]

theorem Dict.Ok.entries_idle (h : d.Ok hash) (hidle : d.rehashidx = none) :
    d.entries = d.ht0.table.flatten := by
  unfold Dict.entries
  rw [h.idle hidle]
  exact List.append_nil _

/-- The same entries, perhaps in other buckets. -/
structure Rearranged (hash : K → UInt32) (d d' : Dict K V) : Prop where
  ok : d'.Ok hash
  entries : d'.entries.Perm d.entries
  iterators : d'.iterators = d.iterators
  keysFreed : d'.keysFreed = d.keysFreed
  valsFreed : d'.valsFreed = d.valsFreed
  size : d.ht0.size ≠ 0 → d'.ht0.size ≠ 0

theorem Rearranged.refl (h : d.Ok hash) : Rearranged hash d d :=
  ⟨h, List.Perm.refl _, rfl, rfl, rfl, id⟩

theorem Rearranged.trans (h : Rearranged hash d d') (h' : Rearranged hash d' d'') :
    Rearranged hash d d'' :=
  ⟨h'.ok, h'.entries.trans h.entries, h'.iterators.trans h.iterators,
    h'.keysFreed.trans h.keysFreed, h'.valsFreed.trans h.valsFreed, fun hne => h'.size (h.size hne)⟩

theorem Rearranged.dictSize (h : Rearranged hash d d') (hok : d.Ok hash) :
    dictSize d' = dictSize d := by
  rw [h.ok.size_eq, hok.size_eq, h.entries.length_eq]

-- ============================================================================
-- Moving over
-- ============================================================================

@[simp] theorem ulongSub_succ {n : Nat} (h : n + 1 < 2 ^ 64) : ulongSub (n + 1) 1 = n := by
  unfold ulongSub
  omega

theorem ulongSub_of_le {a b : Nat} (hba : b ≤ a) (ha : a < 2 ^ 64) : ulongSub a b = a - b := by
  unfold ulongSub
  omega

theorem moveEntries_ok {ht1 : DictHt K V} (h1 : ht1.Ok hash) (hsize : ht1.size ≠ 0)
    (chain : List (K × V)) (ht0 : DictHt K V) (hused : chain.length ≤ ht0.used)
    (hlt : ht0.used < 2 ^ 64) :
    ∃ ht1', moveEntries hash chain ht0 ht1 =
        some ({ ht0 with used := ht0.used - chain.length }, ht1') ∧
      ht1'.Ok hash ∧ ht1'.size = ht1.size ∧ ht1'.used = ht1.used + chain.length ∧
      ht1'.table.flatten.Perm (chain ++ ht1.table.flatten) := by
  induction chain generalizing ht0 ht1 with
  | nil => exact ⟨ht1, rfl, h1, rfl, rfl, List.Perm.refl _⟩
  | cons de nextde ih =>
      rw [List.length_cons] at hused
      obtain ⟨mid, hlink, hmid, hmidsize, -, hmidused, hmidperm⟩ := h1.link hsize de
      have hdec : ulongSub ht0.used 1 = ht0.used - 1 := ulongSub_of_le (by omega) hlt
      obtain ⟨ht1', hmove, hok, hsize', hused', hperm⟩ :=
        ih hmid (hmidsize.trans_ne hsize) { ht0 with used := ulongSub ht0.used 1 }
          (by simp only [hdec]; omega) (by simp only [hdec]; omega)
      refine ⟨ht1', ?_, hok, hsize'.trans hmidsize, ?_, ?_⟩
      · unfold moveEntries
        rw [hlink, Option.bind_some, hmove, hdec, List.length_cons, Nat.sub_sub,
          Nat.add_comm 1]
      · rw [hused', hmidused, List.length_cons]
        omega
      · refine hperm.trans ((hmidperm.append_left nextde).trans ?_)
        exact List.perm_middle

/-- A round moves a bucket over, or puts the new table in the place of the old one. -/
theorem dictRehashRound_ok (h : d.Ok hash) {i : Nat} (hi : d.rehashidx = some i)
    (hroom : d.ht0.used < 2 ^ 64) :
    ∃ d' more, dictRehashRound hash d i = some (d', more) ∧ Rearranged hash d d' ∧
      dictIsRehashing d' = more ∧ (more = true → d'.ht0.used < d.ht0.used ∧
        d'.ht1.size = d.ht1.size) ∧ (more = false → d'.ht0 = d.ht1) := by
  obtain ⟨hsize0, hsize1, hempty⟩ := h.moving i hi
  by_cases hused : d.ht0.used = 0
  · refine ⟨{ d with ht0 := d.ht1, ht1 := dictReset, rehashidx := none }, false, if_pos hused, ?_,
      rfl, by simp, fun _ => rfl⟩
    have hentries : d.ht1.table.flatten ++ [] = d.entries := by
      unfold Dict.entries
      rw [h.ht0.nil_of_used hused, List.append_nil, List.nil_append]
    refine ⟨⟨h.ht1, dictReset_ok, ?_, fun _ => rfl, fun j hj => by cases hj⟩,
      List.Perm.of_eq hentries, rfl, rfl, rfl, fun _ => hsize1⟩
    show KeysNodup (d.ht1.table.flatten ++ [])
    rw [hentries]
    exact h.keys
  · have hne : d.ht0.table.flatten ≠ [] := by
      intro hnil
      exact hused (by rw [h.ht0.used, hnil]; rfl)
    obtain ⟨n, hskip⟩ := hempty.exists_skip hne
    obtain ⟨hbelow, chain, hchain, hchainne⟩ := hempty.skip hskip
    have hlt := (List.getElem?_eq_some_iff.mp hchain).1
    have hle := h.ht0.le
    have hlength := h.ht0.length
    have hbucket := flatten_bucket hchain
    have hchainlen : chain.length ≤ d.ht0.used := by
      rw [h.ht0.used, hbucket.length_eq, List.length_append]
      omega
    have hpos : 0 < chain.length := List.length_pos_of_ne_nil hchainne
    obtain ⟨ht1', hmove, hok1, hsize1', -, hperm1⟩ :=
      moveEntries_ok h.ht1 hsize1 chain d.ht0 hchainlen hroom
    have hclear : (d.ht0.table.set (i + n) []).flatten.Perm (others d.ht0.table (i + n)) :=
      flatten_set hlt []
    have hentries : ((d.ht0.table.set (i + n) []).flatten ++ ht1'.table.flatten).Perm
        d.entries := by
      refine (hclear.append hperm1).trans ?_
      refine (List.perm_append_comm_assoc _ _ _).trans ?_
      rw [← List.append_assoc]
      exact hbucket.symm.append_right _
    refine ⟨{ d with
        ht0 := { d.ht0 with
          table := d.ht0.table.set (i + n) [], used := d.ht0.used - chain.length }
        ht1 := ht1'
        rehashidx := some (i + n + 1) }, true, ?_, ?_, rfl, fun _ => ⟨?_, hsize1'⟩, by simp⟩
    · unfold dictRehashRound
      rw [if_neg hused, if_neg (by omega), hskip, Option.bind_some]
      simp only [List.getD_eq_getElem?_getD, hchain, Option.getD_some, hmove, Option.bind_some]
      rw [if_pos (by omega)]
    · refine ⟨⟨?_, hok1, h.keys.perm hentries.symm, (fun hnone => by cases hnone), ?_⟩, hentries,
        rfl, rfl, rfl, id⟩
      · apply h.ht0.set (by simp)
        rw [hclear.length_eq, h.ht0.used, hbucket.length_eq, List.length_append]
        omega
      · intro j hj
        cases hj
        exact ⟨hsize0, hsize1'.trans_ne hsize1, hbelow.clear⟩
    · show d.ht0.used - chain.length < d.ht0.used
      omega

/-- What the rounds do to the tables: one ends the move, each of the others takes entries
    out of the old one. -/
structure Moved (d d' : Dict K V) (n : Nat) : Prop where
  going : dictIsRehashing d' → dictIsRehashing d ∧ d'.ht0.used + n ≤ d.ht0.used ∧
    d'.ht1.size = d.ht1.size
  done : dictIsRehashing d → dictIsRehashing d' = false → d'.ht0.size = d.ht1.size
  still : dictIsRehashing d = false → d' = d

theorem Moved.refl {n : Nat} (h : dictIsRehashing d → n = 0) : Moved d d n :=
  ⟨fun hgo => ⟨hgo, by rw [h hgo]; exact Nat.le_refl _, rfl⟩,
    (fun hgo hstop => by simp [hgo] at hstop), fun _ => rfl⟩

theorem dictRehash_ok (h : d.Ok hash) (hroom : dictSize d < 2 ^ 64) (n : Nat) :
    ∃ d' ret, dictRehash hash d n = some (d', ret) ∧ Rearranged hash d d' ∧ Moved d d' n ∧
      ret = if dictIsRehashing d' then 1 else 0 := by
  induction n generalizing d with
  | zero =>
      exact ⟨d, _, rfl, Rearranged.refl h, Moved.refl fun _ => rfl, rfl⟩
  | succ n ih =>
      unfold dictRehash
      cases hi : d.rehashidx with
      | none =>
          have hidle := isRehashing_eq_false.mpr hi
          refine ⟨d, 0, rfl, Rearranged.refl h, ⟨?_, ?_, fun _ => rfl⟩, by simp [hidle]⟩
          · simp [hidle]
          · simp [hidle]
      | some i =>
          have hgo : dictIsRehashing d = true := isRehashing_iff.mpr ⟨i, hi⟩
          obtain ⟨mid, more, hround, hmid, hmore, hgoing, hdone⟩ :=
            dictRehashRound_ok h hi (by unfold dictSize at hroom; omega)
          dsimp only
          rw [hround, Option.bind_some]
          cases more with
          | false =>
              refine ⟨mid, 0, rfl, hmid, ⟨by simp [hmore], fun _ _ => by rw [hdone rfl],
                by simp [hgo]⟩, by simp [hmore]⟩
          | true =>
              obtain ⟨hused, hsize⟩ := hgoing rfl
              obtain ⟨d', ret, hloop, hd', hmoved, hret⟩ :=
                ih hmid.ok (by rw [hmid.dictSize h]; exact hroom)
              refine ⟨d', ret, hloop, hmid.trans hd', ⟨?_, ?_, by simp [hgo]⟩, hret⟩
              · intro hgo'
                obtain ⟨-, hle, hsize'⟩ := hmoved.going hgo'
                exact ⟨hgo, by omega, hsize'.trans hsize⟩
              · intro _ hstop
                exact (hmoved.done hmore hstop).trans hsize

theorem dictRehashStep_ok (h : d.Ok hash) (hroom : dictSize d < 2 ^ 64) :
    ∃ d', dictRehashStep hash d = some d' ∧ Rearranged hash d d' ∧
      Moved d d' (if d.iterators = 0 then 1 else 0) := by
  unfold dictRehashStep
  by_cases hiter : d.iterators = 0
  · obtain ⟨d', ret, hrehash, hd', hmoved, -⟩ := dictRehash_ok h hroom 1
    refine ⟨d', ?_, hd', ?_⟩
    · rw [if_pos hiter, hrehash]
      rfl
    · rwa [if_pos hiter]
  · obtain ⟨d', ret, hrehash, hd', hmoved, -⟩ := dictRehash_ok h hroom 0
    cases hrehash
    refine ⟨d, if_neg hiter, hd', ?_⟩
    rwa [if_neg hiter]

-- ============================================================================
-- Another size
-- ============================================================================

theorem nextPowerLoop_spec {size : Nat} (fuel j : Nat) (hsize : size ≤ 2 ^ 30) (hj : j ≤ 30)
    (hfuel : 30 < j + fuel) :
    ∃ k, j ≤ k ∧ k ≤ 30 ∧ nextPowerLoop fuel (2 ^ j) size = 2 ^ k ∧ size ≤ 2 ^ k := by
  induction fuel generalizing j with
  | zero => omega
  | succ fuel ih =>
      unfold nextPowerLoop
      by_cases hle : size ≤ 2 ^ j
      · exact ⟨j, Nat.le_refl _, hj, if_pos hle, hle⟩
      · have hne : j ≠ 30 := by
          rintro rfl
          exact hle hsize
        obtain ⟨k, hjk, hk, heq, hle'⟩ := ih (j + 1) (by omega) (by omega)
        refine ⟨k, by omega, hk, ?_, hle'⟩
        rw [if_neg hle, ← Nat.pow_succ, heq]

/-- The next power of two. -/
theorem dictNextPower_spec {size : Nat} (hsize : size ≤ 2 ^ 30) :
    ∃ k, 2 ≤ k ∧ k ≤ 30 ∧ dictNextPower size = 2 ^ k ∧ size ≤ 2 ^ k := by
  have hmax : ¬LONG_MAX ≤ size := by
    unfold LONG_MAX
    omega
  unfold dictNextPower
  rw [if_neg hmax]
  exact nextPowerLoop_spec 64 2 hsize (by decide) (by decide)

theorem zcallocBuckets_eq {n : Nat} (hn : n ≤ 2 ^ 30) :
    (zcallocBuckets n : List (List (K × V))) = List.replicate n [] := by
  unfold zcallocBuckets
  congr 1
  omega

/-- The new table, that of an empty dictionary or the second one. -/
theorem dictExpand_ok (h : d.Ok hash) (size : Nat) (hidle : dictIsRehashing d = false)
    (hused : d.ht0.used ≤ size) (hsize : size ≤ 2 ^ 30) :
    ∃ d', dictExpand d size = (d', DICT_OK) ∧ Rearranged hash d d' ∧ d'.ht0.size ≠ 0 ∧
      (d.ht0.size = 0 → dictIsRehashing d' = false ∧ size ≤ d'.ht0.size) ∧
      (d.ht0.size ≠ 0 → dictIsRehashing d' = true ∧ d'.ht0 = d.ht0 ∧ size ≤ d'.ht1.size) := by
  obtain ⟨k, hk2, hk30, hpow, hle⟩ := dictNextPower_spec hsize
  have hreal : dictNextPower size ≤ 2 ^ 30 := by
    rw [hpow]
    exact Nat.pow_le_pow_right (by decide) hk30
  have hpos : 0 < dictNextPower size := by
    rw [hpow]
    exact Nat.two_pow_pos k
  have hnew : DictHt.Ok hash (⟨zcallocBuckets (dictNextPower size), dictNextPower size,
      dictNextPower size - 1, 0⟩ : DictHt K V) := by
    rw [zcallocBuckets_eq hreal]
    exact ⟨List.length_replicate, Or.inr ⟨k, hk2, hk30, hpow⟩, rfl, by simp, placed_replicate _⟩
  have hnil : (zcallocBuckets (dictNextPower size) : List (List (K × V))).flatten = [] := by
    rw [zcallocBuckets_eq hreal, flatten_replicate_empty]
  have hidx := isRehashing_eq_false.mp hidle
  unfold dictExpand
  rw [if_neg (by simp [hidle, hused])]
  by_cases hzero : d.ht0.size = 0
  · have htable := h.ht0.nil_of_size hzero
    have hentries : d.entries = [] := by
      rw [h.entries_idle hidx, htable, List.flatten_nil]
    refine ⟨{ d with ht0 := ⟨zcallocBuckets (dictNextPower size), dictNextPower size,
      dictNextPower size - 1, 0⟩ }, ?_, ?_, Nat.ne_of_gt hpos,
      fun _ => ⟨hidle, hpow ▸ hle⟩, fun hne => absurd hzero hne⟩
    · simp [htable]
    · have hentries' : (zcallocBuckets (dictNextPower size)).flatten ++ d.ht1.table.flatten =
          d.entries := by
        rw [hnil, h.idle hidx, hentries]
        rfl
      refine ⟨⟨hnew, h.ht1, ?_, h.idle, ?_⟩, List.Perm.of_eq hentries', rfl, rfl, rfl,
        fun _ => Nat.ne_of_gt hpos⟩
      · show KeysNodup (_ ++ _)
        rw [hentries']
        exact h.keys
      · intro i hi
        rw [show d.rehashidx = some i from hi] at hidx
        cases hidx
  · have htable : d.ht0.table.isEmpty = false := by
      rw [List.isEmpty_eq_false_iff]
      intro hempty
      rw [← h.ht0.length, hempty] at hzero
      exact hzero rfl
    refine ⟨{ d with
        ht1 := ⟨zcallocBuckets (dictNextPower size), dictNextPower size,
          dictNextPower size - 1, 0⟩
        rehashidx := some 0 }, ?_, ?_, hzero, fun hz => absurd hz hzero,
      fun _ => ⟨rfl, rfl, hpow ▸ hle⟩⟩
    · simp [htable]
    · have hentries' : d.ht0.table.flatten ++ (zcallocBuckets (dictNextPower size)).flatten =
          d.entries := by
        rw [hnil, h.entries_idle hidx, List.append_nil]
      refine ⟨⟨h.ht0, hnew, ?_, (fun hnone => by cases hnone), ?_⟩, List.Perm.of_eq hentries',
        rfl, rfl, rfl, id⟩
      · show KeysNodup (_ ++ _)
        rw [hentries']
        exact h.keys
      · intro i hi
        cases hi
        exact ⟨hzero, Nat.ne_of_gt hpos, EmptyBelow.zero⟩

end Both

end ZServer
