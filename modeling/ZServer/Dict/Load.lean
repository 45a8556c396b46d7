/-
  ZServer.Dict.Load

  How full a dictionary gets that is used as the program does: resizing is allowed, and
  nobody asks for a size or keeps an iterator.

  A move to a larger table takes a round with every operation, and each of the rounds
  empties a bucket: it is over before the new table is full.  With every entry still in
  the old table counted twice, for the round that it may cost, the entries stay within
  the new one (`Dict.Loaded`).
-/

import ZServer.Dict.Refines

namespace ZServer

open Lib

variable {K V : Type} {hash : K → UInt32} {d d' mid mid' : Dict K V}

-- ============================================================================
-- The load
-- ============================================================================

/-- The buckets of the table that new entries go to. -/
def Dict.buckets (d : Dict K V) : Nat := if dictIsRehashing d then d.ht1.size else d.ht0.size

structure Dict.Loaded (d : Dict K V) : Prop where
  idle : dictIsRehashing d = false → d.ht0.used ≤ d.ht0.size + 1
  going : dictIsRehashing d = true → dictSize d + d.ht0.used ≤ d.ht1.size + 1

/-- There is room for an entry more. -/
structure Dict.Ready (d : Dict K V) : Prop where
  idle : dictIsRehashing d = false → d.ht0.used ≤ d.ht0.size
  going : dictIsRehashing d = true → dictSize d + d.ht0.used ≤ d.ht1.size

theorem Dict.Ok.size_idle (h : d.Ok hash) (hidle : dictIsRehashing d = false) :
    dictSize d = d.ht0.used := by
  unfold dictSize
  rw [h.idle (isRehashing_eq_false.mp hidle)]
  rfl

theorem Dict.Loaded.le (h : d.Loaded) (hok : d.Ok hash) : d.entries.length ≤ d.buckets + 1 := by
  rw [← hok.size_eq]
  unfold Dict.buckets
  cases hgo : dictIsRehashing d with
  | true =>
      have hle := h.going hgo
      rw [if_pos rfl]
      omega
  | false =>
      have hle := h.idle hgo
      rw [if_neg Bool.false_ne_true, hok.size_idle hgo]
      exact hle

theorem Dict.Ready.loaded (h : d.Ready) : d.Loaded :=
  ⟨fun hidle => (h.idle hidle).trans (Nat.le_succ _),
    fun hgo => (h.going hgo).trans (Nat.le_succ _)⟩

/-- Rounds take entries out of the old table, or leave the new one alone. -/
theorem Dict.Loaded.moved {n : Nat} (h : d.Loaded) (hok : d.Ok hash) (hr : Rearranged hash d d')
    (hm : Moved d d' n) : d'.Loaded := by
  have hsize := hr.dictSize hok
  constructor
  · intro hidle
    cases hgo : dictIsRehashing d with
    | true =>
        have hle := h.going hgo
        rw [← hr.ok.size_idle hidle, hm.done hgo hidle]
        omega
    | false =>
        rw [hm.still hgo]
        exact h.idle hgo
  · intro hgo'
    obtain ⟨hgo, hused, hsize1⟩ := hm.going hgo'
    have hle := h.going hgo
    omega

/-- After a round there is room. -/
theorem Dict.Loaded.spare (h : d.Loaded) (hok : d.Ok hash) (hr : Rearranged hash d d')
    (hm : Moved d d' 1) :
    dictIsRehashing d' = true → dictSize d' + d'.ht0.used ≤ d'.ht1.size := by
  have hsize := hr.dictSize hok
  intro hgo'
  obtain ⟨hgo, hused, hsize1⟩ := hm.going hgo'
  have hle := h.going hgo
  omega

/-- When the table has no room a larger one is there. -/
theorem Expanded.ready (h : Expanded hash true mid mid') (hok : mid.Ok hash)
    (hspare : dictIsRehashing mid = true → dictSize mid + mid.ht0.used ≤ mid.ht1.size) :
    mid'.Ready := by
  have hsize := h.rearranged.dictSize hok
  cases hgo : dictIsRehashing mid with
  | true =>
      rw [h.going hgo]
      exact ⟨(fun hidle => by simp [hgo] at hidle), hspare⟩
  | false =>
      have htotal := hok.size_idle hgo
      constructor
      · intro hidle
        have htotal' := h.rearranged.ok.size_idle hidle
        rcases h.idle hgo hidle with hlt | ⟨hresize, -⟩
        · omega
        · cases hresize
      · intro hgo'
        obtain ⟨hht0, -, hdouble⟩ := h.start hgo hgo'
        rw [hsize, htotal, hht0]
        omega

theorem Dict.Ready.linked {e : K × V} (h : mid'.Ready) (hok : mid'.Ok hash)
    (hlinked : Linked hash mid' d' e) : d'.Loaded := by
  have hsize : dictSize d' = dictSize mid' + 1 := by
    rw [hlinked.ok.size_eq, hok.size_eq, hlinked.entries.length_eq, List.length_cons]
  constructor
  · intro hidle
    have hidle' := hlinked.going.symm.trans hidle
    have hle := h.idle hidle'
    rw [← hok.size_idle hidle'] at hle
    rw [← hlinked.ok.size_idle hidle, hlinked.size0]
    omega
  · intro hgo
    have hgo' := hlinked.going.symm.trans hgo
    have hle := h.going hgo'
    rw [hsize, hlinked.size1, hlinked.used hgo']
    omega

theorem Dict.Loaded.of_same (h : mid.Loaded) (hidx : d'.rehashidx = mid.rehashidx)
    (hsize0 : d'.ht0.size = mid.ht0.size) (hsize1 : d'.ht1.size = mid.ht1.size)
    (hused : d'.ht0.used ≤ mid.ht0.used) (htotal : dictSize d' ≤ dictSize mid) : d'.Loaded := by
  have hgo : dictIsRehashing d' = dictIsRehashing mid := congrArg Option.isSome hidx
  constructor
  · intro hidle
    have hle := h.idle (hgo ▸ hidle)
    omega
  · intro hgo'
    have hle := h.going (hgo ▸ hgo')
    omega

-- ============================================================================
-- The operations
-- ============================================================================

/-- Between two operations. -/
structure InUse (hash : K → UInt32) (d : Dict K V) : Prop where
  ok : d.Ok hash
  loaded : d.Loaded
  iterators : d.iterators = 0

theorem InUse.create : InUse hash (dictCreate : Dict K V) :=
  ⟨dictCreate_ok, ⟨fun _ => Nat.zero_le _, (fun hgo => by cases hgo)⟩, rfl⟩

theorem InUse.rounds_eq (h : InUse hash d) : rounds d = 1 := if_pos h.iterators

theorem InUse.moved {n : Nat} (h : InUse hash d) (hr : Rearranged hash d d') (hm : Moved d d' n) :
    InUse hash d' :=
  ⟨hr.ok, h.loaded.moved h.ok hr hm, hr.iterators.trans h.iterators⟩

/-- What an addition finds when it has made its round and seen to enough buckets. -/
theorem InUse.ready (h : InUse hash d) (hr : Rearranged hash d mid) (hm : Moved d mid (rounds d))
    (he : Expanded hash true mid mid') : mid'.Ready := by
  rw [h.rounds_eq] at hm
  exact he.ready hr.ok (h.loaded.spare h.ok hr hm)

theorem InUse.prepared (h : InUse hash d) (hr : Rearranged hash d mid)
    (hm : Moved d mid (rounds d)) (he : Expanded hash true mid mid') : InUse hash mid' :=
  ⟨he.rearranged.ok, (h.ready hr hm he).loaded,
    he.rearranged.iterators.trans (hr.iterators.trans h.iterators)⟩

theorem InUse.linked {e : K × V} (h : InUse hash mid') (hready : mid'.Ready)
    (hlinked : Linked hash mid' d' e) : InUse hash d' :=
  ⟨hlinked.ok, hready.linked h.ok hlinked, hlinked.iterators.trans h.iterators⟩

section Operations

variable [DecidableEq K] {key : K} {val : V}

theorem InUse.add (h : InUse hash d) (hroom : dictSize d ≤ dictRoom) {ret : Int}
    (hadd : dictAdd hash true d key val = some (d', ret)) : InUse hash d' := by
  obtain ⟨mid, mid', hmid, hmoved, hmid', hcases⟩ := dictAdd_ok h.ok hroom true key val
  have hprep := h.prepared hmid hmoved hmid'
  rcases hcases with ⟨-, hrefused⟩ | ⟨-, d'', hdone, hlinked⟩
  · rw [hrefused] at hadd
    cases hadd
    exact hprep
  · rw [hdone] at hadd
    cases hadd
    exact hprep.linked (h.ready hmid hmoved hmid') hlinked

theorem InUse.replace (h : InUse hash d) (hroom : dictSize d ≤ dictRoom) {ret : Int}
    (hreplace : dictReplace hash true d key val = some (d', ret)) : InUse hash d' := by
  obtain ⟨mid, mid', d'', hmid, hmoved, hmid', hcases⟩ := dictReplace_ok h.ok hroom true key val
  have hprep := h.prepared hmid hmoved hmid'
  rcases hcases with ⟨-, hdone, hlinked⟩ | ⟨old, mid'', -, hdone, hmid'', hmoved', hvalue⟩
  · rw [hdone] at hreplace
    cases hreplace
    exact hprep.linked (h.ready hmid hmoved hmid') hlinked
  · rw [hdone] at hreplace
    cases hreplace
    have hlast := hprep.moved hmid'' hmoved'
    refine ⟨hvalue.ok, hlast.loaded.of_same hvalue.rehashidx hvalue.size0 hvalue.size1
      (Nat.le_of_eq hvalue.used) ?_, hvalue.iterators.trans hlast.iterators⟩
    rw [hvalue.ok.size_eq, hlast.ok.size_eq, hvalue.entries.length_eq]
    exact Nat.le_of_eq (List.length_map _)

theorem InUse.genericDelete (h : InUse hash d) (hroom : dictSize d ≤ dictRoom) {nofree : Bool}
    {ret : Int} (hdelete : dictGenericDelete hash d key nofree = some (d', ret)) :
    InUse hash d' := by
  obtain ⟨mid, hmid, hmoved, hcases⟩ := dictGenericDelete_ok h.ok hroom key nofree
  have hstep := h.moved hmid hmoved
  rcases hcases with ⟨-, habsent⟩ | ⟨old, d'', -, hdone, hunlinked, -⟩
  · rw [habsent] at hdelete
    cases hdelete
    exact hstep
  · rw [hdone] at hdelete
    cases hdelete
    refine ⟨hunlinked.ok, hstep.loaded.of_same hunlinked.rehashidx hunlinked.size0 hunlinked.size1
      hunlinked.used ?_, hunlinked.iterators.trans hstep.iterators⟩
    rw [hunlinked.ok.size_eq, hstep.ok.size_eq, hunlinked.entries.length_eq]
    exact List.length_filter_le _ _

def DictOp.resizes : DictOp K V → Bool
  | .expand _ => true
  | .resize => true
  | _ => false

/-- The operations of the program, with resizing allowed. -/
def Plain (op : Bool × DictOp K V) : Prop := op.1 = true ∧ op.2.resizes = false

instance (op : Bool × DictOp K V) : Decidable (Plain op) := inferInstanceAs (Decidable (_ ∧ _))

theorem InUse.perform (h : InUse hash d) (hroom : dictSize d ≤ dictRoom) {op : Bool × DictOp K V}
    {answer : DictAnswer V} (hplain : Plain op) (hperform : d.perform hash op = some (d', answer)) :
    InUse hash d' := by
  obtain ⟨canResize, op⟩ := op
  obtain ⟨rfl, hop⟩ := hplain
  cases op with
  | add key val =>
      obtain ⟨⟨d'', ret⟩, hadd, heq⟩ := Option.map_eq_some_iff.mp hperform
      cases heq
      exact h.add hroom hadd
  | replace key val =>
      obtain ⟨⟨d'', ret⟩, hreplace, heq⟩ := Option.map_eq_some_iff.mp hperform
      cases heq
      exact h.replace hroom hreplace
  | delete key =>
      obtain ⟨⟨d'', ret⟩, hdelete, heq⟩ := Option.map_eq_some_iff.mp hperform
      cases heq
      exact h.genericDelete hroom hdelete
  | deleteNoFree key =>
      obtain ⟨⟨d'', ret⟩, hdelete, heq⟩ := Option.map_eq_some_iff.mp hperform
      cases heq
      exact h.genericDelete hroom hdelete
  | fetchValue key =>
      obtain ⟨d'', hfetch, hd', hmoved⟩ := dictFetchValue_ok h.ok hroom key
      obtain ⟨r, hr, heq⟩ := Option.map_eq_some_iff.mp hperform
      rw [hfetch] at hr
      cases hr
      cases heq
      exact h.moved hd' hmoved
  | rehash n =>
      obtain ⟨d'', ret, hrehash, hd', hmoved, -⟩ := dictRehash_ok h.ok (lt_of_room hroom) n
      obtain ⟨r, hr, heq⟩ := Option.map_eq_some_iff.mp hperform
      rw [hrehash] at hr
      cases hr
      cases heq
      exact h.moved hd' hmoved
  | empty =>
      cases hperform
      exact ⟨(dictEmpty_ok h.ok (lt_of_room hroom)).1, ⟨fun _ => Nat.zero_le _,
        (fun hgo => by cases hgo)⟩, rfl⟩
  | expand size => cases hop
  | resize => cases hop

theorem InUse.always {s : Store K V} {ops : List (Bool × DictOp K V)} (h : InUse hash d)
    (hstands : StandsFor hash s d) (hfits : AllSteps (moves Store.step) Store.Fits s ops)
    (hplain : ∀ op ∈ ops, Plain op) :
    Always (moves (Dict.perform hash)) (fun d => d.entries.length ≤ d.buckets + 1) d ops := by
  induction ops generalizing s d with
  | nil => exact h.loaded.le h.ok
  | cons op ops ih =>
      refine ⟨h.loaded.le h.ok, fun d' hd' => ?_⟩
      obtain ⟨hfit, hrest⟩ := hfits (s.perform op.2).1 rfl
      obtain ⟨d'', hperform, hstands'⟩ := hstands.perform hfit
      have hmove : moves (Dict.perform hash) d op = some d'' := by
        unfold moves
        rw [hperform, Option.map_some]
      have heq : d'' = d' := Option.some.inj (hmove.symm.trans hd')
      rw [heq] at hperform hstands'
      exact ih (h.perform (hstands.room hfit.1) (hplain op List.mem_cons_self) hperform) hstands'
        hrest (fun op' hop' => hplain op' (List.mem_cons_of_mem _ hop'))

/-- At no time is there more than one entry above the number of buckets for new ones. -/
theorem dict_load (hash : K → UInt32) (ops : List (Bool × DictOp K V))
    (hfits : AllSteps (moves Store.step) Store.Fits Store.empty ops)
    (hplain : ∀ op ∈ ops, Plain op) :
    Always (moves (Dict.perform hash)) (fun d => d.entries.length ≤ d.buckets + 1)
      dictCreate ops :=
  InUse.create.always StandsFor.create hfits hplain

theorem dict_load_sample :
    Always (moves (Dict.perform UInt32.ofNat)) (fun d => d.entries.length ≤ d.buckets + 1)
      dictCreate (sampleOps.take 9) :=
  dict_load UInt32.ofNat (sampleOps.take 9) (by decide) (by decide)

end Operations

end ZServer
