/-
  ZServer.Dict.Refines

  A dictionary is a list of keys with their values.

  `Store` is what its user sees: the entries, and what the destructors have been called
  with.  Every sequence of operations on a dictionary answers as it does on a store, and
  ends with the same entries, whatever the hash function is and in whatever state of a
  move the tables are.
-/

import ZServer.Dict.Operations
import ZServer.Lib.Simulation

namespace ZServer

open Lib

variable {K V : Type} [DecidableEq K]

-- ============================================================================
-- The store
-- ============================================================================

/-- What is in a dictionary and what it has freed. -/
structure Store (K V : Type) where
  entries : List (K × V)
  keysFreed : List K
  valsFreed : List V
  deriving DecidableEq, Repr

def Store.empty : Store K V := ⟨[], [], []⟩

inductive DictOp (K V : Type) where
  | add (key : K) (val : V)
  | replace (key : K) (val : V)
  | delete (key : K)
  | deleteNoFree (key : K)
  | fetchValue (key : K)
  | rehash (n : Nat)
  | expand (size : Nat)
  | resize
  | empty
  deriving DecidableEq, Repr

/-- The results of `dictRehash`, `dictExpand` and `dictResize` tell about the tables, and
    are left out. -/
inductive DictAnswer (V : Type) where
  | ret (ret : Int)
  | value (val : Option V)
  | void
  deriving DecidableEq, Repr

def Store.delete (s : Store K V) (key : K) (nofree : Bool) : Store K V × DictAnswer V :=
  match s.entries.lookup key with
  | none => (s, .ret DICT_ERR)
  | some old =>
      ({ entries := eraseKey key s.entries
         keysFreed := s.keysFreed ++ (if nofree then [] else [key])
         valsFreed := s.valsFreed ++ (if nofree then [] else [old]) }, .ret DICT_OK)

def Store.perform (s : Store K V) : DictOp K V → Store K V × DictAnswer V
  | .add key val =>
      if (s.entries.lookup key).isSome then (s, .ret DICT_ERR)
      else ({ s with entries := (key, val) :: s.entries }, .ret DICT_OK)
  | .replace key val =>
      match s.entries.lookup key with
      | none => ({ s with entries := (key, val) :: s.entries }, .ret 1)
      | some old =>
          ({ s with entries := setKey key val s.entries, valsFreed := s.valsFreed ++ [old] },
            .ret 0)
  | .delete key => s.delete key false
  | .deleteNoFree key => s.delete key true
  | .fetchValue key => (s, .value (s.entries.lookup key))
  | .rehash _ => (s, .void)
  | .expand _ => (s, .void)
  | .resize => (s, .void)
  | .empty =>
      (⟨[], s.keysFreed ++ s.entries.map Prod.fst, s.valsFreed ++ s.entries.map Prod.snd⟩, .void)

section Perform

variable {s : Store K V} {key : K} {old : V}

theorem perform_add_none (h : s.entries.lookup key = none) (val : V) :
    s.perform (.add key val) = ({ s with entries := (key, val) :: s.entries }, .ret DICT_OK) := by
  simp [Store.perform, h]

theorem perform_add_some (h : s.entries.lookup key = some old) (val : V) :
    s.perform (.add key val) = (s, .ret DICT_ERR) := by
  simp [Store.perform, h]

theorem perform_replace_none (h : s.entries.lookup key = none) (val : V) :
    s.perform (.replace key val) = ({ s with entries := (key, val) :: s.entries }, .ret 1) := by
  simp [Store.perform, h]

theorem perform_replace_some (h : s.entries.lookup key = some old) (val : V) :
    s.perform (.replace key val) =
      ({ s with entries := setKey key val s.entries, valsFreed := s.valsFreed ++ [old] },
        .ret 0) := by
  simp [Store.perform, h]

@[simp] theorem perform_delete (key : K) :
    s.perform (.delete key) = s.delete key false := rfl

@[simp] theorem perform_deleteNoFree (key : K) :
    s.perform (.deleteNoFree key) = s.delete key true := rfl

theorem delete_none (h : s.entries.lookup key = none) (nofree : Bool) :
    s.delete key nofree = (s, .ret DICT_ERR) := by
  simp [Store.delete, h]

theorem delete_some (h : s.entries.lookup key = some old) (nofree : Bool) :
    s.delete key nofree =
      ({ entries := eraseKey key s.entries
         keysFreed := s.keysFreed ++ (if nofree then [] else [key])
         valsFreed := s.valsFreed ++ (if nofree then [] else [old]) }, .ret DICT_OK) := by
  simp [Store.delete, h]

end Perform

/-- The operation, with `dict_can_resize` as it is at that time. -/
def Store.step (s : Store K V) (op : Bool × DictOp K V) : Option (Store K V × DictAnswer V) :=
  some (s.perform op.2)

def Dict.perform (hash : K → UInt32) (d : Dict K V) (op : Bool × DictOp K V) :
    Option (Dict K V × DictAnswer V) :=
  match op.2 with
  | .add key val => (dictAdd hash op.1 d key val).map fun r => (r.1, .ret r.2)
  | .replace key val => (dictReplace hash op.1 d key val).map fun r => (r.1, .ret r.2)
  | .delete key => (dictDelete hash d key).map fun r => (r.1, .ret r.2)
  | .deleteNoFree key => (dictDeleteNoFree hash d key).map fun r => (r.1, .ret r.2)
  | .fetchValue key => (dictFetchValue hash d key).map fun r => (r.1, .value r.2)
  | .rehash n => (dictRehash hash d n).map fun r => (r.1, .void)
  | .expand size => some ((dictExpand d size).1, .void)
  | .resize => some ((dictResize op.1 d).1, .void)
  | .empty => some (dictEmpty d, .void)

-- ============================================================================
-- The dictionary stands for a store
-- ============================================================================

/-- The same entries and the same calls of the destructors, in some order. -/
structure StandsFor (hash : K → UInt32) (s : Store K V) (d : Dict K V) : Prop where
  ok : d.Ok hash
  entries : d.entries.Perm s.entries
  keysFreed : d.keysFreed.Perm s.keysFreed
  valsFreed : d.valsFreed.Perm s.valsFreed

/-- No table of more buckets is asked for. -/
def DictOp.Small : DictOp K V → Prop
  | .expand size => size ≤ 2 ^ 30
  | _ => True

instance (op : DictOp K V) : Decidable op.Small :=
  match op with
  | .expand size => inferInstanceAs (Decidable (size ≤ 2 ^ 30))
  | .add .. | .replace .. | .delete _ | .deleteNoFree _ | .fetchValue _ | .rehash _ | .resize
  | .empty => isTrue trivial

/-- There are no more entries than `dictRoom`. -/
def Store.Fits (s : Store K V) (op : Bool × DictOp K V) : Prop :=
  s.entries.length ≤ dictRoom ∧ op.2.Small

instance (s : Store K V) (op : Bool × DictOp K V) : Decidable (s.Fits op) :=
  inferInstanceAs (Decidable (_ ∧ _))

section Step

variable {hash : K → UInt32} {s : Store K V} {d d' d'' : Dict K V}

omit [DecidableEq K] in
theorem StandsFor.create : StandsFor hash Store.empty (dictCreate : Dict K V) :=
  ⟨dictCreate_ok, List.Perm.refl _, List.Perm.refl _, List.Perm.refl _⟩

omit [DecidableEq K] in
theorem StandsFor.room (h : StandsFor hash s d) (hfits : s.entries.length ≤ dictRoom) :
    dictSize d ≤ dictRoom := by
  rw [h.ok.size_eq, h.entries.length_eq]
  exact hfits

omit [DecidableEq K] in
theorem StandsFor.rearranged (h : StandsFor hash s d) (hmoved : Rearranged hash d d') :
    StandsFor hash s d' :=
  ⟨hmoved.ok, hmoved.entries.trans h.entries, by rw [hmoved.keysFreed]; exact h.keysFreed,
    by rw [hmoved.valsFreed]; exact h.valsFreed⟩

theorem StandsFor.lookup (h : StandsFor hash s d) (key : K) :
    d.entries.lookup key = s.entries.lookup key :=
  lookup_perm h.ok.keys h.entries

omit [DecidableEq K] in
theorem StandsFor.linked (h : StandsFor hash s d) {e : K × V} (hlinked : Linked hash d d' e) :
    StandsFor hash { s with entries := e :: s.entries } d' :=
  ⟨hlinked.ok, hlinked.entries.trans (h.entries.cons e),
    by rw [hlinked.keysFreed]; exact h.keysFreed, by rw [hlinked.valsFreed]; exact h.valsFreed⟩

theorem lookup_eq_none_of (habsent : ∀ e ∈ d.entries, e.1 ≠ key) :
    d.entries.lookup key = none := by
  rw [lookup_eq_find?, find?_eq_none.mpr habsent, Option.map_none]

theorem StandsFor.add (h : StandsFor hash s d) (hfits : s.entries.length ≤ dictRoom)
    (canResize : Bool) (key : K) (val : V) :
    ∃ d' ret, dictAdd hash canResize d key val = some (d', ret) ∧
      (s.perform (.add key val)).2 = .ret ret ∧
      StandsFor hash (s.perform (.add key val)).1 d' := by
  obtain ⟨mid, mid', hmid, -, hmid', hcases⟩ := dictAdd_ok h.ok (h.room hfits) canResize key val
  have hprep := (h.rearranged hmid).rearranged hmid'.rearranged
  rcases hcases with ⟨hthere, hadd⟩ | ⟨habsent, d', hadd, hlinked⟩
  · obtain ⟨old, hold⟩ := Option.isSome_iff_exists.mp (lookup_isSome_iff.mpr hthere)
    rw [h.lookup] at hold
    rw [perform_add_some hold]
    exact ⟨mid', DICT_ERR, hadd, rfl, hprep⟩
  · have hnone := lookup_eq_none_of habsent
    rw [h.lookup] at hnone
    rw [perform_add_none hnone]
    exact ⟨d', DICT_OK, hadd, rfl, hprep.linked hlinked⟩

theorem StandsFor.replace (h : StandsFor hash s d) (hfits : s.entries.length ≤ dictRoom)
    (canResize : Bool) (key : K) (val : V) :
    ∃ d' ret, dictReplace hash canResize d key val = some (d', ret) ∧
      (s.perform (.replace key val)).2 = .ret ret ∧
      StandsFor hash (s.perform (.replace key val)).1 d' := by
  obtain ⟨mid, mid', d', hmid, -, hmid', hcases⟩ :=
    dictReplace_ok h.ok (h.room hfits) canResize key val
  have hprep := (h.rearranged hmid).rearranged hmid'.rearranged
  rcases hcases with ⟨habsent, hreplace, hlinked⟩ | ⟨old, mid'', hold, hreplace, hmid'', -, hvalue⟩
  · have hnone := lookup_eq_none_of habsent
    rw [h.lookup] at hnone
    rw [perform_replace_none hnone]
    exact ⟨d', 1, hreplace, rfl, hprep.linked hlinked⟩
  · have hprep' := hprep.rearranged hmid''
    rw [h.lookup] at hold
    rw [perform_replace_some hold]
    refine ⟨d', 0, hreplace, rfl, hvalue.ok, hvalue.entries.trans (setKey_perm hprep'.entries),
      ?_, ?_⟩
    · rw [hvalue.keysFreed]
      exact hprep'.keysFreed
    · rw [hvalue.valsFreed]
      exact hprep'.valsFreed.append_right _

theorem StandsFor.genericDelete (h : StandsFor hash s d) (hfits : s.entries.length ≤ dictRoom)
    (key : K) (nofree : Bool) :
    ∃ d' ret, dictGenericDelete hash d key nofree = some (d', ret) ∧
      (s.delete key nofree).2 = .ret ret ∧ StandsFor hash (s.delete key nofree).1 d' := by
  obtain ⟨mid, hmid, -, hcases⟩ := dictGenericDelete_ok h.ok (h.room hfits) key nofree
  have hprep := h.rearranged hmid
  rcases hcases with ⟨hnone, hdelete⟩ | ⟨old, d', hold, hdelete, hunlinked, hkeys, hvals⟩
  · rw [h.lookup] at hnone
    rw [delete_none hnone]
    exact ⟨mid, DICT_ERR, hdelete, rfl, hprep⟩
  · rw [h.lookup] at hold
    rw [delete_some hold]
    refine ⟨d', DICT_OK, hdelete, rfl, hunlinked.ok,
      hunlinked.entries.trans (eraseKey_perm hprep.entries), ?_, ?_⟩
    · rw [hkeys]
      exact hprep.keysFreed.append_right _
    · rw [hvals]
      exact hprep.valsFreed.append_right _

omit [DecidableEq K] in
theorem StandsFor.expand (h : StandsFor hash s d) {size : Nat} (hsize : size ≤ 2 ^ 30) :
    StandsFor hash s (dictExpand d size).1 := by
  by_cases hidle : dictIsRehashing d = false ∧ d.ht0.used ≤ size
  · obtain ⟨d', hexpand, hd', -⟩ := dictExpand_ok h.ok size hidle.1 hidle.2 hsize
    rw [hexpand]
    exact h.rearranged hd'
  · have hsame : dictExpand d size = (d, DICT_ERR) := by
      unfold dictExpand
      apply if_pos
      cases hgo : dictIsRehashing d with
      | true => exact Or.inl rfl
      | false =>
          rw [hgo] at hidle
          exact Or.inr (by simpa using hidle)
    rw [hsame]
    exact h

omit [DecidableEq K] in
theorem StandsFor.resize (h : StandsFor hash s d) (hfits : s.entries.length ≤ dictRoom)
    (canResize : Bool) : StandsFor hash s (dictResize canResize d).1 := by
  have hroom := h.room hfits
  unfold dictSize dictRoom at hroom
  unfold dictResize
  by_cases hrefused : canResize = false ∨ dictIsRehashing d = true
  · rw [if_pos hrefused]
    exact h
  · have hint : intOf (u32 d.ht0.used) = d.ht0.used := by
      rw [u32_of_lt (by omega), intOf_of_lt (by omega)]
    rw [if_neg hrefused]
    dsimp only
    rw [hint]
    apply h.expand
    unfold DICT_HT_INITIAL_SIZE
    split <;> omega

omit [DecidableEq K] in
theorem StandsFor.clear (h : StandsFor hash s d) (hfits : s.entries.length ≤ dictRoom) :
    StandsFor hash ⟨[], s.keysFreed ++ s.entries.map Prod.fst,
      s.valsFreed ++ s.entries.map Prod.snd⟩ (dictEmpty d) := by
  obtain ⟨hok, hnil, hkeys, hvals⟩ := dictEmpty_ok h.ok (lt_of_room (h.room hfits))
  refine ⟨hok, List.Perm.of_eq hnil, ?_, ?_⟩
  · rw [hkeys]
    exact h.keysFreed.append (h.entries.map _)
  · rw [hvals]
    exact h.valsFreed.append (h.entries.map _)

/-- One operation. -/
theorem StandsFor.perform (h : StandsFor hash s d) {op : Bool × DictOp K V} (hfits : s.Fits op) :
    ∃ d', d.perform hash op = some (d', (s.perform op.2).2) ∧
      StandsFor hash (s.perform op.2).1 d' := by
  obtain ⟨canResize, op⟩ := op
  have hroom := h.room hfits.1
  cases op with
  | add key val =>
      obtain ⟨d', ret, hadd, hret, hd'⟩ := h.add hfits.1 canResize key val
      refine ⟨d', ?_, hd'⟩
      unfold Dict.perform
      simp only [hadd, Option.map_some, hret]
  | replace key val =>
      obtain ⟨d', ret, hreplace, hret, hd'⟩ := h.replace hfits.1 canResize key val
      refine ⟨d', ?_, hd'⟩
      unfold Dict.perform
      simp only [hreplace, Option.map_some, hret]
  | delete key =>
      obtain ⟨d', ret, hdelete, hret, hd'⟩ := h.genericDelete hfits.1 key false
      refine ⟨d', ?_, hd'⟩
      unfold Dict.perform dictDelete Store.perform
      simp only [hdelete, Option.map_some, hret]
  | deleteNoFree key =>
      obtain ⟨d', ret, hdelete, hret, hd'⟩ := h.genericDelete hfits.1 key true
      refine ⟨d', ?_, hd'⟩
      unfold Dict.perform dictDeleteNoFree Store.perform
      simp only [hdelete, Option.map_some, hret]
  | fetchValue key =>
      obtain ⟨d', hfetch, hd', -⟩ := dictFetchValue_ok h.ok hroom key
      refine ⟨d', ?_, h.rearranged hd'⟩
      unfold Dict.perform Store.perform
      simp only [hfetch, Option.map_some, h.lookup]
  | rehash n =>
      obtain ⟨d', ret, hrehash, hd', -⟩ := dictRehash_ok h.ok (lt_of_room hroom) n
      refine ⟨d', ?_, h.rearranged hd'⟩
      unfold Dict.perform Store.perform
      simp only [hrehash, Option.map_some]
  | expand size => exact ⟨_, rfl, h.expand hfits.2⟩
  | resize => exact ⟨_, rfl, h.resize hfits.1 canResize⟩
  | empty => exact ⟨_, rfl, h.clear hfits.1⟩

end Step

theorem dict_simulates (hash : K → UInt32) :
    Simulates (StandsFor hash) Store.Fits (Store.step : Store K V → _) (Dict.perform hash) where
  step := by
    intro s d op s' ans h hfits hstep
    obtain ⟨d', hperform, hd'⟩ := h.perform hfits
    have heq : s.perform op.2 = (s', ans) := Option.some.inj hstep
    rw [heq] at hperform hd'
    exact ⟨d', hperform, hd'⟩

theorem store_answers (ops : List (Bool × DictOp K V)) (s : Store K V) :
    ∃ s' answers, answersFrom Store.step s ops = some (s', answers) := by
  induction ops generalizing s with
  | nil => exact ⟨s, [], rfl⟩
  | cons op ops ih =>
      obtain ⟨s', answers, hrest⟩ := ih (s.perform op.2).1
      exact ⟨s', _, answersFrom_cons_of rfl hrest⟩

/-- Every sequence of operations is answered as on a store, with the same entries at the
    end and the same calls of the destructors. -/
theorem dict_refines_store (hash : K → UInt32) (ops : List (Bool × DictOp K V))
    (hfits : AllSteps (moves Store.step) Store.Fits Store.empty ops) :
    ∃ s d answers, answersFrom Store.step Store.empty ops = some (s, answers) ∧
      answersFrom (Dict.perform hash) dictCreate ops = some (d, answers) ∧
      StandsFor hash s d := by
  obtain ⟨s, answers, hstore⟩ := store_answers ops Store.empty
  obtain ⟨d, hdict, hstands⟩ := (dict_simulates hash).run StandsFor.create hfits hstore
  exact ⟨s, d, answers, hstore, hdict, hstands⟩

/-- Six keys in four buckets, two of them in the same one; the table grows on the way. -/
def sampleOps : List (Bool × DictOp Nat Nat) :=
  [(true, .add 1 10), (true, .add 5 50), (true, .add 1 11), (true, .add 2 20), (true, .add 3 30),
    (true, .add 4 40), (true, .fetchValue 5), (true, .replace 2 21), (true, .delete 1),
    (false, .fetchValue 1), (true, .rehash 3), (true, .expand 64), (true, .deleteNoFree 5)]

theorem dict_refines_store_sample :
    ∃ s d answers, answersFrom Store.step Store.empty sampleOps = some (s, answers) ∧
      answersFrom (Dict.perform UInt32.ofNat) dictCreate sampleOps = some (d, answers) ∧
      StandsFor UInt32.ofNat s d :=
  dict_refines_store UInt32.ofNat sampleOps (by decide)

example : (answersFrom (Dict.perform UInt32.ofNat) dictCreate (sampleOps.take 7)).map
      (fun r => (r.1.rehashidx, r.1.ht0.table, r.1.ht1.table)) =
    some (some 2, [[], [], [(2, 20)], [(3, 30)]],
      [[], [(1, 10)], [], [], [(4, 40)], [(5, 50)], [], []]) := by decide

-- ============================================================================
-- The values
-- ============================================================================

/-- The value that an operation with that answer has taken over. -/
def taken : DictOp K V → DictAnswer V → List V
  | .add _ val, .ret ret => if ret = DICT_OK then [val] else []
  | .replace _ val, _ => [val]
  | _, _ => []

/-- The value that an operation gives back without freeing it. -/
def Store.unlinked (s : Store K V) : DictOp K V → List V
  | .deleteNoFree key => (s.entries.lookup key).toList
  | _ => []

/-- The values taken over by a sequence of operations. -/
def allTaken : List (Bool × DictOp K V) → List (DictAnswer V) → List V
  | op :: ops, answer :: answers => taken op.2 answer ++ allTaken ops answers
  | _, _ => []

def Store.allUnlinked (s : Store K V) : List (Bool × DictOp K V) → List V
  | [] => []
  | op :: ops => s.unlinked op.2 ++ (s.perform op.2).1.allUnlinked ops

/-- What the store is answerable for. -/
def Store.vals (s : Store K V) : List V := s.entries.map Prod.snd ++ s.valsFreed

theorem lookup_perm_cons {l : List (K × V)} (h : KeysNodup l) {key : K} {old : V}
    (hold : l.lookup key = some old) : l.Perm ((key, old) :: eraseKey key l) := by
  rw [lookup_eq_find?] at hold
  obtain ⟨e, hfind, rfl⟩ := Option.map_eq_some_iff.mp hold
  obtain ⟨hmem, rfl⟩ := (find?_eq_some h).mp hfind
  exact (cons_eraseKey_perm h hmem).symm

theorem Store.delete_keys {s : Store K V} (h : KeysNodup s.entries) (key : K) (nofree : Bool) :
    KeysNodup (s.delete key nofree).1.entries := by
  cases hlook : s.entries.lookup key with
  | none =>
      rw [delete_none hlook]
      exact h
  | some old =>
      rw [delete_some hlook]
      exact h.eraseKey key

theorem Store.perform_keys {s : Store K V} (h : KeysNodup s.entries) (op : DictOp K V) :
    KeysNodup (s.perform op).1.entries := by
  have hnew : ∀ key val, s.entries.lookup key = none → KeysNodup ((key, val) :: s.entries) := by
    intro key val hnone
    rw [keysNodup_cons]
    refine ⟨fun e he hkey => ?_, h⟩
    have hsome := lookup_isSome_iff.mpr ⟨e, he, hkey⟩
    rw [hnone] at hsome
    cases hsome
  cases op with
  | add key val =>
      cases hlook : s.entries.lookup key with
      | none =>
          rw [perform_add_none hlook]
          exact hnew key val hlook
      | some old =>
          rw [perform_add_some hlook]
          exact h
  | replace key val =>
      cases hlook : s.entries.lookup key with
      | none =>
          rw [perform_replace_none hlook]
          exact hnew key val hlook
      | some old =>
          rw [perform_replace_some hlook]
          exact h.setKey key val
  | delete key => exact Store.delete_keys h key false
  | deleteNoFree key => exact Store.delete_keys h key true
  | empty => exact KeysNodup.nil
  | _ => exact h

/-- One operation: no value is lost, and none is freed twice. -/
theorem Store.perform_vals {s : Store K V} (h : KeysNodup s.entries) (op : DictOp K V) :
    ((s.perform op).1.vals ++ s.unlinked op).Perm (s.vals ++ taken op (s.perform op).2) := by
  have hnew : ∀ val : V, (val :: s.vals ++ []).Perm (s.vals ++ [val]) := by
    intro val
    rw [List.append_nil]
    exact (List.perm_append_singleton val s.vals).symm
  -- the value of a key that is there comes first
  have hold : ∀ {key old}, s.entries.lookup key = some old →
      s.vals.Perm (old :: ((eraseKey key s.entries).map Prod.snd ++ s.valsFreed)) :=
    fun hlook => ((lookup_perm_cons h hlook).map Prod.snd).append_right _
  have hfreed : ∀ {key old}, s.entries.lookup key = some old →
      ((eraseKey key s.entries).map Prod.snd ++ (s.valsFreed ++ [old])).Perm s.vals := by
    intro key old hlook
    rw [← List.append_assoc]
    exact (List.perm_append_singleton _ _).trans (hold hlook).symm
  cases op with
  | add key val =>
      cases hlook : s.entries.lookup key with
      | none =>
          rw [perform_add_none hlook]
          exact hnew val
      | some old =>
          rw [perform_add_some hlook]
          exact List.Perm.refl _
  | replace key val =>
      cases hlook : s.entries.lookup key with
      | none =>
          rw [perform_replace_none hlook]
          exact hnew val
      | some old =>
          rw [perform_replace_some hlook]
          have hset : (setKey key val s.entries).Perm ((key, val) :: eraseKey key s.entries) := by
            refine (setKey_perm (lookup_perm_cons h hlook)).trans ?_
            rw [setKey_cons_of_nodup (h.perm (lookup_perm_cons h hlook)) rfl]
          unfold Store.vals Store.unlinked taken
          rw [List.append_nil]
          refine ((hset.map Prod.snd).append_right _).trans ?_
          exact ((hfreed hlook).cons val).trans (List.perm_append_singleton val s.vals).symm
  | delete key =>
      unfold Store.unlinked taken
      rw [perform_delete, List.append_nil, List.append_nil]
      cases hlook : s.entries.lookup key with
      | none =>
          rw [delete_none hlook]
      | some old =>
          rw [delete_some hlook]
          exact hfreed hlook
  | deleteNoFree key =>
      unfold Store.unlinked taken
      rw [perform_deleteNoFree]
      dsimp only
      cases hlook : s.entries.lookup key with
      | none =>
          rw [delete_none hlook]
          exact List.Perm.refl _
      | some old =>
          rw [delete_some hlook, List.append_nil]
          refine (List.perm_append_singleton old _).trans (List.Perm.trans ?_ (hold hlook).symm)
          exact List.Perm.of_eq (by simp [Store.vals])
  | empty =>
      unfold Store.perform Store.vals Store.unlinked taken
      simpa using List.perm_append_comm
  | _ => exact List.Perm.refl _

/-- A sequence of operations. -/
theorem Store.answers_vals {s s' : Store K V} {ops : List (Bool × DictOp K V)}
    {answers : List (DictAnswer V)} (h : KeysNodup s.entries)
    (hrun : answersFrom Store.step s ops = some (s', answers)) :
    (s'.vals ++ s.allUnlinked ops).Perm (s.vals ++ allTaken ops answers) := by
  induction ops generalizing s answers with
  | nil =>
      cases hrun
      exact List.Perm.refl _
  | cons op ops ih =>
      obtain ⟨mid, answer, rest, hstep, hrest, rfl⟩ := answersFrom_cons hrun
      have heq : s.perform op.2 = (mid, answer) := Option.some.inj hstep
      have hkeys := Store.perform_keys h op.2
      have hone := Store.perform_vals h op.2
      rw [heq] at hkeys hone
      have hall := ih hkeys hrest
      unfold Store.allUnlinked allTaken
      rw [heq]
      -- what the rest unlinks is set aside, then what this operation unlinks
      calc s'.vals ++ (s.unlinked op.2 ++ mid.allUnlinked ops)
          _ |>.Perm (s'.vals ++ mid.allUnlinked ops ++ s.unlinked op.2) := by
            rw [List.append_assoc]
            exact List.perm_append_comm.append_left _
          _ |>.Perm (mid.vals ++ allTaken ops rest ++ s.unlinked op.2) := hall.append_right _
          _ |>.Perm (mid.vals ++ s.unlinked op.2 ++ allTaken ops rest) := by
            rw [List.append_assoc, List.append_assoc]
            exact List.perm_append_comm.append_left _
          _ |>.Perm (s.vals ++ taken op.2 answer ++ allTaken ops rest) := hone.append_right _
          _ |>.Perm (s.vals ++ (taken op.2 answer ++ allTaken ops rest)) := by
            rw [List.append_assoc]

theorem Store.perform_length (s : Store K V) (op : DictOp K V) :
    (s.perform op).1.entries.length ≤ s.entries.length + 1 := by
  have hdelete : ∀ key nofree, (s.delete key nofree).1.entries.length ≤ s.entries.length + 1 := by
    intro key nofree
    cases hlook : s.entries.lookup key with
    | none => simp [delete_none hlook]
    | some old =>
        rw [delete_some hlook]
        exact (List.length_filter_le _ _).trans (Nat.le_succ _)
  cases op with
  | add key val =>
      cases hlook : s.entries.lookup key with
      | none => simp [perform_add_none hlook]
      | some old => simp [perform_add_some hlook]
  | replace key val =>
      cases hlook : s.entries.lookup key with
      | none => simp [perform_replace_none hlook]
      | some old => simp [perform_replace_some hlook, setKey]
  | delete key => exact hdelete key false
  | deleteNoFree key => exact hdelete key true
  | empty => exact Nat.zero_le _
  | _ => exact Nat.le_succ _

theorem Store.answers_length {s s' : Store K V} {ops : List (Bool × DictOp K V)}
    {answers : List (DictAnswer V)} (hfits : AllSteps (moves Store.step) Store.Fits s ops)
    (hlen : s.entries.length ≤ dictRoom + 1)
    (hrun : answersFrom Store.step s ops = some (s', answers)) :
    s'.entries.length ≤ dictRoom + 1 := by
  induction ops generalizing s answers with
  | nil =>
      cases hrun
      exact hlen
  | cons op ops ih =>
      obtain ⟨mid, answer, rest, hstep, hrest, -⟩ := answersFrom_cons hrun
      have heq : s.perform op.2 = (mid, answer) := Option.some.inj hstep
      obtain ⟨hfit, hfits⟩ := hfits mid (by unfold moves; rw [hstep, Option.map_some])
      have hone := s.perform_length op.2
      rw [heq] at hone
      exact ih hfits (hone.trans (Nat.succ_le_succ hfit.1)) hrest

/-- Every value that was taken over is in the dictionary, has been freed or was given
    back, exactly once; `dictRelease` then frees those that are in it. -/
theorem dict_values_accounted (hash : K → UInt32) (ops : List (Bool × DictOp K V))
    (hfits : AllSteps (moves Store.step) Store.Fits Store.empty ops) :
    ∃ (d : Dict K V) (answers : List (DictAnswer V)),
      answersFrom (Dict.perform hash) dictCreate ops = some (d, answers) ∧
      (d.entries.map Prod.snd ++ d.valsFreed ++ Store.empty.allUnlinked ops).Perm
        (allTaken ops answers) ∧
      ((dictClear d).valsFreed ++ Store.empty.allUnlinked ops).Perm (allTaken ops answers) := by
  obtain ⟨s, answers, hstore⟩ := store_answers ops Store.empty
  obtain ⟨d, hdict, hstands⟩ := (dict_simulates hash).run StandsFor.create hfits hstore
  have hvals : (s.vals ++ Store.empty.allUnlinked ops).Perm (allTaken ops answers) :=
    Store.answers_vals KeysNodup.nil hstore
  have hsum : (d.entries.map Prod.snd ++ d.valsFreed ++ Store.empty.allUnlinked ops).Perm
      (allTaken ops answers) :=
    (((hstands.entries.map Prod.snd).append hstands.valsFreed).append_right _).trans hvals
  have hlen := Store.answers_length hfits (Nat.zero_le _) hstore
  have hsize : dictSize d < 2 ^ 64 := by
    rw [hstands.ok.size_eq, hstands.entries.length_eq]
    unfold dictRoom at hlen
    omega
  obtain ⟨-, -, -, hclear⟩ := dictEmpty_ok hstands.ok hsize
  refine ⟨d, answers, hdict, hsum, ?_⟩
  rw [show (dictClear d).valsFreed = _ from hclear]
  exact (List.perm_append_comm.append_right _).trans hsum

theorem dict_values_accounted_sample :
    ∃ (d : Dict Nat Nat) (answers : List (DictAnswer Nat)),
      answersFrom (Dict.perform UInt32.ofNat) dictCreate sampleOps = some (d, answers) ∧
      (d.entries.map Prod.snd ++ d.valsFreed ++ Store.empty.allUnlinked sampleOps).Perm
        (allTaken sampleOps answers) ∧
      ((dictClear d).valsFreed ++ Store.empty.allUnlinked sampleOps).Perm
        (allTaken sampleOps answers) :=
  dict_values_accounted UInt32.ofNat sampleOps (by decide)

end ZServer
