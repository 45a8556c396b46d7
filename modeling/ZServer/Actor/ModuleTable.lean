/-
  ZServer.Actor.ModuleTable

  The modules of `src/module.c`.  `moduleQuery` looks through the table without the lock,
  and again with it before it opens a library; a module is in the table from the moment
  `count` says so.

  What `dlopen` and `dlsym` answer, and what the memory of the table holds at first, are
  choices of the environment.  An `exit(1)` is a program point without a step.

    * `tryOpen_fits` — the names that are tried fit into their buffer.
    * `moduleQuery_agrees` — what the threads get, over every interleaving.
-/

import ZServer.Lib.Scan
import ZServer.Lib.Threads

namespace ZServer
namespace Dl

open Lib

-- ============================================================================
-- The path
-- ============================================================================

/-- The value of a C string. -/
abbrev Str := List Char

/-- What `dlopen` and `dlsym` return, but NULL. -/
abbrev Addr := Nat

/-- `tmp`: the template with the name in place of its first `?`; without one the context
    path is invalid. -/
def fillIn (template name : Str) : Option Str :=
  match template.dropWhile fun c => c ≠ '?' with
  | [] => none
  | _ :: rest => some ((template.takeWhile fun c => c ≠ '?') ++ name ++ rest)

def tryEach (name : Str) (dlopen : Str → Option Addr) : List Str → Option (Option Addr)
  | [] => some none
  | template :: rest =>
      match fillIn template name with
      | none => none
      | some tmp =>
          match dlopen tmp with
          | some dl => some (some dl)
          | none => tryEach name dlopen rest

/-- `_tryOpen`; `none` for `exit(1)`. -/
def tryOpen (path name : Str) (dlopen : Str → Option Addr) : Option (Option Addr) :=
  tryEach name dlopen (words (fun c => c = ';') path)

theorem fillIn_length {template name tmp : Str} (h : fillIn template name = some tmp) :
    tmp.length + 1 = template.length + name.length := by
  unfold fillIn at h
  split at h
  · simp at h
  · rename_i c rest hrest
    simp only [Option.some.injEq] at h
    subst h
    have hsplit := congrArg List.length (List.takeWhile_append_dropWhile
      (p := fun c => decide (c ≠ '?')) (l := template))
    rw [hrest] at hsplit
    simp only [List.length_append, List.length_cons] at hsplit ⊢
    omega

/-- Every name that is tried fits, with its zero byte, into `char tmp[path_size + name_size]`. -/
theorem tryOpen_fits {path name template tmp : Str}
    (htemplate : template ∈ words (fun c => c = ';') path)
    (htmp : fillIn template name = some tmp) : tmp.length < path.length + name.length := by
  have hlength := fillIn_length htmp
  obtain ⟨-, -, hsub⟩ := mem_words htemplate
  have hle := hsub.length_le
  omega

-- ============================================================================
-- The table and the threads
-- ============================================================================

/-- `struct module` -/
structure Module where
  name : Str
  module : Addr
  create : Option Addr
  init : Option Addr
  release : Option Addr
  deriving DecidableEq, Repr

def MAX_MODULE_TYPE : Nat := 32

/-- `struct modules` -/
structure Modules where
  count : Nat
  lock : Bool
  path : Str
  m : Nat → Module

/-- `moduleInit`, for a memory that holds `junk`. -/
def moduleInit (path : Str) (junk : Nat → Module) : Modules := ⟨0, false, path, junk⟩

/-- Where a thread stands in `moduleQuery`; the index is that of `_query`. -/
inductive ModulePc where
  | user
  /-- `i<M->count`, without the lock -/
  | query (name : Str) (i : Nat)
  /-- `strcmp` -/
  | compare (name : Str) (i : Nat)
  /-- `__sync_lock_test_and_set` -/
  | acquire (name : Str)
  | requery (name : Str) (i : Nat)
  | recompare (name : Str) (i : Nat)
  /-- `_tryOpen` -/
  | tryOpen (name : Str) (index : Nat)
  /-- `_openSym`, before the call for the `k`-th symbol -/
  | openSym (name : Str) (index k : Nat)
  /-- `zstrdup` -/
  | strdup (name : Str) (index : Nat)
  /-- `M->count++` -/
  | publish (name : Str) (index : Nat)
  /-- `__sync_lock_release` -/
  | release (name : Str) (result : Option Nat)
  /-- `moduleQuery` has returned the module with that index, or NULL -/
  | returned (name : Str) (result : Option Nat)
  /-- after `exit(1)` -/
  | exited
  deriving DecidableEq, Repr

inductive ModuleChoice where
  /-- the thread goes on -/
  | run
  | moduleQuery (name : Str)
  | dlopen (answer : Str → Option Addr)
  | dlsym (answer : Addr → Str → Option Addr)

def Modules.set (s : Modules) (index : Nat) (mod : Module) : Modules :=
  { s with m := Function.update s.m index mod }

/-- The three assignments of `_openSym`. -/
def openSym (mod : Module) (k : Nat) (dlsym : Addr → Str → Option Addr) : Module :=
  match k with
  | 0 => { mod with create := dlsym mod.module (mod.name ++ "Create".toList) }
  | 1 => { mod with init := dlsym mod.module (mod.name ++ "Init".toList) }
  | _ => { mod with release := dlsym mod.module (mod.name ++ "Release".toList) }

/-- One action of one thread. -/
def moduleStep (s : Modules) (pc : ModulePc) (choice : ModuleChoice) : Option (Modules × ModulePc) :=
  match pc, choice with
  | .user, .moduleQuery name => some (s, .query name 0)
  | .query name i, .run => some (s, if i < s.count then .compare name i else .acquire name)
  | .compare name i, .run =>
      some (s, if (s.m i).name = name then .returned name (some i) else .query name (i + 1))
  | .acquire name, .run =>
      some ({ s with lock := true }, if s.lock then .acquire name else .requery name 0)
  | .requery name i, .run =>
      some (s,
        if i < s.count then .recompare name i
        else if s.count < MAX_MODULE_TYPE then .tryOpen name s.count
        else .release name none)
  | .recompare name i, .run =>
      some (s, if (s.m i).name = name then .release name (some i) else .requery name (i + 1))
  | .tryOpen name index, .dlopen answer =>
      match tryOpen s.path name answer with
      | none => some (s, .exited)
      | some none => some (s, .release name none)
      | some (some dl) =>
          some (s.set index { s.m index with name := name, module := dl }, .openSym name index 0)
  | .openSym name index k, .dlsym answer =>
      let mod := openSym (s.m index) k answer
      some (s.set index mod,
        if k < 2 then .openSym name index (k + 1)
        else if mod.init = none then .release name none
        else .strdup name index)
  | .strdup name index, .run => some (s.set index { s.m index with name := name }, .publish name index)
  | .publish name index, .run => some ({ s with count := s.count + 1 }, .release name (some index))
  | .release name result, .run => some ({ s with lock := false }, .returned name result)
  | .returned _ _, .run => some (s, .user)
  | _, _ => none

/-- Nobody has asked for a module yet. -/
def modulesStart {ι : Type} (path : Str) (junk : Nat → Module) : Config ι Modules ModulePc :=
  ⟨moduleInit path junk, fun _ => .user⟩

-- ============================================================================
-- What holds
-- ============================================================================

/-- No module of the table has the name. -/
def Modules.Misses (s : Modules) (name : Str) : Prop := ∀ i < s.count, (s.m i).name ≠ name

/-- The `i`-th module of the table has the name. -/
def Modules.Has (s : Modules) (name : Str) (i : Nat) : Prop := i < s.count ∧ (s.m i).name = name

/-- Nothing in the table is changed, or taken out of it. -/
structure Modules.Grows (s s' : Modules) : Prop where
  path : s'.path = s.path
  count : s.count ≤ s'.count
  same : ∀ i < s.count, s'.m i = s.m i

/-- The table has every name at most once, and only modules that can be initialised. -/
structure Modules.Ok (s : Modules) : Prop where
  bound : s.count ≤ MAX_MODULE_TYPE
  once : ∀ name i j, s.Has name i → s.Has name j → i = j
  init : ∀ i < s.count, (s.m i).init ≠ none

/-- What the threads get: the module of that name, or NULL when there is none. -/
structure ModulesAgree {ι : Type} (c : Config ι Modules ModulePc) : Prop where
  table : c.shared.Ok
  found : ∀ thread name i, c.pcs thread = .returned name (some i) → c.shared.Has name i
  missed : ∀ thread name, c.pcs thread = .release name none → c.shared.Misses name

/-- The thread has the lock. -/
def ModulePc.Locks : ModulePc → Prop
  | .requery _ _ | .recompare _ _ | .tryOpen _ _ | .openSym _ _ _ | .strdup _ _ | .publish _ _
  | .release _ _ => True
  | _ => False

/-- What is so when a thread stands there. -/
def ModulePc.Assert (s : Modules) : ModulePc → Prop
  | .compare _ i => i < s.count
  | .requery name i => i ≤ s.count ∧ ∀ j < i, (s.m j).name ≠ name
  | .recompare name i => i < s.count ∧ ∀ j < i, (s.m j).name ≠ name
  | .tryOpen name index => index = s.count ∧ s.count < MAX_MODULE_TYPE ∧ s.Misses name
  | .openSym name index _ => index = s.count ∧ s.count < MAX_MODULE_TYPE ∧ s.Misses name
  | .strdup name index => index = s.count ∧ s.count < MAX_MODULE_TYPE ∧ s.Misses name ∧
      (s.m index).init ≠ none
  | .publish name index => index = s.count ∧ s.count < MAX_MODULE_TYPE ∧ s.Misses name ∧
      (s.m index).init ≠ none ∧ (s.m index).name = name
  | .release name none => s.Misses name
  | .release name (some i) => s.Has name i
  | .returned name (some i) => s.Has name i
  | _ => True

-- ============================================================================
-- One action
-- ============================================================================

section Step

variable {s s' : Modules} {pc pc' : ModulePc} {choice : ModuleChoice} {name : Str} {index : Nat}

theorem Modules.Grows.refl (s : Modules) : s.Grows s := ⟨rfl, Nat.le_refl _, fun _ _ => rfl⟩

theorem Modules.Grows.trans {s₁ s₂ : Modules} (h₁ : s.Grows s₁) (h₂ : s₁.Grows s₂) :
    s.Grows s₂ := by
  refine ⟨h₂.path.trans h₁.path, h₁.count.trans h₂.count, ?_⟩
  intro i hi
  rw [h₂.same i (Nat.lt_of_lt_of_le hi h₁.count), h₁.same i hi]

theorem Modules.Has.grows (h : s.Has name index) (hgrows : s.Grows s') : s'.Has name index := by
  obtain ⟨hlt, hname⟩ := h
  refine ⟨Nat.lt_of_lt_of_le hlt hgrows.count, ?_⟩
  rw [hgrows.same index hlt, hname]

/-- A module that is not in the table yet is filled in. -/
theorem set_same (s : Modules) (mod : Module) {i : Nat} (hi : i < s.count) :
    (s.set s.count mod).m i = s.m i :=
  Function.update_of_ne (Nat.ne_of_lt hi) _ _

@[simp] theorem set_self (s : Modules) (index : Nat) (mod : Module) :
    (s.set index mod).m index = mod :=
  Function.update_self ..

theorem set_grows (s : Modules) (mod : Module) : s.Grows (s.set s.count mod) :=
  ⟨rfl, Nat.le_refl _, fun _ hi => set_same s mod hi⟩

theorem set_ok (h : s.Ok) (mod : Module) : (s.set s.count mod).Ok := by
  have hhas : ∀ {name i}, (s.set s.count mod).Has name i → s.Has name i := by
    rintro name i ⟨hi, hname⟩
    rw [set_same s mod hi] at hname
    exact ⟨hi, hname⟩
  refine ⟨h.bound, ?_, ?_⟩
  · intro name i j hi hj
    exact h.once name i j (hhas hi) (hhas hj)
  · intro i hi
    rw [set_same s mod hi]
    exact h.init i hi

theorem set_misses (h : s.Misses name) (mod : Module) : (s.set s.count mod).Misses name := by
  intro i hi
  rw [set_same s mod hi]
  exact h i hi

/-- The module that has been filled in is counted. -/
theorem publish_ok (h : s.Ok) (hroom : s.count < MAX_MODULE_TYPE) (hmisses : s.Misses name)
    (hinit : (s.m s.count).init ≠ none) (hname : (s.m s.count).name = name) :
    ({ s with count := s.count + 1 } : Modules).Ok := by
  have hlast : ∀ {name' i}, ({ s with count := s.count + 1 } : Modules).Has name' i →
      s.Has name' i ∨ i = s.count ∧ name' = name := by
    rintro name' i ⟨hi, hname'⟩
    rcases Nat.lt_succ_iff_lt_or_eq.mp hi with hi | rfl
    · exact Or.inl ⟨hi, hname'⟩
    · exact Or.inr ⟨rfl, hname'.symm.trans hname⟩
  refine ⟨hroom, ?_, ?_⟩
  · intro name' i j hi hj
    rcases hlast hi with hi | ⟨rfl, rfl⟩
    · rcases hlast hj with hj | ⟨rfl, rfl⟩
      · exact h.once name' i j hi hj
      · exact absurd hi.2 (hmisses i hi.1)
    · rcases hlast hj with hj | ⟨rfl, -⟩
      · exact absurd hj.2 (hmisses j hj.1)
      · rfl
  · intro i hi
    rcases Nat.lt_succ_iff_lt_or_eq.mp hi with hi | rfl
    · exact h.init i hi
    · exact hinit

/-- A scan goes on behind a module of another name. -/
theorem misses_succ {i : Nat} (h : ∀ j < i, (s.m j).name ≠ name) (hne : (s.m i).name ≠ name) :
    ∀ j < i + 1, (s.m j).name ≠ name := by
  intro j hj
  rcases Nat.lt_succ_iff_lt_or_eq.mp hj with hj | rfl
  · exact h j hj
  · exact hne

/-- The table grows. -/
theorem moduleStep_grows (hs : moduleStep s pc choice = some (s', pc')) (hassert : pc.Assert s) :
    s.Grows s' := by
  cases pc <;> cases choice <;> simp only [moduleStep, reduceCtorEq] at hs
  case tryOpen.dlopen name index answer =>
    obtain ⟨rfl, -, -⟩ := hassert
    split at hs <;> simp only [Option.some.injEq, Prod.mk.injEq] at hs <;> obtain ⟨rfl, -⟩ := hs
    · exact .refl s
    · exact .refl s
    · exact set_grows s _
  case openSym.dlsym name index k answer =>
    obtain ⟨rfl, -, -⟩ := hassert
    simp only [Option.some.injEq, Prod.mk.injEq] at hs
    obtain ⟨rfl, -⟩ := hs
    exact set_grows s _
  case strdup.run name index =>
    obtain ⟨rfl, -, -, -⟩ := hassert
    simp only [Option.some.injEq, Prod.mk.injEq] at hs
    obtain ⟨rfl, -⟩ := hs
    exact set_grows s _
  case publish.run name index =>
    simp only [Option.some.injEq, Prod.mk.injEq] at hs
    obtain ⟨rfl, -⟩ := hs
    exact ⟨rfl, Nat.le_succ _, fun _ _ => rfl⟩
  all_goals
    simp only [Option.some.injEq, Prod.mk.injEq] at hs
    obtain ⟨rfl, -⟩ := hs
    exact ⟨rfl, Nat.le_refl _, fun _ _ => rfl⟩

/-- A thread without the lock changes the lock only, and gets it only when it is free. -/
theorem moduleStep_unlocked (hs : moduleStep s pc choice = some (s', pc')) (hpc : ¬pc.Locks) :
    s'.count = s.count ∧ s'.m = s.m ∧ (s.lock = true → s'.lock = true ∧ ¬pc'.Locks) := by
  have hsame : ∀ {pc₁ : ModulePc}, ¬pc₁.Locks → some (s, pc₁) = some (s', pc') →
      s'.count = s.count ∧ s'.m = s.m ∧ (s.lock = true → s'.lock = true ∧ ¬pc'.Locks) := by
    rintro pc₁ hpc₁ heq
    simp only [Option.some.injEq, Prod.mk.injEq] at heq
    obtain ⟨rfl, rfl⟩ := heq
    exact ⟨rfl, rfl, fun hlock => ⟨hlock, hpc₁⟩⟩
  cases pc <;> cases choice <;> simp only [moduleStep, reduceCtorEq] at hs
  case user.moduleQuery name => exact hsame id hs
  case query.run name i =>
    refine hsame ?_ hs
    split <;> exact id
  case compare.run name i =>
    refine hsame ?_ hs
    split <;> exact id
  case acquire.run name =>
    simp only [Option.some.injEq, Prod.mk.injEq] at hs
    obtain ⟨rfl, rfl⟩ := hs
    refine ⟨rfl, rfl, ?_⟩
    intro hlock
    rw [if_pos hlock]
    exact ⟨rfl, id⟩
  case returned.run name result => exact hsame id hs
  all_goals exact absurd trivial hpc

/-- What a thread without the lock relies on, others do not take away. -/
theorem assert_grows (h : pc.Assert s) (hpc : ¬pc.Locks) (hgrows : s.Grows s') : pc.Assert s' := by
  cases pc with
  | compare name i => exact Nat.lt_of_lt_of_le h hgrows.count
  | returned name result =>
      cases result with
      | none => trivial
      | some i => exact Modules.Has.grows h hgrows
  | user => trivial
  | query => trivial
  | acquire => trivial
  | exited => trivial
  | _ => exact absurd trivial hpc

/-- It depends on the modules and their number. -/
theorem assert_same (h : pc.Assert s) (hcount : s'.count = s.count) (hm : s'.m = s.m) :
    pc.Assert s' := by
  have hmisses : ∀ {name}, s.Misses name → s'.Misses name := by
    intro name hmisses i hi
    rw [hm]
    exact hmisses i (hcount ▸ hi)
  cases pc with
  | release name result =>
      cases result with
      | none => exact hmisses h
      | some i => exact ⟨hcount ▸ h.1, hm ▸ h.2⟩
  | returned name result =>
      cases result with
      | none => trivial
      | some i => exact ⟨hcount ▸ h.1, hm ▸ h.2⟩
  | compare name i => exact (show i < s'.count from hcount ▸ h)
  | requery => exact ⟨hcount ▸ h.1, hm ▸ h.2⟩
  | recompare => exact ⟨hcount ▸ h.1, hm ▸ h.2⟩
  | tryOpen => exact ⟨hcount ▸ h.1, hcount ▸ h.2.1, hmisses h.2.2⟩
  | openSym => exact ⟨hcount ▸ h.1, hcount ▸ h.2.1, hmisses h.2.2⟩
  | strdup => exact ⟨hcount ▸ h.1, hcount ▸ h.2.1, hmisses h.2.2.1, hm ▸ h.2.2.2⟩
  | publish =>
      exact ⟨hcount ▸ h.1, hcount ▸ h.2.1, hmisses h.2.2.1, hm ▸ h.2.2.2.1, hm ▸ h.2.2.2.2⟩
  | _ => trivial

/-- What the thread itself finds after its action. -/
theorem moduleStep_own (hs : moduleStep s pc choice = some (s', pc')) (hok : s.Ok)
    (hassert : pc.Assert s) (hlock : pc.Locks → s.lock = true) :
    s'.Ok ∧ pc'.Assert s' ∧ (pc'.Locks → s'.lock = true) := by
  cases pc <;> cases choice <;> simp only [moduleStep, reduceCtorEq] at hs
  case user.moduleQuery name =>
    simp only [Option.some.injEq, Prod.mk.injEq] at hs
    obtain ⟨rfl, rfl⟩ := hs
    exact ⟨hok, trivial, False.elim⟩
  case query.run name i =>
    simp only [Option.some.injEq, Prod.mk.injEq] at hs
    obtain ⟨rfl, rfl⟩ := hs
    split
    · rename_i hi
      exact ⟨hok, hi, False.elim⟩
    · exact ⟨hok, trivial, False.elim⟩
  case compare.run name i =>
    simp only [Option.some.injEq, Prod.mk.injEq] at hs
    obtain ⟨rfl, rfl⟩ := hs
    split
    · rename_i hname
      exact ⟨hok, ⟨hassert, hname⟩, False.elim⟩
    · exact ⟨hok, trivial, False.elim⟩
  case acquire.run name =>
    simp only [Option.some.injEq, Prod.mk.injEq] at hs
    obtain ⟨rfl, rfl⟩ := hs
    have hok' : ({ s with lock := true } : Modules).Ok := ⟨hok.bound, hok.once, hok.init⟩
    split
    · exact ⟨hok', trivial, False.elim⟩
    · exact ⟨hok', ⟨Nat.zero_le _, by simp⟩, fun _ => rfl⟩
  case requery.run name i =>
    simp only [Option.some.injEq, Prod.mk.injEq] at hs
    obtain ⟨rfl, rfl⟩ := hs
    obtain ⟨hle, hbefore⟩ := hassert
    have hheld := hlock trivial
    by_cases hi : i < s.count
    · rw [if_pos hi]
      exact ⟨hok, ⟨hi, hbefore⟩, fun _ => hheld⟩
    · have heq : i = s.count := by omega
      subst heq
      rw [if_neg hi]
      split
      · rename_i hroom
        exact ⟨hok, ⟨rfl, hroom, hbefore⟩, fun _ => hheld⟩
      · exact ⟨hok, hbefore, fun _ => hheld⟩
  case recompare.run name i =>
    simp only [Option.some.injEq, Prod.mk.injEq] at hs
    obtain ⟨rfl, rfl⟩ := hs
    obtain ⟨hi, hbefore⟩ := hassert
    have hheld := hlock trivial
    split
    · rename_i hname
      exact ⟨hok, ⟨hi, hname⟩, fun _ => hheld⟩
    · rename_i hname
      exact ⟨hok, ⟨hi, misses_succ hbefore hname⟩, fun _ => hheld⟩
  case tryOpen.dlopen name index answer =>
    obtain ⟨rfl, hroom, hmisses⟩ := hassert
    have hheld := hlock trivial
    split at hs <;> simp only [Option.some.injEq, Prod.mk.injEq] at hs <;> obtain ⟨rfl, rfl⟩ := hs
    · exact ⟨hok, trivial, False.elim⟩
    · exact ⟨hok, hmisses, fun _ => hheld⟩
    · exact ⟨set_ok hok _, ⟨rfl, hroom, set_misses hmisses _⟩, fun _ => hheld⟩
  case openSym.dlsym name index k answer =>
    obtain ⟨rfl, hroom, hmisses⟩ := hassert
    have hheld := hlock trivial
    simp only [Option.some.injEq, Prod.mk.injEq] at hs
    obtain ⟨rfl, rfl⟩ := hs
    split
    · exact ⟨set_ok hok _, ⟨rfl, hroom, set_misses hmisses _⟩, fun _ => hheld⟩
    · split
      · exact ⟨set_ok hok _, set_misses hmisses _, fun _ => hheld⟩
      · rename_i hinit
        refine ⟨set_ok hok _, ⟨rfl, hroom, set_misses hmisses _, ?_⟩, fun _ => hheld⟩
        rw [set_self]
        exact hinit
  case strdup.run name index =>
    obtain ⟨rfl, hroom, hmisses, hinit⟩ := hassert
    have hheld := hlock trivial
    simp only [Option.some.injEq, Prod.mk.injEq] at hs
    obtain ⟨rfl, rfl⟩ := hs
    refine ⟨set_ok hok _, ⟨rfl, hroom, set_misses hmisses _, ?_, ?_⟩, fun _ => hheld⟩
    · rw [set_self]
      exact hinit
    · rw [set_self]
  case publish.run name index =>
    obtain ⟨rfl, hroom, hmisses, hinit, hname⟩ := hassert
    have hheld := hlock trivial
    simp only [Option.some.injEq, Prod.mk.injEq] at hs
    obtain ⟨rfl, rfl⟩ := hs
    exact ⟨publish_ok hok hroom hmisses hinit hname, ⟨Nat.lt_succ_self _, hname⟩, fun _ => hheld⟩
  case release.run name result =>
    simp only [Option.some.injEq, Prod.mk.injEq] at hs
    obtain ⟨rfl, rfl⟩ := hs
    refine ⟨⟨hok.bound, hok.once, hok.init⟩, ?_, False.elim⟩
    cases result with
    | none => trivial
    | some i => exact hassert
  case returned.run name result =>
    simp only [Option.some.injEq, Prod.mk.injEq] at hs
    obtain ⟨rfl, rfl⟩ := hs
    exact ⟨hok, trivial, False.elim⟩

end Step

-- ============================================================================
-- Runs
-- ============================================================================

section Runs

variable {ι : Type} [DecidableEq ι] {c c' : Config ι Modules ModulePc}

/-- The assertions hold, and at most one thread has the lock. -/
def ModulesInv (c : Config ι Modules ModulePc) : Prop :=
  c.Sat Modules.Ok (fun s pc => pc.Assert s ∧ (pc.Locks → s.lock = true))
    fun pc pc' => ¬(pc.Locks ∧ pc'.Locks)

omit [DecidableEq ι] in
theorem modulesStart_inv (path : Str) (junk : Nat → Module) :
    ModulesInv (modulesStart path junk : Config ι Modules ModulePc) where
  shared := ⟨Nat.zero_le _, fun _ _ _ hi => absurd hi.1 (Nat.not_lt_zero _),
    fun _ hi => absurd hi (Nat.not_lt_zero _)⟩
  loc _ := ⟨trivial, False.elim⟩
  pair _ _ _ h := h.1.elim

theorem ModulesInv.next (h : ModulesInv c) {a : ι × ModuleChoice}
    (hf : fire moduleStep c a = some c') : ModulesInv c' := by
  refine Config.Sat.fire (fun _ _ hnot => fun hboth => hnot hboth.symm) ?_ ?_ h hf
  · intro s pc choice s' pc' hok hloc hs
    exact moduleStep_own hs hok hloc.1 hloc.2
  · intro s pc choice s' pc' other hok hloc hother hpair hs
    have hgrows := moduleStep_grows hs hloc.1
    by_cases hlocks : pc.Locks
    · have hfree : ¬other.Locks := fun hboth => hpair ⟨hlocks, hboth⟩
      exact ⟨⟨assert_grows hother.1 hfree hgrows, fun hnot => absurd hnot hfree⟩,
        fun hboth => hfree hboth.2⟩
    · obtain ⟨hcount, hm, hlock⟩ := moduleStep_unlocked hs hlocks
      refine ⟨⟨assert_same hother.1 hcount hm, fun hheld => (hlock (hother.2 hheld)).1⟩, ?_⟩
      rintro ⟨hpc', hheld⟩
      exact (hlock (hother.2 hheld)).2 hpc'

theorem ModulesInv.grows (h : ModulesInv c) {a : ι × ModuleChoice}
    (hf : fire moduleStep c a = some c') : c.shared.Grows c'.shared := by
  obtain ⟨s, pc, hs, rfl⟩ := fire_eq_some.mp hf
  exact moduleStep_grows hs (h.loc a.1).1

omit [DecidableEq ι] in
theorem ModulesInv.agree (h : ModulesInv c) : ModulesAgree c where
  table := h.shared
  found thread name i hpc := by
    have hassert := (h.loc thread).1
    rw [hpc] at hassert
    exact hassert
  missed thread name hpc := by
    have hassert := (h.loc thread).1
    rw [hpc] at hassert
    exact hassert

/-- For any threads that ask for modules, any libraries and any interleaving: a thread gets
    the module of the name that it has asked for, which is in the table once, and stays
    what it is; or NULL when the module is not in the table. -/
theorem moduleQuery_agrees (path : Str) (junk : Nat → Module)
    (h : Reachable (fire moduleStep) (modulesStart path junk) c) :
    ModulesAgree c ∧ ∀ c', Reachable (fire moduleStep) c c' → c.shared.Grows c'.shared := by
  have hinv : ModulesInv c := h.invariant (modulesStart_inv path junk) fun _ _ _ h hf => h.next hf
  refine ⟨hinv.agree, ?_⟩
  intro c' h'
  have hboth : ModulesInv c' ∧ c.shared.Grows c'.shared := by
    refine h'.invariant (J := fun c₁ => ModulesInv c₁ ∧ c.shared.Grows c₁.shared)
      ⟨hinv, .refl _⟩ ?_
    intro c₁ a c₂ hc₁ hf
    exact ⟨hc₁.1.next hf, hc₁.2.trans (hc₁.1.grows hf)⟩
  exact hboth.2

/-- Two threads ask for the same module; the second one finds what the first has opened. -/
theorem moduleQuery_agrees_race : ∃ (as : List (Bool × ModuleChoice))
    (c : Config Bool Modules ModulePc),
    runFrom (fire moduleStep)
      (modulesStart ";a/?.so;b/?.so".toList fun _ => ⟨[], 0, none, none, none⟩) as = some c ∧
    ModulesAgree c ∧ (∀ c', Reachable (fire moduleStep) c c' → c.shared.Grows c'.shared) ∧
    c.pcs false = .returned "zlua".toList (some 0) ∧
    c.pcs true = .returned "zlua".toList (some 0) := by
  let path := ";a/?.so;b/?.so".toList
  let zlua := "zlua".toList
  let dlopen : Str → Option Addr := fun tmp => if tmp = "b/zlua.so".toList then some 7 else none
  let dlsym : Addr → Str → Option Addr := fun _ symbol =>
    if symbol = "zluaInit".toList then some 8 else none
  let as : List (Bool × ModuleChoice) :=
    [(false, .moduleQuery zlua), (true, .moduleQuery zlua), (false, .run), (true, .run),
      (false, .run), (true, .run), (false, .run), (false, .dlopen dlopen), (false, .dlsym dlsym),
      (true, .run), (false, .dlsym dlsym), (false, .dlsym dlsym), (false, .run), (false, .run),
      (false, .run), (true, .run), (true, .run), (true, .run), (true, .run)]
  have hrun : ∃ c : Config Bool Modules ModulePc,
      runFrom (fire moduleStep) (modulesStart path fun _ => ⟨[], 0, none, none, none⟩) as = some c ∧
      c.pcs false = .returned zlua (some 0) ∧ c.pcs true = .returned zlua (some 0) :=
    ⟨_, rfl, rfl, rfl⟩
  obtain ⟨c, hc, hfirst, hsecond⟩ := hrun
  obtain ⟨hagree, hgrows⟩ := moduleQuery_agrees path _ (.of_runFrom hc)
  exact ⟨as, c, hc, hagree, hgrows, hfirst, hsecond⟩

end Runs

end Dl
end ZServer
