/-
  ZServer.Lua.Modules

  Loading and reloading of modules (`load` in `lualib/modules.lua`).

  A module is a table in which its files run as in `_G`.  A reload empties the table that
  is there, with the tables among its fields put aside, runs the files in it again, and
  puts the tables back.  What a file does is a function of the world that it finds: it
  cannot be loaded, or it returns, or it raises an error.

  The metatable of a module is looked up as far as the table in its `__index`, which is
  `_G` and has none; it has no `__newindex`.
-/

import Mathlib.Data.List.Perm.Basic
import Mathlib.Logic.Function.Basic

namespace ZServer
namespace Modules

-- ============================================================================
-- Tables
-- ============================================================================

/-- The address of a table. -/
abbrev Table := Nat

/-- A value other than `nil`. -/
inductive Value where
  | boolean (b : Bool)
  | string (s : String)
  | table (t : Table)
  /-- a number, a function, a userdata or a thread -/
  | other (n : Nat)
  deriving DecidableEq, Repr

abbrev Key := Value

structure World where
  /-- the fields of the tables; `none` is `nil` -/
  fields : Table → Key → Option Value
  /-- the metatables -/
  metatable : Value → Option Table
  /-- `modules` -/
  modules : String → Option Table
  /-- `_G` -/
  global : Table
  /-- the tables from here on are not made yet -/
  next : Table

/-- `t[k] = v` -/
def World.setField (w : World) (t : Table) (k : Key) (v : Option Value) : World :=
  { w with fields := Function.update w.fields t (Function.update (w.fields t) k v) }

/-- `luaL_getmetafield` -/
def World.metafield (w : World) (obj : Value) (event : String) : Option Value :=
  (w.metatable obj).bind fun mt => w.fields mt (.string event)

/-- `t[k]` -/
def World.index (w : World) (t : Table) (k : Key) : Option Value :=
  match w.fields t k with
  | some v => some v
  | none =>
      match w.metafield (.table t) "__index" with
      | some (.table mt) => w.fields mt k
      | _ => none

/-- `getmetatable(obj)` -/
def World.getmetatable (w : World) (obj : Option Value) : Option Value :=
  obj.bind fun obj => (w.metatable obj).map fun mt =>
    (w.metafield obj "__metatable").getD (.table mt)

/-- `setmetatable(t, mt)`; `none` when it raises an error. -/
def World.setmetatable (w : World) (t : Table) (mt : Value) : Option World :=
  match mt with
  | .table mt =>
      if (w.metafield (.table t) "__metatable").isNone then
        some { w with metatable := Function.update w.metatable (.table t) (some mt) }
      else none
  | _ => none

-- ============================================================================
-- Files
-- ============================================================================

inductive FileResult where
  /-- `loadfile` has returned `nil, err` -/
  | cannotLoad
  /-- `func()` has returned -/
  | returned (w : World)
  /-- `func()` has raised an error -/
  | raised (w : World)

/-- A file, with the table in which it runs. -/
abbrev File := Table → World → FileResult

/-- Why a file list was not run to its end. -/
inductive Stop where
  | cannotLoad
  | raised
  deriving DecidableEq, Repr

/-- The loop over `pairs(fileset)`. -/
def runFiles (env : Table) : List File → World → World × Option Stop
  | [], w => (w, none)
  | file :: files, w =>
      match file env w with
      | .cannotLoad => (w, some .cannotLoad)
      | .raised w => (w, some .raised)
      | .returned w => runFiles env files w

-- ============================================================================
-- `load`
-- ============================================================================

inductive Outcome where
  /-- `nil, err` when it is `none` -/
  | returned (result : Option Table) (w : World)
  | raised (w : World)

def Outcome.world : Outcome → World
  | .returned _ w => w
  | .raised w => w

/-- `local newmodule = {}` and `setmetatable(newmodule, {__index = _G})` -/
def World.newModule (w : World) : World :=
  let newmodule := w.next
  let mt := w.next + 1
  { w with
    fields := Function.update
      (Function.update w.fields newmodule fun _ => none) mt
      (Function.update (fun _ => none) (.string "__index") (some (.table w.global)))
    metatable := Function.update w.metatable (.table newmodule) (some mt)
    next := w.next + 2 }

/-- One field in the loop over `pairs(oldmodule)`. -/
def parkOne (oldmodule : Table) (s : List (Key × Table) × World) (e : Key × Value) :
    List (Key × Table) × World :=
  let oldcache :=
    match e.2 with
    | .table v => s.1 ++ [(e.1, v)]
    | _ => s.1
  (oldcache, s.2.setField oldmodule e.1 none)

/-- The loop over `pairs(oldmodule)`, with `oldcache`. -/
def park (oldmodule : Table) (old : List (Key × Value)) (w : World) :
    List (Key × Table) × World :=
  old.foldl (parkOne oldmodule) ([], w)

/-- One entry in the loop over `pairs(oldcache)`; `none` when `setmetatable` raises. -/
def restoreOne (newmodule : Table) (w : World) (k : Key) (v : Table) : Option World :=
  let set : Option World :=
    match w.getmetatable (w.index newmodule k) with
    | none => some w
    | some (.boolean false) => some w
    | some mt => w.setmetatable v mt
  set.map fun w => w.setField newmodule k (some (.table v))

/-- The loop over `pairs(oldcache)`; whether it comes to its end. -/
def restore (newmodule : Table) : List (Key × Table) → World → World × Bool
  | [], w => (w, true)
  | (k, v) :: rest, w =>
      match restoreOne newmodule w k v with
      | none => (w, false)
      | some w => restore newmodule rest w

/-- The orders of the two loops over `pairs`: every entry comes once. -/
structure Order (w : World) (t : Table) where
  old : List (Key × Value)
  nodup : (old.map Prod.fst).Nodup
  mem_old : ∀ k v, (k, v) ∈ old ↔ w.fields t k = some v
  cached : List (Key × Table)
  perm : cached.Perm (park t old w).1

/-- `load` from `local oldcache = {}` on. -/
def reloadModule (w : World) (files : List File) (oldmodule : Table) (order : Order w oldmodule) :
    Outcome :=
  match runFiles oldmodule files (park oldmodule order.old w).2 with
  | (w, some .cannotLoad) => .returned none w
  | (w, some .raised) => .raised w
  | (w, none) =>
      match restore oldmodule order.cached w with
      | (w, true) => .returned (some oldmodule) w
      | (w, false) => .raised w

/-- `load`, with the files in the order of `pairs(fileset)`. -/
def load (w : World) (files : List File) (modulename : String) (reload : Bool)
    (order : ∀ t, w.modules modulename = some t → Order w t) : Outcome :=
  match hmodule : w.modules modulename with
  | none =>
      let newmodule := w.next
      match runFiles newmodule files w.newModule with
      | (w, some .cannotLoad) => .returned none w
      | (w, some .raised) => .raised w
      | (w, none) =>
          .returned (some newmodule)
            { w with modules := Function.update w.modules modulename (some newmodule) }
  | some oldmodule =>
      if reload then reloadModule w files oldmodule (order oldmodule hmodule)
      else .returned (some oldmodule) w

-- ============================================================================
-- What the loops do
-- ============================================================================

section Loops

variable {w w' : World} {t : Table} {k : Key} {v : Table}

theorem World.setField_fields (w : World) (t : Table) (k : Key) (v : Option Value) (k' : Key) :
    (w.setField t k v).fields t k' = if k' = k then v else w.fields t k' := by
  show Function.update w.fields t (Function.update (w.fields t) k v) t k' = _
  rw [Function.update_self, Function.update_apply]

/-- A table field. -/
def tableField (e : Key × Value) : Option (Key × Table) :=
  match e.2 with
  | .table v => some (e.1, v)
  | _ => none

theorem tableField_eq_some {e : Key × Value} :
    tableField e = some (k, v) ↔ e = (k, .table v) := by
  obtain ⟨k', x⟩ := e
  unfold tableField
  cases x <;> simp

/-- The world with the module emptied. -/
def World.emptied (w : World) (t : Table) : World :=
  { w with fields := Function.update w.fields t fun _ => none }

theorem foldl_parkOne (t : Table) (old : List (Key × Value)) (cache : List (Key × Table))
    (w : World) :
    old.foldl (parkOne t) (cache, w) =
      (cache ++ old.filterMap tableField, { w with
        fields := Function.update w.fields t fun k =>
          if k ∈ old.map Prod.fst then none else w.fields t k }) := by
  induction old generalizing cache w with
  | nil => simp
  | cons e old ih =>
      have hcache : (parkOne t (cache, w) e).1 ++ old.filterMap tableField =
          cache ++ (e :: old).filterMap tableField := by
        obtain ⟨k, x⟩ := e
        cases x <;> simp [parkOne, tableField, List.filterMap_cons]
      have hfields : (fun k => if k ∈ old.map Prod.fst then none else
          (w.setField t e.1 none).fields t k) =
          fun k => if k ∈ (e :: old).map Prod.fst then none else w.fields t k := by
        funext k
        rw [World.setField_fields, List.map_cons]
        by_cases hk : k = e.1
        · rw [if_pos hk, ite_self, if_pos (hk ▸ List.mem_cons_self)]
        · rw [if_neg hk]
          by_cases hmem : k ∈ old.map Prod.fst
          · rw [if_pos hmem, if_pos (List.mem_cons_of_mem _ hmem)]
          · rw [if_neg hmem, if_neg fun h => (List.mem_cons.mp h).elim hk hmem]
      rw [List.foldl_cons, ← Prod.eta (parkOne t (cache, w) e), ih, hcache]
      refine congrArg (Prod.mk _) ?_
      show ({ w.setField t e.1 none with fields := _ } : World) = _
      unfold parkOne
      dsimp only
      rw [hfields]
      unfold World.setField
      rw [Function.update_idem]

/-- All fields are gone. -/
theorem park_world (order : Order w t) : (park t order.old w).2 = w.emptied t := by
  unfold park World.emptied
  rw [foldl_parkOne]
  have hfields : (fun k => if k ∈ order.old.map Prod.fst then none else w.fields t k) =
      fun _ => none := by
    funext k
    split
    · rfl
    · rename_i hk
      cases hfield : w.fields t k with
      | none => rfl
      | some x =>
          exact absurd (List.mem_map.mpr ⟨(k, x), (order.mem_old k x).mpr hfield, rfl⟩) hk
  rw [hfields]

/-- The tables among the fields are put aside. -/
theorem mem_cached (order : Order w t) :
    (k, v) ∈ order.cached ↔ w.fields t k = some (.table v) := by
  rw [order.perm.mem_iff]
  unfold park
  rw [foldl_parkOne, List.nil_append, List.mem_filterMap, ← order.mem_old]
  constructor
  · rintro ⟨e, he, heq⟩
    exact tableField_eq_some.mp heq ▸ he
  · exact fun he => ⟨(k, .table v), he, rfl⟩

theorem restoreOne_fields (h : restoreOne t w k v = some w') (k' : Key) :
    w'.fields t k' = if k' = k then some (.table v) else w.fields t k' := by
  unfold restoreOne at h
  obtain ⟨w₁, hset, rfl⟩ := Option.map_eq_some_iff.mp h
  rw [World.setField_fields]
  have hsame : w₁.fields = w.fields := by
    split at hset
    · cases hset
      rfl
    · cases hset
      rfl
    · unfold World.setmetatable at hset
      split at hset
      · obtain ⟨-, hset⟩ := Option.ite_none_right_eq_some.mp hset
        cases hset
        rfl
      · cases hset
  rw [hsame]

/-- The entries are put back, and the other fields stay. -/
theorem restore_fields {entries : List (Key × Table)} (h : restore t entries w = (w', true))
    (field : Key → Option Value) (hentries : ∀ k v, (k, v) ∈ entries → field k = some (.table v))
    (k : Key) :
    w'.fields t k = if k ∈ entries.map Prod.fst then field k else w.fields t k := by
  induction entries generalizing w with
  | nil =>
      cases h
      rfl
  | cons e entries ih =>
      obtain ⟨k₀, v₀⟩ := e
      rw [restore] at h
      split at h
      · cases h
      · rename_i w₁ hone
        rw [ih h fun k v hk => hentries k v (List.mem_cons_of_mem _ hk), restoreOne_fields hone,
          List.map_cons]
        by_cases hrest : k ∈ entries.map Prod.fst
        · rw [if_pos hrest, if_pos (List.mem_cons_of_mem _ hrest)]
        · rw [if_neg hrest]
          by_cases hk : k = k₀
          · rw [hk, if_pos rfl, if_pos List.mem_cons_self,
              hentries k₀ v₀ List.mem_cons_self]
          · rw [if_neg hk, if_neg fun hmem => (List.mem_cons.mp hmem).elim hk hrest]

end Loops

-- ============================================================================
-- All or nothing
-- ============================================================================

section Atomic

variable {w : World} {t : Table} {files : List File}

/-- `setmetatable` is not called for the entry, or does what it is asked. -/
def Accepts (t : Table) (w : World) (k : Key) (v : Table) : Prop :=
  match w.getmetatable (w.index t k) with
  | none => True
  | some (.boolean false) => True
  | some (.table _) => w.metafield (.table v) "__metatable" = none
  | some _ => False

/-- So for one entry after the other. -/
def AcceptsAll (t : Table) : List (Key × Table) → World → Prop
  | [], _ => True
  | (k, v) :: rest, w =>
      Accepts t w k v ∧ ∀ w', restoreOne t w k v = some w' → AcceptsAll t rest w'

/-- What is claimed of a reload of the module `t`, with what the files define on the empty
    module. -/
def Atomic (w : World) (t : Table) (files : List File) (out : Outcome) : Prop :=
  let ran := runFiles t files (w.emptied t)
  (∃ w', out = .returned (some t) w' ∧ ∀ k, w'.fields t k =
    match w.fields t k with
    | some (.table v) => some (.table v)
    | _ => ran.1.fields t k) ∨
  (ran.2 ≠ none ∧ ∀ k, out.world.fields t k = w.fields t k)

/-- All files run and no metatable is refused; or the files up to the one that fails
    define on the empty module just the fields that it had. -/
def ReloadsCleanly (w : World) (t : Table) (files : List File) (order : Order w t) : Prop :=
  let ran := runFiles t files (w.emptied t)
  (ran.2 = none ∧ AcceptsAll t order.cached ran.1) ∨
    (ran.2 ≠ none ∧ ∀ k, ran.1.fields t k = w.fields t k)

theorem restoreOne_isSome (k : Key) (v : Table) :
    (restoreOne t w k v).isSome ↔ Accepts t w k v := by
  unfold restoreOne Accepts
  rw [Option.isSome_map]
  generalize w.getmetatable (w.index t k) = mt
  cases mt with
  | none => exact iff_of_true rfl trivial
  | some mt =>
      cases mt with
      | boolean b =>
          cases b with
          | false => exact iff_of_true rfl trivial
          | true => exact iff_of_false (by rintro ⟨⟩) (fun h => h)
      | table m =>
          show (w.setmetatable v (.table m)).isSome ↔ w.metafield (.table v) "__metatable" = none
          unfold World.setmetatable
          rw [← Option.isNone_iff_eq_none]
          dsimp only
          split
          · rename_i hnone
            exact iff_of_true rfl hnone
          · rename_i hsome
            exact iff_of_false (by rintro ⟨⟩) hsome
      | string s => exact iff_of_false (by rintro ⟨⟩) (fun h => h)
      | other n => exact iff_of_false (by rintro ⟨⟩) (fun h => h)

theorem restore_ok_iff (entries : List (Key × Table)) :
    (restore t entries w).2 = true ↔ AcceptsAll t entries w := by
  induction entries generalizing w with
  | nil => exact iff_of_true rfl trivial
  | cons e entries ih =>
      obtain ⟨k, v⟩ := e
      unfold AcceptsAll
      rw [restore, ← restoreOne_isSome]
      cases hone : restoreOne t w k v with
      | none => exact iff_of_false (by rintro ⟨⟩) (by rintro ⟨⟨⟩, -⟩)
      | some w' =>
          dsimp only
          rw [ih]
          constructor
          · exact fun h => ⟨rfl, fun w'' heq => Option.some.inj heq ▸ h⟩
          · exact fun h => h.2 w' rfl

theorem atomic_reloadModule_iff (order : Order w t) :
    Atomic w t files (reloadModule w files t order) ↔ ReloadsCleanly w t files order := by
  unfold Atomic ReloadsCleanly reloadModule
  rw [park_world]
  obtain ⟨w₁, stop⟩ := runFiles t files (w.emptied t)
  dsimp only
  cases stop with
  | some stop =>
      -- the call ends here, and what the files have left is all there is
      cases stop with
      | cannotLoad =>
          dsimp only
          constructor
          · rintro (⟨w', ⟨⟩, -⟩ | hsame)
            exact Or.inr hsame
          · rintro (⟨⟨⟩, -⟩ | hsame)
            exact Or.inr hsame
      | raised =>
          dsimp only
          constructor
          · rintro (⟨w', ⟨⟩, -⟩ | hsame)
            exact Or.inr hsame
          · rintro (⟨⟨⟩, -⟩ | hsame)
            exact Or.inr hsame
  | none =>
      dsimp only
      rw [← restore_ok_iff]
      cases hrestore : restore t order.cached w₁ with
      | mk w₂ ok =>
          cases ok with
          | false =>
              constructor
              · rintro (⟨w', ⟨⟩, -⟩ | ⟨hne, -⟩)
                exact absurd rfl hne
              · rintro (⟨-, ⟨⟩⟩ | ⟨hne, -⟩)
                exact absurd rfl hne
          | true =>
              refine iff_of_true (Or.inl ⟨w₂, rfl, fun k => ?_⟩) (Or.inl ⟨rfl, rfl⟩)
              rw [restore_fields hrestore (w.fields t) (fun k v => (mem_cached order).mp)]
              split
              · rename_i hmem
                obtain ⟨⟨k', v⟩, he, rfl⟩ := List.mem_map.mp hmem
                rw [(mem_cached order).mp he]
              · rename_i hmem
                split
                · rename_i v hfield
                  exact absurd (List.mem_map.mpr ⟨(k, v), (mem_cached order).mpr hfield, rfl⟩) hmem
                · rfl

theorem load_reload {name : String} (h : w.modules name = some t)
    (order : ∀ t, w.modules name = some t → Order w t) :
    load w files name true order = reloadModule w files t (order t h) := by
  unfold load
  split
  · rename_i hnone
    rw [h] at hnone
    cases hnone
  · rename_i t' hsome
    obtain rfl : t = t' := Option.some.inj (h.symm.trans hsome)
    rfl

/-- A reload is atomic just in case all files run and no metatable is refused, or the
    files up to a failure define the old fields themselves. -/
theorem reload_atomic_iff {name : String} (h : w.modules name = some t)
    (order : ∀ t, w.modules name = some t → Order w t) :
    Atomic w t files (load w files name true order) ↔ ReloadsCleanly w t files (order t h) := by
  rw [load_reload h]
  exact atomic_reloadModule_iff (order t h)

/-- A module with a number and a table. -/
def hall : World where
  fields := fun t k =>
    if t = 1 then
      if k = .string "limit" then some (.other 5)
      else if k = .string "rooms" then some (.table 2)
      else none
    else none
  metatable := fun _ => none
  modules := fun name => if name = "hall" then some 1 else none
  global := 0
  next := 3

def hallOrder : ∀ t, hall.modules "hall" = some t → Order hall t
  | t, h =>
      have ht : t = 1 := (Option.some.inj h).symm
      { old := [(.string "limit", .other 5), (.string "rooms", .table 2)]
        nodup := by decide
        mem_old := fun k v => by
          rw [ht]
          show _ ↔ (if k = .string "limit" then some (.other 5)
            else if k = .string "rooms" then some (.table 2) else none) = some v
          constructor
          · intro hmem
            rcases List.mem_cons.mp hmem with heq | hmem
            · cases heq
              rfl
            · cases List.mem_singleton.mp hmem
              rfl
          · intro hfield
            split at hfield
            · rename_i hk
              cases hfield
              rw [hk]
              exact List.mem_cons_self
            · obtain ⟨hk, hfield⟩ := Option.ite_none_right_eq_some.mp hfield
              cases hfield
              rw [hk]
              exact List.mem_cons_of_mem _ List.mem_cons_self
        cached := [(.string "rooms", 2)]
        perm := by
          rw [ht]
          exact List.Perm.refl _ }

/-- A file that defines both again. -/
def hallFile : File := fun env w =>
  .returned ((w.setField env (.string "limit") (some (.other 6))).setField env (.string "rooms")
    (some (.table 3)))

theorem reload_atomic_hall : Atomic hall 1 [hallFile] (load hall [hallFile] "hall" true hallOrder) :=
  (reload_atomic_iff rfl hallOrder).mpr (Or.inl ⟨rfl, trivial, fun _ _ => trivial⟩)

/-- After a syntax error the module is empty. -/
theorem reload_not_atomic :
    ¬ Atomic hall 1 [fun _ _ => .cannotLoad]
        (load hall [fun _ _ => .cannotLoad] "hall" true hallOrder) ∧
      ∀ k, (load hall [fun _ _ => .cannotLoad] "hall" true hallOrder).world.fields 1 k = none := by
  have hload : load hall [fun _ _ => .cannotLoad] "hall" true hallOrder =
      .returned none (hall.emptied 1) := by
    rw [load_reload rfl hallOrder]
    unfold reloadModule
    rw [park_world]
    rfl
  rw [hload]
  refine ⟨?_, fun k => rfl⟩
  rintro (⟨w', ⟨⟩, -⟩ | ⟨-, hsame⟩)
  have hlimit : none = some (Value.other 5) := hsame (.string "limit")
  cases hlimit

end Atomic

end Modules
end ZServer
