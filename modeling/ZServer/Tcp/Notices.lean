/-
  ZServer.Tcp.Notices

  What the notices about ended connections say, and whom a slot is handed out to,
  over whole runs: all is well in a run in which no reservation comes in between
  (`Undisturbed`).
-/

import ZServer.Tcp.Ending

namespace ZServer.Tcp

open Lib

-- ============================================================================
-- Runs
-- ============================================================================

variable {ι : Type*} [DecidableEq ι]

/-- Every notice about the end of a connection is right, and no slot is handed out
    to two ids. -/
def Right (c : Config ι Table Pc) : Prop :=
  (∀ t ∈ c.shared.told, t.Right) ∧ ∀ j, (c.shared.holders j).length ≤ 1

def Pc.announces (j : Nat) : Pc → Bool
  | .worker _ => false
  | .loop pc => pc.announces j

/-- No reservation comes in between: a worker stores no id in a slot that is about
    to be told of, a slot is freed while it has the id it is freed by and has not
    been taken for another, and a connection is not put in a slot that has. -/
def Undisturbed (c : Config ι Table Pc) (a : ι × Choice) : Prop :=
  match c.pcs a.1, a.2 with
  | .worker (.storeId _ j _), _ => ∀ t, (c.pcs t).announces j = false
  | .loop (.release _ id), _ =>
      (c.shared.slot (getIndex c.shared.world id)).id = id ∧
        c.shared.taken (getIndex c.shared.world id) = none
  | .loop .idle, .handle _ => c.shared.Vacant
  | _, _ => True

theorem Pc.Apart.symm {p q : Pc} (h : p.Apart q) : q.Apart p := by
  cases p with
  | loop p =>
      cases q with
      | loop q => exact h
      | worker q => cases q <;> trivial
  | worker p =>
      cases q with
      | loop q => cases p <;> trivial
      | worker q =>
          cases p <;> cases q <;> first
            | trivial
            | exact fun heq => h heq.symm

theorem tableInit_sat (main : ι) (setsize : Nat) (aeSetsize : Int) :
    (tableInit main setsize aeSetsize).Sat Table.Ok Table.At Pc.Apart where
  shared := {
    entries := fun j => ⟨le_refl 0, fun hused => absurd rfl hused.1, fun hne => absurd rfl hne,
      by rintro _ ⟨⟩, fun _ => rfl, fun _ => Or.inl rfl⟩
    told := by rintro _ ⟨⟩ }
  loc := fun t => by
    show Table.At _ (if t = main then .loop .idle else .worker .idle)
    split
    · exact fun j hused => absurd rfl hused.1
    · trivial
  pair := fun t u htu => by
    show Pc.Apart (if t = main then .loop .idle else .worker .idle)
      (if u = main then .loop .idle else .worker .idle)
    by_cases ht : t = main
    · rw [if_pos ht, if_neg fun hu => htu (ht.trans hu.symm)]
      trivial
    · rw [if_neg ht]
      split <;> trivial

/-- One step that nothing comes in between. -/
theorem Undisturbed.sat {c c' : Config ι Table Pc} {a : ι × Choice}
    (hsat : c.Sat Table.Ok Table.At Pc.Apart) (hok : Undisturbed c a)
    (h : fire tableStep c a = some c') : c'.Sat Table.Ok Table.At Pc.Apart := by
  have hat := hsat.loc a.1
  unfold Undisturbed at hok
  cases hpc : c.pcs a.1 with
  | worker pc =>
      rw [hpc] at hat hok
      have hmove : ∀ s' p', tableStep c.shared (c.pcs a.1) a.2 = some (s', p') →
          ∃ q, p' = .worker q ∧ WorkerMove c.shared pc s' q := fun s' p' hs => by
        rw [hpc] at hs
        obtain ⟨r, hr, heq⟩ := Option.map_eq_some_iff.mp hs
        cases heq
        exact ⟨r.2, rfl, workerStep_moves hr⟩
      refine hsat.fire_at (fun _ _ hpq => hpq.symm) (fun s' p' hs => ?_) (fun s' p' j hj hs => ?_) h
      · obtain ⟨q, rfl, hm⟩ := hmove s' p' hs
        exact ⟨hm.ok hsat.shared hat, hm.at hat⟩
      · obtain ⟨q, rfl, hm⟩ := hmove s' p' hs
        have hj' := hsat.loc j
        have hpair := hsat.pair a.1 j (Ne.symm hj)
        rw [hpc] at hpair
        cases hother : c.pcs j with
        | worker pc' =>
            rw [hother] at hj' hpair
            exact hm.worker hsat.shared hj' hpair
        | loop pc' =>
            rw [hother] at hj'
            refine ⟨hm.loop hsat.shared hat hj' fun r i id heq => ?_, by cases q <;> trivial⟩
            subst heq
            have hquiet := hok j
            rw [hother] at hquiet
            exact hquiet
  | loop pc =>
      rw [hpc] at hat hok
      have hadvance : ∀ s' p', tableStep c.shared (c.pcs a.1) a.2 = some (s', p') →
          ∃ q, p' = .loop q ∧ c.shared.Advances s' q := fun s' p' hs => by
        rw [hpc] at hs
        obtain ⟨r, hr, heq⟩ := Option.map_eq_some_iff.mp hs
        cases heq
        refine ⟨r.2, rfl, loopStep_advances hsat.shared hat ?_ ?_ hr⟩
        · rintro rfl ⟨k, hk⟩
          rw [hk] at hok
          exact hok
        · rintro e id rfl
          exact hok
      refine hsat.fire_at (fun _ _ hpq => hpq.symm) (fun s' p' hs => ?_) (fun s' p' j hj hs => ?_) h
      · obtain ⟨q, rfl, ha⟩ := hadvance s' p' hs
        exact ⟨ha.ok, ha.reaches⟩
      · obtain ⟨q, rfl, ha⟩ := hadvance s' p' hs
        have hj' := hsat.loc j
        have hpair := hsat.pair a.1 j (Ne.symm hj)
        rw [hpc] at hpair
        cases hother : c.pcs j with
        | loop pc' =>
            rw [hother] at hpair
            exact hpair.elim
        | worker pc' =>
            rw [hother] at hj'
            refine ⟨?_, by cases pc' <;> trivial⟩
            cases pc' with
            | storeId r i id =>
                obtain ⟨hnat, hindex, htaken⟩ := hj'
                exact ⟨hnat, by rw [ha.index]; exact hindex, by rw [ha.taken]; exact htaken⟩
            | _ => exact hj'

/-- In a run in which no reservation comes in between, the notices are right and
    every slot is handed out to one id at a time. -/
theorem notices_right (main : ι) (setsize : Nat) (aeSetsize : Int) (as : List (ι × Choice))
    (hok : AllSteps (fire tableStep) Undisturbed (tableInit main setsize aeSetsize) as) :
    Always (fire tableStep) Right (tableInit main setsize aeSetsize) as :=
  always_of_allSteps
    (J := fun c => c.Sat Table.Ok Table.At Pc.Apart)
    (fun _ hsat => ⟨hsat.shared.told, fun j => (hsat.shared.entries j).holders_length⟩)
    (fun _ _ _ hsat hs hok => hok.sat hsat hs)
    (tableInit_sat main setsize aeSetsize) hok

-- ============================================================================
-- Runs on a table of one slot
-- ============================================================================

instance : DecidablePred Told.Right := fun _ => inferInstanceAs (Decidable (_ ∧ _))

instance Table.Vacant.decidable (s : Table) : Decidable s.Vacant := by
  unfold Table.Vacant
  infer_instance

instance Undisturbed.decidable [Fintype ι] (c : Config ι Table Pc) (a : ι × Choice) :
    Decidable (Undisturbed c a) := by
  unfold Undisturbed
  split <;> infer_instance

/-- Thread `t` takes `n` steps. -/
def go (n : Nat) (t : Fin 3) : List (Fin 3 × Choice) := List.replicate n (t, .go)

def reserves (t : Fin 3) : Fin 3 × Choice := (t, .reserve ⟨.connect, 7, 0, "127.0.0.1", 80⟩)

/-- Worker 1 connects and starts the connection 1. -/
def connectedRun : List (Fin 3 × Choice) :=
  reserves 1 :: go 6 1 ++ [(0, .handle { fd := 5 }), (1, .post (.start 7 1)), (1, .go),
    (0, .handle {})]

/-- The stream ends, and the owner is told before the slot is reserved again. -/
def calmRun : List (Fin 3 × Choice) :=
  connectedRun ++ (0, .onRead 0 none) :: go 8 0 ++ reserves 1 :: go 4 1

/-- The slot is reserved again before the owner is told. -/
def racedRun : List (Fin 3 × Choice) :=
  connectedRun ++ (0, .onRead 0 none) :: go 7 0 ++ reserves 1 :: go 4 1 ++ go 1 0

/-- The connection is closed twice.  The second request frees the slot that worker 1
    has taken and not yet given its id. -/
def closedTwiceRun : List (Fin 3 × Choice) :=
  connectedRun ++ [(1, .post (.close 7 1)), (1, .go), (1, .post (.close 7 1)), (1, .go)] ++
    (0, .handle {}) :: go 9 0 ++ reserves 1 :: go 3 1 ++ (0, .handle {}) :: go 3 0 ++
    reserves 2 :: go 3 2

theorem notices_right_calm :
    Always (fire tableStep) Right (tableInit (0 : Fin 3) 1 16) calmRun :=
  notices_right 0 1 16 calmRun (by decide +kernel)

theorem closedTwiceRun_runs :
    (runFrom (fire tableStep) (tableInit (0 : Fin 3) 1 16) closedTwiceRun).isSome := by
  decide +kernel

/-- A notice names the next connection; and a slot is handed out to two ids. -/
theorem notices_go_wrong :
    (¬ ∀ as, Always (fire tableStep) (fun c => ∀ t ∈ c.shared.told, t.Right)
      (tableInit (0 : Fin 3) 1 16) as) ∧
    ¬ ∀ as, Always (fire tableStep) (fun c => ∀ j, (c.shared.holders j).length ≤ 1)
      (tableInit (0 : Fin 3) 1 16) as := by
  constructor
  · intro h
    have hraced : ¬ Always (fire tableStep) (fun c => ∀ t ∈ c.shared.told, t.Right)
        (tableInit (0 : Fin 3) 1 16) racedRun := by decide +kernel
    exact hraced (h racedRun)
  · intro h
    have hlength : 1 < (((runFrom (fire tableStep) (tableInit (0 : Fin 3) 1 16)
        closedTwiceRun).get closedTwiceRun_runs).shared.holders 0).length := by decide +kernel
    have hle := (h closedTwiceRun).last (Option.some_get closedTwiceRun_runs).symm 0
    exact absurd hle (not_le.mpr hlength)

end ZServer.Tcp
