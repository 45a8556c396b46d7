/-
  ZServer.Lib.Mailbox

  A network of actors with mailboxes.  A message is put behind the others of its mailbox;
  an actor that is idle takes the first one, may be called with it, and is idle again when
  it has finished.

    * `Network.step` — an event, if it can happen.
    * `delivered`, `fetched`, `called` — what the events of a run say of one actor.
    * `Network.run_exact` — every message is taken once, in the order of delivery, or is
      still in its mailbox; and an actor is called only with what it has taken.
-/

import Mathlib.Data.List.Induction
import Mathlib.Logic.Function.Basic
import ZServer.Lib.Transition

namespace ZServer.Lib

/-- What an actor is doing, and with which message. -/
inductive Stage (M : Type*) where
  | idle
  | taken (m : M)
  | called (m : M)
  deriving DecidableEq, Repr

structure Network (A M : Type*) where
  mailbox : A → List M
  stage : A → Stage M

inductive NetEvent (A M : Type*) where
  | deliver (a : A) (m : M)
  | take (a : A) (m : M)
  | call (a : A) (m : M)
  | finish (a : A)
  deriving DecidableEq, Repr

/-- The actor that it happens to. -/
def NetEvent.actor {A M : Type*} : NetEvent A M → A
  | .deliver a _ | .take a _ | .call a _ | .finish a => a

namespace Network

variable {A M : Type*} [DecidableEq A] [DecidableEq M]

def empty : Network A M := ⟨fun _ => [], fun _ => .idle⟩

def step (net : Network A M) : NetEvent A M → Option (Network A M)
  | .deliver a m =>
      some { net with mailbox := Function.update net.mailbox a (net.mailbox a ++ [m]) }
  | .take a m =>
      if net.stage a = .idle ∧ (net.mailbox a).head? = some m then
        some ⟨Function.update net.mailbox a (net.mailbox a).tail,
          Function.update net.stage a (.taken m)⟩
      else none
  | .call a m =>
      if net.stage a = .taken m then
        some { net with stage := Function.update net.stage a (.called m) }
      else none
  | .finish a =>
      if net.stage a = .idle then none
      else some { net with stage := Function.update net.stage a .idle }

section Histories

/-- The messages that have been delivered to the actor. -/
def delivered (a : A) (es : List (NetEvent A M)) : List M :=
  es.filterMap fun
    | .deliver b m => if b = a then some m else none
    | _ => none

/-- The messages that it has taken. -/
def fetched (a : A) (es : List (NetEvent A M)) : List M :=
  es.filterMap fun
    | .take b m => if b = a then some m else none
    | _ => none

/-- The messages that it has been called with. -/
def called (a : A) (es : List (NetEvent A M)) : List M :=
  es.filterMap fun
    | .call b m => if b = a then some m else none
    | _ => none

end Histories

/-- The calls of one actor, as far as its stage tells: the last message that was taken may
    still be waiting for its call. -/
def Pending (net : Network A M) (a : A) (es : List (NetEvent A M)) : Prop :=
  match net.stage a with
  | .taken m => ∃ before, fetched a es = before ++ [m] ∧ (called a es).Sublist before
  | _ => (called a es).Sublist (fetched a es)

variable {net net' : Network A M} {e : NetEvent A M} {es : List (NetEvent A M)}

/-- What one more event does to the histories. -/
theorem step_exact (a : A) (hexact : delivered a es = fetched a es ++ net.mailbox a)
    (hs : net.step e = some net') :
    delivered a (es ++ [e]) = fetched a (es ++ [e]) ++ net'.mailbox a := by
  simp only [delivered, fetched, List.filterMap_append] at hexact ⊢
  cases e with
  | deliver b m =>
      simp only [step, Option.some.injEq] at hs
      subst hs
      by_cases hb : b = a
      · subst hb
        simp [hexact]
      · simp [hb, Ne.symm hb, hexact]
  | take b m =>
      simp only [step] at hs
      split at hs
      case isTrue h =>
        simp only [Option.some.injEq] at hs
        subst hs
        obtain ⟨-, hhead⟩ := h
        by_cases hb : b = a
        · subst hb
          obtain ⟨ms, hms⟩ := List.head?_eq_some_iff.mp hhead
          rw [hms] at hexact
          simp [hexact, hms]
        · simp [hb, Ne.symm hb, hexact]
      case isFalse => cases hs
  | call b m =>
      simp only [step] at hs
      split at hs
      · simp only [Option.some.injEq] at hs
        subst hs
        simpa using hexact
      · cases hs
  | finish b =>
      simp only [step] at hs
      split at hs
      · cases hs
      · simp only [Option.some.injEq] at hs
        subst hs
        simpa using hexact

/-- An event at another actor. -/
theorem step_other {a : A} (hb : e.actor ≠ a) (hs : net.step e = some net') :
    net'.stage a = net.stage a ∧ fetched a (es ++ [e]) = fetched a es ∧
      called a (es ++ [e]) = called a es := by
  simp only [fetched, called, List.filterMap_append]
  cases e
  all_goals
    simp only [step, Option.ite_none_left_eq_some, Option.ite_none_right_eq_some,
      Option.some.injEq] at hs
    simp only [NetEvent.actor] at hb
  case deliver b m =>
    obtain rfl := hs
    simp
  case take b m =>
    obtain ⟨-, rfl⟩ := hs
    simp [hb, Ne.symm hb]
  case call b m =>
    obtain ⟨-, rfl⟩ := hs
    simp [hb, Ne.symm hb]
  case finish b =>
    obtain ⟨-, rfl⟩ := hs
    simp [Ne.symm hb]

theorem step_pending (a : A) (hpending : net.Pending a es) (hs : net.step e = some net') :
    net'.Pending a (es ++ [e]) := by
  by_cases hb : e.actor = a
  · subst hb
    unfold Pending at hpending ⊢
    simp only [fetched, called, List.filterMap_append] at hpending ⊢
    cases e
    all_goals
      simp only [step, Option.ite_none_left_eq_some, Option.ite_none_right_eq_some,
        Option.some.injEq] at hs
    case deliver b m =>
      obtain rfl := hs
      simpa [NetEvent.actor] using hpending
    case take b m =>
      -- the actor was idle
      obtain ⟨⟨hidle, -⟩, rfl⟩ := hs
      simp only [NetEvent.actor, hidle] at hpending ⊢
      simpa using hpending
    case call b m =>
      -- it had taken this message last
      obtain ⟨htaken, rfl⟩ := hs
      simp only [NetEvent.actor, htaken] at hpending ⊢
      obtain ⟨before, hfetched, hcalled⟩ := hpending
      simpa [hfetched] using hcalled
    case finish b =>
      obtain ⟨-, rfl⟩ := hs
      simp only [NetEvent.actor] at hpending ⊢
      split at hpending
      case h_1 m _ =>
        obtain ⟨before, hfetched, hcalled⟩ := hpending
        have hsub := hcalled.trans (List.sublist_append_left before [m])
        rw [← hfetched] at hsub
        simpa using hsub
      case h_2 => simpa using hpending
  · obtain ⟨hstage, hfetched, hcalled⟩ : net'.stage a = net.stage a ∧
        fetched a (es ++ [e]) = fetched a es ∧ called a (es ++ [e]) = called a es :=
      step_other hb hs
    unfold Pending
    rw [hstage, hfetched, hcalled]
    exact hpending

/-- Every message is taken once, in the order of delivery, or is still in the mailbox; an
    actor is called only with messages it has taken, once and in this order. -/
theorem run_exact (hrun : runFrom step (empty : Network A M) es = some net) (a : A) :
    delivered a es = fetched a es ++ net.mailbox a ∧ (called a es).Sublist (fetched a es) := by
  have hboth : delivered a es = fetched a es ++ net.mailbox a ∧ net.Pending a es := by
    induction es using List.reverseRecOn generalizing net with
    | nil =>
        simp only [runFrom_nil, Option.some.injEq] at hrun
        subst hrun
        exact ⟨rfl, List.Sublist.refl _⟩
    | append_singleton es e ih =>
        rw [runFrom_append] at hrun
        obtain ⟨mid, hmid, hlast⟩ := Option.bind_eq_some_iff.mp hrun
        have hs : mid.step e = some net := by simpa using hlast
        obtain ⟨hexact, hpending⟩ := ih hmid
        exact ⟨step_exact a hexact hs, step_pending a hpending hs⟩
  obtain ⟨hexact, hpending⟩ := hboth
  refine ⟨hexact, ?_⟩
  unfold Pending at hpending
  split at hpending
  case h_1 m _ =>
    obtain ⟨before, hfetched, hcalled⟩ := hpending
    rw [hfetched]
    exact hcalled.trans (List.sublist_append_left before [m])
  case h_2 => exact hpending

end Network

end ZServer.Lib
