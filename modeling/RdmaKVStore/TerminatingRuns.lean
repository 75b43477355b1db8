import RdmaKVStore.TransitionRuns
import Mathlib.Algebra.BigOperators.Group.Finset.Basic
import Mathlib.Algebra.Order.BigOperators.Group.Finset

/-!
# Runs that come to an end

Some of the steps of a transition system settle a goal within a number of
steps if no run of them is longer, none of their runs gets stuck before the
goal, and the goal can be reached.  A cost that each of these steps lowers,
together with one step that is possible wherever the goal is not met, is
enough.
-/

namespace RdmaKVStore

namespace TransitionSystem

variable {State Label : Type*}

/-- Runs of the steps in `mine` end within `bound` steps, and they end at the
goal. -/
structure Settles (system : TransitionSystem State Label)
    (mine : State → Label → Prop) (goal : State → Prop) (bound : Nat)
    (state : State) : Prop where
  ends : ∀ labels last, system.RunGuarded mine state labels →
    system.run state labels = some last → labels.length ≤ bound
  unstuck : ∀ labels last, system.RunGuarded mine state labels →
    system.run state labels = some last →
    (∀ label, mine last label → system.step last label = none) → goal last
  reached : ∃ labels last, system.RunGuarded mine state labels ∧
    system.run state labels = some last ∧ goal last

theorem Settles.mono {system : TransitionSystem State Label}
    {mine : State → Label → Prop} {goal : State → Prop} {bound more : Nat}
    {state : State} (settles : system.Settles mine goal bound state)
    (le : bound ≤ more) : system.Settles mine goal more state :=
  { settles with
    ends := fun labels last guarded runTo =>
      (settles.ends labels last guarded runTo).trans le }

/-- The steps in `mine` lower a cost, and one of them is possible wherever the
goal is not met. -/
structure Progress (system : TransitionSystem State Label)
    (mine : State → Label → Prop) (inv goal : State → Prop)
    (cost : State → Nat) : Prop where
  preserved : ∀ before label after, inv before → mine before label →
    system.step before label = some after → inv after
  lowers : ∀ before label after, inv before → mine before label →
    system.step before label = some after → cost after < cost before
  enabled : ∀ state, inv state → ¬ goal state →
    ∃ label, mine state label ∧ (system.step state label).isSome

namespace Progress

variable {system : TransitionSystem State Label}
variable {mine : State → Label → Prop} {inv goal : State → Prop}
variable {cost : State → Nat} {first last : State} {labels : List Label}

theorem length_add_cost_le (progress : system.Progress mine inv goal cost)
    (holds : inv first) (guarded : system.RunGuarded mine first labels)
    (runTo : system.run first labels = some last) :
    labels.length + cost last ≤ cost first := by
  induction labels generalizing first with
  | nil =>
      cases runTo
      exact (Nat.zero_add _).le
  | cons label labels ih =>
      obtain ⟨middle, stepTo, rest⟩ := Option.bind_eq_some_iff.mp runTo
      have lower := progress.lowers first label middle holds guarded.1 stepTo
      have onward := ih
        (progress.preserved first label middle holds guarded.1 stepTo)
        (guarded.2 middle stepTo) rest
      rw [List.length_cons]
      omega

theorem exists_run (progress : system.Progress mine inv goal cost)
    (holds : inv first) :
    ∃ labels last, system.RunGuarded mine first labels ∧
      system.run first labels = some last ∧ goal last := by
  induction spent : cost first using Nat.strong_induction_on
    generalizing first with
  | h amount ih =>
      by_cases met : goal first
      · exact ⟨[], first, trivial, rfl, met⟩
      · obtain ⟨label, own, possible⟩ := progress.enabled first holds met
        obtain ⟨middle, stepTo⟩ := Option.isSome_iff_exists.mp possible
        have lower := progress.lowers first label middle holds own stepTo
        obtain ⟨labels, last, guarded, runTo, met⟩ := ih (cost middle)
          (spent ▸ lower)
          (progress.preserved first label middle holds own stepTo) rfl
        refine ⟨label :: labels, last, ⟨own, fun after same => ?_⟩, ?_, met⟩
        · obtain rfl : middle = after := Option.some.inj (stepTo ▸ same)
          exact guarded
        · rw [run, stepTo, Option.bind_some, runTo]

theorem settles (progress : system.Progress mine inv goal cost)
    (holds : inv first) :
    system.Settles mine goal (cost first) first where
  ends _ _ guarded runTo :=
    (Nat.le_add_right _ _).trans
      (progress.length_add_cost_le holds guarded runTo)
  unstuck _ last guarded runTo stuck := by
    by_contra unmet
    obtain ⟨label, own, possible⟩ := progress.enabled last
      (invariant_of_run progress.preserved holds guarded runTo) unmet
    rw [stuck label own] at possible
    cases possible
  reached := progress.exists_run holds

end Progress

end TransitionSystem

section Sums

variable {Place Phase : Type*} [DecidableEq Place]
variable {cost : Phase → Nat} {phase : Place → Phase} {places : Finset Place}
variable {place : Place} {next : Phase}

theorem sum_update_add (member : place ∈ places) :
    ∑ other ∈ places, cost (Function.update phase place next other) +
        cost (phase place) =
      ∑ other ∈ places, cost (phase other) + cost next := by
  have rest : ∑ other ∈ places.erase place,
      cost (Function.update phase place next other) =
        ∑ other ∈ places.erase place, cost (phase other) :=
    Finset.sum_congr rfl fun other elsewhere => by
      rw [Function.update_of_ne (Finset.ne_of_mem_erase elsewhere)]
  rw [← Finset.add_sum_erase places _ member,
    ← Finset.add_sum_erase places (fun other => cost (phase other)) member,
    rest, Function.update_self]
  omega

theorem sum_update_lt (member : place ∈ places)
    (lower : cost next < cost (phase place)) :
    ∑ other ∈ places, cost (Function.update phase place next other) <
      ∑ other ∈ places, cost (phase other) := by
  have change :
      ∑ other ∈ places, cost (Function.update phase place next other) +
        cost (phase place) =
      ∑ other ∈ places, cost (phase other) + cost next :=
    sum_update_add member
  omega

end Sums

end RdmaKVStore
