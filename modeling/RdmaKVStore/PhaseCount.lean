import Mathlib.Data.Finset.Card
import Mathlib.Logic.Function.Basic

/-!
# Counting actors by phase

How many of any number of actors are in phases with a given property, and how
the count changes when one of them moves.
-/

namespace RdmaKVStore

variable {Actor Phase : Type*} {inside : Phase → Prop}
variable {phase : Actor → Phase} {actor : Actor} {next : Phase} {count : Nat}

/-- Exactly `count` actors are in phases with the property. -/
def PhaseCount (inside : Phase → Prop) (phase : Actor → Phase)
    (count : Nat) : Prop :=
  ∃ actors : Finset Actor,
    (∀ actor, actor ∈ actors ↔ inside (phase actor)) ∧ actors.card = count

namespace PhaseCount

theorem zero (none : ∀ actor, ¬ inside (phase actor)) :
    PhaseCount inside phase 0 :=
  ⟨∅, fun actor => by simp [none actor], rfl⟩

theorem pos (counted : PhaseCount inside phase count)
    (here : inside (phase actor)) : 0 < count := by
  obtain ⟨actors, exactly, rfl⟩ := counted
  exact Finset.card_pos.mpr ⟨actor, (exactly actor).mpr here⟩

theorem eq_zero (counted : PhaseCount inside phase count)
    (none : ∀ actor, ¬ inside (phase actor)) : count = 0 := by
  obtain ⟨actors, exactly, rfl⟩ := counted
  exact Finset.card_eq_zero.mpr (Finset.eq_empty_of_forall_notMem
    fun actor member => none actor ((exactly actor).mp member))

variable [DecidableEq Actor]

/-- A set of actors is right after a move if it is right for the moving one and
agrees with the old set on all others. -/
theorem of_agree {actors others : Finset Actor}
    (exactly : ∀ actor, actor ∈ actors ↔ inside (phase actor))
    (agree : ∀ other, other ≠ actor → (other ∈ others ↔ other ∈ actors))
    (self : actor ∈ others ↔ inside next) :
    PhaseCount inside (Function.update phase actor next) others.card := by
  refine ⟨others, fun other => ?_, rfl⟩
  by_cases same : other = actor
  · subst same
    rwa [Function.update_self]
  · rw [Function.update_of_ne same, agree other same]
    exact exactly other

theorem stay (counted : PhaseCount inside phase count)
    (same : inside next ↔ inside (phase actor)) :
    PhaseCount inside (Function.update phase actor next) count := by
  obtain ⟨actors, exactly, rfl⟩ := counted
  exact of_agree exactly (fun _ _ => Iff.rfl) ((exactly actor).trans same.symm)

theorem enter (counted : PhaseCount inside phase count) (now : inside next)
    (before : ¬ inside (phase actor)) :
    PhaseCount inside (Function.update phase actor next) (count + 1) := by
  obtain ⟨actors, exactly, rfl⟩ := counted
  have absent : actor ∉ actors := fun member =>
    before ((exactly actor).mp member)
  rw [← Finset.card_insert_of_notMem absent]
  refine of_agree exactly (fun other distinct => ?_) ?_
  · simp [distinct]
  · simp [now]

theorem leave (counted : PhaseCount inside phase (count + 1))
    (now : ¬ inside next) (before : inside (phase actor)) :
    PhaseCount inside (Function.update phase actor next) count := by
  obtain ⟨actors, exactly, card⟩ := counted
  have present : actor ∈ actors := (exactly actor).mpr before
  have less : (actors.erase actor).card = count := by
    rw [Finset.card_erase_of_mem present, card, Nat.add_sub_cancel]
  rw [← less]
  refine of_agree exactly (fun other distinct => ?_) ?_
  · simp [distinct]
  · simp [now]

end PhaseCount

end RdmaKVStore
