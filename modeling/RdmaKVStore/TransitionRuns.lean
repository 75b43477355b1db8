import Mathlib.Data.Option.Basic

/-!
# Runs of labelled transition systems

A transition system is a set of initial states and an executable partial step
function on labels.  Besides plain reachability this file treats guarded
reachability: the states met by runs all of whose steps satisfy a condition on
the state before the step.  Safety properties are proved by exhibiting an
invariant, once for all steps.
-/

namespace RdmaKVStore

/-- A labelled transition system with an executable step function. -/
structure TransitionSystem (State Label : Type*) where
  initial : State → Prop
  step : State → Label → Option State

namespace TransitionSystem

variable {State Label : Type*} (system : TransitionSystem State Label)

/-- States reached by runs each of whose steps satisfies `guard` in the state
it starts from. -/
inductive GuardedReach (guard : State → Label → Prop) : State → Prop
  | start {state : State} :
      system.initial state → GuardedReach guard state
  | next {before after : State} {label : Label} :
      GuardedReach guard before → guard before label →
        system.step before label = some after → GuardedReach guard after

def Reachable (state : State) : Prop :=
  system.GuardedReach (fun _ _ => True) state

variable {system}

theorem GuardedReach.mono {guard weaker : State → Label → Prop}
    (weakens : ∀ state label, guard state label → weaker state label)
    {state : State} (reached : system.GuardedReach guard state) :
    system.GuardedReach weaker state := by
  induction reached with
  | start initial => exact .start initial
  | next _ guarded stepTo ih => exact .next ih (weakens _ _ guarded) stepTo

theorem GuardedReach.reachable {guard : State → Label → Prop}
    {state : State} (reached : system.GuardedReach guard state) :
    system.Reachable state :=
  reached.mono fun _ _ _ => trivial

theorem GuardedReach.invariant {guard : State → Label → Prop}
    {inv : State → Prop}
    (holdsInitially : ∀ state, system.initial state → inv state)
    (preserved : ∀ before label after, inv before → guard before label →
      system.step before label = some after → inv after)
    {state : State} (reached : system.GuardedReach guard state) :
    inv state := by
  induction reached with
  | start initial => exact holdsInitially _ initial
  | next _ guarded stepTo ih => exact preserved _ _ _ ih guarded stepTo

/-- An invariant of all runs may be assumed while a further invariant of the
guarded runs is established. -/
theorem GuardedReach.invariant_with {guard : State → Label → Prop}
    {base inv : State → Prop}
    (baseHolds : ∀ state, system.Reachable state → base state)
    (holdsInitially : ∀ state, system.initial state → inv state)
    (preserved : ∀ before label after, base before → inv before →
      guard before label → system.step before label = some after → inv after)
    {state : State} (reached : system.GuardedReach guard state) :
    inv state := by
  induction reached with
  | start initial => exact holdsInitially _ initial
  | next earlier guarded stepTo ih =>
      exact preserved _ _ _ (baseHolds _ earlier.reachable) ih guarded stepTo

theorem GuardedReach.of_invariant {guard other : State → Label → Prop}
    {inv : State → Prop}
    (holds : ∀ state, system.GuardedReach guard state → inv state)
    (implies : ∀ state label, inv state → guard state label →
      other state label)
    {state : State} (reached : system.GuardedReach guard state) :
    system.GuardedReach other state := by
  induction reached with
  | start initial => exact .start initial
  | next earlier guarded stepTo ih =>
      exact .next ih (implies _ _ (holds _ earlier) guarded) stepTo

theorem Reachable.invariant {inv : State → Prop}
    (holdsInitially : ∀ state, system.initial state → inv state)
    (preserved : ∀ before label after, inv before →
      system.step before label = some after → inv after)
    {state : State} (reached : system.Reachable state) : inv state :=
  GuardedReach.invariant holdsInitially
    (fun before label after holds _ stepTo =>
      preserved before label after holds stepTo) reached

variable (system)

/-- Execute a list of labels. -/
def run : State → List Label → Option State
  | state, [] => some state
  | state, label :: labels =>
      (system.step state label).bind fun after => run after labels

/-- The guard holds at every step of the execution of a list of labels. -/
def RunGuarded (guard : State → Label → Prop) : State → List Label → Prop
  | _, [] => True
  | state, label :: labels =>
      guard state label ∧
        ∀ after ∈ system.step state label, RunGuarded guard after labels

instance RunGuarded.decide (guard : State → Label → Prop)
    [∀ state label, Decidable (guard state label)] :
    ∀ (state : State) (labels : List Label),
      Decidable (system.RunGuarded guard state labels)
  | _, [] => isTrue trivial
  | state, label :: labels =>
      have := fun after : State => RunGuarded.decide guard after labels
      inferInstanceAs (Decidable (guard state label ∧
        ∀ after ∈ system.step state label,
          system.RunGuarded guard after labels))

variable {system}

theorem guardedReach_of_run {guard : State → Label → Prop}
    {first last : State} {labels : List Label}
    (reached : system.GuardedReach guard first)
    (guarded : system.RunGuarded guard first labels)
    (runTo : system.run first labels = some last) :
    system.GuardedReach guard last := by
  induction labels generalizing first with
  | nil =>
      simp only [run, Option.some.injEq] at runTo
      exact runTo ▸ reached
  | cons label labels ih =>
      obtain ⟨middle, stepTo, rest⟩ := Option.bind_eq_some_iff.mp runTo
      exact ih (.next reached guarded.1 stepTo) (guarded.2 middle stepTo) rest

theorem invariant_of_run {guard : State → Label → Prop} {inv : State → Prop}
    (preserved : ∀ before label after, inv before → guard before label →
      system.step before label = some after → inv after)
    {first last : State} {labels : List Label} (holds : inv first)
    (guarded : system.RunGuarded guard first labels)
    (runTo : system.run first labels = some last) : inv last := by
  induction labels generalizing first with
  | nil =>
      cases runTo
      exact holds
  | cons label labels ih =>
      obtain ⟨middle, stepTo, rest⟩ := Option.bind_eq_some_iff.mp runTo
      exact ih (preserved first label middle holds guarded.1 stepTo)
        (guarded.2 middle stepTo) rest

theorem RunGuarded.mono {guard weaker : State → Label → Prop}
    (weakens : ∀ state label, guard state label → weaker state label)
    {state : State} {labels : List Label}
    (guarded : system.RunGuarded guard state labels) :
    system.RunGuarded weaker state labels := by
  induction labels generalizing state with
  | nil => trivial
  | cons label labels ih =>
      exact ⟨weakens state label guarded.1, fun after stepTo =>
        ih (guarded.2 after stepTo)⟩

theorem RunGuarded.of_invariant {guard other : State → Label → Prop}
    {inv : State → Prop}
    (implies : ∀ state label, inv state → guard state label →
      other state label)
    (preserved : ∀ before label after, inv before → guard before label →
      system.step before label = some after → inv after)
    {state : State} {labels : List Label} (holds : inv state)
    (guarded : system.RunGuarded guard state labels) :
    system.RunGuarded other state labels := by
  induction labels generalizing state with
  | nil => trivial
  | cons label labels ih =>
      exact ⟨implies state label holds guarded.1, fun after stepTo =>
        ih (preserved state label after holds guarded.1 stepTo)
          (guarded.2 after stepTo)⟩

section Log

variable {Event : Type*} {log : State → List Event}
variable {events : State → Label → List Event}
variable (grows : ∀ before label after,
  system.step before label = some after →
    log after = log before ++ events before label)
include grows

theorem log_subset_of_run {first last : State} {labels : List Label}
    (runTo : system.run first labels = some last) : log first ⊆ log last := by
  induction labels generalizing first with
  | nil =>
      simp only [run, Option.some.injEq] at runTo
      exact runTo ▸ List.Subset.refl _
  | cons label labels ih =>
      obtain ⟨middle, stepTo, rest⟩ := Option.bind_eq_some_iff.mp runTo
      intro event member
      apply ih rest
      rw [grows first label middle stepTo]
      exact List.mem_append_left _ member

/-- When every step adds events to a log that are good exactly if the step
meets the guard, the log of a run is good exactly if the run is guarded. -/
theorem log_good_iff_runGuarded {good : Event → Prop}
    {guard : State → Label → Prop} {inv : State → Prop}
    (exactly : ∀ before label, inv before →
      ((∀ event ∈ events before label, good event) ↔ guard before label))
    (preserved : ∀ before label after, inv before → guard before label →
      system.step before label = some after → inv after)
    {first last : State} {labels : List Label} (holds : inv first)
    (runTo : system.run first labels = some last) :
    (∀ event ∈ log last, good event) ↔
      (∀ event ∈ log first, good event) ∧
        system.RunGuarded guard first labels := by
  induction labels generalizing first with
  | nil =>
      simp only [run, Option.some.injEq] at runTo
      subst runTo
      exact (and_iff_left trivial).symm
  | cons label labels ih =>
      obtain ⟨middle, stepTo, rest⟩ := Option.bind_eq_some_iff.mp runTo
      have stepGood := exactly first label holds
      have middleGood : (∀ event ∈ log middle, good event) ↔
          (∀ event ∈ log first, good event) ∧ guard first label := by
        rw [grows first label middle stepTo, ← stepGood]
        exact List.forall_mem_append
      have onward : system.RunGuarded guard first (label :: labels) ↔
          guard first label ∧ system.RunGuarded guard middle labels := by
        simp only [RunGuarded, stepTo, Option.mem_def, Option.some.injEq,
          forall_eq']
      rw [onward, ← and_assoc, ← middleGood]
      constructor
      · intro lastGood
        have earlier : ∀ event ∈ log middle, good event :=
          fun event member => lastGood event
            (log_subset_of_run grows rest member)
        have guarded := (middleGood.mp earlier).2
        exact (ih (preserved first label middle holds guarded stepTo)
          rest).mp lastGood
      · rintro ⟨earlier, later⟩
        have guarded := (middleGood.mp earlier).2
        exact (ih (preserved first label middle holds guarded stepTo)
          rest).mpr ⟨earlier, later⟩

end Log

theorem runGuarded_of_forall {guard : State → Label → Prop}
    {labels : List Label} (holds : ∀ label ∈ labels, ∀ state,
      guard state label) (state : State) :
    system.RunGuarded guard state labels := by
  induction labels generalizing state with
  | nil => trivial
  | cons label labels ih =>
      exact ⟨holds label List.mem_cons_self state, fun after _ =>
        ih (fun other member => holds other (List.mem_cons_of_mem _ member))
          after⟩

theorem runGuarded_true (state : State) (labels : List Label) :
    system.RunGuarded (fun _ _ => True) state labels := by
  induction labels generalizing state with
  | nil => trivial
  | cons label labels ih => exact ⟨trivial, fun after _ => ih after⟩

theorem reachable_of_run {first last : State} {labels : List Label}
    (reached : system.Reachable first)
    (runTo : system.run first labels = some last) :
    system.Reachable last :=
  guardedReach_of_run reached (runGuarded_true first labels) runTo

/-! ### What a run leads to -/

variable (system) in
/-- Some run leads from one state to the other. -/
def Leads (first last : State) : Prop :=
  ∃ labels, system.run first labels = some last

theorem Leads.refl (state : State) : system.Leads state state :=
  ⟨[], rfl⟩

theorem Leads.step {before after : State} (label : Label)
    (stepTo : system.step before label = some after) :
    system.Leads before after :=
  ⟨[label], by rw [run, stepTo, Option.bind_some, run]⟩

theorem run_append (first : State) (labels later : List Label) :
    system.run first (labels ++ later) =
      (system.run first labels).bind fun middle => system.run middle later := by
  induction labels generalizing first with
  | nil => rfl
  | cons label labels ih =>
      simp only [List.cons_append, run, Option.bind_assoc, ih]

theorem Leads.trans {first middle last : State}
    (leads : system.Leads first middle) (onward : system.Leads middle last) :
    system.Leads first last := by
  obtain ⟨labels, runTo⟩ := leads
  obtain ⟨later, rest⟩ := onward
  exact ⟨labels ++ later, by rw [run_append, runTo, Option.bind_some, rest]⟩

theorem Leads.reachable {first last : State} (leads : system.Leads first last)
    (reached : system.Reachable first) : system.Reachable last := by
  obtain ⟨labels, runTo⟩ := leads
  exact reachable_of_run reached runTo

end TransitionSystem

end RdmaKVStore
