import Mathlib.Data.List.Basic

/-!
# Noninterference of inputs

A machine answers its inputs one after another.  If some of them neither learn
from the others nor are told apart by them, their answers are the ones they
would get if the others were not there, in whatever order the inputs come.
-/

namespace RdmaKVStore

/-- A machine that answers every input. -/
structure Machine (State Input Output : Type*) where
  next : State → Input → State
  output : State → Input → Output

namespace Machine

variable {State Input Output : Type*}

section Runs

variable (machine : Machine State Input Output)

def final (state : State) (inputs : List Input) : State :=
  inputs.foldl machine.next state

def answered : State → List Input → List (Input × Output)
  | _, [] => []
  | state, input :: inputs =>
      (input, machine.output state input) ::
        answered (machine.next state input) inputs

theorem final_invariant {inv : State → Prop} {state : State}
    {inputs : List Input}
    (preserved : ∀ input ∈ inputs, ∀ before, inv before →
      inv (machine.next before input))
    (holds : inv state) : inv (machine.final state inputs) := by
  induction inputs generalizing state with
  | nil => exact holds
  | cons input inputs ih =>
      exact ih (fun later member => preserved later (.tail input member))
        (preserved input List.mem_cons_self state holds)

theorem answered_getElem? (state : State) (inputs : List Input)
    (index : Nat) :
    (machine.answered state inputs)[index]? =
      inputs[index]?.map fun input =>
        (input, machine.output (machine.final state (inputs.take index))
          input) := by
  induction inputs generalizing state index with
  | nil => simp [answered]
  | cons input inputs ih =>
      cases index with
      | zero => rfl
      | succ index => exact ih _ index

theorem length_answered (state : State) (inputs : List Input) :
    (machine.answered state inputs).length = inputs.length := by
  induction inputs generalizing state with
  | nil => rfl
  | cons input inputs ih =>
      rw [answered, List.length_cons, ih, List.length_cons]

theorem filter_zip_answered {Tag : Type*} (input : Tag → Input)
    (selected : Input → Bool) (state : State) (tags : List Tag) :
    (tags.zip ((machine.answered state (tags.map input)).map Prod.snd)).filter
        (fun turn => selected (input turn.1)) =
      (tags.filter fun tag => selected (input tag)).zip
        (((machine.answered state (tags.map input)).filter
          fun turn => selected turn.1).map Prod.snd) := by
  induction tags generalizing state with
  | nil => rfl
  | cons tag tags ih =>
      simp only [List.map_cons, answered, List.zip_cons_cons, List.filter_cons]
      by_cases isSelected : selected (input tag)
      · rw [if_pos isSelected, if_pos isSelected, if_pos isSelected,
          List.map_cons, List.zip_cons_cons, ih]
      · rw [if_neg isSelected, if_neg isSelected, if_neg isSelected, ih]

end Runs

/-- A relation between the states of two runs, of which the second omits the
inputs that are not `mine`: it is kept by inputs that are mine, which are
answered alike, and by the others, which only the first run makes. -/
structure Unwinding (machine : Machine State Input Output)
    (inputs : List Input) (mine : Input → Bool)
    (alike : State → State → Prop) : Prop where
  output : ∀ input ∈ inputs, mine input → ∀ state alone, alike state alone →
    machine.output state input = machine.output alone input
  own : ∀ input ∈ inputs, mine input → ∀ state alone, alike state alone →
    alike (machine.next state input) (machine.next alone input)
  others : ∀ input ∈ inputs, ¬ mine input → ∀ state alone,
    alike state alone → alike (machine.next state input) alone

variable {machine : Machine State Input Output} {inputs : List Input}
variable {mine : Input → Bool} {alike : State → State → Prop}
variable {state alone : State}

theorem Unwinding.tail {input : Input}
    (unwinding : machine.Unwinding (input :: inputs) mine alike) :
    machine.Unwinding inputs mine alike where
  output other member := unwinding.output other (List.mem_cons_of_mem _ member)
  own other member := unwinding.own other (List.mem_cons_of_mem _ member)
  others other member := unwinding.others other (List.mem_cons_of_mem _ member)

/-- The answers to inputs that are mine are those of the run without the
others. -/
theorem Unwinding.answered_filter
    (unwinding : machine.Unwinding inputs mine alike)
    (start : alike state alone) :
    (machine.answered state inputs).filter (fun turn => mine turn.1) =
      machine.answered alone (inputs.filter mine) := by
  induction inputs generalizing state alone with
  | nil => rfl
  | cons input inputs ih =>
      have here : input ∈ input :: inputs := List.mem_cons_self
      by_cases own : mine input
      · simp only [answered, List.filter_cons, own, if_true]
        rw [ih unwinding.tail (unwinding.own input here own _ _ start),
          unwinding.output input here own _ _ start]
      · simp only [answered, List.filter_cons, own, Bool.false_eq_true,
          if_false]
        exact ih unwinding.tail (unwinding.others input here own _ _ start)

theorem Unwinding.zip_filter {Tag : Type*} {tags : List Tag}
    {input : Tag → Input}
    (unwinding : machine.Unwinding (tags.map input) mine alike)
    (start : alike state alone) :
    (tags.zip ((machine.answered state (tags.map input)).map Prod.snd)).filter
        (fun turn => mine (input turn.1)) =
      (tags.filter fun tag => mine (input tag)).zip
        ((machine.answered alone
          ((tags.filter fun tag => mine (input tag)).map input)).map
            Prod.snd) := by
  have selected : (tags.map input).filter mine =
      (tags.filter fun tag => mine (input tag)).map input := by
    rw [List.filter_map]
    rfl
  rw [machine.filter_zip_answered, unwinding.answered_filter start, selected]

/-- The two runs end in states that are alike. -/
theorem Unwinding.final
    (unwinding : machine.Unwinding inputs mine alike)
    (start : alike state alone) :
    alike (machine.final state inputs)
      (machine.final alone (inputs.filter mine)) := by
  induction inputs generalizing state alone with
  | nil => exact start
  | cons input inputs ih =>
      have here : input ∈ input :: inputs := List.mem_cons_self
      by_cases own : mine input
      · rw [List.filter_cons_of_pos own]
        exact ih unwinding.tail (unwinding.own input here own _ _ start)
      · rw [List.filter_cons_of_neg own]
        exact ih unwinding.tail (unwinding.others input here own _ _ start)

end Machine

end RdmaKVStore
