import RdmaKVStore.Noninterference

/-!
# Repeated inputs

Inputs that a machine may be given again at once, without going into another
state or answering otherwise.  If such inputs are repeated any number of times,
every repetition is answered as the input is that has been given once.
-/

namespace RdmaKVStore

/-- The second list repeats each element of the first at least once. -/
inductive Repeats {α : Type*} : List α → List α → Prop
  | nil : Repeats [] []
  | once (element : α) {list repeated : List α} :
      Repeats list repeated →
        Repeats (element :: list) (element :: repeated)
  | again (element : α) {list repeated : List α} :
      Repeats (element :: list) repeated →
        Repeats (element :: list) (element :: repeated)

namespace Repeats

variable {α : Type*} {list repeated : List α} {element : α}

theorem mem_iff (repeats : Repeats list repeated) :
    element ∈ repeated ↔ element ∈ list := by
  induction repeats with
  | nil => exact Iff.rfl
  | once _ _ ih => rw [List.mem_cons, List.mem_cons, ih]
  | again _ _ ih =>
      rw [List.mem_cons, ih, List.mem_cons]
      exact or_iff_right_of_imp .inl

theorem concat (repeats : Repeats list repeated) (element : α) :
    Repeats (list ++ [element]) (repeated ++ [element]) := by
  induction repeats with
  | nil => exact .once element .nil
  | once _ _ ih => exact .once _ ih
  | again _ _ ih => exact .again _ ih

theorem concat_again (repeats : Repeats (list ++ [element]) repeated) :
    Repeats (list ++ [element]) (repeated ++ [element]) := by
  generalize whole : list ++ [element] = elements at repeats
  induction repeats generalizing list with
  | nil => simp at whole
  | @once first rest repeated earlier ih =>
      cases list with
      | nil =>
          obtain ⟨rfl, rfl⟩ := List.cons.inj whole
          cases earlier
          exact .again _ (.once _ .nil)
      | cons _ list =>
          obtain ⟨rfl, rfl⟩ := List.cons.inj whole
          exact .once _ (ih rfl)
  | again _ _ ih => exact .again _ (ih whole)

end Repeats

namespace Machine

variable {State Input Output : Type*}

/-- Giving an input again changes nothing and is answered alike. -/
structure Idempotent (machine : Machine State Input Output) (input : Input) :
    Prop where
  next : ∀ state, machine.next (machine.next state input) input =
    machine.next state input
  output : ∀ state, machine.output (machine.next state input) input =
    machine.output state input

variable {machine : Machine State Input Output}
variable {Tag : Type*} {tags repeated : List Tag} {input : Tag → Input}

/-- The repetitions are answered as the inputs are, and lead to the state that
these lead to. -/
theorem answered_repeats (repeats : Repeats tags repeated)
    (idempotent : ∀ tag ∈ tags, machine.Idempotent (input tag))
    (state : State) :
    Repeats
        (tags.zip ((machine.answered state (tags.map input)).map Prod.snd))
        (repeated.zip
          ((machine.answered state (repeated.map input)).map Prod.snd)) ∧
      machine.final state (repeated.map input) =
        machine.final state (tags.map input) := by
  induction repeats generalizing state with
  | nil => exact ⟨.nil, rfl⟩
  | once tag _ ih =>
      have rest := ih
        (fun other member => idempotent other (List.mem_cons_of_mem _ member))
        (machine.next state (input tag))
      exact ⟨.once _ rest.1, rest.2⟩
  | @again tag list repeated _ ih =>
      -- the repetition starts where the input has led, and finds it the same
      obtain ⟨next, output⟩ := idempotent tag List.mem_cons_self
      have rest := ih idempotent (machine.next state (input tag))
      have same : machine.answered (machine.next state (input tag))
            ((tag :: list).map input) =
          machine.answered state ((tag :: list).map input) := by
        rw [List.map_cons, answered, output, next, answered]
      rw [same] at rest
      refine ⟨.again _ rest.1, rest.2.trans ?_⟩
      simp only [List.map_cons, final, List.foldl_cons, next]

end Machine

end RdmaKVStore
