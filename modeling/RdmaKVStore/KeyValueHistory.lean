import Mathlib.Logic.Function.Basic

/-!
# Key-value histories

What a key-value store is for, in terms of the operations performed on it: a
key holds the value of its latest assignment that no later deletion of the key
and no later reset undid.
-/

namespace RdmaKVStore

inductive MapOperation (Key Value : Type*)
  | assign (key : Key) (value : Value)
  | erase (key : Key)
  | clear
  | inspect

namespace MapOperation

variable {Key Value : Type*} [DecidableEq Key]

/-- The value a key holds after a history, latest operation first. -/
def latest (key : Key) : List (MapOperation Key Value) → Option Value
  | [] => none
  | .assign other value :: earlier =>
      if other = key then some value else latest key earlier
  | .erase other :: earlier =>
      if other = key then none else latest key earlier
  | .clear :: _ => none
  | .inspect :: earlier => latest key earlier

def apply (operation : MapOperation Key Value) (stored : Key → Option Value) :
    Key → Option Value :=
  match operation with
  | .assign key value => Function.update stored key (some value)
  | .erase key => Function.update stored key none
  | .clear => fun _ => none
  | .inspect => stored

theorem latest_cons (operation : MapOperation Key Value)
    (earlier : List (MapOperation Key Value)) :
    (fun key => latest key (operation :: earlier)) =
      operation.apply fun key => latest key earlier := by
  funext key
  cases operation with
  | assign other value =>
      by_cases same : key = other
      · subst same; simp [latest, apply]
      · simp [latest, apply, same, Ne.symm same]
  | erase other =>
      by_cases same : key = other
      · subst same; simp [latest, apply]
      · simp [latest, apply, same, Ne.symm same]
  | clear => rfl
  | inspect => rfl

theorem assign_mem_of_latest {key : Key} {value : Value}
    {history : List (MapOperation Key Value)}
    (held : latest key history = some value) :
    .assign key value ∈ history := by
  induction history with
  | nil => cases held
  | cons operation earlier ih =>
      cases operation with
      | assign other assigned =>
          by_cases same : other = key
          · simp only [latest, same, if_true, Option.some.injEq] at held
            simp [same, held]
          · simp only [latest, same, if_false] at held
            exact List.mem_cons_of_mem _ (ih held)
      | erase other =>
          by_cases same : other = key
          · simp [latest, same] at held
          · simp only [latest, same, if_false] at held
            exact List.mem_cons_of_mem _ (ih held)
      | clear => cases held
      | inspect => exact List.mem_cons_of_mem _ (ih held)

theorem apply_assign_of_ne {key other : Key} {value : Value}
    {stored : Key → Option Value} (distinct : key ≠ other) :
    (MapOperation.assign other value).apply stored key = stored key :=
  Function.update_of_ne distinct _ _

theorem apply_erase_of_ne {key other : Key} {stored : Key → Option Value}
    (distinct : key ≠ other) :
    (MapOperation.erase other).apply stored key = stored key :=
  Function.update_of_ne distinct _ _

end MapOperation

end RdmaKVStore
