import Mathlib.Data.List.Induction

/-!
# Splitting from the right

A text is cut at the last occurrences of a separator.  Joining texts that do
not contain the separator is undone by as many cuts.
-/

namespace RdmaKVStore

variable {Symbol : Type*} [DecidableEq Symbol]

/-- The parts before and after the last separator, if there is one. -/
def cutLast (separator : Symbol) :
    List Symbol → Option (List Symbol × List Symbol)
  | [] => none
  | symbol :: text =>
      match cutLast separator text with
      | some (before, after) => some (symbol :: before, after)
      | none => if symbol = separator then some ([], text) else none

/-- The parts of a text that is cut at most so many times, at the last
separators. -/
def rsplit (separator : Symbol) : Nat → List Symbol → List (List Symbol)
  | 0, text => [text]
  | cuts + 1, text =>
      match cutLast separator text with
      | none => [text]
      | some (before, after) => rsplit separator cuts before ++ [after]

section Cuts

variable {separator : Symbol}

theorem cutLast_of_notMem {text : List Symbol} (apart : separator ∉ text) :
    cutLast separator text = none := by
  induction text with
  | nil => rfl
  | cons symbol text ih =>
      have other : symbol ≠ separator := by
        rintro rfl
        exact apart List.mem_cons_self
      rw [cutLast, ih fun member => apart (List.mem_cons_of_mem _ member)]
      exact if_neg other

theorem cutLast_append {after : List Symbol} (apart : separator ∉ after)
    (before : List Symbol) :
    cutLast separator (before ++ separator :: after) =
      some (before, after) := by
  induction before with
  | nil =>
      rw [List.nil_append, cutLast, cutLast_of_notMem apart]
      exact if_pos rfl
  | cons symbol before ih => rw [List.cons_append, cutLast, ih]

theorem rsplit_append {after : List Symbol} (apart : separator ∉ after)
    (cuts : Nat) (before : List Symbol) :
    rsplit separator (cuts + 1) (before ++ separator :: after) =
      rsplit separator cuts before ++ [after] := by
  rw [rsplit, cutLast_append apart]

theorem getLast?_rsplit_append {after : List Symbol}
    (apart : separator ∉ after) (cuts : Nat) (before : List Symbol) :
    (rsplit separator (cuts + 1) (before ++ separator :: after)).getLast? =
      some after := by
  rw [rsplit_append apart, List.getLast?_concat]

theorem rsplit_join {first : List Symbol} {parts : List (List Symbol)}
    (apart : ∀ part ∈ parts, separator ∉ part) :
    rsplit separator parts.length
        (first ++ parts.flatMap (separator :: ·)) = first :: parts := by
  induction parts using List.reverseRecOn with
  | nil => simp [rsplit]
  | append_singleton parts last ih =>
      obtain ⟨others, own⟩ := List.forall_mem_append.mp apart
      have cut : first ++ (parts ++ [last]).flatMap (separator :: ·) =
          (first ++ parts.flatMap (separator :: ·)) ++ separator :: last := by
        simp
      rw [cut, List.length_append, List.length_singleton,
        rsplit_append (own last (List.mem_singleton_self last)), ih others]
      rfl

end Cuts

end RdmaKVStore
