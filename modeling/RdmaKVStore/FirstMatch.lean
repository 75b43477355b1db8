import Mathlib.Data.List.Nodup

/-!
# First matches in a list

A list whose first element with a given property is changed or dropped: how
such a list is searched, and how the change looks through a partial view of
the elements and through a filter.
-/

namespace RdmaKVStore

namespace FirstMatch

variable {α β : Type*}

/-- Apply a change to the first element that is found, which drops the element
if the change does. -/
def alterFirst (found : α → Bool) (change : α → Option α) : List α → List α
  | [] => []
  | first :: rest =>
      if found first then (change first).toList ++ rest
      else first :: alterFirst found change rest

variable {found : α → Bool} {change : α → Option α} {list : List α}

theorem alterFirst_cons_of_pos {first : α} (rest : List α)
    (here : found first) :
    alterFirst found change (first :: rest) =
      (change first).toList ++ rest := by
  rw [alterFirst, if_pos here]

theorem alterFirst_cons_of_neg {first : α} (rest : List α)
    (other : ¬ found first) :
    alterFirst found change (first :: rest) =
      first :: alterFirst found change rest := by
  rw [alterFirst, if_neg other]

theorem alterFirst_of_forall_not (others : ∀ element ∈ list, ¬ found element) :
    alterFirst found change list = list := by
  induction list with
  | nil => rfl
  | cons first rest ih =>
      rw [alterFirst_cons_of_neg rest (others first List.mem_cons_self),
        ih fun element member => others element (List.mem_cons_of_mem _ member)]

theorem mem_alterFirst {element : α}
    (member : element ∈ alterFirst found change list) :
    element ∈ list ∨ ∃ old ∈ list, found old ∧ element ∈ change old := by
  induction list with
  | nil => cases member
  | cons first rest ih =>
      by_cases here : found first
      · rw [alterFirst_cons_of_pos rest here] at member
        rcases List.mem_append.mp member with changed | kept
        · exact .inr ⟨first, List.mem_cons_self, here,
            Option.mem_toList.mp changed⟩
        · exact .inl (List.mem_cons_of_mem _ kept)
      · rw [alterFirst_cons_of_neg rest here] at member
        rcases List.mem_cons.mp member with rfl | member
        · exact .inl List.mem_cons_self
        · rcases ih member with kept | ⟨old, inRest, isFound, changed⟩
          · exact .inl (List.mem_cons_of_mem _ kept)
          · exact .inr ⟨old, List.mem_cons_of_mem _ inRest, isFound, changed⟩

theorem find?_filter_of_keeps {kept : α → Bool}
    (keeps : ∀ element ∈ list, found element → kept element) :
    (list.filter kept).find? found = list.find? found := by
  induction list with
  | nil => rfl
  | cons first rest ih =>
      have foundRest := ih fun element member =>
        keeps element (List.mem_cons_of_mem _ member)
      by_cases here : found first
      · rw [List.filter_cons_of_pos (keeps first List.mem_cons_self here),
          List.find?_cons_of_pos here, List.find?_cons_of_pos here]
      · rw [List.find?_cons_of_neg here, ← foundRest]
        by_cases isKept : kept first
        · rw [List.filter_cons_of_pos isKept, List.find?_cons_of_neg here]
        · rw [List.filter_cons_of_neg isKept]

/-- A filter that keeps what is found, before and after the change, may be
applied first. -/
theorem filter_alterFirst {kept : α → Bool}
    (keeps : ∀ element ∈ list, found element → kept element)
    (keepsChanged : ∀ element ∈ list, found element →
      ∀ changed ∈ change element, kept changed) :
    (alterFirst found change list).filter kept =
      alterFirst found change (list.filter kept) := by
  induction list with
  | nil => rfl
  | cons first rest ih =>
      have keptRest := ih
        (fun element member => keeps element (List.mem_cons_of_mem _ member))
        (fun element member =>
          keepsChanged element (List.mem_cons_of_mem _ member))
      by_cases here : found first
      · have keptFirst := keeps first List.mem_cons_self here
        rw [alterFirst_cons_of_pos rest here, List.filter_append,
          List.filter_cons_of_pos keptFirst, alterFirst_cons_of_pos _ here,
          List.filter_eq_self.mpr fun changed member =>
            keepsChanged first List.mem_cons_self here changed
              (Option.mem_toList.mp member)]
      · rw [alterFirst_cons_of_neg rest here]
        by_cases isKept : kept first
        · rw [List.filter_cons_of_pos isKept, List.filter_cons_of_pos isKept,
            alterFirst_cons_of_neg _ here, keptRest]
        · rw [List.filter_cons_of_neg isKept, List.filter_cons_of_neg isKept,
            keptRest]

/-- A filter that drops what is found, before and after the change, does not
see the change. -/
theorem filter_alterFirst_of_dropped {kept : α → Bool}
    (drops : ∀ element ∈ list, found element → ¬ kept element)
    (dropsChanged : ∀ element ∈ list, found element →
      ∀ changed ∈ change element, ¬ kept changed) :
    (alterFirst found change list).filter kept = list.filter kept := by
  induction list with
  | nil => rfl
  | cons first rest ih =>
      by_cases here : found first
      · rw [alterFirst_cons_of_pos rest here, List.filter_append,
          List.filter_cons_of_neg (drops first List.mem_cons_self here),
          List.filter_eq_nil_iff.mpr fun changed member =>
            dropsChanged first List.mem_cons_self here changed
              (Option.mem_toList.mp member),
          List.nil_append]
      · have keptRest := ih
          (fun element member => drops element (List.mem_cons_of_mem _ member))
          (fun element member =>
            dropsChanged element (List.mem_cons_of_mem _ member))
        rw [alterFirst_cons_of_neg rest here]
        by_cases isKept : kept first
        · rw [List.filter_cons_of_pos isKept, List.filter_cons_of_pos isKept,
            keptRest]
        · rw [List.filter_cons_of_neg isKept, List.filter_cons_of_neg isKept,
            keptRest]

section Revise

variable {revise : α → α}
variable (revises : ∀ element, found (revise element) = found element)
include revises

theorem any_alterFirst (list : List α) :
    (alterFirst found (fun element => some (revise element)) list).any found =
      list.any found := by
  induction list with
  | nil => rfl
  | cons first rest ih =>
      by_cases here : found first
      · rw [alterFirst_cons_of_pos rest here, Option.toList_some,
          List.singleton_append, List.any_cons, List.any_cons, revises]
      · rw [alterFirst_cons_of_neg rest here, List.any_cons, List.any_cons, ih]

/-- A change that has nothing to do after it has been made is made again
without effect. -/
theorem alterFirst_alterFirst
    (again : ∀ element, revise (revise element) = revise element)
    (list : List α) :
    alterFirst found (fun element => some (revise element))
        (alterFirst found (fun element => some (revise element)) list) =
      alterFirst found (fun element => some (revise element)) list := by
  induction list with
  | nil => rfl
  | cons first rest ih =>
      by_cases here : found first
      · have still : found (revise first) := (revises first).trans here
        rw [alterFirst_cons_of_pos rest here, Option.toList_some,
          List.singleton_append, alterFirst_cons_of_pos rest still, again,
          Option.toList_some, List.singleton_append]
      · rw [alterFirst_cons_of_neg rest here, alterFirst_cons_of_neg _ here, ih]

end Revise

section View

variable [DecidableEq α] {view : α → Option β} {found : β → Bool}
variable {change : β → Option β} {target : α} {list : List α}

/-- Changing what the first match shows changes the first match of what the
list shows. -/
theorem filterMap_update_find? (nodup : list.Nodup)
    (isFirst : list.find? (fun element => (view element).any found) =
      some target) :
    list.filterMap
        (Function.update view target ((view target).bind change)) =
      alterFirst found change (list.filterMap view) := by
  induction list with
  | nil => cases isFirst
  | cons first rest ih =>
      obtain ⟨notRest, restNodup⟩ := List.nodup_cons.mp nodup
      rw [List.find?_cons] at isFirst
      split at isFirst
      case h_1 here =>
        obtain rfl := Option.some.inj isFirst
        obtain ⟨element, shown, isFound⟩ := (Option.any_eq_true _ _).mp here
        have keptRest : rest.filterMap
            (Function.update view first ((view first).bind change)) =
              rest.filterMap view := by
          apply List.filterMap_congr
          intro other member
          have away : other ≠ first := fun same => notRest (same ▸ member)
          exact Function.update_of_ne away _ _
        rw [List.filterMap_cons_some shown, alterFirst_cons_of_pos _ isFound,
          List.filterMap_cons, keptRest, Function.update_self, shown,
          Option.bind_some]
        cases change element <;> rfl
      case h_2 other =>
        have away : first ≠ target := fun same =>
          notRest (same ▸ List.mem_of_find?_eq_some isFirst)
        rw [List.filterMap_cons, Function.update_of_ne away,
          ih restNodup isFirst]
        cases shown : view first with
        | none => rw [List.filterMap_cons_none shown]
        | some element =>
            rw [shown, Option.any_some] at other
            rw [List.filterMap_cons_some shown,
              alterFirst_cons_of_neg _ (by simp [other])]

theorem filterMap_erase_find? (nodup : list.Nodup)
    (isFirst : list.find? (fun element => (view element).any found) =
      some target) :
    (list.erase target).filterMap view =
      alterFirst found (fun _ => none) (list.filterMap view) := by
  rw [← filterMap_update_find? nodup isFirst, nodup.erase_eq_filter,
    List.filterMap_filter]
  apply List.filterMap_congr
  intro element _
  by_cases same : element = target
  · subst same
    simp
  · simp [same]

theorem filterMap_erase_of_none (hidden : view target = none)
    (list : List α) :
    (list.erase target).filterMap view = list.filterMap view := by
  induction list with
  | nil => rfl
  | cons first rest ih =>
      by_cases same : first = target
      · subst same
        rw [List.erase_cons_head, List.filterMap_cons_none hidden]
      · rw [List.erase_cons_tail (by simpa using same), List.filterMap_cons,
          ih, List.filterMap_cons]

end View

end FirstMatch

end RdmaKVStore
