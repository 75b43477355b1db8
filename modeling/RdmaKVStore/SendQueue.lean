import Mathlib.Data.List.Perm.Subperm
import Mathlib.Data.Nat.ModEq
import Mathlib.Logic.Function.Basic

/-!
# Shared queues of sends

Owners post their buffers to one queue.  An adapter reads the buffers and
completes the postings in posting order, and a wait takes some completion
without looking whose it is.  A posting is named by its position in the log;
an owner that waits holds the name of its posting.
-/

namespace RdmaKVStore

/-- The log of postings with what their buffers held, what the adapter has read
for them so far, the number of completions produced, the postings whose waits
have returned, and the posting that each owner waits for. -/
structure SendQueue (Owner Content : Type*) where
  posted : List (Owner × Content)
  wire : List Content
  done : Nat
  waited : List Nat
  ticket : Owner → Option Nat

namespace SendQueue

variable {Owner Content : Type*}

def empty : SendQueue Owner Content where
  posted := []
  wire := []
  done := 0
  waited := []
  ticket _ := none

variable (queue : SendQueue Owner Content)

/-- An owner posts its buffer and goes on to wait. -/
def post [DecidableEq Owner] (owner : Owner) (content : Content) :
    SendQueue Owner Content :=
  { queue with
    posted := queue.posted ++ [(owner, content)]
    ticket := Function.update queue.ticket owner (some queue.posted.length) }

/-- The adapter reads the buffer of the next posting. -/
def transmit (buffer : Owner → Content) : Option (SendQueue Owner Content) :=
  queue.posted[queue.wire.length]?.map fun (owner, _) =>
    { queue with wire := queue.wire ++ [buffer owner] }

def complete : Option (SendQueue Owner Content) :=
  if queue.done < queue.wire.length then
    some { queue with done := queue.done + 1 }
  else none

/-- A waiting owner takes a completion; `none` while there is none. -/
def take [DecidableEq Owner] (owner : Owner) :
    Option (SendQueue Owner Content) :=
  if queue.waited.length < queue.done then
    (queue.ticket owner).map fun number =>
      { queue with
        waited := queue.waited ++ [number]
        ticket := Function.update queue.ticket owner none }
  else none

/-- A waiting owner stops waiting without a completion. -/
def abandon [DecidableEq Owner] (owner : Owner) : SendQueue Owner Content :=
  { queue with ticket := Function.update queue.ticket owner none }

def IsNext (owner : Owner) : Prop :=
  queue.ticket owner = some queue.waited.length

instance (owner : Owner) : Decidable (queue.IsNext owner) :=
  inferInstanceAs (Decidable (_ = _))

def OwnDone (owner : Owner) : Prop :=
  ∀ number, queue.ticket owner = some number → number < queue.done

/-- Every posting is waited for by its owner, whose buffer still holds what it
held, or the wait for it has returned. -/
structure Accounted (buffer : Owner → Content) : Prop where
  done_le : queue.done ≤ queue.wire.length
  wire_le : queue.wire.length ≤ queue.posted.length
  waiting : ∀ owner number, queue.ticket owner = some number →
    queue.posted[number]? = some (owner, buffer owner)
  accounted : ∀ number, number < queue.posted.length →
    number ∈ queue.waited ∨ ∃ owner, queue.ticket owner = some number

/-- No wait has returned before its posting had completed, and the adapter has
read what was posted. -/
structure Faithful : Prop where
  returned : ∀ number ∈ queue.waited, number < queue.done
  read : ∀ (number : Nat) content, queue.wire[number]? = some content →
    ∃ owner, queue.posted[number]? = some (owner, content)

variable {queue} {after : SendQueue Owner Content}
variable {buffer : Owner → Content} {owner : Owner} {content : Content}

theorem accounted_empty :
    (empty : SendQueue Owner Content).Accounted buffer where
  done_le := le_rfl
  wire_le := le_rfl
  waiting _ _ held := by cases held
  accounted _ inside := absurd inside (Nat.not_lt_zero _)

theorem faithful_empty : (empty : SendQueue Owner Content).Faithful where
  returned _ member := by cases member
  read _ _ found := by cases found

theorem ownDone_of_isNext (next : queue.IsNext owner)
    (available : queue.waited.length < queue.done) : queue.OwnDone owner := by
  intro number held
  obtain rfl := Option.some.inj (held.symm.trans next)
  exact available

theorem take_eq_some [DecidableEq Owner]
    (taken : queue.take owner = some after) :
    after.posted = queue.posted ∧ after.wire = queue.wire ∧
      after.done = queue.done ∧ queue.waited.length < queue.done ∧
      after.waited.length = queue.waited.length + 1 ∧
      after.ticket = Function.update queue.ticket owner none := by
  obtain ⟨available, found⟩ := Option.ite_none_right_eq_some.mp taken
  obtain ⟨number, -, rfl⟩ := Option.map_eq_some_iff.mp found
  exact ⟨rfl, rfl, rfl, available, List.length_append, rfl⟩

namespace Accounted

variable (accounted : queue.Accounted buffer)
include accounted

theorem ticket_lt {number : Nat} (held : queue.ticket owner = some number) :
    number < queue.posted.length :=
  (List.getElem?_eq_some_iff.mp (accounted.waiting owner number held)).1

/-- An owner that does not wait may change its buffer. -/
theorem rewrite [DecidableEq Owner] (idle : queue.ticket owner = none) :
    queue.Accounted (Function.update buffer owner content) :=
  { accounted with
    waiting := fun other number held => by
      have distinct : other ≠ owner := by
        rintro rfl
        rw [idle] at held
        cases held
      rw [Function.update_of_ne distinct]
      exact accounted.waiting other number held }

theorem post [DecidableEq Owner] (idle : queue.ticket owner = none) :
    (queue.post owner (buffer owner)).Accounted buffer where
  done_le := accounted.done_le
  wire_le := by
    have bound := accounted.wire_le
    simp only [SendQueue.post, List.length_append]
    omega
  waiting other number held := by
    simp only [SendQueue.post] at held ⊢
    by_cases same : other = owner
    · subst same
      rw [Function.update_self, Option.some.injEq] at held
      simp [← held]
    · rw [Function.update_of_ne same] at held
      rw [List.getElem?_append_left (accounted.ticket_lt held)]
      exact accounted.waiting other number held
  accounted number inside := by
    simp only [SendQueue.post, List.length_append, List.length_singleton]
      at inside ⊢
    by_cases old : number < queue.posted.length
    · apply (accounted.accounted number old).imp_right
      rintro ⟨other, held⟩
      have distinct : other ≠ owner := by
        rintro rfl
        rw [idle] at held
        cases held
      exact ⟨other, (Function.update_of_ne distinct _ _).trans held⟩
    · obtain rfl : number = queue.posted.length := by omega
      exact .inr ⟨owner, Function.update_self _ _ _⟩

theorem transmit (sent : queue.transmit buffer = some after) :
    after.Accounted buffer := by
  obtain ⟨⟨other, held⟩, next, rfl⟩ := Option.map_eq_some_iff.mp sent
  have inside := (List.getElem?_eq_some_iff.mp next).1
  refine { accounted with done_le := ?_, wire_le := ?_ }
  · have bound := accounted.done_le
    simp only [List.length_append]
    omega
  · simp only [List.length_append, List.length_singleton]
    exact inside

theorem complete (completed : queue.complete = some after) :
    after.Accounted buffer := by
  obtain ⟨pending, same⟩ := Option.ite_none_right_eq_some.mp completed
  cases same
  exact { accounted with done_le := pending }

theorem take [DecidableEq Owner] (taken : queue.take owner = some after) :
    after.Accounted buffer := by
  obtain ⟨-, found⟩ := Option.ite_none_right_eq_some.mp taken
  obtain ⟨number, held, rfl⟩ := Option.map_eq_some_iff.mp found
  refine { accounted with
    waiting := fun other ticket waits => ?_
    accounted := fun ticket inside => ?_ }
  · simp only at waits
    by_cases same : other = owner
    · subst same
      rw [Function.update_self] at waits
      cases waits
    · rw [Function.update_of_ne same] at waits
      exact accounted.waiting other ticket waits
  · rcases accounted.accounted ticket inside with waited | ⟨other, waits⟩
    · exact .inl (List.mem_append_left _ waited)
    · by_cases same : other = owner
      · subst same
        obtain rfl := Option.some.inj (held.symm.trans waits)
        exact .inl (by simp)
      · exact .inr ⟨other, (Function.update_of_ne same _ _).trans waits⟩

theorem done_of_not_waiting (faithful : queue.Faithful) {number : Nat}
    (posted : queue.posted[number]? = some (owner, content))
    (idle : queue.ticket owner ≠ some number) : number < queue.done := by
  rcases accounted.accounted number
    (List.getElem?_eq_some_iff.mp posted).1 with waited | ⟨other, held⟩
  · exact faithful.returned number waited
  · have same := posted.symm.trans (accounted.waiting other number held)
    simp only [Option.some.injEq, Prod.mk.injEq] at same
    exact absurd (same.1 ▸ held) idle

end Accounted

namespace Faithful

variable (faithful : queue.Faithful)
include faithful

theorem post [DecidableEq Owner] (owner : Owner) (content : Content) :
    (queue.post owner content).Faithful :=
  { faithful with
    read := fun number content found => by
      obtain ⟨other, posted⟩ := faithful.read number content found
      exact ⟨other, (List.getElem?_append_left
        (List.getElem?_eq_some_iff.mp posted).1).trans posted⟩ }

/-- The adapter reads a posting before it completes, so its owner still waits
and the buffer holds what was posted. -/
theorem transmit (accounted : queue.Accounted buffer)
    (sent : queue.transmit buffer = some after) : after.Faithful := by
  obtain ⟨⟨other, held⟩, next, rfl⟩ := Option.map_eq_some_iff.mp sent
  refine { faithful with read := fun number content found => ?_ }
  simp only at found ⊢
  by_cases old : number < queue.wire.length
  · rw [List.getElem?_append_left old] at found
    exact faithful.read number content found
  · have inside := (List.getElem?_eq_some_iff.mp found).1
    rw [List.length_append, List.length_singleton] at inside
    obtain rfl : number = queue.wire.length := by omega
    rw [List.getElem?_concat_length, Option.some.injEq] at found
    subst found
    have waits : queue.ticket other = some queue.wire.length := by
      by_contra idle
      have done := accounted.done_of_not_waiting faithful next idle
      exact absurd accounted.done_le (not_le.mpr done)
    exact ⟨other, accounted.waiting other _ waits⟩

theorem complete (completed : queue.complete = some after) :
    after.Faithful := by
  obtain ⟨-, same⟩ := Option.ite_none_right_eq_some.mp completed
  cases same
  exact { faithful with
    returned := fun number member =>
      (faithful.returned number member).trans (Nat.lt_succ_self _) }

theorem take [DecidableEq Owner] (own : queue.OwnDone owner)
    (taken : queue.take owner = some after) : after.Faithful := by
  obtain ⟨-, found⟩ := Option.ite_none_right_eq_some.mp taken
  obtain ⟨number, held, rfl⟩ := Option.map_eq_some_iff.mp found
  refine { faithful with returned := fun ticket member => ?_ }
  rcases List.mem_append.mp member with waited | here
  · exact faithful.returned ticket waited
  · rw [List.mem_singleton.mp here]
    exact own number held

end Faithful

end SendQueue

end RdmaKVStore
