import Mathlib.Data.Nat.ModEq
import Mathlib.Logic.Function.Basic

/-!
# Posted receive buffers

An adapter fills posted buffer slots in posting order, one for each message.
The queue keeps the whole log of postings and the number of messages that have
arrived; the slots that are still queued are the rest of the log.
-/

namespace RdmaKVStore

/-- Buffer slots, the log of their postings, and the number of postings that
messages have used up. -/
structure ReceiveQueue (Message : Type*) where
  postings : List Nat
  arrived : Nat
  slots : Nat → Message

namespace ReceiveQueue

variable {Message : Type*} (queue : ReceiveQueue Message)

def post (slot : Nat) : ReceiveQueue Message :=
  { queue with postings := queue.postings ++ [slot] }

def next : Option Nat :=
  queue.postings[queue.arrived]?

/-- A message arrives, if a slot is posted for it. -/
def deliver (message : Message) : Option (ReceiveQueue Message) :=
  queue.next.map fun slot =>
    { queue with
      arrived := queue.arrived + 1
      slots := Function.update queue.slots slot message }

/-- The adapter may still write to the slot. -/
def Queued (slot : Nat) : Prop :=
  slot ∈ queue.postings.drop queue.arrived

/-- Every used posting left its message in its slot, or a later one did. -/
structure Traced (stream : Nat → Message) : Prop where
  arrived_le : queue.arrived ≤ queue.postings.length
  filled : ∀ index slot, index < queue.arrived →
    queue.postings[index]? = some slot →
      ∃ later, index ≤ later ∧ later < queue.arrived ∧
        queue.postings[later]? = some slot ∧ queue.slots slot = stream later

variable {queue} {stream : Nat → Message} {slot index : Nat}

theorem Traced.post (traced : queue.Traced stream) (slot : Nat) :
    (queue.post slot).Traced stream where
  arrived_le := by
    have bound := traced.arrived_le
    simp only [ReceiveQueue.post, List.length_append]
    omega
  filled index target used posted := by
    have old {k : Nat} (used : k < queue.arrived) :
        (queue.post slot).postings[k]? = queue.postings[k]? :=
      List.getElem?_append_left (used.trans_le traced.arrived_le)
    rw [old used] at posted
    obtain ⟨later, after, used', posted', content⟩ :=
      traced.filled index target used posted
    exact ⟨later, after, used', by rw [old used', posted'], content⟩

theorem next_post {slot : Nat} (next : queue.next = some slot)
    (posted : Nat) : (queue.post posted).next = some slot :=
  (List.getElem?_append_left (List.getElem?_eq_some_iff.mp next).1).trans next

theorem deliver_eq_some {after : ReceiveQueue Message} {message : Message}
    (delivered : queue.deliver message = some after) :
    ∃ slot, queue.postings[queue.arrived]? = some slot ∧
      after = { queue with
        arrived := queue.arrived + 1
        slots := Function.update queue.slots slot message } := by
  obtain ⟨slot, next, rfl⟩ := Option.map_eq_some_iff.mp delivered
  exact ⟨slot, next, rfl⟩

theorem deliver_post {after : ReceiveQueue Message} {message : Message}
    (delivered : queue.deliver message = some after) (slot : Nat) :
    (queue.post slot).deliver message = some (after.post slot) := by
  obtain ⟨target, next, rfl⟩ := deliver_eq_some delivered
  rw [deliver, next_post next, Option.map_some]
  rfl

theorem Traced.deliver {after : ReceiveQueue Message}
    (traced : queue.Traced stream)
    (delivered : queue.deliver (stream queue.arrived) = some after) :
    after.Traced stream := by
  obtain ⟨target, next, rfl⟩ := deliver_eq_some delivered
  have inside := (List.getElem?_eq_some_iff.mp next).1
  refine ⟨inside, fun index slot used posted => ?_⟩
  simp only at used posted ⊢
  by_cases same : slot = target
  · subst same
    exact ⟨queue.arrived, by omega, by omega, next, Function.update_self _ _ _⟩
  · have earlier : index ≠ queue.arrived := by
      rintro rfl
      exact same (Option.some.inj (posted.symm.trans next))
    obtain ⟨later, after, used', posted', content⟩ :=
      traced.filled index slot (by omega) posted
    exact ⟨later, after, by omega, posted',
      (Function.update_of_ne same _ _).trans content⟩

/-- A posted slot is still queued, or it holds the message of its posting or
of a later one. -/
theorem Traced.queued_or_filled (traced : queue.Traced stream)
    (posted : queue.postings[index]? = some slot) :
    queue.Queued slot ∨
      ∃ later, index ≤ later ∧ queue.slots slot = stream later := by
  by_cases used : index < queue.arrived
  · obtain ⟨later, after, -, -, content⟩ := traced.filled index slot used posted
    exact .inr ⟨later, after, content⟩
  · refine .inl (List.mem_of_getElem? (i := index - queue.arrived) ?_)
    rw [List.getElem?_drop, Nat.add_sub_cancel' (not_lt.mp used), posted]

def Cyclic (queue : ReceiveQueue Message) (size : Nat) : Prop :=
  ∀ index, index < queue.postings.length →
    queue.postings[index]? = some (index % size)

theorem Cyclic.post {size : Nat} (cyclic : queue.Cyclic size) :
    (queue.post (queue.postings.length % size)).Cyclic size := by
  intro index inside
  simp only [ReceiveQueue.post, List.length_append, List.length_singleton]
    at inside ⊢
  by_cases old : index < queue.postings.length
  · rw [List.getElem?_append_left old]
    exact cyclic index old
  · obtain rfl : index = queue.postings.length := by omega
    simp

/-- In cyclic order a slot keeps its message until a whole round of further
messages has arrived. -/
theorem Traced.slots_of_cyclic {size : Nat} (traced : queue.Traced stream)
    (cyclic : queue.Cyclic size) (used : index < queue.arrived)
    (room : queue.arrived ≤ index + size) :
    queue.slots (index % size) = stream index := by
  have inside := used.trans_le traced.arrived_le
  obtain ⟨later, after, used', posted, content⟩ :=
    traced.filled index _ used (cyclic index inside)
  rw [cyclic later (used'.trans_le traced.arrived_le),
    Option.some.injEq] at posted
  obtain rfl : later = index := by
    have same : later % size = index % size := posted
    obtain ⟨gap, rfl⟩ := Nat.exists_eq_add_of_le after
    have small : gap < size := by omega
    have zero : gap % size = 0 := by
      have modEq : index + gap ≡ index + 0 [MOD size] := same
      simpa [Nat.ModEq] using Nat.ModEq.add_left_cancel' index modEq
    rw [Nat.mod_eq_of_lt small] at zero
    omega
  exact content

theorem Traced.slots_eq_iff_of_cyclic {size : Nat}
    (traced : queue.Traced stream) (cyclic : queue.Cyclic size)
    (injective : Function.Injective stream) (positive : 0 < size)
    (used : index < queue.arrived) :
    queue.slots (index % size) = stream index ↔
      queue.arrived ≤ index + size := by
  refine ⟨fun content => ?_, traced.slots_of_cyclic cyclic used⟩
  by_contra overrun
  have round : index + size < queue.arrived := not_le.mp overrun
  obtain ⟨later, after, -, -, content'⟩ := traced.filled (index + size) _ round
    (cyclic _ (round.trans_le traced.arrived_le))
  rw [Nat.add_mod_right, content] at content'
  have same := injective content'
  omega

end ReceiveQueue

end RdmaKVStore
