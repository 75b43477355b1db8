import Mathlib.Logic.Function.Basic
import Mathlib.Data.List.Basic

/-!
# Doubly linked chains in a heap

A heap maps pointers to optional nodes, and a node carries a `next` and a
`prev` link among other data.  `Chain` states that a list of pointers is laid
out as a doubly linked chain.  The file shows how chains survive writes that
leave their links alone, insertion at the head, and unlinking of a node with
separate writes to its two neighbours.
-/

namespace RdmaKVStore

/-- The two link fields of a node type. -/
structure LinkFields (Ptr Node : Type*) where
  next : Node → Option Ptr
  prev : Node → Option Ptr
  setNext : Option Ptr → Node → Node
  setPrev : Option Ptr → Node → Node
  next_setNext : ∀ link node, next (setNext link node) = link
  prev_setNext : ∀ link node, prev (setNext link node) = prev node
  next_setPrev : ∀ link node, next (setPrev link node) = next node
  prev_setPrev : ∀ link node, prev (setPrev link node) = link

namespace LinkedChain

attribute [simp] LinkFields.next_setNext LinkFields.prev_setNext
  LinkFields.next_setPrev LinkFields.prev_setPrev

variable {Ptr Node : Type*}

section Shape

variable (fields : LinkFields Ptr Node)

/-- The pointers of a list form a doubly linked chain that is entered through
`head` and whose first node points back to `before`. -/
def Chain (heap : Ptr → Option Node) :
    (before head : Option Ptr) → List Ptr → Prop
  | _, head, [] => head = none
  | before, head, p :: rest =>
      head = some p ∧ ∃ node, heap p = some node ∧
        fields.prev node = before ∧
          Chain heap (some p) (fields.next node) rest

variable {fields}
variable {heap other : Ptr → Option Node} {before head : Option Ptr}
variable {chain xs ys : List Ptr} {p : Ptr}

theorem Chain.head_eq (linked : Chain fields heap before head chain) :
    head = chain.head? := by
  cases chain with
  | nil => exact linked
  | cons p rest => exact linked.1

/-- The pointers met on a walk along the `next` links. -/
def follow (fields : LinkFields Ptr Node) (heap : Ptr → Option Node) :
    Nat → Option Ptr → List Ptr
  | 0, _ => []
  | _, none => []
  | fuel + 1, some p =>
      p :: match heap p with
        | none => []
        | some node => follow fields heap fuel (fields.next node)

theorem Chain.follow_eq {fuel : Nat}
    (linked : Chain fields heap before head chain)
    (enough : chain.length ≤ fuel) :
    follow fields heap fuel head = chain := by
  induction chain generalizing before head fuel with
  | nil =>
      obtain rfl : head = none := linked
      cases fuel <;> rfl
  | cons p rest ih =>
      obtain ⟨rfl, node, read, -, restLinked⟩ := linked
      cases fuel with
      | zero => simp at enough
      | succ fuel =>
          have restEnough : rest.length ≤ fuel := by simpa using enough
          rw [follow, read]
          exact congrArg (p :: ·) (ih restLinked restEnough)

theorem Chain.congr
    (links : ∀ p ∈ chain, ∀ node, heap p = some node →
      ∃ node', other p = some node' ∧ fields.next node' = fields.next node ∧
        fields.prev node' = fields.prev node)
    (linked : Chain fields heap before head chain) :
    Chain fields other before head chain := by
  induction chain generalizing before head with
  | nil => exact linked
  | cons p rest ih =>
      obtain ⟨headEq, node, read, prevEq, restLinked⟩ := linked
      obtain ⟨node', read', nextKept, prevKept⟩ :=
        links p (by simp) node read
      refine ⟨headEq, node', read', prevKept.trans prevEq, ?_⟩
      rw [nextKept]
      exact ih (fun q member => links q (by simp [member])) restLinked

theorem Chain.congr_of_eq (agree : ∀ p ∈ chain, other p = heap p)
    (linked : Chain fields heap before head chain) :
    Chain fields other before head chain :=
  linked.congr fun p member node read =>
    ⟨node, (agree p member).trans read, rfl, rfl⟩

theorem Chain.node_at
    (linked : Chain fields heap before head (xs ++ p :: ys)) :
    ∃ node, heap p = some node ∧ fields.prev node = xs.getLast?.or before ∧
      fields.next node = ys.head? := by
  induction xs generalizing before head with
  | nil =>
      obtain ⟨-, node, read, prevEq, rest⟩ := linked
      exact ⟨node, read, prevEq, rest.head_eq⟩
  | cons x xs ih =>
      obtain ⟨_, _, _, _, rest⟩ := linked
      obtain ⟨node, read, prevEq, nextEq⟩ := ih rest
      refine ⟨node, read, ?_, nextEq⟩
      rw [prevEq, List.getLast?_cons]
      cases xs.getLast? <;> rfl

theorem Chain.read_of_mem (linked : Chain fields heap before head chain)
    (member : p ∈ chain) : ∃ node, heap p = some node := by
  obtain ⟨xs, ys, rfl⟩ := List.append_of_mem member
  obtain ⟨node, read, -, -⟩ := linked.node_at
  exact ⟨node, read⟩

theorem Chain.prev_of_next {node : Node} {q : Ptr}
    (linked : Chain fields heap before head chain) (member : p ∈ chain)
    (read : heap p = some node) (next : fields.next node = some q) :
    q ∈ chain ∧ ∃ node', heap q = some node' ∧ fields.prev node' = some p := by
  obtain ⟨xs, ys, rfl⟩ := List.append_of_mem member
  obtain ⟨node₀, read₀, -, nextEq⟩ := linked.node_at
  obtain rfl : node = node₀ := Option.some.inj (read.symm.trans read₀)
  rw [next] at nextEq
  obtain ⟨rest, rfl⟩ : ∃ rest, ys = q :: rest := by
    cases ys with
    | nil => simp at nextEq
    | cons y rest =>
        exact ⟨rest, by rw [List.head?_cons, Option.some.injEq] at nextEq
                        rw [nextEq]⟩
  have split : xs ++ p :: q :: rest = (xs ++ [p]) ++ q :: rest := by simp
  rw [split] at linked
  obtain ⟨node', read', prevEq, -⟩ := linked.node_at
  exact ⟨by simp, node', read', by simpa using prevEq⟩

/-- The predecessor of a chain node entered at the null pointer lies on the
chain and points forward to it. -/
theorem Chain.next_of_prev {node : Node} {q : Ptr}
    (linked : Chain fields heap none head chain) (member : p ∈ chain)
    (read : heap p = some node) (prev : fields.prev node = some q) :
    q ∈ chain ∧ ∃ node', heap q = some node' ∧ fields.next node' = some p := by
  obtain ⟨xs, ys, rfl⟩ := List.append_of_mem member
  obtain ⟨node₀, read₀, prevEq, -⟩ := linked.node_at
  obtain rfl : node = node₀ := Option.some.inj (read.symm.trans read₀)
  rw [prev, Option.or_none] at prevEq
  obtain ⟨earlier, rfl⟩ := List.getLast?_eq_some_iff.mp prevEq.symm
  have split : earlier ++ [q] ++ p :: ys = earlier ++ q :: p :: ys := by simp
  rw [split] at linked
  obtain ⟨node', read', -, nextEq⟩ := linked.node_at
  exact ⟨by simp, node', read', by simpa using nextEq⟩

end Shape

section Updates

variable [DecidableEq Ptr]

/-- Write through a pointer that may be null:
`if (target) target->... = ...`. -/
def modifyAt (heap : Ptr → Option Node) (target : Option Ptr)
    (write : Node → Node) : Ptr → Option Node :=
  match target with
  | none => heap
  | some p => Function.update heap p ((heap p).map write)

variable {heap : Ptr → Option Node} {target : Option Ptr}
variable {write : Node → Node} {p : Ptr}

theorem modifyAt_of_ne (other : target ≠ some p) :
    modifyAt heap target write p = heap p := by
  cases target with
  | none => rfl
  | some q =>
      have distinct : p ≠ q := fun equal => other (by rw [equal])
      simp [modifyAt, distinct]

theorem modifyAt_congr {other : Ptr → Option Node}
    (agree : heap p = other p) :
    modifyAt heap target write p = modifyAt other target write p := by
  cases target with
  | none => exact agree
  | some q =>
      by_cases hit : p = q
      · subst hit
        simp [modifyAt, agree]
      · simp [modifyAt, hit, agree]

@[simp]
theorem modifyAt_self :
    modifyAt heap (some p) write p = (heap p).map write := by
  simp [modifyAt]

theorem modifyAt_map {Value : Type*} {view : Node → Value}
    (keeps : ∀ node, view (write node) = view node) (p : Ptr) :
    (modifyAt heap target write p).map view = (heap p).map view := by
  by_cases hit : target = some p
  · subst hit
    cases read : heap p with
    | none => simp [read]
    | some node => simp [read, keeps]
  · rw [modifyAt_of_ne hit]

theorem modifyAt_modifyAt (again : Node → Node) :
    modifyAt (modifyAt heap (some p) write) (some p) again =
      modifyAt heap (some p) fun node => again (write node) := by
  simp [modifyAt, Function.comp_def]

theorem modifyAt_eq_self {node : Node} (read : heap p = some node)
    (unchanged : write node = node) : modifyAt heap (some p) write = heap := by
  rw [modifyAt, read, Option.map_some, unchanged, ← read,
    Function.update_eq_self]

@[simp]
theorem modifyAt_eq_none_iff :
    modifyAt heap target write p = none ↔ heap p = none := by
  by_cases hit : target = some p
  · subst hit; simp
  · rw [modifyAt_of_ne hit]

variable (fields : LinkFields Ptr Node)

/-- Link a fresh node in front of the chain entered at `head`. -/
def linkFront (heap : Ptr → Option Node) (head : Option Ptr) (fresh : Ptr)
    (node : Node) : Ptr → Option Node :=
  Function.update (modifyAt heap head (fields.setPrev (some fresh)))
    fresh (some node)

/-- Make the neighbours of a node point past it:
`if (next) next->prev = prev; if (prev) prev->next = next;` -/
def bypass (heap : Ptr → Option Node) (node : Node) : Ptr → Option Node :=
  modifyAt (modifyAt heap (fields.next node)
    (fields.setPrev (fields.prev node)))
      (fields.prev node) (fields.setNext (fields.next node))

variable {fields} {head before : Option Ptr} {chain xs ys : List Ptr}
variable {node : Node}

theorem Chain.linkFront {fresh : Ptr}
    (linked : Chain fields heap none head chain) (nodup : chain.Nodup)
    (absent : fresh ∉ chain) (next : fields.next node = head)
    (prev : fields.prev node = none) :
    Chain fields (linkFront fields heap head fresh node) none (some fresh)
      (fresh :: chain) := by
  refine ⟨rfl, node, by simp [LinkedChain.linkFront], prev, ?_⟩
  rw [next]
  cases chain with
  | nil => exact linked
  | cons q rest =>
      obtain ⟨headEq, nodeQ, readQ, -, restLinked⟩ := linked
      have freshNeQ : q ≠ fresh := fun equal => absent (by simp [equal])
      refine ⟨headEq, fields.setPrev (some fresh) nodeQ, ?_,
        fields.prev_setPrev _ _, ?_⟩
      · simp [LinkedChain.linkFront, headEq, freshNeQ, readQ]
      rw [fields.next_setPrev]
      refine restLinked.congr_of_eq fun r member => ?_
      have rNeFresh : r ≠ fresh := fun equal =>
        absent (by simp [← equal, member])
      have rNeQ : q ≠ r := fun equal =>
        (List.nodup_cons.mp nodup).1 (equal ▸ member)
      rw [LinkedChain.linkFront, Function.update_of_ne rNeFresh,
        modifyAt_of_ne (by rw [headEq]; simpa using rNeQ)]

/-- Bypassing a node and freeing it removes it from the chain. -/
theorem Chain.bypass
    (linked : Chain fields heap before head (xs ++ p :: ys))
    (nodup : (xs ++ p :: ys).Nodup)
    (outside : ∀ q, before = some q → q ∉ xs ++ p :: ys)
    (read : heap p = some node) :
    Chain fields (Function.update (bypass fields heap node) p none) before
      (if head = some p then fields.next node else head) (xs ++ ys) := by
  induction xs generalizing before head with
  | nil =>
      obtain ⟨headEq, node', read', prevEq, rest⟩ := linked
      obtain rfl : node = node' := Option.some.inj (read.symm.trans read')
      rw [if_pos headEq, List.nil_append]
      cases ys with
      | nil => exact rest
      | cons q rest =>
          obtain ⟨nextEq, nodeQ, readQ, -, restLinked⟩ := rest
          have notBefore : ∀ r ∈ q :: rest, fields.prev node ≠ some r :=
            fun r member equal =>
              outside r (prevEq ▸ equal) (by simp at member ⊢; tauto)
          have notP : ∀ r ∈ q :: rest, r ≠ p := fun r member equal =>
            (List.nodup_cons.mp nodup).1 (equal ▸ member)
          refine ⟨nextEq, fields.setPrev before nodeQ, ?_,
            fields.prev_setPrev _ _, ?_⟩
          · rw [Function.update_of_ne (notP q (by simp)), LinkedChain.bypass,
              modifyAt_of_ne (notBefore q (by simp)), nextEq, modifyAt_self,
              readQ, prevEq]
            rfl
          rw [fields.next_setPrev]
          refine restLinked.congr_of_eq fun r member => ?_
          have rNeQ : fields.next node ≠ some r := by
            rw [nextEq]
            intro equal
            obtain rfl := Option.some.inj equal
            exact (List.nodup_cons.mp (List.nodup_cons.mp nodup).2).1 member
          rw [Function.update_of_ne (notP r (by simp [member])),
            LinkedChain.bypass, modifyAt_of_ne (notBefore r (by simp [member])),
            modifyAt_of_ne rNeQ]
  | cons x xs ih =>
      obtain ⟨headEq, nodeX, readX, prevX, rest⟩ := linked
      rw [List.cons_append, List.nodup_cons] at nodup
      have xNeP : x ≠ p := fun equal => nodup.1 (by simp [equal])
      have tailLinked := ih rest nodup.2 (by
        intro q equal
        exact Option.some.inj equal ▸ nodup.1)
      obtain ⟨node', read', prevEq, nextEq⟩ := rest.node_at
      obtain rfl : node = node' := Option.some.inj (read.symm.trans read')
      have nextNeX : fields.next node ≠ some x := by
        rw [nextEq]
        intro equal
        have : x ∈ ys := List.mem_of_mem_head? equal
        exact nodup.1 (by simp [this])
      rw [headEq, if_neg (by simpa using xNeP), List.cons_append]
      -- the node before the removed one is the only earlier node that changes
      cases xs with
      | nil =>
          have prevIsX : fields.prev node = some x := by simpa using prevEq
          have nextX : fields.next nodeX = some p := rest.head_eq
          refine ⟨rfl, fields.setNext (fields.next node) nodeX, ?_, ?_, ?_⟩
          · rw [Function.update_of_ne xNeP, LinkedChain.bypass, prevIsX,
              modifyAt_self, modifyAt_of_ne nextNeX, readX]
            rfl
          · rw [fields.prev_setNext, prevX]
          · rw [if_pos nextX] at tailLinked
            rwa [fields.next_setNext]
      | cons y xs =>
          have nextX : fields.next nodeX = some y := rest.head_eq
          have prevNeX : fields.prev node ≠ some x := by
            rw [prevEq, List.getLast?_cons, Option.some_or]
            intro equal
            have : x ∈ y :: xs := by
              apply List.mem_of_getLast?
              rw [List.getLast?_cons, equal]
            exact nodup.1 (List.mem_append_left _ this)
          have yNeP : y ≠ p := fun equal =>
            (List.nodup_cons.mp nodup.2).1 (by simp [equal])
          refine ⟨rfl, nodeX, ?_, prevX, ?_⟩
          · rw [Function.update_of_ne xNeP, LinkedChain.bypass,
              modifyAt_of_ne prevNeX, modifyAt_of_ne nextNeX, readX]
          · rwa [nextX, if_neg (by simpa using yNeP), ← nextX] at tailLinked

end Updates

end LinkedChain

end RdmaKVStore
