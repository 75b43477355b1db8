import RdmaKVStore.HashTable
import Mathlib.Data.List.Perm.Subperm
import Mathlib.Data.List.Nodup

/-!
# Bucket chains

The pointer structure of the hash table: every bucket head enters a doubly
linked chain, and no item lies on two chains.  This holds regardless of the
keys that callers pass.  Each edit of `get_key_entry` and `remove_item` is
shown to change one chain and to leave the data of all other items alone.
-/

namespace RdmaKVStore.HashTable

open LinkedChain

/-- The buckets of a table are disjoint doubly linked chains of allocated
items. -/
structure Linked (ht : HashTable) (chains : Nat → List Ptr) : Prop where
  positive : 0 < ht.capacity
  chain : ∀ bucket,
    Chain HashItem.links ht.heap none (ht.items bucket) (chains bucket)
  nodup : ∀ bucket, (chains bucket).Nodup
  separate : ∀ first second p,
    p ∈ chains first → p ∈ chains second → first = second
  inRange : ∀ bucket, ht.capacity ≤ bucket → chains bucket = []
  allocated : ∀ p, ht.fresh ≤ p → ht.heap p = none

/-- The items of a bucket in the order in which `search` meets them. -/
def bucketItems (ht : HashTable) (bucket : Nat) : List Ptr :=
  follow HashItem.links ht.heap ht.fresh (ht.items bucket)

/-- `search` stops at this item. -/
def matchesKey (heap : Ptr → Option HashItem) (key : Bytes) (keyLen : Nat)
    (p : Ptr) : Bool :=
  match heap p with
  | none => false
  | some item => CString.strncmp keyLen item.key key = 0

variable {ht : HashTable} {chains : Nat → List Ptr} {bucket : Nat} {p : Ptr}
variable {key : Bytes} {keyLen : Nat} {item : HashItem}

theorem searchLoop_chain {heap : Ptr → Option HashItem}
    {before head : Option Ptr} {chain : List Ptr} {fuel : Nat}
    (linked : Chain HashItem.links heap before head chain)
    (enough : chain.length ≤ fuel) :
    searchLoop heap key keyLen fuel head =
      some (chain.find? (matchesKey heap key keyLen)) := by
  induction chain generalizing before head fuel with
  | nil =>
      obtain rfl : head = none := linked
      cases fuel <;> rfl
  | cons p rest ih =>
      obtain ⟨rfl, item, read, -, restLinked⟩ := linked
      cases fuel with
      | zero => simp at enough
      | succ fuel =>
          have restEnough : rest.length ≤ fuel := by simpa using enough
          simp only [searchLoop, read, Option.bind_some]
          by_cases hit : CString.strncmp keyLen item.key key = 0
          · simp [hit, matchesKey, read]
          · rw [if_neg hit,
              List.find?_cons_of_neg (by simp [matchesKey, read, hit])]
            exact ih restLinked restEnough

namespace Linked

variable (linked : Linked ht chains)
include linked

theorem getBucket_lt (key : Bytes) : ht.getBucket key < ht.capacity :=
  Nat.mod_lt _ linked.positive

theorem read_of_mem (member : p ∈ chains bucket) :
    ∃ item, ht.heap p = some item :=
  (linked.chain bucket).read_of_mem member

theorem lt_fresh (member : p ∈ chains bucket) : p < ht.fresh := by
  obtain ⟨item, read⟩ := linked.read_of_mem member
  by_contra beyond
  simp [linked.allocated p (not_lt.mp beyond)] at read

theorem length_le_fresh (bucket : Nat) :
    (chains bucket).length ≤ ht.fresh := by
  have within : chains bucket ⊆ List.range ht.fresh := fun p member =>
    List.mem_range.mpr (linked.lt_fresh member)
  simpa using
    (List.subperm_of_subset (linked.nodup bucket) within).length_le

theorem bucketItems_eq : ht.bucketItems = chains :=
  funext fun bucket =>
    (linked.chain bucket).follow_eq (linked.length_le_fresh bucket)

theorem search_eq (key : Bytes) (keyLen : Nat) :
    ht.search key keyLen =
      some ((chains (ht.getBucket key)).find?
        (matchesKey ht.heap key keyLen)) :=
  searchLoop_chain (linked.chain _) (linked.length_le_fresh _)

theorem mem_of_search (found : ht.search key keyLen = some (some p)) :
    p ∈ chains (ht.getBucket key) := by
  rw [linked.search_eq, Option.some.injEq] at found
  exact List.mem_of_find?_eq_some found

theorem unlockBucket : Linked (ht.unlockBucket bucket) chains :=
  ⟨linked.positive, linked.chain, linked.nodup, linked.separate,
    linked.inRange, linked.allocated⟩

theorem writeItem {write : HashItem → HashItem}
    (keepsNext : ∀ item, (write item).next = item.next)
    (keepsPrev : ∀ item, (write item).prev = item.prev) :
    Linked (ht.writeItem p write) chains where
  positive := linked.positive
  chain bucket := by
    refine (linked.chain bucket).congr fun q _ item read => ?_
    by_cases target : p = q
    · subst target
      exact ⟨write item, by simp [HashTable.writeItem, read],
        keepsNext item, keepsPrev item⟩
    · refine ⟨item, ?_, rfl, rfl⟩
      rw [writeItem_heap, modifyAt_of_ne (by simpa using target), read]
  nodup := linked.nodup
  separate := linked.separate
  inRange := linked.inRange
  allocated q beyond := by
    rw [writeItem_heap, modifyAt_eq_none_iff]
    exact linked.allocated q beyond

theorem insertEntry (inside : bucket < ht.capacity) :
    Linked (ht.insertEntry bucket key keyLen).1
      (Function.update chains bucket (ht.fresh :: chains bucket)) where
  positive := linked.positive
  chain other := by
    have absent (b : Nat) : ht.fresh ∉ chains b := fun member =>
      lt_irrefl _ (linked.lt_fresh member)
    by_cases same : other = bucket
    · subst same
      simpa [HashTable.insertEntry] using
        (linked.chain other).linkFront (linked.nodup other) (absent other)
          (show HashItem.links.next (ht.newItem other key keyLen) = _ from rfl)
          rfl
    · simp only [HashTable.insertEntry, Function.update_of_ne same]
      refine (linked.chain other).congr_of_eq fun q member => ?_
      have notFresh : q ≠ ht.fresh := fun equal => absent other (equal ▸ member)
      have notHead : ht.items bucket ≠ some q := by
        intro head
        rw [(linked.chain bucket).head_eq] at head
        exact same (linked.separate _ _ q member
          (List.mem_of_mem_head? head))
      rw [linkFront, Function.update_of_ne notFresh, modifyAt_of_ne notHead]
  nodup other := by
    by_cases same : other = bucket
    · subst same
      rw [Function.update_self]
      exact List.nodup_cons.mpr
        ⟨fun member => lt_irrefl _ (linked.lt_fresh member),
          linked.nodup other⟩
    · rw [Function.update_of_ne same]
      exact linked.nodup other
  separate first second p inFirst inSecond := by
    have cases (b : Nat)
        (member : p ∈ Function.update chains bucket
          (ht.fresh :: chains bucket) b) :
        p = ht.fresh ∧ b = bucket ∨ p ∈ chains b := by
      by_cases same : b = bucket
      · subst same
        rw [Function.update_self] at member
        rcases List.mem_cons.mp member with fresh | old
        · exact .inl ⟨fresh, rfl⟩
        · exact .inr old
      · rw [Function.update_of_ne same] at member
        exact .inr member
    rcases cases first inFirst with ⟨fresh, rfl⟩ | oldFirst <;>
      rcases cases second inSecond with ⟨fresh', rfl⟩ | oldSecond
    · rfl
    · exact absurd (fresh ▸ linked.lt_fresh oldSecond) (lt_irrefl _)
    · exact absurd (fresh' ▸ linked.lt_fresh oldFirst) (lt_irrefl _)
    · exact linked.separate _ _ p oldFirst oldSecond
  inRange other beyond := by
    have outside : other ≠ bucket := by
      rintro rfl
      exact absurd beyond (not_le.mpr inside)
    rw [Function.update_of_ne outside]
    exact linked.inRange other beyond
  allocated q beyond := by
    have old : ht.fresh < q := beyond
    rw [insertEntry_heap, linkFront, Function.update_of_ne old.ne',
      modifyAt_eq_none_iff]
    exact linked.allocated q old.le

theorem neighbour_mem {q : Ptr} (member : p ∈ chains bucket)
    (read : ht.heap p = some item)
    (neighbour : item.next = some q ∨ item.prev = some q) :
    q ∈ chains bucket := by
  rcases neighbour with next | prev
  · exact ((linked.chain bucket).prev_of_next member read next).1
  · exact ((linked.chain bucket).next_of_prev member read prev).1

theorem unlinkItem (member : p ∈ chains bucket)
    (read : ht.heap p = some item) :
    Linked (ht.unlinkItem bucket p item)
      (Function.update chains bucket ((chains bucket).erase p)) where
  positive := linked.positive
  chain other := by
    by_cases same : other = bucket
    · subst same
      obtain ⟨xs, ys, split⟩ := List.append_of_mem member
      have whole := linked.chain other
      have nodup := linked.nodup other
      rw [split] at whole nodup
      have pNotXs : p ∉ xs := fun inXs =>
        (List.disjoint_of_nodup_append nodup) inXs (by simp)
      have removed := whole.bypass nodup (by simp) read
      simp only [HashTable.unlinkItem, Function.update_self, split,
        List.erase_append_right _ pNotXs, List.erase_cons_head]
      exact removed
    · simp only [HashTable.unlinkItem, Function.update_of_ne same]
      refine (linked.chain other).congr_of_eq fun q inOther => ?_
      have elsewhere (inBucket : q ∈ chains bucket) : False :=
        same (linked.separate _ _ q inOther inBucket)
      have notP : q ≠ p := fun equal => elsewhere (equal ▸ member)
      have notNext : HashItem.links.next item ≠ some q := fun next =>
        elsewhere (linked.neighbour_mem member read (.inl next))
      have notPrev : HashItem.links.prev item ≠ some q := fun prev =>
        elsewhere (linked.neighbour_mem member read (.inr prev))
      rw [Function.update_of_ne notP, bypass, modifyAt_of_ne notPrev,
        modifyAt_of_ne notNext]
  nodup other := by
    by_cases same : other = bucket
    · subst same
      rw [Function.update_self]
      exact (linked.nodup other).erase p
    · rw [Function.update_of_ne same]
      exact linked.nodup other
  separate first second q inFirst inSecond := by
    have old (b : Nat)
        (member : q ∈ Function.update chains bucket
          ((chains bucket).erase p) b) : q ∈ chains b := by
      by_cases same : b = bucket
      · subst same
        rw [Function.update_self] at member
        exact List.mem_of_mem_erase member
      · rwa [Function.update_of_ne same] at member
    exact linked.separate _ _ q (old first inFirst) (old second inSecond)
  inRange other beyond := by
    by_cases same : other = bucket
    · subst same
      rw [Function.update_self, linked.inRange other beyond]
      rfl
    · rw [Function.update_of_ne same]
      exact linked.inRange other beyond
  allocated q beyond := by
    rw [unlinkItem_heap]
    by_cases same : q = p
    · subst same; simp
    · rw [Function.update_of_ne same, bypass, modifyAt_eq_none_iff,
        modifyAt_eq_none_iff]
      exact linked.allocated q beyond

end Linked

theorem insertEntry_data {q : Ptr} (other : q ≠ ht.fresh) :
    ((ht.insertEntry bucket key keyLen).1.heap q).map HashItem.data =
      (ht.heap q).map HashItem.data := by
  rw [insertEntry_heap, linkFront, Function.update_of_ne other]
  exact modifyAt_map (HashItem.setPrev_data _) q

theorem unlinkItem_data {q : Ptr} (other : q ≠ p) :
    ((ht.unlinkItem bucket p item).heap q).map HashItem.data =
      (ht.heap q).map HashItem.data := by
  rw [unlinkItem_heap, Function.update_of_ne other, bypass,
    modifyAt_map (HashItem.setNext_data _) q]
  exact modifyAt_map (HashItem.setPrev_data _) q

theorem insertEntry_read_fresh (ht : HashTable) (bucket : Nat) (key : Bytes)
    (keyLen : Nat) :
    (ht.insertEntry bucket key keyLen).1.heap ht.fresh =
      some (ht.newItem bucket key keyLen) := by
  simp [linkFront]

theorem unlinkItem_read_self :
    (ht.unlinkItem bucket p item).heap p = none := by
  simp

theorem linked_initHashtable {capacity : Nat}
    (positive : 0 < capacity) (fits : capacity < 2 ^ 32)
    (allocated : ∀ p, ht.fresh ≤ p → ht.heap p = none) :
    Linked (ht.initHashtable capacity) fun _ => [] where
  positive := by
    rwa [initHashtable, Nat.mod_eq_of_lt fits]
  chain _ := rfl
  nodup _ := List.nodup_nil
  separate _ _ p inFirst := by simp at inFirst
  inRange _ _ := rfl
  allocated := allocated

end RdmaKVStore.HashTable
