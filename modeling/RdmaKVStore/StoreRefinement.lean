import RdmaKVStore.HashTableRuns
import RdmaKVStore.KeyValueHistory
import RdmaKVStore.Kvstore

/-!
# The store as a map

Executed one after another, SET, GET, DEL and RST requests treat the hash table
as a map from exact keys to values, as long as no request meets a longer key
that starts with its own: `search` compares as many bytes as the request
announces and stops at such a key when it comes first in the bucket.
-/

namespace RdmaKVStore

open LinkedChain HashTable

/-- The map operation that a request stands for. -/
def Request.operation (request : Request) : MapOperation Bytes Bytes :=
  match request.method with
  | .set => .assign request.keyString request.payload
  | .del => .erase request.keyString
  | .rst => .clear
  | _ => .inspect

namespace HashTable

/-- The first item in a key's bucket whose key starts with it, if there is
one, carries the key itself: no longer key comes before it. -/
def LookupExact (ht : HashTable) (key : Bytes) : Prop :=
  ∀ p ∈ (ht.bucketItems (ht.getBucket key)).find? (fun p =>
      (ht.keyAt p).any fun stored => CString.contents key <+: stored),
    ht.keyAt p = some (CString.contents key)

instance (ht : HashTable) (key : Bytes) : Decidable (ht.LookupExact key) :=
  inferInstanceAs (Decidable (∀ _ ∈ _, _))

variable {ht after : HashTable} {chains chains' : Nat → List Ptr}
variable {bucket : Nat} {p : Ptr} {item : HashItem} {key : Bytes}
variable {stored : Bytes → Option Bytes}

theorem matchesKey_strlen_eq :
    matchesKey ht.heap key (CString.strlen key) = fun p =>
      (ht.keyAt p).any fun stored => CString.contents key <+: stored := by
  funext p
  rw [Bool.eq_iff_iff, matchesKey_strlen_iff]
  cases read : ht.heap p <;> simp [keyAt, read]

theorem Linked.lookupExact_iff (linked : Linked ht chains) :
    ht.LookupExact key ↔
      ∀ p, ht.search key (CString.strlen key) = some (some p) →
        ht.keyAt p = some (CString.contents key) := by
  rw [linked.search_eq, matchesKey_strlen_eq, LookupExact,
    linked.bucketItems_eq]
  simp only [Option.mem_def, Option.some.injEq]

theorem Consistent.search_exact (consistent : Consistent ht chains)
    (exactKey : ht.LookupExact key) :
    (ht.search key (CString.strlen key) = some none ∧
        ∀ p ∈ chains (ht.getBucket key),
          ht.keyAt p ≠ some (CString.contents key)) ∨
      ∃ p item, ht.search key (CString.strlen key) = some (some p) ∧
        p ∈ chains (ht.getBucket key) ∧ ht.heap p = some item ∧
          CString.contents item.key = CString.contents key := by
  rcases consistent.search_cases key (CString.strlen key) with
    missing | ⟨p, item, found, member, read⟩
  · refine .inl ⟨missing, fun p member sameKey => ?_⟩
    obtain ⟨item, read, keyEq⟩ := Option.map_eq_some_iff.mp sameKey
    rw [consistent.linked.search_eq, Option.some.injEq,
      List.find?_eq_none] at missing
    exact missing p member (matchesKey_strlen_iff.mpr
      ⟨item, read, keyEq ▸ List.prefix_refl _⟩)
  · refine .inr ⟨p, item, found, member, read, ?_⟩
    have sameKey := consistent.linked.lookupExact_iff.mp exactKey p found
    rwa [keyAt, read, Option.map_some, Option.some.injEq] at sameKey

theorem Consistent.writeItem (consistent : Consistent ht chains)
    {write : HashItem → HashItem}
    (keepsNext : ∀ item, (write item).next = item.next)
    (keepsPrev : ∀ item, (write item).prev = item.prev)
    (keepsKey : ∀ item, (write item).key = item.key)
    (frees : ∀ item, (write item).rwlock = .free) :
    Consistent (ht.writeItem p write) chains := by
  have keyKept (q : Ptr) : ((ht.writeItem p write).heap q).map HashItem.key =
      (ht.heap q).map HashItem.key := by
    rw [writeItem_heap]
    exact modifyAt_map keepsKey q
  refine ⟨consistent.linked.writeItem keepsNext keepsPrev, ⟨?_, ?_⟩,
    ⟨consistent.quiet.mutexes, ?_⟩⟩
  · intro b q item member read
    have same := keyKept q
    rw [read, Option.map_some, eq_comm, Option.map_eq_some_iff] at same
    obtain ⟨item', read', keyEq⟩ := same
    have placed := consistent.placed.bucket b q item' member read'
    rwa [keyEq] at placed
  · intro b q r inQ inR sameKey
    have keyAtKept (s : Ptr) : (ht.writeItem p write).keyAt s = ht.keyAt s := by
      have same := congrArg (Option.map CString.contents) (keyKept s)
      simpa [Option.map_map, Function.comp_def, keyAt] using same
    rw [keyAtKept, keyAtKept] at sameKey
    exact consistent.placed.distinct b q r inQ inR sameKey
  · intro q item read
    by_cases target : p = q
    · subst target
      rw [writeItem_heap, modifyAt_self, Option.map_eq_some_iff] at read
      obtain ⟨item', -, rfl⟩ := read
      exact frees item'
    · rw [writeItem_heap, modifyAt_of_ne (by simpa using target)] at read
      exact consistent.quiet.rwlocks q item read

/-- A quiescent table holds exactly the keys and values of a map. -/
structure Represents (ht : HashTable) (chains : Nat → List Ptr)
    (stored : Bytes → Option Bytes) : Prop where
  consistent : Consistent ht chains
  sound : ∀ b p item, p ∈ chains b → ht.heap p = some item →
    ∃ value, stored (CString.contents item.key) = some value ∧
      item.value = some value ∧ item.valueSize.toNat = value.length ∧
        value.length ≤ msgSize
  complete : ∀ key value, stored (CString.contents key) = some value →
    ∃ p ∈ chains (ht.getBucket key),
      ht.keyAt p = some (CString.contents key)

theorem represents_empty : Represents empty (fun _ => []) fun _ => none where
  consistent := consistent_empty
  sound _ _ _ member := by simp at member
  complete _ _ held := by simp at held

theorem Represents.assign (represents : Represents ht chains stored)
    {value : Bytes} (consistent : Consistent after chains')
    (capacity : after.capacity = ht.capacity) (member : p ∈ chains' bucket)
    (read : after.heap p = some item) (valueEq : item.value = some value)
    (sizeEq : item.valueSize.toNat = value.length)
    (fits : value.length ≤ msgSize)
    (keeps : ∀ b q, q ∈ chains b → q ∈ chains' b)
    (adds : ∀ b q, q ∈ chains' b → q ≠ p → q ∈ chains b)
    (data : ∀ q, q ≠ p → (after.heap q).map HashItem.data =
      (ht.heap q).map HashItem.data)
    (sameKey : ∀ item', ht.heap p = some item' → item'.key = item.key) :
    Represents after chains'
      (Function.update stored (CString.contents item.key) (some value)) where
  consistent := consistent
  sound b q item' inB read' := by
    by_cases same : q = p
    · subst same
      obtain rfl := Option.some.inj (read.symm.trans read')
      exact ⟨value, Function.update_self _ _ _, valueEq, sizeEq, fits⟩
    · obtain ⟨old, readOld, dataEq⟩ := read_of_data_eq (data q same) read'
      simp only [HashItem.data, Prod.mk.injEq] at dataEq
      obtain ⟨keyEq, valueEq', sizeEq', -⟩ := dataEq
      obtain ⟨value', held, isValue, isSize, small⟩ :=
        represents.sound b q old (adds b q inB same) readOld
      have otherKey :
          CString.contents item'.key ≠ CString.contents item.key :=
        fun equal => same (consistent.wellFormedTable.distinct b bucket q p
          item' item inB member read' read equal)
      refine ⟨value', ?_, valueEq' ▸ isValue, sizeEq' ▸ isSize, small⟩
      rw [Function.update_of_ne otherKey, ← keyEq]
      exact held
  complete key value' held := by
    by_cases same : CString.contents key = CString.contents item.key
    · refine ⟨p, ?_, by rw [keyAt, read, Option.map_some, same]⟩
      rw [after.getBucket_congr same]
      rwa [consistent.placed.bucket bucket p item member read]
    · rw [Function.update_of_ne same] at held
      obtain ⟨q, inB, keyQ⟩ := represents.complete key value' held
      have bucketEq : after.getBucket key = ht.getBucket key := by
        rw [getBucket, capacity, getBucket]
      have notP : q ≠ p := by
        rintro rfl
        obtain ⟨old, readOld, keyOld⟩ := Option.map_eq_some_iff.mp keyQ
        exact same (by rw [← keyOld, sameKey old readOld])
      exact ⟨q, bucketEq ▸ keeps _ q inB,
        by rw [keyAt_congr (data q notP), keyQ]⟩

theorem Represents.erase (represents : Represents ht chains stored)
    (member : p ∈ chains bucket) (read : ht.heap p = some item) :
    Represents (ht.unlinkItem bucket p item)
      (Function.update chains bucket ((chains bucket).erase p))
      (Function.update stored (CString.contents item.key) none) := by
  have consistent := represents.consistent.unlinkItem member read
  have old (b : Nat) (q : Ptr) (inB : q ∈ Function.update chains bucket
      ((chains bucket).erase p) b) : q ∈ chains b ∧ q ≠ p := by
    by_cases same : b = bucket
    · subst same
      rw [Function.update_self] at inB
      exact ⟨List.mem_of_mem_erase inB, fun equal =>
        (represents.consistent.linked.nodup b).not_mem_erase (equal ▸ inB)⟩
    · rw [Function.update_of_ne same] at inB
      exact ⟨inB, fun equal => same
        (represents.consistent.linked.separate b bucket q inB
          (equal ▸ member))⟩
  refine ⟨consistent, ?_, ?_⟩
  · intro b q item' inB read'
    obtain ⟨inOld, notP⟩ := old b q inB
    obtain ⟨oldItem, readOld, dataEq⟩ :=
      read_of_data_eq (unlinkItem_data notP) read'
    simp only [HashItem.data, Prod.mk.injEq] at dataEq
    obtain ⟨keyEq, valueEq, sizeEq, -⟩ := dataEq
    obtain ⟨value, held, isValue, isSize, small⟩ :=
      represents.sound b q oldItem inOld readOld
    have otherKey :
        CString.contents item'.key ≠ CString.contents item.key :=
      fun equal => notP (represents.consistent.wellFormedTable.distinct b
        bucket q p oldItem item inOld member readOld read (keyEq ▸ equal))
    refine ⟨value, ?_, valueEq ▸ isValue, sizeEq ▸ isSize, small⟩
    rw [Function.update_of_ne otherKey, ← keyEq]
    exact held
  · intro key value held
    by_cases same : CString.contents key = CString.contents item.key
    · rw [same, Function.update_self] at held
      cases held
    · rw [Function.update_of_ne same] at held
      obtain ⟨q, inB, keyQ⟩ := represents.complete key value held
      have notP : q ≠ p := by
        rintro rfl
        rw [keyAt, read, Option.map_some, Option.some.injEq] at keyQ
        exact same keyQ.symm
      refine ⟨q, ?_, by rw [keyAt_congr (unlinkItem_data notP), keyQ]⟩
      have bucketEq : (ht.unlinkItem bucket p item).getBucket key =
          ht.getBucket key := rfl
      rw [bucketEq]
      by_cases here : ht.getBucket key = bucket
      · rw [here, Function.update_self]
        rw [here] at inB
        exact (List.mem_erase_of_ne notP).mpr inB
      · rwa [Function.update_of_ne here]

end HashTable

end RdmaKVStore
