import RdmaKVStore.PublishedValues

/-!
# Contents of the table

What a table stores is the list of keys, values and sizes of each bucket.  A
lookup depends on nothing else.  Of all steps of the workers only the insertion
of an item, the write of a value and the removal of an item change it, and only
the insertion adds a key.
-/

namespace RdmaKVStore

open LinkedChain HashTable

/-- The key strings, values and sizes of the items of a bucket, in the order in
which `search` meets them. -/
def HashTable.contents (ht : HashTable) (bucket : Nat) :
    List (Bytes × Option Bytes × UInt64) :=
  (ht.bucketItems bucket).filterMap ht.entryAt

def HashTable.keys (ht : HashTable) (bucket : Nat) : List Bytes :=
  (ht.contents bucket).map Prod.fst

/-- A search for the key compares it equal with a stored key string. -/
def StopsAt (key : Bytes) (keyLen : Nat) (stored : Bytes) : Prop :=
  stored.take keyLen = (CString.contents key).take keyLen

instance (key : Bytes) (keyLen : Nat) (stored : Bytes) :
    Decidable (StopsAt key keyLen stored) :=
  inferInstanceAs (Decidable (_ = _))

/-- The step adds an item to the table: `get_key_entry` finds none. -/
def Phase.Adds (ht : HashTable) : Phase → Prop
  | .setFindEntry request =>
      ht.search request.keyMemory request.keyLen.toNat = some none
  | _ => False

instance (ht : HashTable) (phase : Phase) : Decidable (phase.Adds ht) :=
  match phase with
  | .setFindEntry request => inferInstanceAs (Decidable
      (ht.search request.keyMemory request.keyLen.toNat = some none))
  | .idle | .setLockBucket _ | .setUnlockBucket _ _ | .setTrywrlock _ _
  | .setStore _ _ | .setUnlock _ _ | .getSearch _ | .getTryrdlock _ _
  | .getCopy _ _ | .getUnlock _ _ _ | .delLockBucket _ | .delSearch _
  | .delTrywrlock _ _ | .delFailUnlock _ _ | .delUnlink _ _
  | .delUnlockBucket _ _ | .finished _ _ => isFalse id

/-- The request whose item a step adds. -/
def Phase.additions (ht : HashTable) : Phase → List Request
  | .setFindEntry request =>
      if ht.search request.keyMemory request.keyLen.toNat = some none then
        [request]
      else []
  | _ => []

/-- The key string of the item that `get_key_entry` builds. -/
def Request.addedKey (request : Request) : Bytes :=
  CString.contents (request.keyMemory.take request.keyLen.toNat ++ [0])

variable {ht after : HashTable} {worker : WorkerId} {stale : HashItem}
variable {before next : Phase} {chains : Nat → List Ptr} {p : Ptr}
variable {key : Bytes} {keyLen bucket : Nat}

namespace HashTable

theorem contents_congr (items : after.bucketItems = ht.bucketItems)
    (entries : ∀ p, after.entryAt p = ht.entryAt p) :
    after.contents = ht.contents := by
  funext bucket
  rw [contents, items, funext entries, contents]

theorem matchesKey_iff_stopsAt :
    matchesKey ht.heap key keyLen p = true ↔
      ∃ stored, ht.keyAt p = some stored ∧ StopsAt key keyLen stored := by
  cases read : ht.heap p with
  | none => simp [matchesKey, keyAt, read]
  | some item =>
      simp [matchesKey, keyAt, read, CString.strncmp_eq_zero_iff, StopsAt]

theorem keys_eq_filterMap :
    ht.keys bucket = (ht.bucketItems bucket).filterMap ht.keyAt := by
  rw [keys, contents, List.map_filterMap]
  apply List.filterMap_congr
  intro p _
  rw [entryAt, Option.map_map, keyAt]
  rfl

theorem filterMap_entryAt_congr {items : List Ptr}
    (data : ∀ p ∈ items, (after.heap p).map HashItem.data =
      (ht.heap p).map HashItem.data) :
    items.filterMap after.entryAt = items.filterMap ht.entryAt :=
  List.filterMap_congr fun p member => entryAt_of_data_eq (data p member)

theorem Linked.contents_insertEntry (linked : Linked ht chains)
    (request : Request) (inside : bucket < ht.capacity) :
    (ht.insertEntry bucket request.keyMemory
        request.keyLen.toNat).1.contents =
      Function.update ht.contents bucket
        ((request.addedKey, none, 0) :: ht.contents bucket) := by
  have items : (ht.insertEntry bucket request.keyMemory
      request.keyLen.toNat).1.bucketItems =
        Function.update chains bucket (ht.fresh :: chains bucket) :=
    (linked.insertEntry inside).bucketItems_eq
  have kept (other : Nat) :
      (chains other).filterMap (ht.insertEntry bucket request.keyMemory
          request.keyLen.toNat).1.entryAt =
        (chains other).filterMap ht.entryAt :=
    filterMap_entryAt_congr fun p member =>
      insertEntry_data (linked.lt_fresh member).ne
  have fresh : (ht.insertEntry bucket request.keyMemory
      request.keyLen.toNat).1.entryAt ht.fresh =
        some (request.addedKey, none, 0) := by
    rw [entryAt, insertEntry_read_fresh, Option.map_some]
    rfl
  funext other
  rw [contents, items]
  by_cases same : other = bucket
  · subst same
    rw [Function.update_self, Function.update_self,
      List.filterMap_cons_some fresh, kept, contents, linked.bucketItems_eq]
  · rw [Function.update_of_ne same, Function.update_of_ne same, kept, contents,
      linked.bucketItems_eq]

theorem Linked.keys_storeValue (linked : Linked ht chains) (p : Ptr)
    (request : Request) :
    (ht.storeValue p request).keys = ht.keys := by
  funext bucket
  rw [keys_eq_filterMap, keys_eq_filterMap, linked.bucketItems_storeValue]
  apply List.filterMap_congr
  intro q _
  rw [keyAt, storeValue, writeItem_heap, keyAt]
  apply modifyAt_map
  intro item
  rfl

theorem Linked.keys_unlinkItem {item : HashItem} (linked : Linked ht chains)
    (member : p ∈ chains bucket) (read : ht.heap p = some item)
    (other : Nat) :
    (ht.unlinkItem bucket p item).keys other ⊆ ht.keys other := by
  rw [keys_eq_filterMap, keys_eq_filterMap,
    (linked.unlinkItem member read).bucketItems_eq, linked.bucketItems_eq]
  intro key stored
  obtain ⟨q, inChain, keyed⟩ := List.mem_filterMap.mp stored
  have live : q ≠ p := by
    rintro rfl
    rw [keyAt, unlinkItem_read_self] at keyed
    cases keyed
  rw [keyAt_congr (unlinkItem_data live)] at keyed
  refine List.mem_filterMap.mpr ⟨q, ?_, keyed⟩
  by_cases same : other = bucket
  · subst same
    rw [Function.update_self] at inChain
    exact List.mem_of_mem_erase inChain
  · rwa [Function.update_of_ne same] at inChain

end HashTable

/-- The phases whose step may change the value of an item or remove one. -/
def Phase.Rewrites : Phase → Prop
  | .setStore _ _ | .delUnlink _ _ => True
  | _ => False

namespace Advances

/-- A step adds one item to the contents, or no key to them at all; only the
write of a value and a removal change the other contents. -/
theorem contents_cases
    (advances : Advances ht worker stale before after next)
    (linked : Linked ht ht.bucketItems)
    (doomed : ∀ key p, before.doomed = some (key, p) →
      p ∈ ht.bucketItems (ht.getBucket key)) :
    after.contents = ht.contents ∧ ¬ before.Adds ht ∨
      (∃ request, before = .setFindEntry request ∧ before.Adds ht ∧
        before.additions ht = [request] ∧
        after.contents =
          Function.update ht.contents (ht.getBucket request.keyMemory)
            ((request.addedKey, none, 0) ::
              ht.contents (ht.getBucket request.keyMemory))) ∨
      before.Rewrites ∧ ¬ before.Adds ht ∧
        ∀ bucket, after.keys bucket ⊆ ht.keys bucket := by
  cases advances with
  | @setInsert request missing =>
      exact .inr (.inl ⟨request, rfl, missing, if_pos missing,
        linked.contents_insertEntry request (linked.getBucket_lt _)⟩)
  | setFound found =>
      refine .inl ⟨rfl, fun missing => ?_⟩
      cases missing.symm.trans found
  | setStore =>
      refine .inr (.inr ⟨trivial, id, fun bucket => ?_⟩)
      rw [linked.keys_storeValue]
      exact List.Subset.refl _
  | delUnlink =>
      have member := doomed _ _ rfl
      exact .inr (.inr ⟨trivial, id,
        linked.keys_unlinkItem member (linked.readItem_of_mem member)⟩)
  | setLocked | getLocked | delLocked =>
      exact .inl ⟨contents_congr (linked.bucketItems_setRwlock _ _)
        fun _ => entryAt_writeItem fun _ => rfl, id⟩
  | setUnlock | getUnlock | delFailUnlock =>
      exact .inl ⟨contents_congr (linked.bucketItems_unlockItem _ _)
        fun _ => entryAt_writeItem fun _ => rfl, id⟩
  | _ => exact .inl ⟨rfl, id⟩

end Advances

end RdmaKVStore
