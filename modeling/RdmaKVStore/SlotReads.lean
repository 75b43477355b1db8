import RdmaKVStore.WorkerInvariant

/-!
# Requests read from a posted slot

`recv_request` returns a pointer into the ring of receive buffers, whose slots
stay posted, so the adapter may write another message there between two reads.
Here a worker keeps only the local variables of the functions it is in and reads
everything else from the slot at each step.  A worker whose slot is left alone
takes the steps of `WorkerSteps`.
-/

namespace RdmaKVStore

open LinkedChain HashTable

/-- Where a worker is in its request, with the variables read so far:
`expected_len` of `set_request`, and `key_len` and `bucket` of `get_key_entry`
and `remove_item`. -/
inductive SlotPhase
  | dispatch
  | setExpectedLen
  | setGetKeyEntry (expectedLen : UInt64)
  | setLockBucket (expectedLen keyLen : UInt64) (bucket : Nat)
  | setSearch (expectedLen keyLen : UInt64) (bucket : Nat)
  | setInsert (expectedLen keyLen : UInt64) (bucket : Nat)
  | setUnlockBucket (expectedLen : UInt64) (bucket : Nat) (p : Ptr)
  | setTrywrlock (expectedLen : UInt64) (p : Ptr)
  | setStore (expectedLen : UInt64) (p : Ptr)
  | setUnlock (p : Ptr)
  | getSearch
  | getTryrdlock (p : Ptr)
  | getCopy (p : Ptr)
  | getUnlock (p : Ptr)
  | delRemoveItem
  | delLockBucket (keyLen : UInt64) (bucket : Nat)
  | delSearch (keyLen : UInt64) (bucket : Nat)
  | delTrywrlock (bucket : Nat) (p : Ptr)
  | delFailUnlock (bucket : Nat) (p : Ptr)
  | delUnlink (bucket : Nat) (p : Ptr)
  | delUnlockBucket (bucket : Nat)
  | finished
  deriving DecidableEq

/-- The copy of a SET: the bytes of the message as it is now, with the length
that was read before. -/
def HashTable.storeMessage (ht : HashTable) (p : Ptr) (slot : Request)
    (expectedLen : UInt64) : HashTable :=
  ht.writeItem p fun item =>
    { item with value := some slot.payload, valueSize := expectedLen }

/-- One step of a worker whose pointer leads to `slot`; `none` while it waits
for a mutex. -/
def SlotPhase.step (ht : HashTable) (worker : WorkerId) (slot : Request)
    (stale : HashItem) : SlotPhase → Option (HashTable × SlotPhase)
  | .finished => none
  | .dispatch =>
      match slot.method with
      | .set => some (ht, .setExpectedLen)
      | .get => some (ht, .getSearch)
      | .del => some (ht, .delRemoveItem)
      | .rst => some (ht.initHashtable htCapacity, .finished)
      | _ => some (ht, .finished)
  | .setExpectedLen => some (ht, .setGetKeyEntry slot.msgLen)
  | .setGetKeyEntry expectedLen =>
      some (ht, .setLockBucket expectedLen slot.keyLen
        (ht.getBucket slot.keyMemory))
  | .setLockBucket expectedLen keyLen bucket =>
      (ht.lockBucket worker bucket).map
        fun ht => (ht, .setSearch expectedLen keyLen bucket)
  | .setSearch expectedLen keyLen bucket =>
      (ht.search slot.keyMemory keyLen.toNat).map fun entry =>
        match entry with
        | some p => (ht, .setUnlockBucket expectedLen bucket p)
        | none => (ht, .setInsert expectedLen keyLen bucket)
  | .setInsert expectedLen keyLen bucket =>
      let inserted := ht.insertEntry bucket slot.keyMemory keyLen.toNat
      some (inserted.1, .setUnlockBucket expectedLen bucket inserted.2)
  | .setUnlockBucket expectedLen bucket p =>
      some (ht.unlockBucket bucket, .setTrywrlock expectedLen p)
  | .setTrywrlock expectedLen p =>
      match (ht.readItem p stale).rwlock.trywrlock worker with
      | none => some (ht, .finished)
      | some held => some (ht.setRwlock p held, .setStore expectedLen p)
  | .setStore expectedLen p =>
      some (ht.storeMessage p slot expectedLen, .setUnlock p)
  | .setUnlock p => some (ht.unlockItem worker p, .finished)
  | .getSearch =>
      (ht.search slot.keyMemory slot.keyLen.toNat).map fun found =>
        match found with
        | none => (ht, .finished)
        | some p => (ht, .getTryrdlock p)
  | .getTryrdlock p =>
      match (ht.readItem p stale).rwlock.tryrdlock worker with
      | none => some (ht, .finished)
      | some held => some (ht.setRwlock p held, .getCopy p)
  | .getCopy p => some (ht, .getUnlock p)
  | .getUnlock p => some (ht.unlockItem worker p, .finished)
  | .delRemoveItem =>
      some (ht, .delLockBucket slot.keyLen (ht.getBucket slot.keyMemory))
  | .delLockBucket keyLen bucket =>
      (ht.lockBucket worker bucket).map fun ht => (ht, .delSearch keyLen bucket)
  | .delSearch keyLen bucket =>
      (ht.search slot.keyMemory keyLen.toNat).map fun found =>
        match found with
        | none => (ht, .delUnlockBucket bucket)
        | some p => (ht, .delTrywrlock bucket p)
  | .delTrywrlock bucket p =>
      match (ht.readItem p stale).rwlock.trywrlock worker with
      | none => some (ht, .delFailUnlock bucket p)
      | some held => some (ht.setRwlock p held, .delUnlink bucket p)
  | .delFailUnlock bucket p =>
      some (ht.unlockItem worker p, .delUnlockBucket bucket)
  | .delUnlink bucket p =>
      some (ht.unlinkItem bucket p (ht.readItem p stale),
        .delUnlockBucket bucket)
  | .delUnlockBucket bucket => some (ht.unlockBucket bucket, .finished)

/-- The phase of a worker whose request is still the one that it took up. -/
def Phase.slotPhase (ht : HashTable) : Phase → SlotPhase
  | .idle | .finished _ _ => .finished
  | .setLockBucket request => .setLockBucket request.msgLen request.keyLen
      (ht.getBucket request.keyMemory)
  | .setFindEntry request => .setSearch request.msgLen request.keyLen
      (ht.getBucket request.keyMemory)
  | .setUnlockBucket request p => .setUnlockBucket request.msgLen
      (ht.getBucket request.keyMemory) p
  | .setTrywrlock request p => .setTrywrlock request.msgLen p
  | .setStore request p => .setStore request.msgLen p
  | .setUnlock _ p => .setUnlock p
  | .getSearch _ => .getSearch
  | .getTryrdlock _ p => .getTryrdlock p
  | .getCopy _ p => .getCopy p
  | .getUnlock _ p _ => .getUnlock p
  | .delLockBucket request => .delLockBucket request.keyLen
      (ht.getBucket request.keyMemory)
  | .delSearch request => .delSearch request.keyLen
      (ht.getBucket request.keyMemory)
  | .delTrywrlock request p => .delTrywrlock (ht.getBucket request.keyMemory) p
  | .delFailUnlock request p =>
      .delFailUnlock (ht.getBucket request.keyMemory) p
  | .delUnlink request p => .delUnlink (ht.getBucket request.keyMemory) p
  | .delUnlockBucket request _ =>
      .delUnlockBucket (ht.getBucket request.keyMemory)

theorem Phase.slotPhase_of_finished {ht : HashTable} {phase : Phase}
    (finished : phase.Finished) : phase.slotPhase ht = .finished := by
  cases phase with
  | idle | finished => rfl
  | _ => exact finished.elim

theorem Phase.slotPhase_congr {ht after : HashTable}
    (same : after.getBucket = ht.getBucket) :
    Phase.slotPhase after = Phase.slotPhase ht := by
  funext phase
  unfold Phase.slotPhase
  rw [same]

/-- A step of a worker whose request is still in its slot is one step here, or
two for a SET that adds its item. -/
theorem Advances.slotSteps {ht after : HashTable} {worker : WorkerId}
    {stale : HashItem} {before next : Phase} {slot : Request}
    (advances : Advances ht worker stale before after next)
    (kept : before.current = some slot) :
    (before.slotPhase ht).step ht worker slot stale =
        some (after, next.slotPhase ht) ∨
      ∃ middle, (before.slotPhase ht).step ht worker slot stale =
          some (ht, middle) ∧
        middle.step ht worker slot stale =
          some (after, next.slotPhase ht) := by
  cases advances with
  | setInsert missing =>
      cases kept
      exact .inr ⟨.setInsert slot.msgLen slot.keyLen
        (ht.getBucket slot.keyMemory),
          by simp [Phase.slotPhase, SlotPhase.step, missing], rfl⟩
  | setLockBucket free | delLockBucket free =>
      cases kept
      left
      simp [Phase.slotPhase, SlotPhase.step, HashTable.lockBucket, free,
        HashTable.takeBucket]
  | setFound found | getMissing found | getFound found | delMissing found
  | delFound found =>
      cases kept
      left
      simp [Phase.slotPhase, SlotPhase.step, found]
  | setRefused held | delRefused held =>
      cases kept
      left
      simp [Phase.slotPhase, SlotPhase.step,
        RwLock.trywrlock_eq_none_iff.mpr held]
  | setLocked free | delLocked free =>
      cases kept
      left
      simp [Phase.slotPhase, SlotPhase.step,
        RwLock.trywrlock_eq_some_iff.mpr ⟨free, rfl⟩]
  | getLocked shared =>
      cases kept
      left
      simp [Phase.slotPhase, SlotPhase.step,
        RwLock.tryrdlock_eq_some_iff.mpr ⟨_, shared, rfl⟩]
  | getRefused held =>
      cases kept
      left
      simp [Phase.slotPhase, SlotPhase.step, held]
  | setUnlockBucket | setStore | setUnlock | getCopy | getUnlock
  | delFailUnlock | delUnlink | delUnlockBucket =>
      cases kept
      exact .inl rfl

end RdmaKVStore
