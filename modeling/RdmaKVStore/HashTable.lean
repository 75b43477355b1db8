import RdmaKVStore.LinkedChain
import RdmaKVStore.PthreadLocks
import RdmaKVStore.Requests

/-!
# The hash table

The data model and functions of `hash.c`.  Item blocks live in a heap and are
named in the order of their allocation, so a name is never used again after
`free`; all allocations succeed.  A result `none` stands for behaviour that a
call does not return from: a mutex that is already taken, a dangling pointer,
or a list walk that revisits a block.
-/

namespace RdmaKVStore

abbrev Ptr := Nat

abbrev WorkerId := Nat

/-- `HT_CAPACITY` -/
def htCapacity : Nat := 1024

/-- `hash_item_t`.  The key block holds the copied bytes and a terminator; the
value block is represented by the bytes that were written to it. -/
structure HashItem where
  next : Option Ptr
  prev : Option Ptr
  key : Bytes
  value : Option Bytes
  valueSize : UInt64
  rwlock : RwLock WorkerId

namespace HashItem

/-- A block cleared by `calloc`. -/
def zero : HashItem where
  next := none
  prev := none
  key := []
  value := none
  valueSize := 0
  rwlock := .free

/-- Everything an item carries besides its links. -/
def data (item : HashItem) :
    Bytes × Option Bytes × UInt64 × RwLock WorkerId :=
  (item.key, item.value, item.valueSize, item.rwlock)

def links : LinkFields Ptr HashItem where
  next := next
  prev := prev
  setNext link item := { item with next := link }
  setPrev link item := { item with prev := link }
  next_setNext _ _ := rfl
  prev_setNext _ _ := rfl
  next_setPrev _ _ := rfl
  prev_setPrev _ _ := rfl

theorem setNext_data (link : Option Ptr) (item : HashItem) :
    (links.setNext link item).data = item.data :=
  rfl

theorem setPrev_data (link : Option Ptr) (item : HashItem) :
    (links.setPrev link item).data = item.data :=
  rfl

end HashItem

/-- The global table `ht` together with the item blocks it links.  `locks`
records the holder of each bucket mutex. -/
structure HashTable where
  capacity : Nat
  items : Nat → Option Ptr
  locks : Nat → Option WorkerId
  heap : Ptr → Option HashItem
  fresh : Ptr

/-- A `char` that becomes an `int`; plain characters are signed. -/
def charToInt (byte : UInt8) : UInt32 :=
  byte.toInt8.toInt32.toUInt32

/-- The loop of `hash`, from the current value of the accumulator. -/
def hashLoop (acc : UInt32) : Bytes → UInt32
  | [] => acc
  | byte :: rest =>
      if byte = 0 then acc
      else hashLoop (((acc <<< 5) + acc) + charToInt byte) rest

/-- `hash` -/
def hash (str : Bytes) : UInt32 :=
  hashLoop 5381 str

namespace HashTable

open LinkedChain

/-- Memory before the first `init_hashtable`: `ht` is null. -/
def unallocated : HashTable where
  capacity := 0
  items _ := none
  locks _ := none
  heap _ := none
  fresh := 0

/-- `init_hashtable`: the old arrays are freed and cleared ones take their
place.  The item blocks of the old table are not freed. -/
def initHashtable (ht : HashTable) (capacity : Nat) : HashTable :=
  { ht with
    capacity := capacity % 2 ^ 32
    items := fun _ => none
    locks := fun _ => none }

/-- `get_bucket` -/
def getBucket (ht : HashTable) (key : Bytes) : Nat :=
  (hash key).toNat % ht.capacity

/-- The loop of `search`. -/
def searchLoop (heap : Ptr → Option HashItem) (key : Bytes) (keyLen : Nat) :
    Nat → Option Ptr → Option (Option Ptr)
  | _, none => some none
  | 0, some _ => none
  | fuel + 1, some current =>
      (heap current).bind fun item =>
        if CString.strncmp keyLen item.key key = 0 then some (some current)
        else searchLoop heap key keyLen fuel item.next

/-- `search`.  A walk over more blocks than were ever allocated has met one of
them twice and does not end. -/
def search (ht : HashTable) (key : Bytes) (keyLen : Nat) :
    Option (Option Ptr) :=
  searchLoop ht.heap key keyLen ht.fresh (ht.items (ht.getBucket key))

theorem search_locks (ht : HashTable) (locks : Nat → Option WorkerId)
    (key : Bytes) (keyLen : Nat) :
    ({ ht with locks := locks } : HashTable).search key keyLen =
      ht.search key keyLen := by
  simp only [search, getBucket]

/-- `pthread_mutex_lock(&ht->locks[bucket])` -/
def lockBucket (ht : HashTable) (worker : WorkerId) (bucket : Nat) :
    Option HashTable :=
  match ht.locks bucket with
  | none => some { ht with locks := Function.update ht.locks bucket worker }
  | some _ => none

/-- `pthread_mutex_unlock(&ht->locks[bucket])` -/
def unlockBucket (ht : HashTable) (bucket : Nat) : HashTable :=
  { ht with locks := Function.update ht.locks bucket none }

/-- A write to the item behind a pointer.  One to a block that has been freed is
lost, whatever lies there by then. -/
def writeItem (ht : HashTable) (p : Ptr) (write : HashItem → HashItem) :
    HashTable :=
  { ht with heap := modifyAt ht.heap (some p) write }

@[simp]
theorem writeItem_heap (ht : HashTable) (p : Ptr)
    (write : HashItem → HashItem) :
    (ht.writeItem p write).heap = modifyAt ht.heap (some p) write :=
  rfl

/-- The item that `get_key_entry` builds for a new key, where `key_len + 1` does
not wrap and the key is as long as that; a longer copy is cut off. -/
def newItem (ht : HashTable) (bucket : Nat) (key : Bytes) (keyLen : Nat) :
    HashItem where
  next := ht.items bucket
  prev := none
  key := key.take keyLen ++ [0]
  value := none
  valueSize := 0
  rwlock := .free

/-- The insertion branch of `get_key_entry`. -/
def insertEntry (ht : HashTable) (bucket : Nat) (key : Bytes) (keyLen : Nat) :
    HashTable × Ptr :=
  ({ ht with
      items := Function.update ht.items bucket ht.fresh
      heap := linkFront HashItem.links ht.heap (ht.items bucket) ht.fresh
        (ht.newItem bucket key keyLen)
      fresh := ht.fresh + 1 }, ht.fresh)

@[simp]
theorem insertEntry_heap (ht : HashTable) (bucket : Nat) (key : Bytes)
    (keyLen : Nat) :
    (ht.insertEntry bucket key keyLen).1.heap =
      linkFront HashItem.links ht.heap (ht.items bucket) ht.fresh
        (ht.newItem bucket key keyLen) :=
  rfl

/-- `get_key_entry` -/
def getKeyEntry (ht : HashTable) (worker : WorkerId) (key : Bytes)
    (keyLen : Nat) : Option (HashTable × Ptr) :=
  let bucket := ht.getBucket key
  (ht.lockBucket worker bucket).bind fun ht =>
    (ht.search key keyLen).map fun entry =>
      match entry with
      | some p => (ht.unlockBucket bucket, p)
      | none =>
          let (ht, p) := ht.insertEntry bucket key keyLen
          (ht.unlockBucket bucket, p)

/-- `pthread_rwlock_unlock(&item->rwlock)` -/
def unlockItem (ht : HashTable) (worker : WorkerId) (p : Ptr) : HashTable :=
  ht.writeItem p fun item => { item with rwlock := item.rwlock.unlock worker }

/-- The body of `remove_item`: unlink the item from its neighbours and from
the bucket head, then free it. -/
def unlinkItem (ht : HashTable) (bucket : Nat) (p : Ptr) (item : HashItem) :
    HashTable :=
  { ht with
    items := Function.update ht.items bucket
      (if ht.items bucket = some p then item.next else ht.items bucket)
    heap := Function.update (bypass HashItem.links ht.heap item) p none }

@[simp]
theorem unlinkItem_heap (ht : HashTable) (bucket : Nat) (p : Ptr)
    (item : HashItem) :
    (ht.unlinkItem bucket p item).heap =
      Function.update (bypass HashItem.links ht.heap item) p none :=
  rfl

/-- `remove_item`.  When the item's lock is taken, the failing branch unlocks
it all the same. -/
def removeItem (ht : HashTable) (worker : WorkerId) (key : Bytes)
    (keyLen : Nat) : Option (HashTable × Int) :=
  let bucket := ht.getBucket key
  (ht.lockBucket worker bucket).bind fun ht =>
    (ht.search key keyLen).bind fun found =>
      match found with
      | none => some (ht.unlockBucket bucket, -1)
      | some p =>
          (ht.heap p).map fun item =>
            match item.rwlock.trywrlock worker with
            | none => ((ht.unlockItem worker p).unlockBucket bucket, -1)
            | some _ => ((ht.unlinkItem bucket p item).unlockBucket bucket, 0)

def Freed (ht : HashTable) (p : Ptr) : Prop :=
  p < ht.fresh ∧ ht.heap p = none

instance (ht : HashTable) (p : Ptr) : Decidable (ht.Freed p) :=
  inferInstanceAs (Decidable (_ ∧ _))

end HashTable

end RdmaKVStore
