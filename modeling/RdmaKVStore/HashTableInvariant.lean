import RdmaKVStore.HashTableChains

/-!
# Representation invariant of the hash table

With keys whose length argument is their string length, every linked item lies
in the bucket of its own key and no two items have equal keys.  The file states
this invariant, shows that the edits of the table keep it, and evaluates whole
calls of `get_key_entry` and `remove_item` on tables without held locks.
-/

namespace RdmaKVStore

theorem hashLoop_contents (acc : UInt32) (str : Bytes) :
    hashLoop acc (CString.contents str) = hashLoop acc str := by
  induction str generalizing acc with
  | nil => rfl
  | cons byte str ih =>
      by_cases zero : byte = 0
      · subst zero; rfl
      · rw [CString.contents_cons_of_ne _ zero]
        simp [hashLoop, zero, ih]

theorem hash_congr {first second : Bytes}
    (same : CString.contents first = CString.contents second) :
    hash first = hash second := by
  unfold hash
  rw [← hashLoop_contents, same, hashLoop_contents]

namespace HashTable

open LinkedChain

theorem getBucket_congr (ht : HashTable) {first second : Bytes}
    (same : CString.contents first = CString.contents second) :
    ht.getBucket first = ht.getBucket second := by
  rw [getBucket, hash_congr same, getBucket]

def keyAt (ht : HashTable) (p : Ptr) : Option Bytes :=
  (ht.heap p).map fun item => CString.contents item.key

/-- Every linked item lies in the bucket of its own key, and keys are
unique. -/
structure KeysPlaced (ht : HashTable) (chains : Nat → List Ptr) : Prop where
  bucket : ∀ b p item, p ∈ chains b → ht.heap p = some item →
    ht.getBucket item.key = b
  distinct : ∀ b p q, p ∈ chains b → q ∈ chains b →
    ht.keyAt p = ht.keyAt q → p = q

/-- No lock is held between whole calls. -/
structure Quiescent (ht : HashTable) : Prop where
  mutexes : ∀ bucket, ht.locks bucket = none
  rwlocks : ∀ p item, ht.heap p = some item → item.rwlock = .free

variable {ht : HashTable} {chains : Nat → List Ptr} {bucket : Nat} {p q : Ptr}
variable {key : Bytes} {keyLen : Nat} {item : HashItem} {worker : WorkerId}

theorem read_of_data_eq {other : HashTable}
    (same : (other.heap p).map HashItem.data =
      (ht.heap p).map HashItem.data)
    (read : other.heap p = some item) :
    ∃ item', ht.heap p = some item' ∧ item'.data = item.data := by
  rw [read, Option.map_some] at same
  cases read' : ht.heap p with
  | none => simp [read'] at same
  | some item' =>
      rw [read', Option.map_some, Option.some.injEq] at same
      exact ⟨item', rfl, same.symm⟩

theorem keyAt_congr {other : HashTable}
    (same : (other.heap p).map HashItem.data =
      (ht.heap p).map HashItem.data) : other.keyAt p = ht.keyAt p := by
  have projected := congrArg
    (Option.map fun data => CString.contents data.1) same
  simpa [Option.map_map, Function.comp_def, HashItem.data, keyAt]
    using projected

theorem KeysPlaced.of_data {other : HashTable} {fewer : Nat → List Ptr}
    (placed : KeysPlaced ht chains) (capacity : other.capacity = ht.capacity)
    (within : ∀ b, fewer b ⊆ chains b)
    (data : ∀ b p, p ∈ fewer b → (other.heap p).map HashItem.data =
      (ht.heap p).map HashItem.data) : KeysPlaced other fewer where
  bucket b p item member read := by
    obtain ⟨item', read', same⟩ := read_of_data_eq (data b p member) read
    have keyEq : item'.key = item.key := congrArg Prod.fst same
    rw [getBucket, capacity, ← keyEq]
    exact placed.bucket b p item' (within b member) read'
  distinct b p q inP inQ sameKey := by
    rw [keyAt_congr (data b p inP), keyAt_congr (data b q inQ)] at sameKey
    exact placed.distinct b p q (within b inP) (within b inQ) sameKey

/-- With the string length as count, `search` stops at the items whose key the
searched key is a prefix of. -/
theorem matchesKey_strlen_iff {heap : Ptr → Option HashItem} :
    matchesKey heap key (CString.strlen key) p = true ↔
      ∃ item, heap p = some item ∧
        CString.contents key <+: CString.contents item.key := by
  cases read : heap p with
  | none => simp [matchesKey, read]
  | some item =>
      simp [matchesKey, read, CString.strncmp_strlen_eq_zero_iff]

theorem contents_newItem_key (ht : HashTable) (bucket : Nat) (key : Bytes) :
    CString.contents
        (ht.newItem bucket key (CString.strlen key)).key =
      CString.contents key := by
  rw [newItem, CString.take_strlen]
  exact CString.contents_append_zero [] (CString.zero_notMem_contents key)

theorem KeysPlaced.insertEntry (linked : Linked ht chains)
    (placed : KeysPlaced ht chains)
    (missing : ht.search key (CString.strlen key) = some none) :
    KeysPlaced
      (ht.insertEntry (ht.getBucket key) key (CString.strlen key)).1
      (Function.update chains (ht.getBucket key)
        (ht.fresh :: chains (ht.getBucket key))) := by
  set bucket := ht.getBucket key with bucketEq
  have old : KeysPlaced
      (ht.insertEntry bucket key (CString.strlen key)).1 chains :=
    placed.of_data rfl (fun _ => List.Subset.refl _) fun b p member =>
      insertEntry_data (linked.lt_fresh member).ne
  have freshKey :
      (ht.insertEntry bucket key (CString.strlen key)).1.keyAt ht.fresh =
        some (CString.contents key) := by
    rw [keyAt, insertEntry_read_fresh, Option.map_some, contents_newItem_key]
  have newKey : ∀ q ∈ chains bucket,
      (ht.insertEntry bucket key (CString.strlen key)).1.keyAt q ≠
        some (CString.contents key) := by
    intro q member same
    rw [keyAt_congr (insertEntry_data (linked.lt_fresh member).ne),
      keyAt, Option.map_eq_some_iff] at same
    obtain ⟨item, read, keyEq⟩ := same
    rw [linked.search_eq, Option.some.injEq, List.find?_eq_none] at missing
    exact missing q member
      (matchesKey_strlen_iff.mpr ⟨item, read, keyEq ▸ List.prefix_refl _⟩)
  constructor
  · intro b p item member read
    by_cases same : b = bucket
    · subst same
      rw [Function.update_self] at member
      rcases List.mem_cons.mp member with rfl | member
      · rw [insertEntry_read_fresh, Option.some.injEq] at read
        subst read
        exact getBucket_congr ht (contents_newItem_key ht _ key)
      · exact old.bucket _ p item member read
    · rw [Function.update_of_ne same] at member
      exact old.bucket b p item member read
  · intro b p q inP inQ sameKey
    by_cases same : b = bucket
    · subst same
      rw [Function.update_self] at inP inQ
      rcases List.mem_cons.mp inP with rfl | inP <;>
        rcases List.mem_cons.mp inQ with rfl | inQ
      · rfl
      · exact absurd (sameKey.symm.trans freshKey) (newKey q inQ)
      · exact absurd (sameKey.trans freshKey) (newKey p inP)
      · exact old.distinct _ p q inP inQ sameKey
    · rw [Function.update_of_ne same] at inP inQ
      exact old.distinct b p q inP inQ sameKey

theorem KeysPlaced.unlinkItem (linked : Linked ht chains)
    (placed : KeysPlaced ht chains) (inBucket : p ∈ chains bucket) :
    KeysPlaced (ht.unlinkItem bucket p item)
      (Function.update chains bucket ((chains bucket).erase p)) := by
  refine placed.of_data rfl (fun b => ?_) fun b q member =>
    unlinkItem_data ?_
  · by_cases same : b = bucket
    · subst same
      rw [Function.update_self]
      exact List.erase_subset
    · rw [Function.update_of_ne same]
      exact List.Subset.refl _
  · rintro rfl
    by_cases same : b = bucket
    · subst same
      rw [Function.update_self] at member
      exact (linked.nodup b).not_mem_erase member
    · rw [Function.update_of_ne same] at member
      exact same (linked.separate b bucket q member inBucket)

/-! ### Whole calls from a quiescent table -/

theorem lockBucket_of_free (free : ht.locks bucket = none) :
    ht.lockBucket worker bucket =
      some { ht with locks := Function.update ht.locks bucket worker } := by
  rw [lockBucket, free]

theorem unlock_locked (free : ht.locks bucket = none) :
    Function.update
        (Function.update ht.locks bucket (some worker)) bucket none =
      ht.locks := by
  rw [Function.update_idem, ← free, Function.update_eq_self]

theorem getKeyEntry_of_found (worker : WorkerId)
    (free : ht.locks (ht.getBucket key) = none)
    (found : ht.search key keyLen = some (some p)) :
    ht.getKeyEntry worker key keyLen = some (ht, p) := by
  simp only [getKeyEntry, lockBucket_of_free free, Option.bind_some,
    search_locks, found, Option.map_some, unlockBucket, unlock_locked free]

theorem getKeyEntry_of_missing (worker : WorkerId)
    (free : ht.locks (ht.getBucket key) = none)
    (missing : ht.search key keyLen = some none) :
    ht.getKeyEntry worker key keyLen =
      some (ht.insertEntry (ht.getBucket key) key keyLen) := by
  simp only [getKeyEntry, lockBucket_of_free free, Option.bind_some,
    search_locks, missing, Option.map_some, unlockBucket, insertEntry, newItem,
    unlock_locked free]

theorem removeItem_of_missing (worker : WorkerId)
    (free : ht.locks (ht.getBucket key) = none)
    (missing : ht.search key keyLen = some none) :
    ht.removeItem worker key keyLen = some (ht, -1) := by
  simp only [removeItem, lockBucket_of_free free, Option.bind_some,
    search_locks, missing, unlockBucket, unlock_locked free]

theorem removeItem_of_found (worker : WorkerId)
    (free : ht.locks (ht.getBucket key) = none)
    (found : ht.search key keyLen = some (some p))
    (read : ht.heap p = some item) (unheld : item.rwlock = .free) :
    ht.removeItem worker key keyLen =
      some (ht.unlinkItem (ht.getBucket key) p item, 0) := by
  simp only [removeItem, lockBucket_of_free free, Option.bind_some,
    search_locks, found, read, Option.map_some, unheld,
    RwLock.trywrlock_free, unlockBucket, unlinkItem, unlock_locked free]

theorem Quiescent.of_data {other : HashTable} (quiet : Quiescent ht)
    (locks : other.locks = ht.locks)
    (data : ∀ p item, other.heap p = some item →
      item.rwlock = .free ∨
        (other.heap p).map HashItem.data = (ht.heap p).map HashItem.data) :
    Quiescent other where
  mutexes bucket := by rw [locks]; exact quiet.mutexes bucket
  rwlocks p item read := by
    rcases data p item read with free | same
    · exact free
    · obtain ⟨item', read', same⟩ := read_of_data_eq same read
      have lockEq : item'.rwlock = item.rwlock :=
        congrArg (fun data => data.2.2.2) same
      rw [← lockEq]
      exact quiet.rwlocks p item' read'

theorem Quiescent.insertEntry (quiet : Quiescent ht) :
    Quiescent (ht.insertEntry bucket key keyLen).1 := by
  refine quiet.of_data rfl fun p item read => ?_
  by_cases fresh : p = ht.fresh
  · subst fresh
    rw [insertEntry_read_fresh, Option.some.injEq] at read
    exact .inl (read ▸ rfl)
  · exact .inr (insertEntry_data fresh)

theorem Quiescent.unlinkItem (quiet : Quiescent ht) :
    Quiescent (ht.unlinkItem bucket p item) := by
  refine quiet.of_data rfl fun q item' read => .inr (unlinkItem_data ?_)
  rintro rfl
  simp at read

theorem Quiescent.initHashtable (quiet : Quiescent ht) (capacity : Nat) :
    Quiescent (ht.initHashtable capacity) :=
  ⟨fun _ => rfl, quiet.rwlocks⟩

/-- The invariant of sequential runs: disjoint chains, placed unique keys and
no lock held. -/
structure Consistent (ht : HashTable) (chains : Nat → List Ptr) : Prop where
  linked : Linked ht chains
  placed : KeysPlaced ht chains
  quiet : Quiescent ht

namespace Consistent

variable (consistent : Consistent ht chains)
include consistent

theorem insertEntry
    (missing : ht.search key (CString.strlen key) = some none) :
    Consistent
      (ht.insertEntry (ht.getBucket key) key (CString.strlen key)).1
      (Function.update chains (ht.getBucket key)
        (ht.fresh :: chains (ht.getBucket key))) :=
  ⟨consistent.linked.insertEntry (consistent.linked.getBucket_lt key),
    consistent.placed.insertEntry consistent.linked missing,
    consistent.quiet.insertEntry⟩

theorem unlinkItem (member : p ∈ chains bucket)
    (read : ht.heap p = some item) :
    Consistent (ht.unlinkItem bucket p item)
      (Function.update chains bucket ((chains bucket).erase p)) :=
  ⟨consistent.linked.unlinkItem member read,
    consistent.placed.unlinkItem consistent.linked member,
    consistent.quiet.unlinkItem⟩

theorem search_cases (key : Bytes) (keyLen : Nat) :
    ht.search key keyLen = some none ∨
      ∃ p item, ht.search key keyLen = some (some p) ∧
        p ∈ chains (ht.getBucket key) ∧ ht.heap p = some item := by
  cases found : (chains (ht.getBucket key)).find?
      (matchesKey ht.heap key keyLen) with
  | none => exact .inl (by rw [consistent.linked.search_eq, found])
  | some p =>
      have searched : ht.search key keyLen = some (some p) := by
        rw [consistent.linked.search_eq, found]
      have member := consistent.linked.mem_of_search searched
      obtain ⟨item, read⟩ := consistent.linked.read_of_mem member
      exact .inr ⟨p, item, searched, member, read⟩

theorem getKeyEntry_cases (worker : WorkerId) (key : Bytes) :
    (∃ p, ht.getKeyEntry worker key (CString.strlen key) = some (ht, p) ∧
        p ∈ chains (ht.getBucket key)) ∨
      ht.getKeyEntry worker key (CString.strlen key) =
          some (ht.insertEntry (ht.getBucket key) key (CString.strlen key)) ∧
        ht.search key (CString.strlen key) = some none := by
  have free := consistent.quiet.mutexes (ht.getBucket key)
  rcases consistent.search_cases key (CString.strlen key) with
    missing | ⟨p, item, found, member, -⟩
  · exact .inr ⟨getKeyEntry_of_missing worker free missing, missing⟩
  · exact .inl ⟨p, getKeyEntry_of_found worker free found, member⟩

/-- `remove_item` either fails and leaves the table alone or unlinks the item
that `search` finds. -/
theorem removeItem_cases (worker : WorkerId) (key : Bytes) (keyLen : Nat) :
    ht.removeItem worker key keyLen = some (ht, -1) ∧
        ht.search key keyLen = some none ∨
      ∃ p item, ht.search key keyLen = some (some p) ∧
        p ∈ chains (ht.getBucket key) ∧ ht.heap p = some item ∧
          ht.removeItem worker key keyLen =
            some (ht.unlinkItem (ht.getBucket key) p item, 0) := by
  have free := consistent.quiet.mutexes (ht.getBucket key)
  rcases consistent.search_cases key keyLen with
    missing | ⟨p, item, found, member, read⟩
  · exact .inl ⟨removeItem_of_missing worker free missing, missing⟩
  · exact .inr ⟨p, item, found, member, read,
      removeItem_of_found worker free found read
        (consistent.quiet.rwlocks p item read)⟩

end Consistent

theorem consistent_initHashtable (quiet : Quiescent ht) {capacity : Nat}
    (positive : 0 < capacity) (fits : capacity < 2 ^ 32)
    (allocated : ∀ p, ht.fresh ≤ p → ht.heap p = none) :
    Consistent (ht.initHashtable capacity) fun _ => [] where
  linked := linked_initHashtable positive fits allocated
  placed := ⟨fun _ _ _ member => by simp at member,
    fun _ _ _ member => by simp at member⟩
  quiet := quiet.initHashtable capacity

def empty : HashTable :=
  unallocated.initHashtable htCapacity

theorem consistent_empty : Consistent empty fun _ => [] :=
  consistent_initHashtable ⟨fun _ => rfl, fun _ _ read => by cases read⟩
    (by decide) (by decide) fun _ _ => rfl

end HashTable

end RdmaKVStore
