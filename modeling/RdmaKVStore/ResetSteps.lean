import RdmaKVStore.HashTableInvariant
import RdmaKVStore.Kvstore
import RdmaKVStore.TransitionRuns

/-!
# SET, GET and RST step by step

`get_key_entry` of any number of workers, cut at each of its accesses to the
shared table, while other workers execute GET and RST.  A RST puts new arrays
in the place of the old ones in one step, whatever the others are doing, and a
worker that has read `ht` before keeps a mutex of the old arrays.  SETs are
numbered as they are received, and the state keeps track of the SET that stored
the value of each item.
-/

namespace RdmaKVStore

open LinkedChain HashTable

/-- A bucket mutex: the number of RSTs before its array was allocated, and its
bucket. -/
structure BucketMutex where
  generation : Nat
  bucket : Nat
  deriving DecidableEq

structure SetCall where
  number : Nat
  request : Request

/-- A GET in progress, with the SETs whose values it must not return: those
answered before the reception of a RST that was answered before the GET was
received. -/
structure GetCall where
  request : Request
  cleared : List Nat

structure GetReturn where
  cleared : List Nat
  storedBy : Option Nat
  response : Response

/-- What a worker does next: in a SET, `get_bucket`, evaluating
`&ht->locks[bucket]`, locking that mutex, reading the head, searching, linking,
unlocking `&ht->locks[bucket]`, and the section of `set_request`; the lookup
and the section of a GET; replacing the table.  A RST carries the SETs answered
before its reception. -/
inductive ResetPhase
  | idle
  | setBucket (call : SetCall)
  | setAddress (call : SetCall) (bucket : Nat)
  | setLock (call : SetCall) (mutex : BucketMutex)
  | setReadHead (call : SetCall) (mutex : BucketMutex)
  | setSearch (call : SetCall) (mutex : BucketMutex) (head : Option Ptr)
  | setLink (call : SetCall) (mutex : BucketMutex) (head : Option Ptr)
  | setUnlock (call : SetCall) (mutex : BucketMutex) (p : Ptr)
  | setTrywrlock (call : SetCall) (p : Ptr)
  | setStore (call : SetCall) (p : Ptr)
  | setUnlockItem (call : SetCall) (p : Ptr)
  | setAnswer (call : SetCall)
  | getSearch (call : GetCall)
  | getTryrdlock (call : GetCall) (p : Ptr)
  | getCopy (call : GetCall) (p : Ptr)
  | getUnlockItem (p : Ptr)
  | rstReplace (seen : List Nat)
  | rstAnswer (seen : List Nat)

/-- The table with the number of RSTs so far and the mutexes of replaced
arrays, the phases of the workers, and of the SETs: how many there were, which
of them stored the value of each item, which were answered, and which were
answered before a RST that has been answered.  `unlocks` lists the mutex that a
worker had locked with the one it unlocked. -/
structure ResetState where
  table : HashTable
  generation : Nat
  retired : BucketMutex → Option WorkerId
  phase : WorkerId → ResetPhase
  sets : Nat
  storedBy : Ptr → Option Nat
  answered : List Nat
  cleared : List Nat
  unlocks : List (BucketMutex × BucketMutex)
  returned : List GetReturn

inductive ResetLabel
  | start (worker : WorkerId) (request : Request)
  | advance (worker : WorkerId)

/-- The rest of the insertion branch of `get_key_entry`, for the head that was
read before the search. -/
def HashTable.linkEntry (ht : HashTable) (bucket : Nat) (head : Option Ptr)
    (key : Bytes) (keyLen : Nat) : HashTable :=
  { ht with
    items := Function.update ht.items bucket ht.fresh
    heap := linkFront HashItem.links ht.heap head ht.fresh
      { ht.newItem bucket key keyLen with next := head }
    fresh := ht.fresh + 1 }

theorem HashTable.linkEntry_items (ht : HashTable) (bucket : Nat)
    (key : Bytes) (keyLen : Nat) :
    ht.linkEntry bucket (ht.items bucket) key keyLen =
      (ht.insertEntry bucket key keyLen).1 := by
  simp only [linkEntry, insertEntry, newItem]

namespace ResetState

def initial : ResetState where
  table := HashTable.empty
  generation := 0
  retired _ := none
  phase _ := .idle
  sets := 0
  storedBy _ := none
  answered := []
  cleared := []
  unlocks := []
  returned := []

variable (state : ResetState)

/-- `pthread_mutex_lock`; `none` while another worker holds the mutex. -/
def lockMutex (worker : WorkerId) (mutex : BucketMutex) : Option ResetState :=
  if mutex.generation = state.generation then
    (state.table.lockBucket worker mutex.bucket).map fun table =>
      { state with table := table }
  else if (state.retired mutex).isNone then
    some { state with
      retired := Function.update state.retired mutex (some worker) }
  else none

/-- `pthread_mutex_unlock(&ht->locks[bucket])` of a worker that has locked a
mutex. -/
def unlockMutex (mutex : BucketMutex) : ResetState :=
  { state with
    table := state.table.unlockBucket mutex.bucket
    unlocks := state.unlocks ++ [(mutex, ⟨state.generation, mutex.bucket⟩)] }

/-- The new entry of a SET, without a value. -/
def link (call : SetCall) (mutex : BucketMutex) (head : Option Ptr) :
    ResetState :=
  { state with
    table := state.table.linkEntry mutex.bucket head call.request.keyMemory
      call.request.keyLen.toNat
    storedBy := Function.update state.storedBy state.table.fresh none }

def store (call : SetCall) (p : Ptr) : ResetState :=
  { state with
    table := state.table.storeValue p call.request
    storedBy := Function.update state.storedBy p (some call.number) }

def setRwlock (p : Ptr) (lock : RwLock WorkerId) : ResetState :=
  { state with table := state.table.setRwlock p lock }

def unlockItem (worker : WorkerId) (p : Ptr) : ResetState :=
  { state with table := state.table.unlockItem worker p }

def copyValue (call : GetCall) (p : Ptr) (item : HashItem) : ResetState :=
  { state with
    returned := state.returned ++
      [⟨call.cleared, state.storedBy p, Response.zero.copyValue item⟩] }

/-- `init_hashtable` -/
def replace : ResetState :=
  { state with
    table := state.table.initHashtable htCapacity
    generation := state.generation + 1
    retired := fun mutex =>
      if mutex.generation = state.generation then
        state.table.locks mutex.bucket
      else state.retired mutex }

/-- The next step of a worker; `none` while it waits for a mutex. -/
def advance (worker : WorkerId) :
    ResetPhase → Option (ResetState × ResetPhase)
  | .idle => none
  | .setBucket call => some (state, .setAddress call
      (state.table.getBucket call.request.keyMemory))
  | .setAddress call bucket =>
      some (state, .setLock call ⟨state.generation, bucket⟩)
  | .setLock call mutex => (state.lockMutex worker mutex).map fun state =>
      (state, .setReadHead call mutex)
  | .setReadHead call mutex =>
      some (state, .setSearch call mutex (state.table.items mutex.bucket))
  | .setSearch call mutex head =>
      (state.table.search call.request.keyMemory
        call.request.keyLen.toNat).map fun entry =>
          match entry with
          | some p => (state, .setUnlock call mutex p)
          | none => (state, .setLink call mutex head)
  | .setLink call mutex head => some (state.link call mutex head,
      .setUnlock call mutex state.table.fresh)
  | .setUnlock call mutex p =>
      some (state.unlockMutex mutex, .setTrywrlock call p)
  | .setTrywrlock call p => (state.table.heap p).map fun item =>
      match item.rwlock.trywrlock worker with
      | none => (state, .setAnswer call)
      | some held => (state.setRwlock p held, .setStore call p)
  | .setStore call p => some (state.store call p, .setUnlockItem call p)
  | .setUnlockItem call p =>
      some (state.unlockItem worker p, .setAnswer call)
  | .setAnswer call =>
      some ({ state with answered := call.number :: state.answered }, .idle)
  | .getSearch call =>
      (state.table.search call.request.keyMemory
        call.request.keyLen.toNat).map fun found =>
          match found with
          | some p => (state, .getTryrdlock call p)
          | none => (state, .idle)
  | .getTryrdlock call p => (state.table.heap p).map fun item =>
      match item.rwlock.tryrdlock worker with
      | none => (state, .idle)
      | some held => (state.setRwlock p held, .getCopy call p)
  | .getCopy call p => (state.table.heap p).map fun item =>
      (state.copyValue call p item, .getUnlockItem p)
  | .getUnlockItem p => some (state.unlockItem worker p, .idle)
  | .rstReplace seen => some (state.replace, .rstAnswer seen)
  | .rstAnswer seen =>
      some ({ state with cleared := seen ++ state.cleared }, .idle)

def start (request : Request) : Option (ResetState × ResetPhase) :=
  match request.method with
  | .set => some ({ state with sets := state.sets + 1 },
      .setBucket ⟨state.sets, request⟩)
  | .get => some (state, .getSearch ⟨request, state.cleared⟩)
  | .rst => some (state, .rstReplace state.answered)
  | .unk | .del | .ping | .dump | .exit | .setopt => none

def move (worker : WorkerId) (next : ResetPhase) : ResetState :=
  { state with phase := Function.update state.phase worker next }

end ResetState

instance (phase : ResetPhase) : Decidable (phase = .idle) :=
  match phase with
  | .idle => isTrue rfl
  | .setBucket _ | .setAddress _ _ | .setLock _ _ | .setReadHead _ _
  | .setSearch _ _ _ | .setLink _ _ _ | .setUnlock _ _ _ | .setTrywrlock _ _
  | .setStore _ _ | .setUnlockItem _ _ | .setAnswer _ | .getSearch _
  | .getTryrdlock _ _ | .getCopy _ _ | .getUnlockItem _ | .rstReplace _
  | .rstAnswer _ => isFalse (fun same => by cases same)

/-- Any number of workers that execute SETs, GETs and RSTs. -/
def resetWorkers : TransitionSystem ResetState ResetLabel where
  initial state := state = .initial
  step state
    | .start worker request =>
        if state.phase worker = .idle then
          (state.start request).map fun (after, next) =>
            after.move worker next
        else none
    | .advance worker =>
        (state.advance worker (state.phase worker)).map fun (after, next) =>
          after.move worker next

/-- A step that changes nothing but locks: the arrays, the items' links and
all that is known of the SETs stay as they are. -/
structure LocksOnly (before after : ResetState) : Prop where
  generation : after.generation = before.generation
  items : after.table.items = before.table.items
  next : ∀ p, (after.table.heap p).map HashItem.next =
    (before.table.heap p).map HashItem.next
  phase : after.phase = before.phase
  sets : after.sets = before.sets
  storedBy : after.storedBy = before.storedBy
  answered : after.answered = before.answered
  cleared : after.cleared = before.cleared
  unlocks : after.unlocks = before.unlocks
  returned : after.returned = before.returned

inductive ResetServes (state : ResetState) :
    ResetPhase → ResetState → ResetPhase → Prop
  | setBucket {call : SetCall} {bucket : Nat} :
      ResetServes state (.setBucket call) state (.setAddress call bucket)
  | setAddress {call : SetCall} {bucket : Nat} :
      ResetServes state (.setAddress call bucket) state
        (.setLock call ⟨state.generation, bucket⟩)
  | setLock {call : SetCall} {mutex : BucketMutex} {after : ResetState}
      (locks : LocksOnly state after) :
      ResetServes state (.setLock call mutex) after (.setReadHead call mutex)
  | setReadHead {call : SetCall} {mutex : BucketMutex} :
      ResetServes state (.setReadHead call mutex) state
        (.setSearch call mutex (state.table.items mutex.bucket))
  | setFound {call : SetCall} {mutex : BucketMutex} {head : Option Ptr}
      {p : Ptr} :
      ResetServes state (.setSearch call mutex head) state
        (.setUnlock call mutex p)
  | setMissing {call : SetCall} {mutex : BucketMutex} {head : Option Ptr} :
      ResetServes state (.setSearch call mutex head) state
        (.setLink call mutex head)
  | setLink {call : SetCall} {mutex : BucketMutex} {head : Option Ptr} :
      ResetServes state (.setLink call mutex head)
        (state.link call mutex head) (.setUnlock call mutex state.table.fresh)
  | setUnlock {call : SetCall} {mutex : BucketMutex} {p : Ptr} :
      ResetServes state (.setUnlock call mutex p) (state.unlockMutex mutex)
        (.setTrywrlock call p)
  | setRefused {call : SetCall} {p : Ptr} :
      ResetServes state (.setTrywrlock call p) state (.setAnswer call)
  | setLocked {call : SetCall} {p : Ptr} {after : ResetState}
      (locks : LocksOnly state after) :
      ResetServes state (.setTrywrlock call p) after (.setStore call p)
  | setStore {call : SetCall} {p : Ptr} :
      ResetServes state (.setStore call p) (state.store call p)
        (.setUnlockItem call p)
  | setUnlockItem {call : SetCall} {p : Ptr} {after : ResetState}
      (locks : LocksOnly state after) :
      ResetServes state (.setUnlockItem call p) after (.setAnswer call)
  | setAnswer {call : SetCall} :
      ResetServes state (.setAnswer call)
        { state with answered := call.number :: state.answered } .idle
  | getFound {call : GetCall} {p : Ptr}
      (found : state.table.search call.request.keyMemory
        call.request.keyLen.toNat = some (some p)) :
      ResetServes state (.getSearch call) state (.getTryrdlock call p)
  | getMissing {call : GetCall} :
      ResetServes state (.getSearch call) state .idle
  | getRefused {call : GetCall} {p : Ptr} :
      ResetServes state (.getTryrdlock call p) state .idle
  | getLocked {call : GetCall} {p : Ptr} {after : ResetState}
      (locks : LocksOnly state after) :
      ResetServes state (.getTryrdlock call p) after (.getCopy call p)
  | getCopy {call : GetCall} {p : Ptr} {item : HashItem} :
      ResetServes state (.getCopy call p) (state.copyValue call p item)
        (.getUnlockItem p)
  | getUnlockItem {p : Ptr} {after : ResetState}
      (locks : LocksOnly state after) :
      ResetServes state (.getUnlockItem p) after .idle
  | rstReplace {seen : List Nat} :
      ResetServes state (.rstReplace seen) state.replace (.rstAnswer seen)
  | rstAnswer {seen : List Nat} :
      ResetServes state (.rstAnswer seen)
        { state with cleared := seen ++ state.cleared } .idle

theorem HashTable.next_writeItem {ht : HashTable} {p : Ptr}
    {write : HashItem → HashItem}
    (keeps : ∀ item, (write item).next = item.next) (q : Ptr) :
    ((ht.writeItem p write).heap q).map HashItem.next =
      (ht.heap q).map HashItem.next := by
  rw [writeItem_heap, modifyAt_map keeps]

theorem HashTable.next_storeValue (ht : HashTable) (p : Ptr)
    (request : Request) (q : Ptr) :
    ((ht.storeValue p request).heap q).map HashItem.next =
      (ht.heap q).map HashItem.next := by
  rw [storeValue]
  refine next_writeItem ?_ q
  exact fun _ => rfl

theorem HashTable.next_linkEntry {ht : HashTable} {bucket : Nat}
    {head : Option Ptr} {key : Bytes} {keyLen : Nat} {q : Ptr}
    (old : q ≠ ht.fresh) :
    ((ht.linkEntry bucket head key keyLen).heap q).map HashItem.next =
      (ht.heap q).map HashItem.next := by
  simp only [linkEntry, linkFront]
  rw [Function.update_of_ne old]
  have keeps (item : HashItem) :
      (HashItem.links.setPrev (some ht.fresh) item).next = item.next := rfl
  exact modifyAt_map keeps q

theorem HashTable.next_linkEntry_fresh {ht : HashTable} {bucket : Nat}
    {head : Option Ptr} {key : Bytes} {keyLen : Nat} :
    ((ht.linkEntry bucket head key keyLen).heap ht.fresh).map HashItem.next =
      some head := by
  simp only [linkEntry, linkFront]
  rw [Function.update_self, Option.map_some]

namespace LocksOnly

variable {state after : ResetState} {worker : WorkerId}

theorem lockMutex {mutex : BucketMutex}
    (locked : state.lockMutex worker mutex = some after) :
    LocksOnly state after := by
  unfold ResetState.lockMutex at locked
  split at locked
  · obtain ⟨table, taken, rfl⟩ := Option.map_eq_some_iff.mp locked
    unfold HashTable.lockBucket at taken
    split at taken
    · cases taken
      exact ⟨rfl, rfl, fun _ => rfl, rfl, rfl, rfl, rfl, rfl, rfl, rfl⟩
    · cases taken
  · obtain ⟨-, same⟩ := Option.ite_none_right_eq_some.mp locked
    cases same
    exact ⟨rfl, rfl, fun _ => rfl, rfl, rfl, rfl, rfl, rfl, rfl, rfl⟩

theorem setRwlock (state : ResetState) (p : Ptr) (lock : RwLock WorkerId) :
    LocksOnly state (state.setRwlock p lock) :=
  ⟨rfl, rfl, next_writeItem fun _ => rfl, rfl, rfl, rfl, rfl, rfl,
    rfl, rfl⟩

theorem unlockItem (state : ResetState) (worker : WorkerId) (p : Ptr) :
    LocksOnly state (state.unlockItem worker p) :=
  ⟨rfl, rfl, next_writeItem fun _ => rfl, rfl, rfl, rfl, rfl, rfl,
    rfl, rfl⟩

end LocksOnly

theorem ResetState.advance_serves {state after : ResetState}
    {worker : WorkerId} {before next : ResetPhase}
    (advanced : state.advance worker before = some (after, next)) :
    ResetServes state before after next := by
  cases before with
  | idle => cases advanced
  | setBucket => cases advanced; exact .setBucket
  | setAddress => cases advanced; exact .setAddress
  | setLock call mutex =>
      obtain ⟨middle, locked, same⟩ := Option.map_eq_some_iff.mp advanced
      cases same
      exact .setLock (.lockMutex locked)
  | setReadHead => cases advanced; exact .setReadHead
  | setSearch call mutex head =>
      obtain ⟨entry, -, same⟩ := Option.map_eq_some_iff.mp advanced
      cases entry <;> cases same
      · exact .setMissing
      · exact .setFound
  | setLink => cases advanced; exact .setLink
  | setUnlock => cases advanced; exact .setUnlock
  | setTrywrlock call p =>
      obtain ⟨item, -, same⟩ := Option.map_eq_some_iff.mp advanced
      split at same <;> cases same
      · exact .setRefused
      · exact .setLocked (.setRwlock _ _ _)
  | setStore => cases advanced; exact .setStore
  | setUnlockItem => cases advanced; exact .setUnlockItem (.unlockItem _ _ _)
  | setAnswer => cases advanced; exact .setAnswer
  | getSearch call =>
      obtain ⟨found, searched, same⟩ := Option.map_eq_some_iff.mp advanced
      cases found <;> cases same
      · exact .getMissing
      · exact .getFound searched
  | getTryrdlock call p =>
      obtain ⟨item, -, same⟩ := Option.map_eq_some_iff.mp advanced
      split at same <;> cases same
      · exact .getRefused
      · exact .getLocked (.setRwlock _ _ _)
  | getCopy call p =>
      obtain ⟨item, -, same⟩ := Option.map_eq_some_iff.mp advanced
      cases same
      exact .getCopy
  | getUnlockItem => cases advanced; exact .getUnlockItem (.unlockItem _ _ _)
  | rstReplace => cases advanced; exact .rstReplace
  | rstAnswer => cases advanced; exact .rstAnswer

theorem ResetState.start_cases {state after : ResetState} {request : Request}
    {next : ResetPhase} (started : state.start request = some (after, next)) :
    (after = { state with sets := state.sets + 1 } ∧
        next = .setBucket ⟨state.sets, request⟩) ∨
      (after = state ∧ next = .getSearch ⟨request, state.cleared⟩) ∨
      after = state ∧ next = .rstReplace state.answered := by
  cases method : request.method with
  | set =>
      simp only [start, method, Option.some.injEq, Prod.mk.injEq] at started
      exact .inl ⟨started.1.symm, started.2.symm⟩
  | get =>
      simp only [start, method, Option.some.injEq, Prod.mk.injEq] at started
      exact .inr (.inl ⟨started.1.symm, started.2.symm⟩)
  | rst =>
      simp only [start, method, Option.some.injEq, Prod.mk.injEq] at started
      exact .inr (.inr ⟨started.1.symm, started.2.symm⟩)
  | _ =>
      simp only [start, method] at started
      cases started

end RdmaKVStore
