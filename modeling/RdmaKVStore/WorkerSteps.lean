import RdmaKVStore.TransitionRuns
import RdmaKVStore.Kvstore
import RdmaKVStore.HashTableInvariant

/-!
# Worker steps

SET, GET and DEL requests of any number of workers, interleaved at their lock
operations and critical sections.  A freed block may contain anything: a step
that reads one finds whatever item its label supplies, and writes to it are
lost.  The walk of a GET, which takes no mutex, is one step, and so is the
removal of an item; a request is read once, when a worker takes it up, and
`SlotReads` reads it where the code does.  `Kvstore` composes the same steps for
a worker that is never interrupted.
-/

namespace RdmaKVStore

open LinkedChain HashTable

/-- Where a worker is in its request: each phase names the operation that
comes next. -/
inductive Phase
  | idle
  | setLockBucket (request : Request)
  | setFindEntry (request : Request)
  | setUnlockBucket (request : Request) (p : Ptr)
  | setTrywrlock (request : Request) (p : Ptr)
  | setStore (request : Request) (p : Ptr)
  | setUnlock (request : Request) (p : Ptr)
  | getSearch (request : Request)
  | getTryrdlock (request : Request) (p : Ptr)
  | getCopy (request : Request) (p : Ptr)
  | getUnlock (request : Request) (p : Ptr) (response : Response)
  | delLockBucket (request : Request)
  | delSearch (request : Request)
  | delTrywrlock (request : Request) (p : Ptr)
  | delFailUnlock (request : Request) (p : Ptr)
  | delUnlink (request : Request) (p : Ptr)
  | delUnlockBucket (request : Request) (code : ResponseCode)
  | finished (request : Request) (response : Response)

namespace Phase

/-- The first phase of a request, for the methods that use the table. -/
def first (request : Request) : Option Phase :=
  match request.method with
  | .set => some (.setLockBucket request)
  | .get => some (.getSearch request)
  | .del => some (.delLockBucket request)
  | _ => none

def Finished : Phase → Prop
  | .idle | .finished _ _ => True
  | _ => False

instance (phase : Phase) : Decidable phase.Finished :=
  match phase with
  | .idle | .finished _ _ => isTrue trivial
  | .setLockBucket _ | .setFindEntry _ | .setUnlockBucket _ _
  | .setTrywrlock _ _ | .setStore _ _ | .setUnlock _ _ | .getSearch _
  | .getTryrdlock _ _ | .getCopy _ _ | .getUnlock _ _ _ | .delLockBucket _
  | .delSearch _ | .delTrywrlock _ _ | .delFailUnlock _ _ | .delUnlink _ _
  | .delUnlockBucket _ _ => isFalse id

def current : Phase → Option Request
  | .idle | .finished _ _ => none
  | .setLockBucket request | .setFindEntry request
  | .setUnlockBucket request _ | .setTrywrlock request _
  | .setStore request _ | .setUnlock request _ | .getSearch request
  | .getTryrdlock request _ | .getCopy request _ | .getUnlock request _ _
  | .delLockBucket request | .delSearch request | .delTrywrlock request _
  | .delFailUnlock request _ | .delUnlink request _
  | .delUnlockBucket request _ => some request

def bucketKey : Phase → Option Bytes
  | .setFindEntry request | .setUnlockBucket request _
  | .delSearch request | .delTrywrlock request _ | .delFailUnlock request _
  | .delUnlink request _ | .delUnlockBucket request _ => some request.keyMemory
  | _ => none

def doomed : Phase → Option (Bytes × Ptr)
  | .delTrywrlock request p | .delFailUnlock request p
  | .delUnlink request p => some (request.keyMemory, p)
  | _ => none

theorem bucketKey_of_doomed {phase : Phase} {key : Bytes} {p : Ptr}
    (isDoomed : phase.doomed = some (key, p)) :
    phase.bucketKey = some key := by
  cases phase <;> cases isDoomed <;> rfl

def outcome : Phase → Option (Request × Response)
  | .finished request response => some (request, response)
  | _ => none

/-- The response that a request ends with. -/
def answer (code : ResponseCode) : Response :=
  { Response.zero with code := code }

end Phase

namespace HashTable

/-- What a read through an item pointer finds. -/
def readItem (ht : HashTable) (p : Ptr) (stale : HashItem) : HashItem :=
  (ht.heap p).getD stale

/-- The table with a bucket mutex in the hands of a worker. -/
def takeBucket (ht : HashTable) (worker : WorkerId) (bucket : Nat) :
    HashTable :=
  { ht with locks := Function.update ht.locks bucket (some worker) }

end HashTable

/-- One step of a worker; `none` while it waits for a mutex. -/
def advance (ht : HashTable) (worker : WorkerId) (stale : HashItem) :
    Phase → Option (HashTable × Phase)
  | .idle | .finished _ _ => none
  | .setLockBucket request =>
      (ht.lockBucket worker (ht.getBucket request.keyMemory)).map
        fun ht => (ht, .setFindEntry request)
  | .setFindEntry request =>
      (ht.search request.keyMemory request.keyLen.toNat).map fun entry =>
        match entry with
        | some p => (ht, .setUnlockBucket request p)
        | none =>
            let (ht, p) := ht.insertEntry (ht.getBucket request.keyMemory)
              request.keyMemory request.keyLen.toNat
            (ht, .setUnlockBucket request p)
  | .setUnlockBucket request p =>
      some (ht.unlockBucket (ht.getBucket request.keyMemory),
        .setTrywrlock request p)
  | .setTrywrlock request p =>
      match (ht.readItem p stale).rwlock.trywrlock worker with
      | none => some (ht, .finished request (Phase.answer .keyError))
      | some held => some (ht.setRwlock p held, .setStore request p)
  | .setStore request p =>
      some (ht.storeValue p request, .setUnlock request p)
  | .setUnlock request p =>
      some (ht.unlockItem worker p, .finished request (Phase.answer .ok))
  | .getSearch request =>
      (ht.search request.keyMemory request.keyLen.toNat).map fun found =>
        match found with
        | none => (ht, .finished request (Phase.answer .keyError))
        | some p => (ht, .getTryrdlock request p)
  | .getTryrdlock request p =>
      match (ht.readItem p stale).rwlock.tryrdlock worker with
      | none => some (ht, .finished request (Phase.answer .keyError))
      | some held => some (ht.setRwlock p held, .getCopy request p)
  | .getCopy request p =>
      some (ht, .getUnlock request p
        (Response.zero.copyValue (ht.readItem p stale)))
  | .getUnlock request p response =>
      some (ht.unlockItem worker p, .finished request response)
  | .delLockBucket request =>
      (ht.lockBucket worker (ht.getBucket request.keyMemory)).map
        fun ht => (ht, .delSearch request)
  | .delSearch request =>
      (ht.search request.keyMemory request.keyLen.toNat).map fun found =>
        match found with
        | none => (ht, .delUnlockBucket request .keyError)
        | some p => (ht, .delTrywrlock request p)
  | .delTrywrlock request p =>
      match (ht.readItem p stale).rwlock.trywrlock worker with
      | none => some (ht, .delFailUnlock request p)
      | some held => some (ht.setRwlock p held, .delUnlink request p)
  | .delFailUnlock request p =>
      some (ht.unlockItem worker p, .delUnlockBucket request .keyError)
  | .delUnlink request p =>
      some (ht.unlinkItem (ht.getBucket request.keyMemory) p
        (ht.readItem p stale), .delUnlockBucket request .ok)
  | .delUnlockBucket request code =>
      some (ht.unlockBucket (ht.getBucket request.keyMemory),
        .finished request (Phase.answer code))

/-- The transitions of a worker, one for each way in which `advance`
succeeds. -/
inductive Advances (ht : HashTable) (worker : WorkerId) (stale : HashItem) :
    Phase → HashTable → Phase → Prop
  | setLockBucket {request : Request}
      (free : ht.locks (ht.getBucket request.keyMemory) = none) :
      Advances ht worker stale (.setLockBucket request)
        (ht.takeBucket worker (ht.getBucket request.keyMemory))
        (.setFindEntry request)
  | setFound {request : Request} {p : Ptr}
      (found : ht.search request.keyMemory request.keyLen.toNat =
        some (some p)) :
      Advances ht worker stale (.setFindEntry request) ht
        (.setUnlockBucket request p)
  | setInsert {request : Request}
      (missing : ht.search request.keyMemory request.keyLen.toNat =
        some none) :
      Advances ht worker stale (.setFindEntry request)
        (ht.insertEntry (ht.getBucket request.keyMemory) request.keyMemory
          request.keyLen.toNat).1
        (.setUnlockBucket request ht.fresh)
  | setUnlockBucket {request : Request} {p : Ptr} :
      Advances ht worker stale (.setUnlockBucket request p)
        (ht.unlockBucket (ht.getBucket request.keyMemory))
        (.setTrywrlock request p)
  | setRefused {request : Request} {p : Ptr}
      (held : (ht.readItem p stale).rwlock ≠ .free) :
      Advances ht worker stale (.setTrywrlock request p) ht
        (.finished request (Phase.answer .keyError))
  | setLocked {request : Request} {p : Ptr}
      (free : (ht.readItem p stale).rwlock = .free) :
      Advances ht worker stale (.setTrywrlock request p)
        (ht.setRwlock p (.writer worker)) (.setStore request p)
  | setStore {request : Request} {p : Ptr} :
      Advances ht worker stale (.setStore request p)
        (ht.storeValue p request) (.setUnlock request p)
  | setUnlock {request : Request} {p : Ptr} :
      Advances ht worker stale (.setUnlock request p)
        (ht.unlockItem worker p) (.finished request (Phase.answer .ok))
  | getMissing {request : Request}
      (missing : ht.search request.keyMemory request.keyLen.toNat =
        some none) :
      Advances ht worker stale (.getSearch request) ht
        (.finished request (Phase.answer .keyError))
  | getFound {request : Request} {p : Ptr}
      (found : ht.search request.keyMemory request.keyLen.toNat =
        some (some p)) :
      Advances ht worker stale (.getSearch request) ht
        (.getTryrdlock request p)
  | getRefused {request : Request} {p : Ptr}
      (held : (ht.readItem p stale).rwlock.tryrdlock worker = none) :
      Advances ht worker stale (.getTryrdlock request p) ht
        (.finished request (Phase.answer .keyError))
  | getLocked {request : Request} {p : Ptr} {holders : List WorkerId}
      (shared : (ht.readItem p stale).rwlock = .readers holders) :
      Advances ht worker stale (.getTryrdlock request p)
        (ht.setRwlock p (.readers (worker :: holders))) (.getCopy request p)
  | getCopy {request : Request} {p : Ptr} :
      Advances ht worker stale (.getCopy request p) ht
        (.getUnlock request p
          (Response.zero.copyValue (ht.readItem p stale)))
  | getUnlock {request : Request} {p : Ptr} {response : Response} :
      Advances ht worker stale (.getUnlock request p response)
        (ht.unlockItem worker p) (.finished request response)
  | delLockBucket {request : Request}
      (free : ht.locks (ht.getBucket request.keyMemory) = none) :
      Advances ht worker stale (.delLockBucket request)
        (ht.takeBucket worker (ht.getBucket request.keyMemory))
        (.delSearch request)
  | delMissing {request : Request}
      (missing : ht.search request.keyMemory request.keyLen.toNat =
        some none) :
      Advances ht worker stale (.delSearch request) ht
        (.delUnlockBucket request .keyError)
  | delFound {request : Request} {p : Ptr}
      (found : ht.search request.keyMemory request.keyLen.toNat =
        some (some p)) :
      Advances ht worker stale (.delSearch request) ht
        (.delTrywrlock request p)
  | delRefused {request : Request} {p : Ptr}
      (held : (ht.readItem p stale).rwlock ≠ .free) :
      Advances ht worker stale (.delTrywrlock request p) ht
        (.delFailUnlock request p)
  | delLocked {request : Request} {p : Ptr}
      (free : (ht.readItem p stale).rwlock = .free) :
      Advances ht worker stale (.delTrywrlock request p)
        (ht.setRwlock p (.writer worker)) (.delUnlink request p)
  | delFailUnlock {request : Request} {p : Ptr} :
      Advances ht worker stale (.delFailUnlock request p)
        (ht.unlockItem worker p) (.delUnlockBucket request .keyError)
  | delUnlink {request : Request} {p : Ptr} :
      Advances ht worker stale (.delUnlink request p)
        (ht.unlinkItem (ht.getBucket request.keyMemory) p
          (ht.readItem p stale)) (.delUnlockBucket request .ok)
  | delUnlockBucket {request : Request} {code : ResponseCode} :
      Advances ht worker stale (.delUnlockBucket request code)
        (ht.unlockBucket (ht.getBucket request.keyMemory))
        (.finished request (Phase.answer code))

theorem lockBucket_eq_some {ht after : HashTable} {worker : WorkerId}
    {bucket : Nat} (locked : ht.lockBucket worker bucket = some after) :
    ht.locks bucket = none ∧
      after = ht.takeBucket worker bucket := by
  unfold lockBucket at locked
  split at locked
  case h_1 free => exact ⟨free, (Option.some.inj locked).symm⟩
  case h_2 => cases locked

theorem advance_advances {ht after : HashTable} {worker : WorkerId}
    {stale : HashItem} {before next : Phase}
    (advanced : advance ht worker stale before = some (after, next)) :
    Advances ht worker stale before after next := by
  cases before with
  | idle => cases advanced
  | finished => cases advanced
  | setLockBucket request =>
      obtain ⟨table, locked, same⟩ := Option.map_eq_some_iff.mp advanced
      obtain ⟨free, rfl⟩ := lockBucket_eq_some locked
      cases same
      exact .setLockBucket free
  | delLockBucket request =>
      obtain ⟨table, locked, same⟩ := Option.map_eq_some_iff.mp advanced
      obtain ⟨free, rfl⟩ := lockBucket_eq_some locked
      cases same
      exact .delLockBucket free
  | setFindEntry request =>
      obtain ⟨entry, searched, same⟩ := Option.map_eq_some_iff.mp advanced
      cases entry <;> cases same
      · exact .setInsert searched
      · exact .setFound searched
  | getSearch request =>
      obtain ⟨entry, searched, same⟩ := Option.map_eq_some_iff.mp advanced
      cases entry <;> cases same
      · exact .getMissing searched
      · exact .getFound searched
  | delSearch request =>
      obtain ⟨entry, searched, same⟩ := Option.map_eq_some_iff.mp advanced
      cases entry <;> cases same
      · exact .delMissing searched
      · exact .delFound searched
  | setTrywrlock request p =>
      simp only [advance] at advanced
      split at advanced
      case h_1 refused =>
        cases advanced
        exact .setRefused (RwLock.trywrlock_eq_none_iff.mp refused)
      case h_2 locked =>
        obtain ⟨free, rfl⟩ := RwLock.trywrlock_eq_some_iff.mp locked
        cases advanced
        exact .setLocked free
  | delTrywrlock request p =>
      simp only [advance] at advanced
      split at advanced
      case h_1 refused =>
        cases advanced
        exact .delRefused (RwLock.trywrlock_eq_none_iff.mp refused)
      case h_2 locked =>
        obtain ⟨free, rfl⟩ := RwLock.trywrlock_eq_some_iff.mp locked
        cases advanced
        exact .delLocked free
  | getTryrdlock request p =>
      simp only [advance] at advanced
      split at advanced
      case h_1 refused => cases advanced; exact .getRefused refused
      case h_2 locked =>
        obtain ⟨holders, shared, rfl⟩ :=
          RwLock.tryrdlock_eq_some_iff.mp locked
        cases advanced
        exact .getLocked shared
  | setUnlockBucket => cases advanced; exact .setUnlockBucket
  | setStore => cases advanced; exact .setStore
  | setUnlock => cases advanced; exact .setUnlock
  | getCopy => cases advanced; exact .getCopy
  | getUnlock => cases advanced; exact .getUnlock
  | delFailUnlock => cases advanced; exact .delFailUnlock
  | delUnlink => cases advanced; exact .delUnlink
  | delUnlockBucket => cases advanced; exact .delUnlockBucket

/-- The key and value that a step writes to an item. -/
def Phase.stored : Phase → List (Bytes × Bytes)
  | .setStore request _ => [(request.keyString, request.payload)]
  | _ => []

/-- The table, the phase of every worker, and the values written so far with
the keys of their requests, latest first. -/
structure WorkerState where
  table : HashTable
  phase : WorkerId → Phase
  stores : List (Bytes × Bytes)

def WorkerState.initial : WorkerState where
  table := HashTable.empty
  phase _ := .idle
  stores := []

inductive WorkerLabel
  | start (worker : WorkerId) (request : Request)
  | advance (worker : WorkerId) (stale : HashItem)

/-- Any number of workers on one table. -/
def workers : TransitionSystem WorkerState WorkerLabel where
  initial state := state = .initial
  step state
    | .start worker request =>
        if (state.phase worker).Finished then
          (Phase.first request).map fun phase =>
            { state with phase := Function.update state.phase worker phase }
        else none
    | .advance worker stale =>
        (advance state.table worker stale (state.phase worker)).map
          fun (table, phase) =>
            { table := table
              phase := Function.update state.phase worker phase
              stores := (state.phase worker).stored ++ state.stores }

/-- Steps of one worker in a row, with the given contents of freed blocks. -/
def WorkerLabel.advances (worker : WorkerId) (stale : HashItem) (count : Nat) :
    List WorkerLabel :=
  List.replicate count (.advance worker stale)

theorem workers_step_cases {before after : WorkerState} {label : WorkerLabel}
    (stepTo : workers.step before label = some after) :
    (∃ worker request phase, label = .start worker request ∧
        (before.phase worker).Finished ∧ Phase.first request = some phase ∧
        after = { before with
          phase := Function.update before.phase worker phase }) ∨
      ∃ worker stale table next, label = .advance worker stale ∧
        Advances before.table worker stale (before.phase worker) table next ∧
        after =
          { table := table
            phase := Function.update before.phase worker next
            stores := (before.phase worker).stored ++ before.stores } := by
  cases label with
  | start worker request =>
      simp only [workers] at stepTo
      split at stepTo
      case isTrue finished =>
        obtain ⟨phase, first, rfl⟩ := Option.map_eq_some_iff.mp stepTo
        exact .inl ⟨worker, request, phase, rfl, finished, first, rfl⟩
      case isFalse => cases stepTo
  | advance worker stale =>
      obtain ⟨⟨table, next⟩, advanced, rfl⟩ :=
        Option.map_eq_some_iff.mp stepTo
      exact .inr ⟨worker, stale, table, next, rfl,
        advance_advances advanced, rfl⟩

end RdmaKVStore
