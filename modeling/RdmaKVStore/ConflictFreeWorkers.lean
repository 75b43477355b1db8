import RdmaKVStore.KeySources
import RdmaKVStore.SectionLocks
import Mathlib.Data.List.Find

/-!
# Workers without conflicts

Two requests conflict if a lookup of one may stop at an item that the other
changes.  While conflicting requests do not overlap, no lock is ever found
taken, and the interleaved workers answer every request as if all requests had
been executed one after another in the order of their lookups.
-/

namespace RdmaKVStore

open LinkedChain HashTable FirstMatch

/-- A GET and a DEL of one bucket: the GET walks the chain without the mutex
under which the DEL takes an item apart, in more than one step. -/
def Request.WalksDuringRemoval (first second : Request) : Prop :=
  first.bucket = second.bucket ∧
    (first.method = .get ∧ second.method = .del ∨
      first.method = .del ∧ second.method = .get)

instance (first second : Request) :
    Decidable (first.WalksDuringRemoval second) :=
  inferInstanceAs (Decidable (_ ∧ _))

/-- The keys are related and not both requests only read, or the one walks the
bucket while the other may remove an item of it. -/
def Request.Conflicts (first second : Request) : Prop :=
  first.Related second ∧ ¬ (first.method = .get ∧ second.method = .get) ∨
    first.WalksDuringRemoval second

instance requestConflictsDecidable (first second : Request) :
    Decidable (first.Conflicts second) :=
  inferInstanceAs (Decidable (_ ∨ _))

namespace Phase

/-- The request in progress with the item that its lookup has returned, until
the worker is done with the item. -/
def inHand : Phase → Option (Request × Ptr)
  | .setUnlockBucket request p | .setTrywrlock request p
  | .setStore request p | .setUnlock request p | .getTryrdlock request p
  | .getCopy request p | .getUnlock request p _ | .delTrywrlock request p
  | .delFailUnlock request p | .delUnlink request p => some (request, p)
  | _ => none

/-- The change of its item's entry that a request has still to make. -/
def pendingChange : Phase → Option (Ptr × (Entry → Option Entry))
  | .setUnlockBucket request p | .setTrywrlock request p
  | .setStore request p => some (p, fun entry => some (request.revise entry))
  | .delTrywrlock _ p | .delUnlink _ p => some (p, fun _ => none)
  | _ => none

def lookup : Phase → Option Request
  | .setFindEntry request | .getSearch request | .delSearch request =>
      some request
  | _ => none

variable {phase : Phase} {request : Request} {p : Ptr}
variable {change : Entry → Option Entry}

theorem current_of_inHand (inHand : phase.inHand = some (request, p)) :
    phase.current = some request := by
  cases phase <;> cases inHand <;> rfl

theorem current_of_lookup (lookup : phase.lookup = some request) :
    phase.current = some request := by
  cases phase <;> cases lookup <;> rfl

theorem pending_of_lookup (lookup : phase.lookup = some request) :
    phase.pendingChange = none := by
  cases phase <;> cases lookup <;> rfl

theorem inHand_of_pending (pending : phase.pendingChange = some (p, change)) :
    ∃ request, phase.inHand = some (request, p) := by
  cases phase <;> cases pending <;> exact ⟨_, rfl⟩

theorem key_of_pending (pending : phase.pendingChange = some (p, change))
    {entry changed : Entry} (changes : change entry = some changed) :
    changed.1 = entry.1 := by
  cases phase <;> cases pending <;> cases changes <;> rfl

theorem inHand_of_section
    (inside : phase.writing = some p ∨ phase.reading = some p) :
    ∃ request, phase.inHand = some (request, p) := by
  cases phase <;> rcases inside with writes | reads <;>
    first
    | exact ⟨_, congrArg (Option.map _) writes⟩
    | exact ⟨_, congrArg (Option.map _) reads⟩
    | cases writes
    | cases reads

end Phase

/-- The workers, with the requests in the order in which their keys were looked
up. -/
structure OrderedState where
  work : WorkerState
  turns : List (WorkerId × Request)

def WorkerState.lookups (state : WorkerState) :
    WorkerLabel → List (WorkerId × Request)
  | .start _ _ => []
  | .advance worker _ =>
      ((state.phase worker).lookup.map fun request =>
        (worker, request)).toList

/-- Any number of workers on one table, with a record of their lookups. -/
def orderedWorkers : TransitionSystem OrderedState WorkerLabel where
  initial state := state = ⟨.initial, []⟩
  step state label := (workers.step state.work label).map fun work =>
    { work := work
      turns := state.turns ++ state.work.lookups label }

/-- A request is well formed and conflicts with no request in progress. -/
def ConflictFree (state : OrderedState) : WorkerLabel → Prop
  | .start _ request => request.KeyWellFormed ∧
      ∀ other current,
        (state.work.phase other).current = some current →
          ¬ request.Conflicts current
  | .advance _ _ => True

/-- The latest request of a worker in a list of answered requests, with its
answer. -/
def latestAnswer (worker : WorkerId)
    (answered : List ((WorkerId × Request) × Response)) :
    Option (Request × Response) :=
  (answered.reverse.find? fun turn => turn.1.1 = worker).map
    fun turn => (turn.1.2, turn.2)

/-- The item lies in the bucket of the request and its key begins with the
requested one. -/
def HashTable.Holds (ht : HashTable) (request : Request) (p : Ptr) : Prop :=
  p ∈ ht.bucketItems request.bucket ∧
    ∃ stored, ht.keyAt p = some stored ∧ request.keyString <+: stored

/-- The answer that the lookup of a request has settled is the one it is going
to give. -/
def Phase.Owes (ht : HashTable) (answer : Option (Request × Response)) :
    Phase → Prop
  | .idle => True
  | .setLockBucket request | .setFindEntry request => request.method = .set
  | .setUnlockBucket request _ | .setTrywrlock request _
  | .setStore request _ | .setUnlock request _ =>
      request.method = .set ∧ answer = some (request, Response.zero)
  | .getSearch request => request.method = .get
  | .getTryrdlock request p | .getCopy request p => request.method = .get ∧
      ∃ entry : Entry, ht.entryAt p = some entry ∧
        answer = some (request, entry.response)
  | .getUnlock request _ response =>
      request.method = .get ∧ answer = some (request, response)
  | .delLockBucket request | .delSearch request => request.method = .del
  | .delTrywrlock request _ | .delUnlink request _ =>
      request.method = .del ∧ answer = some (request, Response.zero)
  | .delFailUnlock _ _ => False
  | .delUnlockBucket request code =>
      request.method = .del ∧ answer = some (request, Phase.answer code)
  | .finished request response => answer = some (request, response)

/-- The entries as they will be when the requests that have looked their keys
up are through. -/
structure WorkerState.Shows (state : WorkerState)
    (shown : Ptr → Option Entry) (buckets : Buckets) : Prop where
  buckets : ∀ bucket,
    buckets bucket = (state.table.bucketItems bucket).filterMap shown
  pending : ∀ worker p change,
    (state.phase worker).pendingChange = some (p, change) →
      shown p = (state.table.entryAt p).bind change
  settled : ∀ p,
    (∀ worker change, (state.phase worker).pendingChange ≠ some (p, change)) →
      shown p = state.table.entryAt p

/-- Between steps, the sequential store holds the entries that the table will
show, and has given the answers that the workers owe. -/
structure WorkerState.Linearized (state : WorkerState) (buckets : Buckets)
    (answers : WorkerId → Option (Request × Response)) : Prop where
  capacity : state.table.capacity = htCapacity
  wellFormed : ∀ worker request,
    (state.phase worker).current = some request → request.KeyWellFormed
  apart : ∀ worker other request request', worker ≠ other →
    (state.phase worker).current = some request →
    (state.phase other).current = some request' →
      ¬ request.Conflicts request'
  holds : ∀ worker request p,
    (state.phase worker).inHand = some (request, p) →
      state.table.Holds request p
  tracked : state.Tracked
  owes : ∀ worker,
    (state.phase worker).Owes state.table (answers worker)
  shows : ∃ shown, state.Shows shown buckets

variable {state : WorkerState} {buckets : Buckets}
variable {answers : WorkerId → Option (Request × Response)}
variable {ht : HashTable} {answer : Option (Request × Response)}
variable {worker other : WorkerId} {request request' : Request} {p : Ptr}
variable {phase : Phase} {change : Entry → Option Entry}
variable {shown : Ptr → Option Entry}

theorem HashTable.keyAt_eq_map_entryAt (ht : HashTable) (p : Ptr) :
    ht.keyAt p = (ht.entryAt p).map Prod.fst := by
  rw [keyAt, entryAt, Option.map_map]
  rfl

theorem Request.assigned_of_absent {entries : List Entry}
    (absent : entries.find? request.finds = none) :
    request.assigned entries =
      request.revise (request.addedKey, none, 0) :: entries := by
  have none : ¬ entries.any request.finds := by simpa using absent
  rw [assigned, entered, if_neg none,
    alterFirst_cons_of_pos _ (request.finds_addedKey _ _)]
  rfl

theorem Request.assigned_of_present {entries : List Entry} {entry : Entry}
    (present : entries.find? request.finds = some entry) :
    request.assigned entries =
      alterFirst request.finds (fun entry => some (request.revise entry))
        entries := by
  have any : entries.any request.finds :=
    List.any_eq_true.mpr (List.find?_isSome.mp (Option.isSome_of_mem present))
  rw [assigned, entered, if_pos any]

theorem Request.erased_of_absent {entries : List Entry}
    (absent : entries.find? request.finds = none) :
    request.erased entries = entries := by
  apply alterFirst_of_forall_not
  simpa using absent

namespace Phase.Owes

variable (owes : phase.Owes ht answer)
include owes

theorem not_get_of_pending (pending : phase.pendingChange = some (p, change))
    (inHand : phase.inHand = some (request, p)) : request.method ≠ .get := by
  cases phase <;> cases pending <;> cases inHand <;> rw [owes.1] <;>
    exact fun same => by cases same

theorem not_get_of_writing (writes : phase.writing = some p)
    (inHand : phase.inHand = some (request, p)) : request.method ≠ .get := by
  cases phase <;> cases writes <;> cases inHand <;> rw [owes.1] <;>
    exact fun same => by cases same

end Phase.Owes

namespace WorkerState.Linearized

variable (linearized : state.Linearized buckets answers)
include linearized

theorem getBucket_eq (request : Request) :
    state.table.getBucket request.keyMemory = request.bucket :=
  getBucket_of_capacity linearized.capacity request

theorem reads_of_shared (sound : state.Sound) (distinct : worker ≠ other)
    (mine : (state.phase worker).inHand = some (request, p))
    (theirs : (state.phase other).inHand = some (request', p)) :
    request.method = .get ∧ request'.method = .get := by
  obtain ⟨member, stored, keyed, isPrefix⟩ := linearized.holds _ _ _ mine
  obtain ⟨member', stored', keyed', isPrefix'⟩ := linearized.holds _ _ _ theirs
  obtain rfl := Option.some.inj (keyed.symm.trans keyed')
  have related : request.Related request' := Request.related_of_prefix
    (sound.linked.separate _ _ p member member') isPrefix isPrefix'
  by_contra writes
  exact linearized.apart _ _ _ _ distinct (Phase.current_of_inHand mine)
    (Phase.current_of_inHand theirs) (.inl ⟨related, writes⟩)

/-- An item that a lookup finds is not one that another request has still to
change. -/
theorem settled_of_found (sound : state.Sound)
    (looksUp : (state.phase worker).lookup = some request)
    (member : p ∈ state.table.bucketItems request.bucket)
    (found : (state.table.entryAt p).any request.finds)
    (other : WorkerId) (change : Entry → Option Entry) :
    (state.phase other).pendingChange ≠ some (p, change) := by
  intro pending
  have distinct : worker ≠ other := by
    rintro rfl
    rw [Phase.pending_of_lookup looksUp] at pending
    cases pending
  obtain ⟨request', theirs⟩ := Phase.inHand_of_pending pending
  have current := Phase.current_of_lookup looksUp
  obtain ⟨member', stored, keyed, isPrefix'⟩ := linearized.holds _ _ _ theirs
  obtain ⟨entry, shows, isFound⟩ := (Option.any_eq_true _ _).mp found
  have isPrefix := (Request.finds_iff
    (linearized.wellFormed _ _ current)).mp isFound
  rw [keyAt_eq_map_entryAt, shows, Option.map_some, Option.some.injEq] at keyed
  subst keyed
  have related : request.Related request' := Request.related_of_prefix
    (sound.linked.separate _ _ p member member') isPrefix isPrefix'
  exact linearized.apart _ _ _ _ distinct current
    (Phase.current_of_inHand theirs) (.inl ⟨related, fun reads =>
      (linearized.owes other).not_get_of_pending pending theirs reads.2⟩)

theorem any_shown (sound : state.Sound) (shows : state.Shows shown buckets)
    (looksUp : (state.phase worker).lookup = some request)
    (member : p ∈ state.table.bucketItems request.bucket) :
    (shown p).any request.finds =
      (state.table.entryAt p).any request.finds := by
  by_cases found : (state.table.entryAt p).any request.finds
  · rw [shows.settled p
      (linearized.settled_of_found sound looksUp member found)]
  · by_cases settled : ∀ other change,
        (state.phase other).pendingChange ≠ some (p, change)
    · rw [shows.settled p settled]
    · push Not at settled
      obtain ⟨other, change, pending⟩ := settled
      rw [shows.pending other p change pending]
      rw [Bool.not_eq_true] at found
      rw [found]
      cases present : state.table.entryAt p with
      | none => rfl
      | some entry =>
          rw [present, Option.any_some] at found
          rw [Option.bind_some]
          cases changes : change entry with
          | none => rfl
          | some changed =>
              rw [Option.any_some, ← found, Request.finds, Request.finds,
                Phase.key_of_pending pending changes]

theorem find?_shown (sound : state.Sound) (shows : state.Shows shown buckets)
    (looksUp : (state.phase worker).lookup = some request) :
    (state.table.bucketItems request.bucket).find? (fun p =>
        (shown p).any request.finds) =
      (state.table.bucketItems request.bucket).find? fun p =>
        (state.table.entryAt p).any request.finds :=
  List.find?_congr fun _ member =>
    linearized.any_shown sound shows looksUp member

theorem lookup_eq (sound : state.Sound) (shows : state.Shows shown buckets)
    (looksUp : (state.phase worker).lookup = some request) :
    buckets.lookup request =
      ((state.table.bucketItems request.bucket).find? fun p =>
        (state.table.entryAt p).any request.finds).bind
          state.table.entryAt := by
  rw [Buckets.lookup, shows.buckets, List.find?_filterMap,
    linearized.find?_shown sound shows looksUp]
  cases found : (state.table.bucketItems request.bucket).find? fun p =>
      (state.table.entryAt p).any request.finds with
  | none => rfl
  | some p =>
      have isFound := List.find?_some found
      exact shows.settled p (linearized.settled_of_found sound looksUp
        (List.mem_of_find?_eq_some found) isFound)

theorem search_eq (sound : state.Sound) (request : Request) :
    state.table.search request.keyMemory request.keyLen.toNat =
      some ((state.table.bucketItems request.bucket).find? fun p =>
        (state.table.entryAt p).any request.finds) := by
  rw [sound.linked.search_eq_find?, linearized.getBucket_eq]

/-- The item that a lookup returns is not about to change, is held for the
request, and has the entry that the sequential store finds. -/
theorem of_search_some (sound : state.Sound)
    (shows : state.Shows shown buckets)
    (looksUp : (state.phase worker).lookup = some request)
    (found : state.table.search request.keyMemory request.keyLen.toNat =
      some (some p)) :
    (state.table.bucketItems request.bucket).find? (fun p =>
        (shown p).any request.finds) = some p ∧
      (∀ other change, (state.phase other).pendingChange ≠ some (p, change)) ∧
      state.table.Holds request p ∧
      ∃ entry, state.table.entryAt p = some entry ∧
        buckets.lookup request = some entry := by
  rw [linearized.search_eq sound, Option.some.injEq] at found
  have member := List.mem_of_find?_eq_some found
  have isFound := List.find?_some found
  have looked := linearized.lookup_eq sound shows looksUp
  obtain ⟨entry, entryEq, finds⟩ := (Option.any_eq_true _ _).mp isFound
  rw [found, Option.bind_some, entryEq] at looked
  have isPrefix := (Request.finds_iff (linearized.wellFormed _ _
    (Phase.current_of_lookup looksUp))).mp finds
  exact ⟨(linearized.find?_shown sound shows looksUp).trans found,
    linearized.settled_of_found sound looksUp member isFound,
    ⟨member, entry.1, by rw [keyAt_eq_map_entryAt, entryEq, Option.map_some],
      isPrefix⟩,
    entry, entryEq, looked⟩

theorem of_search_none (sound : state.Sound)
    (shows : state.Shows shown buckets)
    (looksUp : (state.phase worker).lookup = some request)
    (missing : state.table.search request.keyMemory request.keyLen.toNat =
      some none) : buckets.lookup request = none := by
  rw [linearized.search_eq sound, Option.some.injEq] at missing
  rw [linearized.lookup_eq sound shows looksUp, missing, Option.bind_none]

end WorkerState.Linearized

/-! ### What a step changes -/

variable {after : HashTable} {before next : Phase} {stale : HashItem}

theorem HashTable.entryAt_insertEntry (ht : HashTable) (bucket : Nat)
    (request : Request) :
    (ht.insertEntry bucket request.keyMemory
        request.keyLen.toNat).1.entryAt =
      Function.update ht.entryAt ht.fresh
        (some (request.addedKey, none, 0)) := by
  funext q
  by_cases fresh : q = ht.fresh
  · subst fresh
    rw [Function.update_self, entryAt, insertEntry_read_fresh,
      Option.map_some]
    rfl
  · rw [Function.update_of_ne fresh]
    exact entryAt_of_data_eq (insertEntry_data fresh)

theorem HashTable.entryAt_unlinkItem {bucket : Nat} {item : HashItem} :
    (ht.unlinkItem bucket p item).entryAt =
      Function.update ht.entryAt p none := by
  funext q
  by_cases same : q = p
  · subst same
    rw [Function.update_self, entryAt, unlinkItem_read_self]
    rfl
  · rw [Function.update_of_ne same]
    exact entryAt_of_data_eq (unlinkItem_data same)

/-- The chains and entries after a step. -/
inductive Phase.Effect (ht : HashTable) : Phase → HashTable → Phase → Prop
  | keeps {before next : Phase} {after : HashTable}
      (items : after.bucketItems = ht.bucketItems)
      (entries : after.entryAt = ht.entryAt) :
      Effect ht before after next
  | inserts {request : Request} {after : HashTable}
      (missing : ht.search request.keyMemory request.keyLen.toNat = some none)
      (items : after.bucketItems = Function.update ht.bucketItems
        (ht.getBucket request.keyMemory)
        (ht.fresh :: ht.bucketItems (ht.getBucket request.keyMemory)))
      (entries : after.entryAt = Function.update ht.entryAt ht.fresh
        (some (request.addedKey, none, 0))) :
      Effect ht (.setFindEntry request) after
        (.setUnlockBucket request ht.fresh)
  | stores {request : Request} {p : Ptr} {after : HashTable}
      (items : after.bucketItems = ht.bucketItems)
      (entries : after.entryAt = Function.update ht.entryAt p
        ((ht.entryAt p).bind fun entry => some (request.revise entry))) :
      Effect ht (.setStore request p) after (.setUnlock request p)
  | unlinks {request : Request} {p : Ptr} {after : HashTable}
      (items : after.bucketItems = Function.update ht.bucketItems
        (ht.getBucket request.keyMemory)
        ((ht.bucketItems (ht.getBucket request.keyMemory)).erase p))
      (entries : after.entryAt = Function.update ht.entryAt p none) :
      Effect ht (.delUnlink request p) after (.delUnlockBucket request .ok)

theorem Advances.effect
    (advances : Advances ht worker stale before after next)
    (linked : Linked ht ht.bucketItems)
    (doomed : ∀ key p, before.doomed = some (key, p) →
      p ∈ ht.bucketItems (ht.getBucket key)) :
    before.Effect ht after next := by
  cases advances with
  | @setInsert request missing =>
      exact .inserts missing
        (linked.insertEntry (linked.getBucket_lt _)).bucketItems_eq
        (entryAt_insertEntry ht _ request)
  | @setStore request p =>
      exact .stores (linked.bucketItems_storeValue p request)
        (entryAt_writeItem_eq_update fun _ => rfl)
  | @delUnlink request p =>
      have member := doomed _ _ rfl
      exact .unlinks (linked.unlinkItem member
        (linked.readItem_of_mem member)).bucketItems_eq entryAt_unlinkItem
  | setLocked | getLocked | delLocked =>
      exact .keeps (linked.bucketItems_setRwlock _ _)
        (funext fun _ => entryAt_writeItem fun _ => rfl)
  | setUnlock | getUnlock | delFailUnlock =>
      exact .keeps (linked.bucketItems_unlockItem _ _)
        (funext fun _ => entryAt_writeItem fun _ => rfl)
  | _ => exact .keeps rfl rfl

theorem Phase.Effect.keeps_item (effect : before.Effect ht after next)
    (linked : Linked ht ht.bucketItems) {bucket : Nat}
    (member : p ∈ ht.bucketItems bucket)
    (away : ∀ change, before.pendingChange ≠ some (p, change)) :
    after.entryAt p = ht.entryAt p ∧ p ∈ after.bucketItems bucket := by
  cases effect with
  | keeps items entries => rw [items, entries]; exact ⟨rfl, member⟩
  | inserts missing items entries =>
      rw [items, entries, Function.update_of_ne (linked.lt_fresh member).ne]
      refine ⟨rfl, ?_⟩
      rw [Function.update_apply]
      split
      case isTrue here => exact List.mem_cons_of_mem _ (here ▸ member)
      case isFalse => exact member
  | @stores request q _ items entries =>
      have distinct : p ≠ q := by
        rintro rfl
        exact away _ rfl
      rw [items, entries, Function.update_of_ne distinct]
      exact ⟨rfl, member⟩
  | @unlinks request q _ items entries =>
      have distinct : p ≠ q := by
        rintro rfl
        exact away _ rfl
      rw [items, entries, Function.update_of_ne distinct]
      refine ⟨rfl, ?_⟩
      rw [Function.update_apply]
      split
      case isTrue here =>
        exact (List.mem_erase_of_ne distinct).mpr (here ▸ member)
      case isFalse => exact member

theorem HashTable.Holds.of_entryAt (holds : ht.Holds request p)
    (items : p ∈ after.bucketItems request.bucket)
    (entry : after.entryAt p = ht.entryAt p) : after.Holds request p := by
  obtain ⟨-, stored, keyed, isPrefix⟩ := holds
  refine ⟨items, stored, ?_, isPrefix⟩
  rw [keyAt_eq_map_entryAt, entry, ← keyAt_eq_map_entryAt, keyed]

theorem HashTable.Holds.writeItem {q : Ptr} {write : HashItem → HashItem}
    (holds : ht.Holds request p) (linked : Linked ht ht.bucketItems)
    (keepsNext : ∀ item, (write item).next = item.next)
    (keepsPrev : ∀ item, (write item).prev = item.prev)
    (keepsKey : ∀ item, (write item).key = item.key) :
    (ht.writeItem q write).Holds request p := by
  obtain ⟨member, stored, keyed, isPrefix⟩ := holds
  refine ⟨?_, stored, ?_, isPrefix⟩
  · rw [linked.bucketItems_writeItem keepsNext keepsPrev]
    exact member
  · rw [← keyed, keyAt, writeItem_heap, keyAt]
    apply modifyAt_map
    exact fun item => congrArg CString.contents (keepsKey item)

def Buckets.lookedUp (buckets : Buckets) (phase : Phase) : Buckets :=
  phase.lookup.elim buckets buckets.after

section LookedUp

variable {buckets : Buckets} {phase : Phase} {request : Request}
variable (lookup : phase.lookup = some request)
include lookup

theorem Buckets.lookedUp_set (method : request.method = .set) :
    buckets.lookedUp phase = Function.update buckets request.bucket
      (request.assigned (buckets request.bucket)) := by
  simp [lookedUp, lookup, after, method]

theorem Buckets.lookedUp_get (method : request.method = .get) :
    buckets.lookedUp phase = buckets := by
  simp [lookedUp, lookup, after, method]

theorem Buckets.lookedUp_del (method : request.method = .del) :
    buckets.lookedUp phase = Function.update buckets request.bucket
      (request.erased (buckets request.bucket)) := by
  simp [lookedUp, lookup, after, method]

end LookedUp

def Buckets.owed (buckets : Buckets) (phase : Phase)
    (answer : Option (Request × Response)) : Option (Request × Response) :=
  phase.lookup.elim answer fun request =>
    some (request, buckets.answer request)

namespace WorkerState.Linearized

variable (linearized : state.Linearized buckets answers)
include linearized

theorem not_pending_of_other (sound : state.Sound) (distinct : worker ≠ other)
    (theirs : (state.phase other).inHand = some (request, p))
    (change : Entry → Option Entry) :
    (state.phase worker).pendingChange ≠ some (p, change) := by
  intro pending
  obtain ⟨request', mine⟩ := Phase.inHand_of_pending pending
  exact (linearized.owes worker).not_get_of_pending pending mine
    (linearized.reads_of_shared sound distinct mine theirs).1

theorem lockAt_of_inHand (sound : state.Sound)
    (inHand : (state.phase worker).inHand = some (request, p)) :
    state.table.lockAt p ≠ none :=
  lockAt_ne_none_of_mem sound.linked (linearized.holds _ _ _ inHand).1

theorem lockAt_of_changing (sound : state.Sound)
    (inHand : (state.phase worker).inHand = some (request, p))
    (changes : request.method ≠ .get)
    (outside : (state.phase worker).writing = none ∧
      (state.phase worker).reading = none) :
    state.table.lockAt p = some .free := by
  obtain ⟨lock, held⟩ := Option.ne_none_iff_exists'.mp
    (linearized.lockAt_of_inHand sound inHand)
  have tracks := linearized.tracked p lock held
  have unused (other : WorkerId) (inside :
      (state.phase other).writing = some p ∨
        (state.phase other).reading = some p) : False := by
    by_cases same : worker = other
    · subst same
      rw [outside.1, outside.2] at inside
      simp at inside
    · obtain ⟨request', theirs⟩ := Phase.inHand_of_section inside
      exact changes (linearized.reads_of_shared sound same inHand theirs).1
  rw [held]
  cases lock with
  | writer holder =>
      exact (unused holder (.inl ((tracks.write holder).mp rfl))).elim
  | readers holders =>
      cases holders with
      | nil => rfl
      | cons holder holders =>
          exact (unused holder (.inr ((tracks.read holder).mp
            List.mem_cons_self))).elim

theorem lockAt_of_reading (sound : state.Sound)
    (inHand : (state.phase worker).inHand = some (request, p))
    (outside : (state.phase worker).writing = none) :
    ∃ holders, state.table.lockAt p = some (.readers holders) := by
  obtain ⟨lock, held⟩ := Option.ne_none_iff_exists'.mp
    (linearized.lockAt_of_inHand sound inHand)
  have tracks := linearized.tracked p lock held
  cases lock with
  | readers holders => exact ⟨holders, held⟩
  | writer holder =>
      have writes := (tracks.write holder).mp rfl
      have distinct : worker ≠ holder := by
        rintro rfl
        rw [outside] at writes
        cases writes
      obtain ⟨request', theirs⟩ := Phase.inHand_of_section (.inl writes)
      exact absurd
        (linearized.reads_of_shared sound distinct inHand theirs).2
        ((linearized.owes holder).not_get_of_writing writes theirs)

theorem owes_self (sound : state.Sound) (shows : state.Shows shown buckets)
    (here : state.phase worker = before)
    (advanced : advance state.table worker stale before =
      some (after, next)) :
    next.Owes after (buckets.owed before (answers worker)) ∧
      ∀ request p, next.inHand = some (request, p) →
        after.Holds request p := by
  have advances := advance_advances advanced
  have owes := here ▸ linearized.owes worker
  have holds (request : Request) (p : Ptr)
      (inHand : before.inHand = some (request, p)) :
      state.table.Holds request p :=
    linearized.holds worker request p (here ▸ inHand)
  have free {request : Request} {p : Ptr}
      (inHand : before.inHand = some (request, p))
      (changes : request.method ≠ .get)
      (outside : before.writing = none ∧ before.reading = none) :
      (state.table.readItem p stale).rwlock = .free :=
    rwlock_readItem (linearized.lockAt_of_changing sound (here ▸ inHand)
      changes (here ▸ outside))
  have looks (request : Request) (lookup : before.lookup = some request) :
      (state.phase worker).lookup = some request := here ▸ lookup
  cases advances with
  | setLockBucket | delLockBucket => exact ⟨owes, fun _ _ none => by cases none⟩
  | @setFound request p found =>
      have method : request.method = .set := owes
      obtain ⟨-, -, held, -⟩ :=
        linearized.of_search_some sound shows (looks request rfl) found
      refine ⟨⟨method, ?_⟩, fun _ _ inHand => by cases inHand; exact held⟩
      simp [Buckets.owed, Phase.lookup, Buckets.answer, method]
  | @setInsert request missing =>
      have method : request.method = .set := owes
      have current := Phase.current_of_lookup (looks request rfl)
      have wellFormed := linearized.wellFormed _ _ current
      refine ⟨⟨method, ?_⟩, fun _ _ inHand => ?_⟩
      · simp [Buckets.owed, Phase.lookup, Buckets.answer, method]
      · cases inHand
        have inserted : Linked (state.table.insertEntry
            (state.table.getBucket request.keyMemory) request.keyMemory
            request.keyLen.toNat).1 _ :=
          sound.linked.insertEntry (sound.linked.getBucket_lt _)
        refine ⟨?_, request.addedKey, ?_, ?_⟩
        · rw [inserted.bucketItems_eq, linearized.getBucket_eq,
            Function.update_self]
          exact List.mem_cons_self
        · rw [keyAt, insertEntry_read_fresh, Option.map_some]
          rfl
        · rw [Request.addedKey_eq wellFormed]
  | setUnlockBucket =>
      exact ⟨owes, fun _ _ inHand => by cases inHand; exact holds _ _ rfl⟩
  | setRefused held | delRefused held =>
      exact absurd (free rfl (by rw [owes.1]; decide) ⟨rfl, rfl⟩) held
  | setLocked | delLocked =>
      refine ⟨owes, fun _ _ inHand => ?_⟩
      cases inHand
      exact (holds _ _ rfl).writeItem sound.linked (fun _ => rfl)
        (fun _ => rfl) fun _ => rfl
  | setStore =>
      refine ⟨owes, fun _ _ inHand => ?_⟩
      cases inHand
      exact (holds _ _ rfl).writeItem sound.linked (fun _ => rfl)
        (fun _ => rfl) fun _ => rfl
  | setUnlock => exact ⟨owes.2, fun _ _ none => by cases none⟩
  | @getMissing request missing =>
      have method : request.method = .get := owes
      have absent :=
        linearized.of_search_none sound shows (looks request rfl) missing
      refine ⟨?_, fun _ _ none => by cases none⟩
      simp [Phase.Owes, Buckets.owed, Phase.lookup, Buckets.answer, method,
        absent, Response.refusal, Phase.answer]
  | @getFound request p found =>
      have method : request.method = .get := owes
      obtain ⟨-, -, held, entry, entryEq, looked⟩ :=
        linearized.of_search_some sound shows (looks request rfl) found
      refine ⟨⟨method, entry, entryEq, ?_⟩,
        fun _ _ inHand => by cases inHand; exact held⟩
      simp [Buckets.owed, Phase.lookup, Buckets.answer, method, looked]
  | @getRefused request p =>
      obtain ⟨holders, shared⟩ := linearized.lockAt_of_reading sound
        (congrArg Phase.inHand here) (congrArg Phase.writing here)
      simp [advance, rwlock_readItem shared, RwLock.tryrdlock] at advanced
  | getLocked =>
      obtain ⟨method, entry, entryEq, answered⟩ := owes
      refine ⟨⟨method, entry, ?_, answered⟩, fun _ _ inHand => ?_⟩
      · rw [← entryEq]
        exact entryAt_writeItem fun _ => rfl
      · cases inHand
        exact (holds _ _ rfl).writeItem sound.linked (fun _ => rfl)
          (fun _ => rfl) fun _ => rfl
  | getCopy =>
      obtain ⟨method, entry, entryEq, answered⟩ := owes
      refine ⟨⟨method, ?_⟩, fun _ _ inHand => by
        cases inHand; exact holds _ _ rfl⟩
      obtain ⟨item, read, rfl⟩ := Option.map_eq_some_iff.mp entryEq
      rw [readItem, read, Option.getD_some]
      exact answered
  | getUnlock => exact ⟨owes.2, fun _ _ none => by cases none⟩
  | @delMissing request missing =>
      have method : request.method = .del := owes
      have absent :=
        linearized.of_search_none sound shows (looks request rfl) missing
      refine ⟨⟨method, ?_⟩, fun _ _ none => by cases none⟩
      simp [Buckets.owed, Phase.lookup, Buckets.answer, method, absent,
        Response.refusal, Phase.answer]
  | @delFound request p found =>
      have method : request.method = .del := owes
      obtain ⟨-, -, held, entry, entryEq, looked⟩ :=
        linearized.of_search_some sound shows (looks request rfl) found
      refine ⟨⟨method, ?_⟩, fun _ _ inHand => by cases inHand; exact held⟩
      simp [Buckets.owed, Phase.lookup, Buckets.answer, method, looked]
  | delFailUnlock => exact owes.elim
  | delUnlink => exact ⟨owes, fun _ _ none => by cases none⟩
  | delUnlockBucket => exact ⟨owes.2, fun _ _ none => by cases none⟩

end WorkerState.Linearized

theorem Phase.Owes.of_entryAt (owes : phase.Owes ht answer)
    (same : ∀ request p, phase.inHand = some (request, p) →
      after.entryAt p = ht.entryAt p) : phase.Owes after answer := by
  cases phase with
  | getTryrdlock request p | getCopy request p =>
      obtain ⟨method, entry, entryEq, answered⟩ := owes
      exact ⟨method, entry, (same request p rfl).trans entryEq, answered⟩
  | _ => exact owes

end RdmaKVStore
