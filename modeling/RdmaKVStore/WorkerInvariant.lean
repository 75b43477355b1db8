import RdmaKVStore.WorkerSteps

/-!
# Invariant of interleaved workers

Whatever the interleaving, the buckets remain disjoint doubly linked chains,
each bucket mutex is held by exactly the worker that is between its lock and
its unlock, and the item that a DEL is about to remove is still linked: items
enter and leave a chain only under its mutex.
-/

namespace RdmaKVStore

open LinkedChain HashTable

variable {ht after : HashTable} {worker : WorkerId} {stale : HashItem}
variable {before next : Phase} {bucket : Nat} {p : Ptr}

namespace HashTable

theorem Linked.self {chains : Nat → List Ptr} (linked : Linked ht chains) :
    Linked ht ht.bucketItems :=
  linked.bucketItems_eq ▸ linked

theorem Linked.bucketItems_writeItem {chains : Nat → List Ptr}
    (linked : Linked ht chains) {write : HashItem → HashItem}
    (keepsNext : ∀ item, (write item).next = item.next)
    (keepsPrev : ∀ item, (write item).prev = item.prev) :
    (ht.writeItem p write).bucketItems = ht.bucketItems :=
  (linked.writeItem keepsNext keepsPrev).bucketItems_eq.trans
    linked.bucketItems_eq.symm

theorem Linked.bucketItems_setRwlock {chains : Nat → List Ptr}
    (linked : Linked ht chains) (p : Ptr) (lock : RwLock WorkerId) :
    (ht.setRwlock p lock).bucketItems = ht.bucketItems :=
  linked.bucketItems_writeItem (fun _ => rfl) fun _ => rfl

theorem Linked.bucketItems_unlockItem {chains : Nat → List Ptr}
    (linked : Linked ht chains) (worker : WorkerId) (p : Ptr) :
    (ht.unlockItem worker p).bucketItems = ht.bucketItems :=
  linked.bucketItems_writeItem (fun _ => rfl) fun _ => rfl

theorem Linked.bucketItems_storeValue {chains : Nat → List Ptr}
    (linked : Linked ht chains) (p : Ptr) (request : Request) :
    (ht.storeValue p request).bucketItems = ht.bucketItems :=
  linked.bucketItems_writeItem (fun _ => rfl) fun _ => rfl

theorem Linked.readItem_of_mem {chains : Nat → List Ptr}
    (linked : Linked ht chains) (member : p ∈ chains bucket) :
    ht.heap p = some (ht.readItem p stale) := by
  obtain ⟨item, read⟩ := linked.read_of_mem member
  rw [readItem, read, Option.getD_some]

end HashTable

namespace Advances

theorem capacity (advances : Advances ht worker stale before after next) :
    after.capacity = ht.capacity := by
  cases advances <;> rfl

theorem getBucket (advances : Advances ht worker stale before after next) :
    after.getBucket = ht.getBucket := by
  funext key
  rw [HashTable.getBucket, advances.capacity, HashTable.getBucket]

/-- A request stays in progress until it is finished. -/
theorem current (advances : Advances ht worker stale before after next) :
    next.current = none ∨ next.current = before.current := by
  cases advances <;> first | exact .inl rfl | exact .inr rfl

theorem exists_current
    (advances : Advances ht worker stale before after next) :
    ∃ request, before.current = some request := by
  cases advances <;> exact ⟨_, rfl⟩

theorem locks_cases (advances : Advances ht worker stale before after next) :
    (after.locks = ht.locks ∧ next.bucketKey = before.bucketKey) ∨
      (∃ key, before.bucketKey = none ∧ next.bucketKey = some key ∧
        ht.locks (ht.getBucket key) = none ∧
        after.locks =
          Function.update ht.locks (ht.getBucket key) (some worker)) ∨
      ∃ key, before.bucketKey = some key ∧ next.bucketKey = none ∧
        after.locks = Function.update ht.locks (ht.getBucket key) none := by
  cases advances with
  | setLockBucket free | delLockBucket free =>
      exact .inr (.inl ⟨_, rfl, rfl, free, rfl⟩)
  | setUnlockBucket | delUnlockBucket => exact .inr (.inr ⟨_, rfl, rfl, rfl⟩)
  | _ => exact .inl ⟨rfl, rfl⟩

theorem linked (advances : Advances ht worker stale before after next)
    (linked : Linked ht ht.bucketItems)
    (doomed : ∀ key p, before.doomed = some (key, p) →
      p ∈ ht.bucketItems (ht.getBucket key)) :
    Linked after after.bucketItems := by
  cases advances with
  | setLockBucket | delLockBucket =>
      exact ⟨linked.positive, linked.chain, linked.nodup, linked.separate,
        linked.inRange, linked.allocated⟩
  | setUnlockBucket | delUnlockBucket => exact linked.unlockBucket
  | setLocked | getLocked | delLocked | setStore | setUnlock | getUnlock
  | delFailUnlock =>
      refine Linked.self (?_ : Linked _ ht.bucketItems)
      exact linked.writeItem (fun _ => rfl) fun _ => rfl
  | setInsert => exact (linked.insertEntry (linked.getBucket_lt _)).self
  | delUnlink =>
      have member := doomed _ _ rfl
      exact (linked.unlinkItem member (linked.readItem_of_mem member)).self
  | _ => exact linked

theorem bucketItems_of_ne
    (advances : Advances ht worker stale before after next)
    (linked : Linked ht ht.bucketItems)
    (doomed : ∀ key p, before.doomed = some (key, p) →
      p ∈ ht.bucketItems (ht.getBucket key))
    (elsewhere : before.bucketKey.map ht.getBucket ≠ some bucket) :
    after.bucketItems bucket = ht.bucketItems bucket := by
  cases advances with
  | setLocked | getLocked | delLocked =>
      rw [linked.bucketItems_setRwlock]
  | setStore => rw [linked.bucketItems_storeValue]
  | setUnlock | getUnlock | delFailUnlock =>
      rw [linked.bucketItems_unlockItem]
  | setInsert =>
      rw [(linked.insertEntry (linked.getBucket_lt _)).bucketItems_eq]
      exact Function.update_of_ne
        (fun same => elsewhere (congrArg some same.symm)) _ _
  | delUnlink =>
      have member := doomed _ _ rfl
      rw [(linked.unlinkItem member
        (linked.readItem_of_mem member)).bucketItems_eq]
      exact Function.update_of_ne
        (fun same => elsewhere (congrArg some same.symm)) _ _
  | _ => rfl

theorem doomed_mem (advances : Advances ht worker stale before after next)
    (linked : Linked ht ht.bucketItems)
    (doomed : ∀ key p, before.doomed = some (key, p) →
      p ∈ ht.bucketItems (ht.getBucket key))
    {key : Bytes} (isDoomed : next.doomed = some (key, p)) :
    p ∈ after.bucketItems (ht.getBucket key) := by
  cases advances with
  | delFound found => cases isDoomed; exact linked.mem_of_search found
  | delRefused => cases isDoomed; exact doomed _ _ rfl
  | delLocked =>
      cases isDoomed
      rw [linked.bucketItems_setRwlock]
      exact doomed _ _ rfl
  | _ => cases isDoomed

end Advances

/-- The phases of a method are those of a request with this method. -/
def Phase.Proper : Phase → Prop
  | .setLockBucket request | .setFindEntry request
  | .setUnlockBucket request _ | .setTrywrlock request _
  | .setStore request _ | .setUnlock request _ => request.method = .set
  | .getSearch request | .getTryrdlock request _ | .getCopy request _
  | .getUnlock request _ _ => request.method = .get
  | .delLockBucket request | .delSearch request | .delTrywrlock request _
  | .delFailUnlock request _ | .delUnlink request _
  | .delUnlockBucket request _ => request.method = .del
  | .idle | .finished _ _ => True

theorem Phase.proper_first {request : Request} {phase : Phase}
    (first : Phase.first request = some phase) : phase.Proper := by
  unfold Phase.first at first
  split at first <;> cases first <;> assumption

theorem Phase.Proper.advances (proper : before.Proper)
    (advances : Advances ht worker stale before after next) :
    next.Proper := by
  cases advances <;> first | exact proper | trivial

/-- The invariant of all interleavings. -/
structure WorkerState.Sound (state : WorkerState) : Prop where
  linked : Linked state.table state.table.bucketItems
  mutex : ∀ worker bucket, state.table.locks bucket = some worker ↔
    (state.phase worker).bucketKey.map state.table.getBucket = some bucket
  doomed : ∀ worker key p, (state.phase worker).doomed = some (key, p) →
    p ∈ state.table.bucketItems (state.table.getBucket key)

theorem sound_initial {state : WorkerState} (initial : workers.initial state) :
    state.Sound := by
  obtain rfl := initial
  refine ⟨consistent_empty.linked.self, fun worker bucket => ?_, ?_⟩
  · simp [WorkerState.initial, HashTable.empty, initHashtable,
      Phase.bucketKey]
  · intro worker key p isDoomed
    cases isDoomed

theorem Phase.first_eq {request : Request} {phase : Phase}
    (first : Phase.first request = some phase) :
    phase = .setLockBucket request ∨ phase = .getSearch request ∨
      phase = .delLockBucket request := by
  unfold Phase.first at first
  split at first <;> cases first <;> simp

theorem Phase.current_of_first {request : Request} {phase : Phase}
    (first : Phase.first request = some phase) :
    phase.current = some request := by
  rcases Phase.first_eq first with rfl | rfl | rfl <;> rfl

theorem Phase.Finished.bucketKey {phase : Phase} (finished : phase.Finished) :
    phase.bucketKey = none := by
  cases phase <;> first | rfl | exact finished.elim

theorem sound_start {before : WorkerState} {worker : WorkerId}
    {request : Request} {phase : Phase} (sound : before.Sound)
    (finished : (before.phase worker).Finished)
    (first : Phase.first request = some phase) :
    { before with
      phase := Function.update before.phase worker phase }.Sound := by
  have starts : phase.bucketKey = none ∧ phase.doomed = none := by
    rcases Phase.first_eq first with rfl | rfl | rfl <;> exact ⟨rfl, rfl⟩
  refine ⟨sound.linked, fun other bucket => ?_, fun other key p => ?_⟩
  · by_cases same : other = worker
    · subst same
      simp [sound.mutex, Function.update_self, starts, finished.bucketKey]
    · simp [sound.mutex, Function.update_of_ne same]
  · by_cases same : other = worker
    · subst same
      simp [Function.update_self, starts]
    · simpa [Function.update_of_ne same] using sound.doomed other key p

/-- After a step the bucket mutexes are held by the workers between their lock
and their unlock again. -/
theorem Advances.mutex {phase : WorkerId → Phase}
    (advances : Advances ht worker stale (phase worker) after next)
    (mutex : ∀ other bucket, ht.locks bucket = some other ↔
      (phase other).bucketKey.map ht.getBucket = some bucket)
    (other : WorkerId) (bucket : Nat) :
    after.locks bucket = some other ↔
      (Function.update phase worker next other).bucketKey.map ht.getBucket =
        some bucket := by
  rcases advances.locks_cases with ⟨locks, keys⟩ |
    ⟨key, idle, keys, free, locks⟩ | ⟨key, held, keys, locks⟩
  · rw [locks, mutex]
    by_cases same : other = worker
    · subst same; rw [Function.update_self, keys]
    · rw [Function.update_of_ne same]
  · rw [locks]
    by_cases same : other = worker
    · subst same
      rw [Function.update_self, keys, Option.map_some]
      by_cases here : bucket = ht.getBucket key
      · subst here; simp
      · rw [Function.update_of_ne here, mutex, idle]
        simpa using fun equal => here equal.symm
    · rw [Function.update_of_ne same, ← mutex]
      by_cases here : bucket = ht.getBucket key
      · subst here; simp [free, Ne.symm same]
      · rw [Function.update_of_ne here]
  · rw [locks]
    by_cases same : other = worker
    · subst same
      rw [Function.update_self, keys]
      by_cases here : bucket = ht.getBucket key
      · subst here; simp
      · rw [Function.update_of_ne here, mutex, held]
        simpa using fun equal => here equal.symm
    · rw [Function.update_of_ne same, ← mutex]
      by_cases here : bucket = ht.getBucket key
      · subst here
        have mine := (mutex worker _).mpr
          (congrArg (Option.map ht.getBucket) held)
        simp [mine, Ne.symm same]
      · rw [Function.update_of_ne here]

theorem sound_step {before after : WorkerState} {label : WorkerLabel}
    (sound : before.Sound)
    (stepTo : workers.step before label = some after) : after.Sound := by
  rcases workers_step_cases stepTo with
    ⟨worker, request, phase, -, finished, first, rfl⟩ |
    ⟨worker, stale, table, next, -, advances, rfl⟩
  · exact sound_start sound finished first
  · have own := sound.doomed worker
    refine ⟨advances.linked sound.linked own, fun other bucket => ?_,
      fun other key p isDoomed => ?_⟩
    · simp only [advances.getBucket]
      exact advances.mutex sound.mutex other bucket
    · simp only [advances.getBucket] at isDoomed ⊢
      by_cases same : other = worker
      · subst same
        rw [Function.update_self] at isDoomed
        exact advances.doomed_mem sound.linked own isDoomed
      · -- the item's bucket is under the mutex of the other worker
        rw [Function.update_of_ne same] at isDoomed
        have theirs := (sound.mutex other _).mpr (congrArg
          (Option.map before.table.getBucket)
          (Phase.bucketKey_of_doomed isDoomed))
        rw [advances.bucketItems_of_ne sound.linked own fun mine => same ?_]
        · exact sound.doomed other key p isDoomed
        · rw [← sound.mutex, theirs] at mine
          exact Option.some.inj mine

theorem sound_of_reachable {state : WorkerState}
    (reached : workers.Reachable state) : state.Sound :=
  TransitionSystem.Reachable.invariant (fun _ => sound_initial)
    (fun _ _ _ => sound_step) reached

end RdmaKVStore
