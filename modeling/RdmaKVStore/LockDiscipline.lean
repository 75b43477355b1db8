import RdmaKVStore.WorkerInvariant

/-!
# Lock discipline

As long as every DEL finds the lock of its item free and nobody tries a lock
that was freed, item locks are released by their holders only and sections of
one item exclude each other.  A DEL that finds the lock taken releases it on
behalf of its holder.
-/

namespace RdmaKVStore

open LinkedChain HashTable

namespace Phase

def writing : Phase → Option Ptr
  | .setStore _ p | .setUnlock _ p | .delUnlink _ p => some p
  | _ => none

def reading : Phase → Option Ptr
  | .getCopy _ p | .getUnlock _ p _ => some p
  | _ => none

/-- The item whose lock the next step releases. -/
def itemUnlock : Phase → Option Ptr
  | .setUnlock _ p | .getUnlock _ p _ | .delFailUnlock _ p => some p
  | _ => none

def bucketUnlock : Phase → Option Bytes
  | .setUnlockBucket request _ | .delUnlockBucket request _ =>
      some request.keyMemory
  | _ => none

/-- The item whose lock the next step tries, releases or frees. -/
def lockTarget : Phase → Option Ptr
  | .setTrywrlock _ p | .setUnlock _ p | .getTryrdlock _ p
  | .getUnlock _ p _ | .delTrywrlock _ p | .delFailUnlock _ p
  | .delUnlink _ p => some p
  | _ => none

theorem bucketKey_of_bucketUnlock {phase : Phase} {key : Bytes}
    (unlocks : phase.bucketUnlock = some key) :
    phase.bucketKey = some key := by
  cases phase <;> cases unlocks <;> rfl

end Phase

def HashTable.lockAt (ht : HashTable) (p : Ptr) : Option (RwLock WorkerId) :=
  (ht.heap p).map HashItem.rwlock

variable {ht after : HashTable} {worker other : WorkerId} {stale : HashItem}
variable {before next : Phase} {p q : Ptr} {lock : RwLock WorkerId}

namespace HashTable

theorem lockAt_of_data_eq {table : HashTable}
    (same : (table.heap p).map HashItem.data =
      (ht.heap p).map HashItem.data) : table.lockAt p = ht.lockAt p := by
  have projected := congrArg (Option.map fun data => data.2.2.2) same
  simpa [Option.map_map, Function.comp_def, HashItem.data, lockAt]
    using projected

theorem lockAt_writeItem_of_ne {write : HashItem → HashItem}
    (distinct : q ≠ p) : (ht.writeItem q write).lockAt p = ht.lockAt p := by
  rw [lockAt, writeItem_heap, modifyAt_of_ne (by simpa using distinct), lockAt]

theorem lockAt_setRwlock (present : ht.lockAt p ≠ none) :
    (ht.setRwlock p lock).lockAt p = some lock := by
  cases read : ht.heap p with
  | none => simp [lockAt, read] at present
  | some item => simp [lockAt, setRwlock, read]

theorem lockAt_unlockItem (held : ht.lockAt p = some lock) :
    (ht.unlockItem worker p).lockAt p = some (lock.unlock worker) := by
  obtain ⟨item, read, rfl⟩ := Option.map_eq_some_iff.mp held
  simp [lockAt, unlockItem, read]

theorem lockAt_storeValue (request : Request) :
    (ht.storeValue q request).lockAt p = ht.lockAt p := by
  rw [lockAt, lockAt, storeValue, writeItem_heap]
  refine modifyAt_map ?_ p
  exact fun _ => rfl

theorem rwlock_readItem (held : ht.lockAt p = some lock) :
    (ht.readItem p stale).rwlock = lock := by
  obtain ⟨item, read, rfl⟩ := Option.map_eq_some_iff.mp held
  rw [readItem, read, Option.getD_some]

theorem lockAt_ne_none_of_mem {chains : Nat → List Ptr} {bucket : Nat}
    (linked : Linked ht chains) (member : p ∈ chains bucket) :
    ht.lockAt p ≠ none := by
  obtain ⟨item, read⟩ := linked.read_of_mem member
  simp [lockAt, read]

end HashTable

theorem Advances.lockAt_of_ne
    (advances : Advances ht worker stale before after next)
    (linked : Linked ht ht.bucketItems) (held : ht.lockAt p = some lock)
    (elsewhere : before.lockTarget ≠ some p) :
    after.lockAt p = some lock := by
  have distinct {q : Ptr} (target : before.lockTarget = some q) : q ≠ p :=
    fun same => elsewhere (same ▸ target)
  rw [← held]
  cases advances with
  | setLocked | getLocked | delLocked | setUnlock | getUnlock
  | delFailUnlock => exact lockAt_writeItem_of_ne (distinct rfl)
  | setStore => exact lockAt_storeValue _
  | setInsert =>
      refine lockAt_of_data_eq (insertEntry_data fun fresh => ?_)
      rw [fresh, lockAt, linked.allocated ht.fresh le_rfl] at held
      cases held
  | delUnlink =>
      exact lockAt_of_data_eq (unlinkItem_data (distinct rfl).symm)
  | _ => rfl

/-- The lock allows the worker's section: a writer holds it alone, a reader is
among the readers. -/
structure Phase.Allowed (phase : Phase) (worker : WorkerId)
    (lockAt : Ptr → Option (RwLock WorkerId)) : Prop where
  writing : ∀ p, phase.writing = some p → lockAt p = some (.writer worker)
  reading : ∀ p, phase.reading = some p →
    ∃ holders, lockAt p = some (.readers holders) ∧ worker ∈ holders

namespace Phase.Allowed

variable {phase : Phase} {lockAt : Ptr → Option (RwLock WorkerId)}

theorem outside (writing : phase.writing = none)
    (reading : phase.reading = none) : phase.Allowed worker lockAt :=
  ⟨fun _ inSection => by simp [writing] at inSection,
    fun _ inSection => by simp [reading] at inSection⟩

theorem writer (writing : phase.writing = some p)
    (reading : phase.reading = none)
    (held : lockAt p = some (.writer worker)) :
    phase.Allowed worker lockAt :=
  ⟨fun _ inSection => Option.some.inj (writing.symm.trans inSection) ▸ held,
    fun _ inSection => by simp [reading] at inSection⟩

theorem reader {holders : List WorkerId} (writing : phase.writing = none)
    (reading : phase.reading = some p)
    (shared : lockAt p = some (.readers holders))
    (member : worker ∈ holders) : phase.Allowed worker lockAt :=
  ⟨fun _ inSection => by simp [writing] at inSection, fun _ inSection =>
    Option.some.inj (reading.symm.trans inSection) ▸
      ⟨holders, shared, member⟩⟩

end Phase.Allowed

/-- Every section is covered by its lock, and no DEL has failed to lock. -/
structure WorkerState.Locked (state : WorkerState) : Prop where
  allowed : ∀ worker, (state.phase worker).Allowed worker state.table.lockAt
  unfailed : ∀ worker request p,
    state.phase worker ≠ .delFailUnlock request p

/-- A DEL finds the lock of its item free, and a SET or GET tries the lock of
an item that is still allocated. -/
def Phase.Uncontended (ht : HashTable) : Phase → Prop
  | .delTrywrlock _ p => ht.lockAt p = some .free
  | .setTrywrlock _ p | .getTryrdlock _ p => ht.lockAt p ≠ none
  | _ => True

instance (ht : HashTable) (phase : Phase) :
    Decidable (phase.Uncontended ht) :=
  match phase with
  | .delTrywrlock _ p =>
      inferInstanceAs (Decidable (ht.lockAt p = some .free))
  | .setTrywrlock _ p | .getTryrdlock _ p =>
      inferInstanceAs (Decidable (ht.lockAt p ≠ none))
  | .idle | .setLockBucket _ | .setFindEntry _ | .setUnlockBucket _ _
  | .setStore _ _ | .setUnlock _ _ | .getSearch _ | .getCopy _ _
  | .getUnlock _ _ _ | .delLockBucket _ | .delSearch _ | .delFailUnlock _ _
  | .delUnlink _ _ | .delUnlockBucket _ _ | .finished _ _ => isTrue trivial

def UncontendedRemoval (state : WorkerState) : WorkerLabel → Prop
  | .start _ _ => True
  | .advance worker _ => (state.phase worker).Uncontended state.table

instance (state : WorkerState) (label : WorkerLabel) :
    Decidable (UncontendedRemoval state label) :=
  match label with
  | .start _ _ => isTrue trivial
  | .advance worker _ =>
      inferInstanceAs (Decidable ((state.phase worker).Uncontended state.table))

/-- While sections are covered by their locks, a step is a disciplined step on
every lock. -/
theorem Advances.disciplined
    (advances : Advances ht worker stale before after next)
    (linked : Linked ht ht.bucketItems)
    (allowed : before.Allowed worker ht.lockAt)
    (unfailed : ∀ request p, before ≠ .delFailUnlock request p)
    (held : ht.lockAt p = some lock) :
    lock.Disciplined worker (after.lockAt p) := by
  by_cases target : before.lockTarget = some p
  case neg =>
    rw [advances.lockAt_of_ne linked held target]
    exact .keep lock
  cases advances with
  | setRefused | getRefused | delRefused => rw [held]; exact .keep lock
  | setLocked free | delLocked free =>
      cases target
      rw [rwlock_readItem held] at free
      rw [free, lockAt_setRwlock (by simp [held])]
      exact .acquire
  | getLocked shared =>
      cases target
      rw [rwlock_readItem held] at shared
      rw [shared, lockAt_setRwlock (by simp [held])]
      exact .share _
  | setUnlock =>
      cases target
      obtain rfl := Option.some.inj (held.symm.trans (allowed.writing p rfl))
      rw [lockAt_unlockItem held]
      exact .release
  | getUnlock =>
      cases target
      obtain ⟨holders, shared, member⟩ := allowed.reading p rfl
      obtain rfl := Option.some.inj (held.symm.trans shared)
      rw [lockAt_unlockItem held, RwLock.unlock, if_pos member]
      exact .leave member
  | delFailUnlock => exact absurd rfl (unfailed _ _)
  | delUnlink =>
      cases target
      obtain rfl := Option.some.inj (held.symm.trans (allowed.writing p rfl))
      rw [lockAt, unlinkItem_read_self]
      exact .destroy
  | _ => cases target

theorem Phase.Allowed.of_disciplined {phase : Phase}
    {lockAt lockAt' : Ptr → Option (RwLock WorkerId)}
    (allowed : phase.Allowed other lockAt) (distinct : other ≠ worker)
    (disciplined : ∀ p lock, lockAt p = some lock →
      lock.Disciplined worker (lockAt' p)) :
    phase.Allowed other lockAt' where
  writing p inSection :=
    (disciplined p _ (allowed.writing p inSection)).writer distinct
  reading p inSection := by
    obtain ⟨holders, shared, member⟩ := allowed.reading p inSection
    exact (disciplined p _ shared).readers member distinct

/-- Under the condition, the section a worker enters is covered by the lock it
has just taken. -/
theorem Advances.allowed_self
    (advances : Advances ht worker stale before after next)
    (allowed : before.Allowed worker ht.lockAt)
    (guarded : before.Uncontended ht) : next.Allowed worker after.lockAt := by
  cases advances with
  | setLocked => exact .writer rfl rfl (lockAt_setRwlock guarded)
  | delLocked =>
      have free : ht.lockAt _ = some .free := guarded
      exact .writer rfl rfl (lockAt_setRwlock (by simp [free]))
  | setStore =>
      exact .writer rfl rfl
        ((lockAt_storeValue _).trans (allowed.writing _ rfl))
  | getLocked =>
      exact .reader rfl rfl (lockAt_setRwlock guarded) List.mem_cons_self
  | getCopy =>
      obtain ⟨holders, shared, member⟩ := allowed.reading _ rfl
      exact .reader rfl rfl shared member
  | _ => exact .outside rfl rfl

theorem Advances.unfailed
    (advances : Advances ht worker stale before after next)
    (guarded : before.Uncontended ht) (request : Request) (p : Ptr) :
    next ≠ .delFailUnlock request p := by
  rintro rfl
  cases advances with
  | delRefused contended => exact contended (rwlock_readItem guarded)

theorem locked_step {before after : WorkerState} {label : WorkerLabel}
    (sound : before.Sound) (locked : before.Locked)
    (guarded : UncontendedRemoval before label)
    (stepTo : workers.step before label = some after) : after.Locked := by
  rcases workers_step_cases stepTo with
    ⟨worker, request, phase, -, -, first, rfl⟩ |
    ⟨worker, stale, table, next, rfl, advances, rfl⟩
  · constructor
    · refine (Function.forall_update_iff _ fun other (phase : Phase) =>
        phase.Allowed other before.table.lockAt).mpr
          ⟨?_, fun other _ => locked.allowed other⟩
      rcases Phase.first_eq first with rfl | rfl | rfl <;>
        exact .outside rfl rfl
    · refine (Function.forall_update_iff _ fun _ (phase : Phase) =>
        ∀ request p, phase ≠ .delFailUnlock request p).mpr
          ⟨?_, fun other _ => locked.unfailed other⟩
      rcases Phase.first_eq first with rfl | rfl | rfl <;> simp
  · constructor
    · exact (Function.forall_update_iff _ fun other (phase : Phase) =>
        phase.Allowed other table.lockAt).mpr
          ⟨advances.allowed_self (locked.allowed worker) guarded,
            fun other distinct => (locked.allowed other).of_disciplined
              distinct fun p lock held =>
                advances.disciplined sound.linked (locked.allowed worker)
                  (locked.unfailed worker) held⟩
    · exact (Function.forall_update_iff _ fun _ (phase : Phase) =>
        ∀ request p, phase ≠ .delFailUnlock request p).mpr
          ⟨advances.unfailed guarded, fun other _ => locked.unfailed other⟩

/-- Locks are released by their holders only, the sections of one item exclude
each other, and a worker without a request in progress holds no mutex. -/
structure LockDiscipline (state : WorkerState) : Prop where
  itemUnlock : ∀ worker p, (state.phase worker).itemUnlock = some p →
    ∃ lock, state.table.lockAt p = some lock ∧ lock.Held worker
  bucketUnlock : ∀ worker key,
    (state.phase worker).bucketUnlock = some key →
      state.table.locks (state.table.getBucket key) = some worker
  exclusive : ∀ worker other p, other ≠ worker →
    (state.phase worker).writing = some p →
      (state.phase other).writing ≠ some p ∧
        (state.phase other).reading ≠ some p
  finished : ∀ worker bucket, (state.phase worker).Finished →
    state.table.locks bucket ≠ some worker

theorem WorkerState.Locked.lockDiscipline {state : WorkerState}
    (locked : state.Locked) (sound : state.Sound) :
    LockDiscipline state where
  itemUnlock worker p unlocks := by
    have allowed := locked.allowed worker
    have unfailed := locked.unfailed worker
    generalize state.phase worker = phase at *
    cases phase with
    | setUnlock =>
        cases unlocks
        exact ⟨_, allowed.writing p rfl, .inr rfl⟩
    | getUnlock =>
        cases unlocks
        obtain ⟨holders, shared, member⟩ := allowed.reading p rfl
        exact ⟨_, shared, .inl member⟩
    | delFailUnlock => exact absurd rfl (unfailed _ _)
    | _ => cases unlocks
  bucketUnlock worker key unlocks :=
    (sound.mutex worker _).mpr (congrArg (Option.map state.table.getBucket)
      (Phase.bucketKey_of_bucketUnlock unlocks))
  exclusive worker other p distinct inSection := by
    have mine := (locked.allowed worker).writing p inSection
    refine ⟨fun theirs => ?_, fun theirs => ?_⟩
    · have held := (locked.allowed other).writing p theirs
      rw [mine, Option.some.injEq, RwLock.writer.injEq] at held
      exact distinct held.symm
    · obtain ⟨holders, shared, -⟩ := (locked.allowed other).reading p theirs
      rw [mine, Option.some.injEq] at shared
      cases shared
  finished worker bucket finished held := by
    rw [sound.mutex, finished.bucketKey] at held
    cases held

theorem locked_initial {state : WorkerState}
    (initial : workers.initial state) : state.Locked := by
  obtain rfl := initial
  exact ⟨fun _ => .outside rfl rfl, fun _ _ _ => Phase.noConfusion⟩

/-- In every run of any number of workers in which each DEL finds the lock of
its item free and no freed lock is tried, the lock discipline holds. -/
theorem lockDiscipline_of_uncontendedRemoval {state : WorkerState}
    (reached : workers.GuardedReach UncontendedRemoval state) :
    LockDiscipline state := by
  have locked : state.Locked := reached.invariant_with
    (fun _ => sound_of_reachable) (fun _ => locked_initial)
    fun _ _ _ sound locked guarded stepTo =>
      locked_step sound locked guarded stepTo
  exact locked.lockDiscipline (sound_of_reachable reached.reachable)

/-- A SET and a GET of one key, interleaved, and a DEL after both. -/
def orderlyLabels : List WorkerLabel :=
  .start 0 (.make .set [97] [1]) :: WorkerLabel.advances 0 .zero 4 ++
    .start 1 (.make .get [97] []) :: WorkerLabel.advances 1 .zero 2 ++
    WorkerLabel.advances 0 .zero 2 ++
    .start 2 (.make .del [97] []) :: WorkerLabel.advances 2 .zero 5

theorem lockDiscipline_after_orderlyLabels :
    ∃ state, workers.run .initial orderlyLabels = some state ∧
      LockDiscipline state := by
  obtain ⟨state, runTo⟩ := Option.isSome_iff_exists.mp
    (show (workers.run .initial orderlyLabels).isSome by decide)
  exact ⟨state, runTo, lockDiscipline_of_uncontendedRemoval
    (TransitionSystem.guardedReach_of_run (.start rfl) (by decide) runTo)⟩

/-- A DEL meets a SET in its section, fails to lock and unlocks; a GET then
enters the same section. -/
def releasingLabels : List WorkerLabel :=
  .start 0 (.make .set [97] [1]) :: WorkerLabel.advances 0 .zero 4 ++
    .start 1 (.make .del [97] []) :: WorkerLabel.advances 1 .zero 4 ++
    .start 2 (.make .get [97] []) :: WorkerLabel.advances 2 .zero 2

/-- A DEL that fails to lock an item releases the lock of the SET that holds
it, and a GET reads the item while the SET writes it. -/
theorem failing_removal_breaks_lockDiscipline :
    ∃ state, workers.Reachable state ∧ ¬ LockDiscipline state := by
  obtain ⟨state, runTo, sections⟩ := Option.map_eq_some_iff.mp
    (show (workers.run .initial releasingLabels).map (fun state =>
        ((state.phase 0).writing, (state.phase 2).reading)) =
      some (some 0, some 0) by decide)
  obtain ⟨writes, reads⟩ := Prod.mk.inj sections
  exact ⟨state, TransitionSystem.reachable_of_run (.start rfl) runTo,
    fun discipline => (discipline.exclusive 0 2 0 (by decide) writes).2 reads⟩

end RdmaKVStore
