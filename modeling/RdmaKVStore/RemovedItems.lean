import RdmaKVStore.LockDiscipline

/-!
# Removed items

The pointer that a SET or GET obtains outlives the bucket mutex, and the lock
it then takes lives inside the item.  The item stays linked as long as no DEL
frees it between another request's lookup and lock attempt, and no DEL takes a
lock that an earlier failing DEL released inside a section.
-/

namespace RdmaKVStore

open LinkedChain HashTable

namespace Phase

/-- The item a SET or GET has looked up but not yet tried to lock. -/
def pending : Phase → Option Ptr
  | .setUnlockBucket _ p | .setTrywrlock _ p | .getTryrdlock _ p => some p
  | _ => none

/-- The item a SET or GET points to, from its lookup to its unlock. -/
def pointer : Phase → Option Ptr
  | .setUnlockBucket _ p | .setTrywrlock _ p | .setStore _ p
  | .setUnlock _ p | .getTryrdlock _ p | .getCopy _ p
  | .getUnlock _ p _ => some p
  | _ => none

def removing : Phase → Option Ptr
  | .delUnlink _ p => some p
  | _ => none

def InSection (phase : Phase) (p : Ptr) : Prop :=
  phase.writing = some p ∨ phase.reading = some p

instance (phase : Phase) (p : Ptr) : Decidable (phase.InSection p) :=
  inferInstanceAs (Decidable (_ ∨ _))

theorem pending_or_inSection {phase : Phase} {p : Ptr}
    (points : phase.pointer = some p) :
    phase.pending = some p ∨ phase.InSection p := by
  cases phase <;> cases points <;> simp [pending, InSection, writing, reading]

/-- A DEL leaves another worker alone: it frees no item that the other has
looked up and not yet tried to lock, and it does not take a free lock of an
item in whose section the other is. -/
def LeavesAlone (ht : HashTable) : Phase → Phase → Prop
  | .delUnlink _ p, other => other.pending ≠ some p
  | .delTrywrlock _ p, other =>
      ht.lockAt p = some .free → ¬ other.InSection p
  | _, _ => True

instance (ht : HashTable) (phase other : Phase) :
    Decidable (phase.LeavesAlone ht other) :=
  match phase with
  | .delUnlink _ p => inferInstanceAs (Decidable (other.pending ≠ some p))
  | .delTrywrlock _ p => inferInstanceAs
      (Decidable (ht.lockAt p = some .free → ¬ other.InSection p))
  | .idle | .setLockBucket _ | .setFindEntry _ | .setUnlockBucket _ _
  | .setTrywrlock _ _ | .setStore _ _ | .setUnlock _ _ | .getSearch _
  | .getTryrdlock _ _ | .getCopy _ _ | .getUnlock _ _ _ | .delLockBucket _
  | .delSearch _ | .delFailUnlock _ _ | .delUnlockBucket _ _
  | .finished _ _ => isTrue trivial

theorem leavesAlone_idle (ht : HashTable) (phase : Phase) :
    phase.LeavesAlone ht .idle := by
  cases phase <;> simp [LeavesAlone, pending, InSection, writing, reading]

end Phase

/-- Each step leaves all other workers alone. -/
def UndisturbedRemoval (state : WorkerState) : WorkerLabel → Prop
  | .start _ _ => True
  | .advance worker _ => ∀ other, other ≠ worker →
      (state.phase worker).LeavesAlone state.table (state.phase other)

def HashTable.InTable (ht : HashTable) (p : Ptr) : Prop :=
  ∃ bucket, p ∈ ht.bucketItems bucket

/-- Items that SETs and GETs point to are linked and have not been freed. -/
def NoRemovedItem (state : WorkerState) : Prop :=
  ∀ worker p, (state.phase worker).pointer = some p →
    state.table.InTable p ∧ ¬ state.table.Freed p

variable {ht after : HashTable} {worker other : WorkerId} {stale : HashItem}
variable {before next : Phase} {p : Ptr}

namespace Advances

theorem mem_bucketItems {bucket : Nat}
    (advances : Advances ht worker stale before after next)
    (linked : Linked ht ht.bucketItems)
    (doomed : ∀ key p, before.doomed = some (key, p) →
      p ∈ ht.bucketItems (ht.getBucket key))
    (spared : before.removing ≠ some p) (member : p ∈ ht.bucketItems bucket) :
    p ∈ after.bucketItems bucket := by
  by_cases elsewhere : before.bucketKey.map ht.getBucket = some bucket
  case neg => rwa [advances.bucketItems_of_ne linked doomed elsewhere]
  cases advances with
  | setInsert =>
      obtain rfl := Option.some.inj elsewhere
      rw [(linked.insertEntry (linked.getBucket_lt _)).bucketItems_eq,
        Function.update_self]
      exact List.mem_cons_of_mem _ member
  | delUnlink =>
      obtain rfl := Option.some.inj elsewhere
      have target := doomed _ _ rfl
      rw [(linked.unlinkItem target
        (linked.readItem_of_mem target)).bucketItems_eq, Function.update_self]
      exact (List.mem_erase_of_ne fun same =>
        spared (congrArg some same.symm)).mpr member
  | delLocked => rwa [linked.bucketItems_setRwlock]
  | delFailUnlock => rwa [linked.bucketItems_unlockItem]
  | _ => first | exact member | cases elsewhere

theorem inTable (advances : Advances ht worker stale before after next)
    (linked : Linked ht ht.bucketItems)
    (doomed : ∀ key p, before.doomed = some (key, p) →
      p ∈ ht.bucketItems (ht.getBucket key))
    (spared : before.removing ≠ some p) (inTable : ht.InTable p) :
    after.InTable p :=
  inTable.imp fun _ => advances.mem_bucketItems linked doomed spared

theorem pointer_inTable
    (advances : Advances ht worker stale before after next)
    (linked : Linked ht ht.bucketItems)
    (pointer : ∀ p, before.pointer = some p → ht.InTable p)
    (points : next.pointer = some p) : after.InTable p := by
  cases advances with
  | setFound found | getFound found =>
      cases points
      exact ⟨_, linked.mem_of_search found⟩
  | @setInsert request =>
      cases points
      refine ⟨ht.getBucket request.keyMemory, ?_⟩
      rw [(linked.insertEntry (linked.getBucket_lt _)).bucketItems_eq,
        Function.update_self]
      exact List.mem_cons_self
  | setUnlockBucket | getCopy => cases points; exact pointer _ rfl
  | setLocked | getLocked =>
      cases points
      rw [InTable, linked.bucketItems_setRwlock]
      exact pointer _ rfl
  | setStore =>
      cases points
      rw [InTable, linked.bucketItems_storeValue]
      exact pointer _ rfl
  | _ => cases points

/-- A step of a worker that is not in an item's section neither changes the
item's held lock nor enters the section. -/
theorem keeps_writer (advances : Advances ht worker stale before after next)
    (linked : Linked ht ht.bucketItems)
    (held : ht.lockAt p = some (.writer other))
    (outside : ¬ before.InSection p)
    (unfailing : ∀ request, before ≠ .delFailUnlock request p) :
    after.lockAt p = some (.writer other) ∧ ¬ next.InSection p := by
  have occupied : (ht.readItem p stale).rwlock = .writer other :=
    rwlock_readItem held
  simp only [Phase.InSection, not_or] at outside ⊢
  by_cases target : before.lockTarget = some p
  case neg =>
    refine ⟨advances.lockAt_of_ne linked held target, ?_⟩
    cases advances with
    | setLocked | getLocked | delLocked =>
        simpa [Phase.writing, Phase.reading] using
          fun same => target (congrArg some same)
    | setStore => exact ⟨outside.1, outside.2⟩
    | getCopy => exact ⟨outside.1, outside.2⟩
    | _ => simp [Phase.writing, Phase.reading]
  cases advances with
  | setLocked free | delLocked free =>
      cases target
      rw [occupied] at free
      cases free
  | getLocked shared =>
      cases target
      rw [occupied] at shared
      cases shared
  | setRefused | getRefused | delRefused =>
      exact ⟨held, by simp [Phase.writing, Phase.reading]⟩
  | setUnlock | delUnlink => exact absurd target outside.1
  | getUnlock => exact absurd target outside.2
  | delFailUnlock =>
      cases target
      exact absurd rfl (unfailing _)
  | _ => cases target

end Advances

/-- The worker is the item's writer and nobody else is in the item's
section. -/
def SoleWriter (ht : HashTable) (phases : WorkerId → Phase)
    (worker : WorkerId) (p : Ptr) : Prop :=
  ht.lockAt p = some (.writer worker) ∧
    ∀ other, other ≠ worker → ¬ (phases other).InSection p

theorem SoleWriter.update {phases : WorkerId → Phase}
    (sole : SoleWriter ht phases other p)
    (kept : after.lockAt p = some (.writer other))
    (outside : worker ≠ other → ¬ next.InSection p) :
    SoleWriter after (Function.update phases worker next) other p :=
  ⟨kept, (Function.forall_update_iff _ fun third (phase : Phase) =>
    third ≠ other → ¬ phase.InSection p).mpr
      ⟨outside, fun third _ => sole.2 third⟩⟩

/-- Pointers lead to linked items, and a DEL that is about to free an item is
alone in its section. -/
structure WorkerState.Present (state : WorkerState) : Prop where
  pointer : ∀ worker p, (state.phase worker).pointer = some p →
    state.table.InTable p
  removing : ∀ worker p, (state.phase worker).removing = some p →
    SoleWriter state.table state.phase worker p

namespace WorkerState

variable {state : WorkerState}

theorem Sound.doomed_distinct (sound : state.Sound) {key key' : Bytes}
    (mine : (state.phase worker).doomed = some (key, p))
    (theirs : (state.phase other).doomed = some (key', p)) :
    other = worker := by
  have sameBucket := sound.linked.separate _ _ p
    (sound.doomed worker key p mine) (sound.doomed other key' p theirs)
  have held := (sound.mutex worker _).mpr (congrArg
    (Option.map state.table.getBucket) (Phase.bucketKey_of_doomed mine))
  have heldToo := (sound.mutex other _).mpr (congrArg
    (Option.map state.table.getBucket) (Phase.bucketKey_of_doomed theirs))
  rw [sameBucket, heldToo] at held
  exact Option.some.inj held

end WorkerState

theorem Phase.doomed_of_removing {phase : Phase}
    (removes : phase.removing = some p) :
    ∃ key, phase.doomed = some (key, p) := by
  cases phase <;> cases removes
  exact ⟨_, rfl⟩

theorem Advances.removing_self
    (advances : Advances ht worker stale before after next)
    (linked : Linked ht ht.bucketItems)
    (doomed : ∀ key p, before.doomed = some (key, p) →
      p ∈ ht.bucketItems (ht.getBucket key))
    (removes : next.removing = some p) :
    after.lockAt p = some (.writer worker) ∧
      ∀ phase, before.LeavesAlone ht phase → ¬ phase.InSection p := by
  cases advances with
  | delLocked free =>
      cases removes
      have present := lockAt_ne_none_of_mem linked (doomed _ _ rfl)
      obtain ⟨lock, held⟩ := Option.ne_none_iff_exists'.mp present
      rw [rwlock_readItem held] at free
      exact ⟨lockAt_setRwlock present, fun phase leaves =>
        leaves (free ▸ held)⟩
  | _ => cases removes

theorem present_step {before after : WorkerState} {label : WorkerLabel}
    (sound : before.Sound) (present : before.Present)
    (guarded : UndisturbedRemoval before label)
    (stepTo : workers.step before label = some after) : after.Present := by
  rcases workers_step_cases stepTo with
    ⟨worker, request, phase, -, -, first, rfl⟩ |
    ⟨worker, stale, table, next, rfl, advances, rfl⟩
  · have fresh : phase.pointer = none ∧ phase.removing = none ∧
        ∀ p, ¬ phase.InSection p := by
      rcases Phase.first_eq first with rfl | rfl | rfl <;>
        simp [Phase.pointer, Phase.removing, Phase.InSection, Phase.writing,
          Phase.reading]
    constructor
    · exact (Function.forall_update_iff _ fun _ (phase : Phase) =>
        ∀ p, phase.pointer = some p → before.table.InTable p).mpr
          ⟨fun p points => by simp [fresh.1] at points,
            fun other _ => present.pointer other⟩
    · exact (Function.forall_update_iff _ fun other (phase' : Phase) =>
        ∀ p, phase'.removing = some p → SoleWriter before.table
          (Function.update before.phase worker phase) other p).mpr
            ⟨fun p removes => by simp [fresh.2.1] at removes,
              fun other _ p removes =>
                have sole := present.removing other p removes
                sole.update sole.1 fun _ => fresh.2.2 p⟩
  · have own := sound.doomed worker
    constructor
    · refine (Function.forall_update_iff _ fun _ (phase : Phase) =>
        ∀ p, phase.pointer = some p → table.InTable p).mpr
          ⟨fun p => advances.pointer_inTable sound.linked
            (present.pointer worker), fun other distinct p points => ?_⟩
      -- a removal of the item would disturb the worker that points to it
      refine advances.inTable sound.linked own (fun removes => ?_)
        (present.pointer other p points)
      rcases Phase.pending_or_inSection points with pending | inSection
      · have leaves := guarded other distinct
        generalize before.phase worker = phase at *
        cases phase <;> cases removes
        exact leaves pending
      · exact (present.removing worker p removes).2 other distinct inSection
    · refine (Function.forall_update_iff _ fun other (phase' : Phase) =>
        ∀ p, phase'.removing = some p → SoleWriter table
          (Function.update before.phase worker next) other p).mpr
            ⟨fun p removes => ?_, fun other distinct p removes => ?_⟩
      · obtain ⟨held, alone⟩ :=
          advances.removing_self sound.linked own removes
        exact ⟨held, (Function.forall_update_iff _ fun third (phase : Phase) =>
          third ≠ worker → ¬ phase.InSection p).mpr
            ⟨fun same => absurd rfl same,
              fun third _ distinct => alone _ (guarded third distinct)⟩⟩
      · have sole := present.removing other p removes
        obtain ⟨key, isDoomed⟩ := Phase.doomed_of_removing removes
        obtain ⟨kept, outside⟩ := advances.keeps_writer sound.linked sole.1
          (sole.2 worker distinct.symm) fun request failing => distinct.symm
            (sound.doomed_distinct isDoomed (by rw [failing]; rfl))
        exact sole.update kept fun _ => outside

theorem present_initial {state : WorkerState}
    (initial : workers.initial state) : state.Present := by
  obtain rfl := initial
  constructor
  · intro _ _ points
    cases points
  · intro _ _ removes
    cases removes

/-- In every run of any number of workers whose removals leave the other
workers alone, the items that SETs and GETs lock, write and read are linked
and have not been freed. -/
theorem noRemovedItem_of_undisturbedRemoval {state : WorkerState}
    (reached : workers.GuardedReach UndisturbedRemoval state) :
    NoRemovedItem state := by
  have present : state.Present := reached.invariant_with
    (fun _ => sound_of_reachable) (fun _ => present_initial)
    fun _ _ _ sound present guarded stepTo =>
      present_step sound present guarded stepTo
  have sound := sound_of_reachable reached.reachable
  intro worker p points
  obtain ⟨bucket, member⟩ := present.pointer worker p points
  obtain ⟨item, read⟩ := sound.linked.read_of_mem member
  exact ⟨⟨bucket, member⟩, fun freed => by simp [freed.2] at read⟩

/-- The condition on runs in which only workers below a bound take part. -/
def UndisturbedBelow (bound : Nat) (state : WorkerState) :
    WorkerLabel → Prop
  | .start worker _ => worker < bound
  | .advance worker _ => worker < bound ∧ ∀ other < bound,
      other ≠ worker →
        (state.phase worker).LeavesAlone state.table (state.phase other)

instance (bound : Nat) (state : WorkerState) (label : WorkerLabel) :
    Decidable (UndisturbedBelow bound state label) :=
  match label with
  | .start worker _ => inferInstanceAs (Decidable (worker < bound))
  | .advance worker _ => inferInstanceAs (Decidable (worker < bound ∧
      ∀ other < bound, other ≠ worker →
        (state.phase worker).LeavesAlone state.table (state.phase other)))

theorem runGuarded_of_undisturbedBelow {bound : Nat}
    {labels : List WorkerLabel}
    (guarded : workers.RunGuarded (UndisturbedBelow bound) .initial labels) :
    workers.RunGuarded UndisturbedRemoval .initial labels := by
  refine TransitionSystem.RunGuarded.of_invariant
    (?_ : ∀ (state : WorkerState) label, (∀ worker, bound ≤ worker →
      state.phase worker = .idle) → _ → _) ?_ (fun _ _ => rfl) guarded
  · intro state label idle below
    cases label with
    | start => trivial
    | advance worker stale =>
        intro other distinct
        by_cases small : other < bound
        · exact below.2 other small distinct
        · rw [idle other (not_lt.mp small)]
          exact Phase.leavesAlone_idle _ _
  · intro before label after idle below stepTo
    rcases workers_step_cases stepTo with
      ⟨worker, request, phase, rfl, -, -, rfl⟩ |
      ⟨worker, stale, table, next, rfl, -, rfl⟩
    · exact (Function.forall_update_iff _ fun other (phase : Phase) =>
        bound ≤ other → phase = .idle).mpr
          ⟨fun large => absurd below (not_lt.mpr large),
            fun other _ => idle other⟩
    · exact (Function.forall_update_iff _ fun other (phase : Phase) =>
        bound ≤ other → phase = .idle).mpr
          ⟨fun large => absurd below.1 (not_lt.mpr large),
            fun other _ => idle other⟩

theorem noRemovedItem_after_orderlyLabels :
    ∃ state, workers.run .initial orderlyLabels = some state ∧
      NoRemovedItem state := by
  obtain ⟨state, runTo⟩ := Option.isSome_iff_exists.mp
    (show (workers.run .initial orderlyLabels).isSome by decide)
  have guarded : workers.RunGuarded (UndisturbedBelow 3) .initial
      orderlyLabels := by decide
  exact ⟨state, runTo, noRemovedItem_of_undisturbedRemoval
    (TransitionSystem.guardedReach_of_run (.start rfl)
      (runGuarded_of_undisturbedBelow guarded) runTo)⟩

/-- A DEL between the lookup and the lock attempt of a SET, which then finds
the freed lock free. -/
def removingLabels : List WorkerLabel :=
  .start 0 (.make .set [97] [1]) :: WorkerLabel.advances 0 .zero 3 ++
    .start 1 (.make .del [97] []) :: WorkerLabel.advances 1 .zero 5 ++
    WorkerLabel.advances 0 .zero 1

/-- A SET writes its value to an item that a DEL has freed, and answers OK. -/
theorem set_answers_ok_on_removed_item :
    ∃ state after, workers.Reachable state ∧
      (state.phase 0).stored = [([97], [1])] ∧
      (state.phase 0).pointer = some 0 ∧ state.table.Freed 0 ∧
      workers.run state (WorkerLabel.advances 0 .zero 2) = some after ∧
      (after.phase 0).outcome.map (fun turn => turn.2.code) = some .ok ∧
      ¬ NoRemovedItem state := by
  obtain ⟨state, runTo, checked⟩ := Option.map_eq_some_iff.mp
    (show (workers.run .initial removingLabels).map (fun state =>
        ((state.phase 0).stored, (state.phase 0).pointer,
          decide (state.table.Freed 0),
          (workers.run state (WorkerLabel.advances 0 .zero 2)).map
            fun after => (after.phase 0).outcome.map fun turn =>
              turn.2.code)) =
      some ([([97], [1])], some 0, true, some (some .ok)) by decide)
  simp only [Prod.mk.injEq, decide_eq_true_eq] at checked
  obtain ⟨stored, pointer, freed, answered⟩ := checked
  obtain ⟨after, runOn, code⟩ := Option.map_eq_some_iff.mp answered
  exact ⟨state, after, TransitionSystem.reachable_of_run (.start rfl) runTo,
    stored, pointer, freed, runOn, code,
    fun safe => (safe 0 0 pointer).2 freed⟩

end RdmaKVStore
