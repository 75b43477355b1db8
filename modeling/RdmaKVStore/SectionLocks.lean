import RdmaKVStore.LockDiscipline

/-!
# Locks that know their sections

A lock tracks the sections of its item if it is held by exactly the callers
that are in one of them.  As long as no DEL fails to lock its item and workers
only enter sections of allocated items, the locks of all items do.
-/

namespace RdmaKVStore

open LinkedChain HashTable

namespace RwLock

variable {Caller : Type*}

def Once : RwLock Caller → Prop
  | .readers holders => holders.Nodup
  | .writer _ => True

/-- The lock is held by exactly those who write and those who read. -/
structure Tracks (lock : RwLock Caller) (writes reads : Caller → Prop) :
    Prop where
  write : ∀ caller, lock.WriteHeld caller ↔ writes caller
  read : ∀ caller, lock.ReadHeld caller ↔ reads caller
  once : lock.Once

def OthersKeep (caller : Caller) (writes reads writes' reads' : Caller → Prop) :
    Prop :=
  ∀ other, other ≠ caller →
    (writes' other ↔ writes other) ∧ (reads' other ↔ reads other)

variable {caller : Caller} {lock : RwLock Caller}
variable {writes reads writes' reads' : Caller → Prop}

theorem Tracks.congr (tracks : lock.Tracks writes reads)
    (keep : ∀ caller, (writes' caller ↔ writes caller) ∧
      (reads' caller ↔ reads caller)) : lock.Tracks writes' reads' :=
  ⟨fun caller => (tracks.write caller).trans (keep caller).1.symm,
    fun caller => (tracks.read caller).trans (keep caller).2.symm,
    tracks.once⟩

theorem Tracks.acquire (tracks : free.Tracks writes reads)
    (enters : writes' caller) (notReads : ¬ reads' caller)
    (others : OthersKeep caller writes reads writes' reads') :
    (RwLock.writer caller).Tracks writes' reads' where
  write other := by
    by_cases same : other = caller
    · subst same
      exact iff_of_true rfl enters
    · refine iff_of_false (Ne.symm same) fun theirs => ?_
      cases (tracks.write other).mpr ((others other same).1.mp theirs)
  read other := by
    by_cases same : other = caller
    · subst same
      exact iff_of_false id notReads
    · refine iff_of_false id fun theirs => ?_
      cases (tracks.read other).mpr ((others other same).2.mp theirs)
  once := trivial

theorem Tracks.share {holders : List Caller}
    (tracks : (RwLock.readers holders).Tracks writes reads)
    (outside : ¬ reads caller) (enters : reads' caller)
    (notWrites : ¬ writes' caller)
    (others : OthersKeep caller writes reads writes' reads') :
    (RwLock.readers (caller :: holders)).Tracks writes' reads' where
  write other := by
    refine iff_of_false id fun theirs => ?_
    by_cases same : other = caller
    · exact notWrites (same ▸ theirs)
    · exact (tracks.write other).mpr ((others other same).1.mp theirs)
  read other := by
    by_cases same : other = caller
    · subst same
      exact iff_of_true List.mem_cons_self enters
    · rw [(others other same).2, ← tracks.read other]
      exact (List.mem_cons.trans (or_iff_right same))
  once := List.nodup_cons.mpr
    ⟨fun member => outside ((tracks.read caller).mp member), tracks.once⟩

/-- Whoever gives its hold back leaves its section. -/
theorem Tracks.unlock [DecidableEq Caller] (tracks : lock.Tracks writes reads)
    (inside : writes caller ∨ reads caller) (notWrites : ¬ writes' caller)
    (notReads : ¬ reads' caller)
    (others : OthersKeep caller writes reads writes' reads') :
    (lock.unlock caller).Tracks writes' reads' := by
  cases lock with
  | writer holder =>
      have holds : holder = caller := by
        rcases inside with writing | reading
        · exact (tracks.write caller).mpr writing
        · cases (tracks.read caller).mpr reading
      subst holds
      refine ⟨fun other => iff_of_false id fun theirs => ?_,
        fun other => iff_of_false (List.not_mem_nil) fun theirs => ?_,
        List.nodup_nil⟩
      · by_cases same : other = holder
        · exact notWrites (same ▸ theirs)
        · exact same ((tracks.write other).mpr
            ((others other same).1.mp theirs)).symm
      · by_cases same : other = holder
        · exact notReads (same ▸ theirs)
        · exact (tracks.read other).mpr ((others other same).2.mp theirs)
  | readers holders =>
      have member : caller ∈ holders := by
        rcases inside with writing | reading
        · exact ((tracks.write caller).mpr writing).elim
        · exact (tracks.read caller).mpr reading
      have nodup : holders.Nodup := tracks.once
      rw [RwLock.unlock, if_pos member]
      refine ⟨fun other => iff_of_false id fun theirs => ?_, fun other => ?_,
        nodup.erase caller⟩
      · by_cases same : other = caller
        · exact notWrites (same ▸ theirs)
        · exact (tracks.write other).mpr ((others other same).1.mp theirs)
      · by_cases same : other = caller
        · subst same
          exact iff_of_false nodup.not_mem_erase notReads
        · rw [(others other same).2, ← tracks.read other]
          exact List.mem_erase_of_ne same

end RwLock

/-- Every lock of an allocated item is held by the workers in a section of the
item. -/
def WorkerState.Tracked (state : WorkerState) : Prop :=
  ∀ p lock, state.table.lockAt p = some lock →
    lock.Tracks (fun worker => (state.phase worker).writing = some p)
      fun worker => (state.phase worker).reading = some p

variable {ht after : HashTable} {worker : WorkerId} {stale : HashItem}
variable {before next : Phase} {p : Ptr}

theorem Advances.sections_of_ne
    (advances : Advances ht worker stale before after next)
    (elsewhere : before.lockTarget ≠ some p) :
    (next.writing = some p ↔ before.writing = some p) ∧
      (next.reading = some p ↔ before.reading = some p) := by
  cases advances <;> simp_all [Phase.lockTarget, Phase.writing, Phase.reading]

theorem tracked_initial {state : WorkerState}
    (initial : workers.initial state) : state.Tracked := by
  obtain rfl := initial
  intro p lock held
  cases held

/-- A lock that comes into being is free, and not the one that the step
uses. -/
theorem Advances.lockAt_new
    (advances : Advances ht worker stale before after next)
    (absent : ht.lockAt p = none) {lock : RwLock WorkerId}
    (held : after.lockAt p = some lock) :
    lock = .free ∧ before.lockTarget = none := by
  have unallocated : ht.heap p = none := by
    simpa [lockAt] using absent
  have written {q : Ptr} {write : HashItem → HashItem} :
      (ht.writeItem q write).lockAt p = none := by
    rw [lockAt, writeItem_heap, Option.map_eq_none_iff, modifyAt_eq_none_iff]
    exact unallocated
  cases advances with
  | setLocked | getLocked | delLocked | setStore | setUnlock | getUnlock
  | delFailUnlock => cases written.symm.trans held
  | setInsert =>
      by_cases fresh : p = ht.fresh
      · subst fresh
        rw [lockAt, insertEntry_read_fresh] at held
        exact ⟨(Option.some.inj held).symm, rfl⟩
      · rw [lockAt_of_data_eq (insertEntry_data fresh), absent] at held
        cases held
  | @delUnlink _ q =>
      by_cases self : p = q
      · subst self
        rw [lockAt, unlinkItem_read_self] at held
        cases held
      · rw [lockAt_of_data_eq (unlinkItem_data self), absent] at held
        cases held
  | _ => cases absent.symm.trans held

theorem WorkerState.Tracked.advance {state : WorkerState}
    {stores : List (Bytes × Bytes)} (tracked : state.Tracked)
    (linked : Linked state.table state.table.bucketItems)
    (allocated : ∀ worker p, (state.phase worker).writing = some p ∨
      (state.phase worker).reading = some p → state.table.lockAt p ≠ none)
    (here : state.phase worker = before)
    (unfailed : ∀ request p, before ≠ .delFailUnlock request p)
    (advances : Advances state.table worker stale before after next) :
    WorkerState.Tracked
      { table := after
        phase := Function.update state.phase worker next
        stores := stores } := by
  intro p lock' held'
  have others : RwLock.OthersKeep worker
      (fun other => (state.phase other).writing = some p)
      (fun other => (state.phase other).reading = some p)
      (fun other =>
        (Function.update state.phase worker next other).writing = some p)
      fun other =>
        (Function.update state.phase worker next other).reading = some p := by
    intro other distinct
    simp [Function.update_of_ne distinct]
  have outside (elsewhere : before.lockTarget ≠ some p) (caller : WorkerId) :
      ((Function.update state.phase worker next caller).writing = some p ↔
        (state.phase caller).writing = some p) ∧
      ((Function.update state.phase worker next caller).reading = some p ↔
        (state.phase caller).reading = some p) := by
    by_cases same : caller = worker
    · subst same
      rw [Function.update_self, here]
      exact advances.sections_of_ne elsewhere
    · exact others caller same
  cases present : state.table.lockAt p with
  | none =>
      have unused (caller : WorkerId) :
          (state.phase caller).writing ≠ some p ∧
            (state.phase caller).reading ≠ some p :=
        ⟨fun writes => allocated caller p (.inl writes) present,
          fun reads => allocated caller p (.inr reads) present⟩
      obtain ⟨rfl, untargeted⟩ := advances.lockAt_new present held'
      have keep := outside (by simp [untargeted])
      exact ⟨fun caller => iff_of_false id fun writes =>
          (unused caller).1 ((keep caller).1.mp writes),
        fun caller => iff_of_false List.not_mem_nil fun reads =>
          (unused caller).2 ((keep caller).2.mp reads), List.nodup_nil⟩
  | some lock =>
      have tracks := tracked p lock present
      by_cases target : before.lockTarget = some p
      case neg =>
        have kept := advances.lockAt_of_ne linked present target
        obtain rfl := Option.some.inj (kept.symm.trans held')
        exact tracks.congr (outside target)
      case pos =>
        have exists' : state.table.lockAt p ≠ none := by simp [present]
        cases advances with
        | setLocked free | delLocked free =>
            cases target
            rw [rwlock_readItem present] at free
            subst free
            obtain rfl := Option.some.inj
              ((lockAt_setRwlock exists').symm.trans held')
            exact tracks.acquire (by simp [Phase.writing])
              (by simp [Phase.reading]) others
        | getLocked shared =>
            cases target
            rw [rwlock_readItem present] at shared
            subst shared
            obtain rfl := Option.some.inj
              ((lockAt_setRwlock exists').symm.trans held')
            exact tracks.share (by simp [here, Phase.reading])
              (by simp [Phase.reading]) (by simp [Phase.writing]) others
        | setUnlock | getUnlock =>
            cases target
            obtain rfl := Option.some.inj
              ((lockAt_unlockItem present).symm.trans held')
            exact tracks.unlock (by simp [here, Phase.writing, Phase.reading])
              (by simp [Phase.writing]) (by simp [Phase.reading]) others
        | delUnlink =>
            cases target
            cases (congrArg (Option.map HashItem.rwlock)
              unlinkItem_read_self).symm.trans held'
        | delFailUnlock => exact absurd rfl (unfailed _ _)
        | setRefused | getRefused | delRefused =>
            obtain rfl := Option.some.inj (present.symm.trans held')
            refine tracks.congr fun caller => ?_
            by_cases same : caller = worker
            · subst same
              simp [here, Phase.writing, Phase.reading]
            · exact others caller same
        | _ => cases target

end RdmaKVStore
