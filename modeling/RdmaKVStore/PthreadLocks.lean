import Mathlib.Data.List.Basic

/-!
# Try-locks and holders

A read-write lock is in the hands of one writer or of any number of readers.
Locks are only ever tried, never waited for, and an unlock releases a hold
whether or not the caller owns one.  A mutex is free or held by one caller.
-/

namespace RdmaKVStore

/-- A read-write lock over a type of callers; `readers []` is the free lock. -/
inductive RwLock (Caller : Type*)
  | readers (holders : List Caller)
  | writer (holder : Caller)
  deriving DecidableEq

namespace RwLock

variable {Caller : Type*}

/-- The lock that `calloc` leaves behind. -/
def free : RwLock Caller :=
  .readers []

/-- `pthread_rwlock_trywrlock`: succeeds on the free lock only. -/
def trywrlock (caller : Caller) : RwLock Caller → Option (RwLock Caller)
  | .readers [] => some (.writer caller)
  | .readers (_ :: _) => none
  | .writer _ => none

/-- `pthread_rwlock_tryrdlock`: fails only while a writer holds the lock. -/
def tryrdlock (caller : Caller) : RwLock Caller → Option (RwLock Caller)
  | .readers holders => some (.readers (caller :: holders))
  | .writer _ => none

/-- `pthread_rwlock_unlock`: gives back the caller's own hold, or else
whatever hold the lock has. -/
def unlock [DecidableEq Caller] (caller : Caller) :
    RwLock Caller → RwLock Caller
  | .readers holders =>
      .readers (if caller ∈ holders then holders.erase caller else holders.tail)
  | .writer _ => .readers []

def ReadHeld : RwLock Caller → Caller → Prop
  | .readers holders, caller => caller ∈ holders
  | .writer _, _ => False

def WriteHeld : RwLock Caller → Caller → Prop
  | .readers _, _ => False
  | .writer holder, caller => holder = caller

def Held (lock : RwLock Caller) (caller : Caller) : Prop :=
  lock.ReadHeld caller ∨ lock.WriteHeld caller

theorem trywrlock_eq_some_iff {caller : Caller} {lock after : RwLock Caller} :
    lock.trywrlock caller = some after ↔
      lock = free ∧ after = .writer caller := by
  rcases lock with (_ | ⟨_, _⟩) | _ <;> simp [trywrlock, free, eq_comm]

theorem trywrlock_free (caller : Caller) :
    (free : RwLock Caller).trywrlock caller = some (.writer caller) :=
  rfl

theorem trywrlock_eq_none_iff {caller : Caller} {lock : RwLock Caller} :
    lock.trywrlock caller = none ↔ lock ≠ free := by
  rcases lock with (_ | ⟨_, _⟩) | _ <;> simp [trywrlock, free]

theorem tryrdlock_eq_some_iff {caller : Caller} {lock after : RwLock Caller} :
    lock.tryrdlock caller = some after ↔
      ∃ holders, lock = .readers holders ∧
        after = .readers (caller :: holders) := by
  cases lock <;> simp [tryrdlock, eq_comm]

/-- What a disciplined caller does to a lock: it takes it while it is free,
shares it with readers, gives back a hold of its own, or destroys the lock as
its writer. -/
inductive Disciplined [DecidableEq Caller] (caller : Caller) :
    RwLock Caller → Option (RwLock Caller) → Prop
  | keep (lock : RwLock Caller) : Disciplined caller lock (some lock)
  | acquire : Disciplined caller free (some (.writer caller))
  | share (holders : List Caller) :
      Disciplined caller (.readers holders)
        (some (.readers (caller :: holders)))
  | release : Disciplined caller (.writer caller) (some free)
  | leave {holders : List Caller} (member : caller ∈ holders) :
      Disciplined caller (.readers holders)
        (some (.readers (holders.erase caller)))
  | destroy : Disciplined caller (.writer caller) none

variable [DecidableEq Caller] {caller other : Caller}
variable {after : Option (RwLock Caller)}

theorem Disciplined.writer
    (disciplined : Disciplined caller (.writer other) after)
    (distinct : other ≠ caller) : after = some (.writer other) := by
  cases disciplined with
  | keep => rfl
  | release | destroy => exact absurd rfl distinct

theorem Disciplined.readers {holders : List Caller}
    (disciplined : Disciplined caller (.readers holders) after)
    (member : other ∈ holders) (distinct : other ≠ caller) :
    ∃ holders', after = some (.readers holders') ∧ other ∈ holders' := by
  cases disciplined with
  | keep => exact ⟨holders, rfl, member⟩
  | acquire => cases member
  | share => exact ⟨_, rfl, List.mem_cons_of_mem _ member⟩
  | leave => exact ⟨_, rfl, (List.mem_erase_of_ne distinct).mpr member⟩

end RwLock

end RdmaKVStore
