import RdmaKVStore.RemovalsApart
import RdmaKVStore.TerminatingRuns

/-!
# Workers do not block each other for ever

The only call in which a worker waits is the one that locks a bucket mutex.
A worker holds at most one of them and does not wait while it does, so some
worker can always go on, and the lock operations and critical sections of a
request are at most six.
-/

namespace RdmaKVStore

open LinkedChain HashTable

namespace Phase

/-- The steps that a worker may still need for its request. -/
def remaining : Phase → Nat
  | .setLockBucket _ => 6
  | .setFindEntry _ | .delLockBucket _ => 5
  | .setUnlockBucket _ _ | .getSearch _ | .delSearch _ => 4
  | .setTrywrlock _ _ | .getTryrdlock _ _ | .delTrywrlock _ _ => 3
  | .setStore _ _ | .getCopy _ _ | .delFailUnlock _ _ | .delUnlink _ _ => 2
  | .setUnlock _ _ | .getUnlock _ _ _ | .delUnlockBucket _ _ => 1
  | .idle | .finished _ _ => 0

theorem remaining_le (phase : Phase) : phase.remaining ≤ 6 := by
  cases phase <;> simp [remaining]

/-- The key whose bucket mutex the worker asks for next. -/
def wanted : Phase → Option Bytes
  | .setLockBucket request | .delLockBucket request => some request.keyMemory
  | _ => none

theorem wanted_of_holding {phase : Phase} {key : Bytes}
    (holding : phase.bucketKey = some key) : phase.wanted = none := by
  cases phase <;> first | rfl | cases holding

end Phase

variable {ht after : HashTable} {worker : WorkerId} {stale : HashItem}
variable {before next phase : Phase} {state : WorkerState}

theorem Advances.remaining_lt
    (advances : Advances ht worker stale before after next) :
    next.remaining < before.remaining := by
  cases advances <;> simp [Phase.remaining]

theorem Advances.busy
    (advances : Advances ht worker stale before after next) :
    ¬ before.Finished := by
  cases advances <;> exact id

namespace HashTable

theorem Linked.search_isSome {chains : Nat → List Ptr}
    (linked : Linked ht chains) (key : Bytes) (keyLen : Nat) :
    (ht.search key keyLen).isSome := by
  rw [linked.search_eq]
  rfl

end HashTable

theorem advance_isSome (linked : Linked ht ht.bucketItems)
    (busy : ¬ phase.Finished)
    (free : ∀ key, phase.wanted = some key →
      ht.locks (ht.getBucket key) = none) :
    (advance ht worker stale phase).isSome := by
  cases phase with
  | idle | finished => exact (busy trivial).elim
  | setLockBucket request | delLockBucket request =>
      rw [advance, Option.isSome_map, lockBucket_of_free (free _ rfl)]
      rfl
  | setFindEntry request | getSearch request | delSearch request =>
      rw [advance, Option.isSome_map]
      exact linked.search_isSome _ _
  | setTrywrlock | getTryrdlock | delTrywrlock =>
      rw [advance]
      split <;> rfl
  | _ => rfl

namespace WorkerState

def Answered (state : WorkerState) : Prop :=
  ∀ worker, (state.phase worker).Finished

/-- Steps of the requests in hand. -/
def OnlyAdvances (_ : WorkerState) : WorkerLabel → Prop
  | .advance _ _ => True
  | .start _ _ => False

def BusyAmong (busy : Finset WorkerId) (state : WorkerState) : Prop :=
  ∀ worker, worker ∉ busy → (state.phase worker).Finished

/-- The steps that the requests in hand may still need. -/
def remaining (busy : Finset WorkerId) (state : WorkerState) : Nat :=
  ∑ worker ∈ busy, (state.phase worker).remaining

theorem remaining_le (busy : Finset WorkerId) (state : WorkerState) :
    state.remaining busy ≤ 6 * busy.card := by
  rw [Nat.mul_comm]
  exact Finset.sum_le_card_nsmul _ _ _ fun worker _ =>
    (state.phase worker).remaining_le

/-- As long as a request is in hand, some worker can go on: the holder of a
mutex if there is one, else anybody. -/
theorem Sound.exists_advance (sound : state.Sound)
    (busy : ¬ state.Answered) :
    ∃ worker, ∀ stale,
      (workers.step state (.advance worker stale)).isSome := by
  unfold Answered at busy
  push Not at busy
  obtain ⟨waiting, unfinished⟩ := busy
  by_cases holding : ∃ holder key, (state.phase holder).bucketKey = some key
  · obtain ⟨holder, key, holds⟩ := holding
    refine ⟨holder, fun stale => ?_⟩
    rw [workers, Option.isSome_map]
    refine advance_isSome sound.linked (fun finished => ?_)
      fun other wants => ?_
    · rw [finished.bucketKey] at holds
      cases holds
    · rw [Phase.wanted_of_holding holds] at wants
      cases wants
  · push Not at holding
    refine ⟨waiting, fun stale => ?_⟩
    rw [workers, Option.isSome_map]
    refine advance_isSome sound.linked unfinished fun key _ => ?_
    refine Option.eq_none_iff_forall_ne_some.mpr fun holder held => ?_
    -- a taken mutex has a holder, which is not waiting
    obtain ⟨mine, holds, -⟩ :=
      Option.map_eq_some_iff.mp ((sound.mutex holder _).mp held)
    exact holding holder mine holds

/-- What is in hand gets done. -/
theorem progress (busy : Finset WorkerId) :
    workers.Progress OnlyAdvances
      (fun state => state.Sound ∧ state.BusyAmong busy) Answered
      (remaining busy) where
  preserved before label after := by
    rintro ⟨sound, among⟩ own stepTo
    refine ⟨sound_step sound stepTo, ?_⟩
    rcases workers_step_cases stepTo with
      ⟨worker, request, phase, rfl, -⟩ |
      ⟨worker, stale, table, next, -, advances, rfl⟩
    · exact own.elim
    · intro other outside
      by_cases same : other = worker
      · subst same
        exact absurd (among other outside) advances.busy
      · simpa only [Function.update_of_ne same] using among other outside
  lowers before label after := by
    rintro ⟨-, among⟩ own stepTo
    rcases workers_step_cases stepTo with
      ⟨worker, request, phase, rfl, -⟩ |
      ⟨worker, stale, table, next, -, advances, rfl⟩
    · exact own.elim
    · exact sum_update_lt (by_contra fun outside =>
        advances.busy (among worker outside)) advances.remaining_lt
  enabled state := by
    rintro ⟨sound, -⟩ busy
    obtain ⟨worker, possible⟩ := sound.exists_advance busy
    exact ⟨.advance worker .zero, trivial, possible _⟩

/-- In every state that a run reaches only finitely many requests are in
hand. -/
theorem exists_busyAmong (reached : workers.Reachable state) :
    ∃ busy, state.BusyAmong busy := by
  induction reached with
  | start initial =>
      obtain rfl := initial
      exact ⟨∅, fun worker _ => trivial⟩
  | @next before after label _ _ stepTo ih =>
      obtain ⟨busy, among⟩ := ih
      have others : ∀ worker next,
          (∀ other, other ∉ insert worker busy →
            (Function.update before.phase worker next other).Finished) := by
        intro worker next other outside
        rw [Finset.mem_insert, not_or] at outside
        rw [Function.update_of_ne outside.1]
        exact among other outside.2
      rcases workers_step_cases stepTo with
        ⟨worker, request, phase, -, -, -, rfl⟩ |
        ⟨worker, stale, table, next, -, -, rfl⟩
      · exact ⟨insert worker busy, others worker phase⟩
      · exact ⟨insert worker busy, others worker next⟩

end WorkerState

/-- One worker holds the mutex that another one asks for. -/
def crowdedLabels : List WorkerLabel :=
  .start 0 (.make .set [97] [1]) :: WorkerLabel.advances 0 .zero 1 ++
    [.start 1 (.make .set [97] [2]), .start 2 (.make .set [98] [3]),
      .start 3 (.make .get [97] [])]

end RdmaKVStore
