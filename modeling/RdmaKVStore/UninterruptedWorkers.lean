import RdmaKVStore.WorkerSteps
import Mathlib.Logic.Relation

/-!
# Uninterrupted workers

A worker whose steps are not interleaved with those of others computes what
`execute` computes.  So every table that a sequence of whole requests reaches
is reached by the workers, and what holds of all interleavings holds of it.
-/

namespace RdmaKVStore

open LinkedChain HashTable Relation

/-- One step of a worker on its own. -/
def WorkerStep (worker : WorkerId) (stale : HashItem)
    (before after : HashTable × Phase) : Prop :=
  advance before.1 worker stale before.2 = some after

variable {ht after : HashTable} {worker : WorkerId} {stale : HashItem}
variable {request : Request} {response : Response} {p : Ptr}
variable {item : HashItem}

theorem readItem_of_read (read : ht.heap p = some item) :
    ht.readItem p stale = item := by
  simp [readItem, read]

theorem readItem_setRwlock (read : ht.heap p = some item)
    (lock : RwLock WorkerId) :
    (ht.setRwlock p lock).readItem p stale = { item with rwlock := lock } := by
  apply readItem_of_read
  simp [setRwlock, read]

theorem unlinkItem_setRwlock (ht : HashTable) (bucket : Nat) (p : Ptr)
    (item : HashItem) (lock : RwLock WorkerId) :
    (ht.setRwlock p lock).unlinkItem bucket p { item with rwlock := lock } =
      ht.unlinkItem bucket p item := by
  have heapEq : ((ht.setRwlock p lock).unlinkItem bucket p
      { item with rwlock := lock }).heap =
        (ht.unlinkItem bucket p item).heap := by
    funext q
    by_cases self : q = p
    · subst self
      simp
    · have kept : (ht.setRwlock p lock).heap q = ht.heap q :=
        modifyAt_of_ne fun same => self (Option.some.inj same).symm
      simp only [unlinkItem_heap, Function.update_of_ne self]
      exact modifyAt_congr (modifyAt_congr kept)
  exact congrArg (fun heap => { ht.unlinkItem bucket p item with heap := heap })
    heapEq

theorem getKeyEntry_reaches
    (entered : ht.getKeyEntry worker request.keyMemory request.keyLen.toNat =
      some (after, p)) :
    ReflTransGen (WorkerStep worker stale) (ht, .setLockBucket request)
      (after, .setTrywrlock request p) := by
  obtain ⟨locked, lockedEq, rest⟩ := Option.bind_eq_some_iff.mp entered
  obtain ⟨entry, searched, result⟩ := Option.map_eq_some_iff.mp rest
  have takes : WorkerStep worker stale (ht, .setLockBucket request)
      (locked, .setFindEntry request) := by
    simp [WorkerStep, advance, lockedEq]
  have bucketEq : locked.getBucket request.keyMemory =
      ht.getBucket request.keyMemory := by
    obtain ⟨-, rfl⟩ := lockBucket_eq_some lockedEq
    rfl
  cases entry with
  | some found =>
      cases result
      have finds : WorkerStep worker stale (locked, .setFindEntry request)
          (locked, .setUnlockBucket request p) := by
        simp [WorkerStep, advance, searched]
      refine .head takes (.head finds (.single ?_))
      simp [WorkerStep, advance, bucketEq]
  | none =>
      cases result
      have inserts : WorkerStep worker stale (locked, .setFindEntry request)
          ((locked.insertEntry (ht.getBucket request.keyMemory)
            request.keyMemory request.keyLen.toNat).1,
            .setUnlockBucket request locked.fresh) := by
        simp [WorkerStep, advance, searched, bucketEq, insertEntry]
      refine .head takes (.head inserts (.single ?_))
      rw [← bucketEq]
      rfl

theorem setRequest_reaches
    (executed : setRequest worker ht request Response.zero =
      some (after, response)) :
    ReflTransGen (WorkerStep worker stale) (ht, .setLockBucket request)
      (after, .finished request response) := by
  obtain ⟨⟨entered, p⟩, enteredEq, rest⟩ := Option.bind_eq_some_iff.mp executed
  obtain ⟨item, read, result⟩ := Option.map_eq_some_iff.mp rest
  apply (getKeyEntry_reaches enteredEq).trans
  have found : entered.readItem p stale = item := readItem_of_read read
  cases locked : item.rwlock.trywrlock worker with
  | none =>
      rw [locked] at result
      cases result
      apply ReflTransGen.single
      simp [WorkerStep, advance, found, locked, Phase.answer]
  | some held =>
      rw [locked] at result
      cases result
      have locks : WorkerStep worker stale (entered, .setTrywrlock request p)
          (entered.setRwlock p held, .setStore request p) := by
        simp [WorkerStep, advance, found, locked]
      exact .head locks (.head rfl (.single rfl))

theorem getRequest_reaches
    (executed : getRequest worker ht request Response.zero =
      some (after, response)) :
    ReflTransGen (WorkerStep worker stale) (ht, .getSearch request)
      (after, .finished request response) := by
  obtain ⟨found, searched, rest⟩ := Option.bind_eq_some_iff.mp executed
  cases found with
  | none =>
      cases rest
      apply ReflTransGen.single
      simp [WorkerStep, advance, searched, Phase.answer]
  | some p =>
      obtain ⟨item, read, result⟩ := Option.map_eq_some_iff.mp rest
      have finds : WorkerStep worker stale (ht, .getSearch request)
          (ht, .getTryrdlock request p) := by
        simp [WorkerStep, advance, searched]
      have points : ht.readItem p stale = item := readItem_of_read read
      cases locked : item.rwlock.tryrdlock worker with
      | none =>
          rw [locked] at result
          cases result
          refine .head finds (.single ?_)
          simp [WorkerStep, advance, points, locked, Phase.answer]
      | some held =>
          rw [locked] at result
          cases result
          have locks : WorkerStep worker stale (ht, .getTryrdlock request p)
              (ht.setRwlock p held, .getCopy request p) := by
            simp [WorkerStep, advance, points, locked]
          have copies : WorkerStep worker stale
              (ht.setRwlock p held, .getCopy request p)
              (ht.setRwlock p held, .getUnlock request p
                (Response.zero.copyValue item)) := by
            simp [WorkerStep, advance, readItem_setRwlock read,
              Response.copyValue]
          exact .head finds (.head locks (.head copies (.single rfl)))

theorem delRequest_reaches
    (executed : delRequest worker ht request Response.zero =
      some (after, response)) :
    ReflTransGen (WorkerStep worker stale) (ht, .delLockBucket request)
      (after, .finished request response) := by
  obtain ⟨⟨removed, code⟩, removedEq, result⟩ :=
    Option.map_eq_some_iff.mp executed
  obtain ⟨locked, lockedEq, rest⟩ := Option.bind_eq_some_iff.mp removedEq
  obtain ⟨found, searched, rest⟩ := Option.bind_eq_some_iff.mp rest
  have takes : WorkerStep worker stale (ht, .delLockBucket request)
      (locked, .delSearch request) := by
    simp [WorkerStep, advance, lockedEq]
  have bucketEq : locked.getBucket request.keyMemory =
      ht.getBucket request.keyMemory := by
    obtain ⟨-, rfl⟩ := lockBucket_eq_some lockedEq
    rfl
  cases found with
  | none =>
      cases rest
      cases result
      have misses : WorkerStep worker stale (locked, .delSearch request)
          (locked, .delUnlockBucket request .keyError) := by
        simp [WorkerStep, advance, searched]
      refine .head takes (.head misses (.single ?_))
      rw [← bucketEq]
      rfl
  | some p =>
      have finds : WorkerStep worker stale (locked, .delSearch request)
          (locked, .delTrywrlock request p) := by
        simp [WorkerStep, advance, searched]
      obtain ⟨item, read, rest⟩ := Option.map_eq_some_iff.mp rest
      have points : locked.readItem p stale = item := readItem_of_read read
      cases taken : item.rwlock.trywrlock worker with
      | none =>
          rw [taken] at rest
          cases rest
          cases result
          have refuses : WorkerStep worker stale
              (locked, .delTrywrlock request p)
              (locked, .delFailUnlock request p) := by
            simp [WorkerStep, advance, points, taken]
          refine .head takes (.head finds (.head refuses
            (.head rfl (.single ?_))))
          rw [← bucketEq]
          rfl
      | some held =>
          rw [taken] at rest
          cases rest
          cases result
          have locks : WorkerStep worker stale (locked, .delTrywrlock request p)
              (locked.setRwlock p held, .delUnlink request p) := by
            simp [WorkerStep, advance, points, taken]
          have unlinks : WorkerStep worker stale
              (locked.setRwlock p held, .delUnlink request p)
              (locked.unlinkItem (ht.getBucket request.keyMemory) p item,
                .delUnlockBucket request .ok) := by
            simp only [WorkerStep, advance, readItem_setRwlock read,
              ← bucketEq]
            exact congrArg (fun table => some (table,
              Phase.delUnlockBucket request .ok))
              (unlinkItem_setRwlock locked _ p item held)
          refine .head takes (.head finds (.head locks
            (.head unlinks (.single ?_))))
          rw [← bucketEq]
          rfl

theorem execute_reaches {phase : Phase}
    (first : Phase.first request = some phase)
    (executed : execute worker ht request = some (after, response)) :
    ReflTransGen (WorkerStep worker stale) (ht, phase)
      (after, .finished request response) := by
  unfold Phase.first at first
  unfold execute at executed
  split at first
  case h_1 method =>
    cases first
    rw [method] at executed
    exact setRequest_reaches executed
  case h_2 method =>
    cases first
    rw [method] at executed
    exact getRequest_reaches executed
  case h_3 method =>
    cases first
    rw [method] at executed
    exact delRequest_reaches executed
  case h_4 => cases first

theorem workers_reach {before last : HashTable × Phase}
    {phases : WorkerId → Phase}
    (started : ∃ state, workers.Reachable state ∧ state.table = before.1 ∧
      state.phase = Function.update phases worker before.2)
    (reaches : ReflTransGen (WorkerStep worker stale) before last) :
    ∃ state, workers.Reachable state ∧ state.table = last.1 ∧
      state.phase = Function.update phases worker last.2 := by
  induction reaches with
  | refl => exact started
  | @tail middle last _ stepTo ih =>
      obtain ⟨state, reached, tableEq, phaseEq⟩ := ih
      have stepTo : workers.step state (.advance worker stale) =
          some
            { table := last.1
              phase := Function.update state.phase worker last.2
              stores := (state.phase worker).stored ++ state.stores } := by
        simp only [workers, tableEq, phaseEq, Function.update_self]
        rw [stepTo]
        rfl
      refine ⟨_, .next reached trivial stepTo, rfl, ?_⟩
      simp only [phaseEq, Function.update_idem]

theorem workers_reach_execute {state : WorkerState} {phase : Phase}
    (reached : workers.Reachable state)
    (finished : (state.phase worker).Finished)
    (first : Phase.first request = some phase)
    (executed : execute worker state.table request =
      some (after, response)) :
    ∃ final, workers.Reachable final ∧ final.table = after ∧
      final.phase = Function.update state.phase worker
        (.finished request response) := by
  have stepTo : workers.step state (.start worker request) =
      some { state with
        phase := Function.update state.phase worker phase } := by
    simp only [workers, if_pos finished, first, Option.map_some]
  have runs : ReflTransGen (WorkerStep worker .zero)
      (state.table, phase) (after, .finished request response) :=
    execute_reaches first executed
  exact workers_reach ⟨_, .next reached trivial stepTo, rfl, rfl⟩ runs

/-- Whole requests executed one after another are a run of the workers, at
whose end no request is in progress. -/
theorem workers_reach_executeAll {state : WorkerState}
    {turns : List (WorkerId × Request)} {responses : List Response}
    (reached : workers.Reachable state)
    (finished : ∀ worker, (state.phase worker).Finished)
    (started : ∀ turn ∈ turns, Phase.first turn.2 ≠ none)
    (executed : executeAll state.table turns = some (after, responses)) :
    ∃ final, workers.Reachable final ∧ final.table = after ∧
      ∀ worker, (final.phase worker).Finished := by
  induction turns generalizing state responses with
  | nil =>
      cases executed
      exact ⟨state, reached, rfl, finished⟩
  | cons turn turns ih =>
      obtain ⟨worker, request⟩ := turn
      obtain ⟨⟨table, response⟩, once, rest⟩ :=
        Option.bind_eq_some_iff.mp executed
      obtain ⟨⟨last, others⟩, restExecuted, same⟩ :=
        Option.map_eq_some_iff.mp rest
      cases same
      obtain ⟨phase, first⟩ := Option.ne_none_iff_exists'.mp
        (started (worker, request) List.mem_cons_self)
      obtain ⟨middle, middleReached, rfl, phaseEq⟩ :=
        workers_reach_execute reached (finished worker) first once
      refine ih middleReached (fun other => ?_)
        (fun turn member => started turn (List.mem_cons_of_mem _ member))
        restExecuted
      rw [phaseEq]
      by_cases self : other = worker
      · subst self
        rw [Function.update_self]
        trivial
      · rw [Function.update_of_ne self]
        exact finished other

end RdmaKVStore
