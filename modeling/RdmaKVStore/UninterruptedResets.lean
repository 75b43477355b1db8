import Mathlib.Logic.Relation
import RdmaKVStore.ResetSteps

/-!
# Uninterrupted SETs, GETs and RSTs

A worker that is alone between its steps finds the mutex that it has locked
where it unlocks it, and links its entry behind the head as it still is.  It
then computes what `execute` computes.
-/

namespace RdmaKVStore

open LinkedChain HashTable Relation

/-- One step of a worker on its own. -/
def ResetStep (worker : WorkerId)
    (before after : ResetState × ResetPhase) : Prop :=
  before.1.advance worker before.2 = some after

namespace ResetState

variable {state : ResetState} {worker : WorkerId} {after : HashTable}
variable {response : Response}

theorem getKeyEntry_reaches {call : SetCall} {p : Ptr}
    (entered : state.table.getKeyEntry worker call.request.keyMemory
      call.request.keyLen.toNat = some (after, p)) :
    ∃ final : ResetState,
      ReflTransGen (ResetStep worker) (state, .setBucket call)
        (final, .setTrywrlock call p) ∧ final.table = after := by
  obtain ⟨locked, lockedEq, rest⟩ := Option.bind_eq_some_iff.mp entered
  obtain ⟨entry, searched, result⟩ := Option.map_eq_some_iff.mp rest
  set bucket := state.table.getBucket call.request.keyMemory
  set mutex : BucketMutex := ⟨state.generation, bucket⟩
  have takes : ResetStep worker (state, .setLock call mutex)
      ({ state with table := locked }, .setReadHead call mutex) := by
    simp [ResetStep, advance, lockMutex, mutex, lockedEq]
  have reads : ReflTransGen (ResetStep worker) (state, .setBucket call)
      ({ state with table := locked },
        .setSearch call mutex (locked.items bucket)) :=
    .head rfl (.head rfl (.head takes (.single rfl)))
  cases entry with
  | some found =>
      cases result
      have finds : ResetStep worker
          ({ state with table := locked },
            .setSearch call mutex (locked.items bucket))
          ({ state with table := locked }, .setUnlock call mutex p) := by
        simp [ResetStep, advance, searched]
      exact ⟨_, reads.trans (.head finds (.single rfl)), rfl⟩
  | none =>
      cases result
      have misses : ResetStep worker
          ({ state with table := locked },
            .setSearch call mutex (locked.items bucket))
          ({ state with table := locked },
            .setLink call mutex (locked.items bucket)) := by
        simp [ResetStep, advance, searched]
      refine ⟨_, reads.trans (.head misses (.head rfl (.single rfl))), ?_⟩
      simp only [unlockMutex, link, mutex, linkEntry_items]
      rfl

theorem setRequest_reaches (state : ResetState) (call : SetCall)
    (executed : setRequest worker state.table call.request Response.zero =
      some (after, response)) :
    ∃ final : ResetState,
      ReflTransGen (ResetStep worker) (state, .setBucket call)
        (final, .setAnswer call) ∧ final.table = after := by
  obtain ⟨⟨entered, p⟩, enteredEq, rest⟩ :=
    Option.bind_eq_some_iff.mp executed
  obtain ⟨item, read, result⟩ := Option.map_eq_some_iff.mp rest
  obtain ⟨middle, reaches, rfl⟩ := getKeyEntry_reaches enteredEq
  cases locked : item.rwlock.trywrlock worker with
  | none =>
      rw [locked] at result
      cases result
      refine ⟨middle, reaches.tail ?_, rfl⟩
      simp [ResetStep, advance, read, locked]
  | some held =>
      rw [locked] at result
      cases result
      have locks : ResetStep worker (middle, .setTrywrlock call p)
          (middle.setRwlock p held, .setStore call p) := by
        simp [ResetStep, advance, read, locked]
      exact ⟨_, reaches.trans (.head locks (.head rfl (.single rfl))), rfl⟩

theorem getRequest_reaches (state : ResetState) (call : GetCall)
    (executed : getRequest worker state.table call.request Response.zero =
      some (after, response)) :
    ∃ final : ResetState,
      ReflTransGen (ResetStep worker) (state, .getSearch call)
        (final, .idle) ∧ final.table = after := by
  obtain ⟨found, searched, rest⟩ := Option.bind_eq_some_iff.mp executed
  cases found with
  | none =>
      cases rest
      refine ⟨state, .single ?_, rfl⟩
      simp [ResetStep, advance, searched]
  | some p =>
      obtain ⟨item, read, result⟩ := Option.map_eq_some_iff.mp rest
      have finds : ResetStep worker (state, .getSearch call)
          (state, .getTryrdlock call p) := by
        simp [ResetStep, advance, searched]
      cases locked : item.rwlock.tryrdlock worker with
      | none =>
          rw [locked] at result
          cases result
          refine ⟨state, .head finds (.single ?_), rfl⟩
          simp [ResetStep, advance, read, locked]
      | some held =>
          rw [locked] at result
          cases result
          have locks : ResetStep worker (state, .getTryrdlock call p)
              (state.setRwlock p held, .getCopy call p) := by
            simp [ResetStep, advance, read, locked]
          have copies : ResetStep worker
              (state.setRwlock p held, .getCopy call p)
              ((state.setRwlock p held).copyValue call p
                { item with rwlock := held }, .getUnlockItem p) := by
            simp [ResetStep, advance, ResetState.setRwlock,
              HashTable.setRwlock, read]
          exact ⟨_, .head finds (.head locks (.head copies (.single rfl))),
            rfl⟩

theorem advance_with_phase (state : ResetState) (worker : WorkerId)
    (phases : WorkerId → ResetPhase) (phase : ResetPhase) :
    { state with phase := phases }.advance worker phase =
      (state.advance worker phase).map fun (after, next) =>
        ({ after with phase := phases }, next) := by
  cases phase with
  | setLock call mutex =>
      simp only [advance, lockMutex]
      split
      · simp [Function.comp_def]
      · split <;> rfl
  | setSearch call mutex head =>
      simp only [advance, Option.map_map]
      refine congrFun (congrArg Option.map (funext fun entry => ?_)) _
      cases entry <;> rfl
  | setTrywrlock call p =>
      simp only [advance, Option.map_map]
      refine congrFun (congrArg Option.map (funext fun item => ?_)) _
      simp only [Function.comp_apply]
      cases item.rwlock.trywrlock worker <;> rfl
  | getSearch call =>
      simp only [advance, Option.map_map]
      refine congrFun (congrArg Option.map (funext fun found => ?_)) _
      cases found <;> rfl
  | getTryrdlock call p =>
      simp only [advance, Option.map_map]
      refine congrFun (congrArg Option.map (funext fun item => ?_)) _
      simp only [Function.comp_apply]
      cases item.rwlock.tryrdlock worker <;> rfl
  | getCopy call p =>
      simp only [advance, Option.map_map]
      rfl
  | _ => rfl

theorem reachable_of_reaches {phases : WorkerId → ResetPhase}
    {first last : ResetState × ResetPhase}
    (started : resetWorkers.Reachable
      { first.1 with phase := Function.update phases worker first.2 })
    (reaches : ReflTransGen (ResetStep worker) first last) :
    resetWorkers.Reachable
      { last.1 with phase := Function.update phases worker last.2 } := by
  induction reaches with
  | refl => exact started
  | @tail middle last _ stepTo ih =>
      have moved : resetWorkers.step
          { middle.1 with phase := Function.update phases worker middle.2 }
          (.advance worker) =
            some { last.1 with
              phase := Function.update phases worker last.2 } := by
        simp only [resetWorkers, Function.update_self, advance_with_phase]
        rw [stepTo]
        simp [move, Function.update_idem]
      exact .next ih trivial moved

/-- A whole SET, GET or RST of an idle worker is a run of the workers that
leaves it idle. -/
theorem reachable_execute {request : Request}
    (reached : resetWorkers.Reachable state)
    (idle : state.phase worker = .idle)
    (method : request.method = .set ∨ request.method = .get ∨
      request.method = .rst)
    (executed : execute worker state.table request =
      some (after, response)) :
    ∃ final, resetWorkers.Reachable final ∧ final.table = after ∧
      final.phase = state.phase := by
  have begins {began : ResetState} {phase : ResetPhase}
      (taken : state.start request = some (began, phase)) :
      resetWorkers.Reachable
        { began with phase := Function.update began.phase worker phase } := by
    have stepTo : resetWorkers.step state (.start worker request) =
        some (began.move worker phase) := by
      simp only [resetWorkers, if_pos idle, taken, Option.map_some]
    exact .next reached trivial stepTo
  have stays : Function.update state.phase worker .idle = state.phase := by
    rw [← idle, Function.update_eq_self]
  rcases method with method | method | method
  · simp only [execute, method] at executed
    obtain ⟨final, reaches, rfl⟩ := setRequest_reaches
      { state with sets := state.sets + 1 } ⟨state.sets, request⟩ executed
    have began := begins (by rw [start, method])
    exact ⟨_, reachable_of_reaches began (reaches.tail rfl), rfl, stays⟩
  · simp only [execute, method] at executed
    obtain ⟨final, reaches, rfl⟩ :=
      getRequest_reaches state ⟨request, state.cleared⟩ executed
    have began := begins (by rw [start, method])
    exact ⟨_, reachable_of_reaches began reaches, rfl, stays⟩
  · simp only [execute, method, Option.some.injEq, Prod.mk.injEq] at executed
    obtain ⟨rfl, -⟩ := executed
    have began := begins (by rw [start, method])
    have replaces : ReflTransGen (ResetStep worker)
        (state, .rstReplace state.answered)
        ({ state.replace with
          cleared := state.answered ++ state.replace.cleared }, .idle) :=
      .head rfl (.single rfl)
    exact ⟨_, reachable_of_reaches began replaces, rfl, stays⟩

end ResetState

end RdmaKVStore
