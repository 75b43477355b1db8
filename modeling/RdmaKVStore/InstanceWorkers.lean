import RdmaKVStore.LinearizedWorkers

/-!
# Benchmark instances on concurrent workers

An instance sends its next request after the answer to the last one.  However
the workers' steps for different instances are interleaved, each instance is
answered as if it were the only client of the server.
-/

namespace RdmaKVStore

open LinkedChain HashTable FirstMatch

/-- One of the two functions of an instance made the request, for one of its
operations. -/
def Request.OfInstance (request : Request) : Prop :=
  ∃ count, request.MadeBy request.clientId count

/-- Requests are made by benchmark instances, and no instance has two requests
in progress. -/
def InstanceByInstance (state : OrderedState) : WorkerLabel → Prop
  | .start _ request => request.OfInstance ∧
      ∀ other current, (state.work.phase other).current = some current →
        current.clientId ≠ request.clientId
  | .advance _ _ => True

/-- All requests in progress and on record have the property. -/
structure OrderedState.AllRequests (good : Request → Prop)
    (state : OrderedState) : Prop where
  current : ∀ worker request,
    (state.work.phase worker).current = some request → good request
  turns : ∀ turn ∈ state.turns, good turn.2

variable {good : Request → Prop} {request first second : Request}

theorem OrderedState.AllRequests.step {before after : OrderedState}
    {label : WorkerLabel} (all : before.AllRequests good)
    (starts : ∀ worker request, label = .start worker request → good request)
    (stepTo : orderedWorkers.step before label = some after) :
    after.AllRequests good := by
  obtain ⟨work, workStep, rfl⟩ := Option.map_eq_some_iff.mp stepTo
  rcases workers_step_cases workStep with
    ⟨worker, request, phase, rfl, -, isFirst, rfl⟩ |
    ⟨worker, stale, table, next, rfl, advances, rfl⟩
  · constructor
    · refine (Function.forall_update_iff _ fun _ (phase : Phase) =>
        ∀ request, phase.current = some request → good request).mpr
          ⟨fun other inProgress => ?_, fun other _ => all.current other⟩
      rw [Phase.current_of_first isFirst] at inProgress
      obtain rfl := Option.some.inj inProgress
      exact starts worker request rfl
    · rw [WorkerState.lookups, List.append_nil]
      exact all.turns
  · constructor
    · refine (Function.forall_update_iff _ fun _ (phase : Phase) =>
        ∀ request, phase.current = some request → good request).mpr
          ⟨fun request inProgress => ?_, fun other _ => all.current other⟩
      rcases advances.current with none | kept
      · rw [none] at inProgress
        cases inProgress
      · exact all.current worker request (kept ▸ inProgress)
    · refine List.forall_mem_append.mpr ⟨all.turns, fun turn member => ?_⟩
      obtain ⟨request, lookup, rfl⟩ :=
        Option.map_eq_some_iff.mp (Option.mem_toList.mp member)
      exact all.current worker request (Phase.current_of_lookup lookup)

theorem allRequests_of_reached {guard : OrderedState → WorkerLabel → Prop}
    (starts : ∀ state worker request,
      guard state (.start worker request) → good request)
    {state : OrderedState} (reached : orderedWorkers.GuardedReach guard state) :
    state.AllRequests good := by
  refine reached.invariant (fun state initial => ?_)
    fun before label after all guarded stepTo => all.step ?_ stepTo
  · obtain rfl := initial
    constructor
    · intro worker request none
      cases none
    · intro turn none
      cases none
  · rintro worker request rfl
    exact starts before worker request guarded

theorem Request.OfInstance.unrelated (ofInstance : first.OfInstance)
    (ofInstance' : second.OfInstance)
    (distinct : first.clientId ≠ second.clientId) : ¬ first.Related second := by
  obtain ⟨count, made⟩ := ofInstance
  obtain ⟨count', made'⟩ := ofInstance'
  exact made.unrelated made' distinct

theorem conflictFree_of_instances {state : OrderedState}
    (reached : orderedWorkers.GuardedReach InstanceByInstance state) :
    orderedWorkers.GuardedReach ConflictFree state := by
  have all (state : OrderedState)
      (earlier : orderedWorkers.GuardedReach InstanceByInstance state) :
      state.AllRequests Request.OfInstance :=
    allRequests_of_reached (fun _ _ _ guarded => guarded.1) earlier
  refine reached.of_invariant all fun state label all guarded => ?_
  cases label with
  | advance => trivial
  | start worker request =>
      obtain ⟨ofInstance, alone⟩ := guarded
      refine ⟨?_, fun other current inProgress conflict => ?_⟩
      · obtain ⟨count, made⟩ := ofInstance
        exact made.wellFormed.key
      · have ofInstance' := all.current other current inProgress
        rcases conflict with conflict | ⟨-, walks | walks⟩
        · exact ofInstance.unrelated ofInstance'
            (alone other current inProgress).symm conflict.1
        · obtain ⟨count, made⟩ := ofInstance'
          exact made.not_del walks.2
        · obtain ⟨count, made⟩ := ofInstance
          exact made.not_del walks.1

/-- The message of a SET that is related to a request of an instance is a
message of that instance. -/
theorem Request.OfInstance.payload_eq (ofInstance : first.OfInstance)
    (related : first.Related second) (ofInstance' : second.OfInstance)
    (method : first.method = .set) :
    ∃ count, first.payload = instanceMessage second.clientId count := by
  have same : first.clientId = second.clientId := by
    by_contra distinct
    exact ofInstance.unrelated ofInstance' distinct related
  obtain ⟨count, made⟩ := ofInstance
  rcases made.cases.2.2 with ⟨gets, -⟩ | ⟨-, hasMessage⟩
  · rw [method] at gets
    cases gets
  · exact ⟨count, same ▸ hasMessage.payload⟩

/-- In every run of the workers in which the benchmark instances have at most
one request each in progress, every request is answered as if it and the other
requests of its instance had been executed alone, in the order of their
lookups, and a GET that does not fail gets a message of its own instance. -/
theorem instances_answered_alone {state : OrderedState}
    (reached : orderedWorkers.GuardedReach InstanceByInstance state) :
    ∃ responses : List Response,
      (∀ worker request response,
        (state.work.phase worker).outcome = some (request, response) →
          latestAnswer worker (state.turns.zip responses) =
            some (request, response) ∧
          (request.method = .get → response = Response.refusal ∨
            ∃ count, response =
              Response.holding (instanceMessage request.clientId count))) ∧
      ∀ instanceNr, ∃ alone,
        executeAll empty
            (state.turns.filter fun turn => turn.2.clientId = instanceNr) =
          some (alone, ((state.turns.zip responses).filter fun turn =>
            turn.1.2.clientId = instanceNr).map Prod.snd) := by
  obtain ⟨ht, responses, sequential⟩ :=
    sequential_of_reached (conflictFree_of_instances reached)
  have all : state.AllRequests Request.OfInstance :=
    allRequests_of_reached (fun _ _ _ guarded => guarded.1) reached
  refine ⟨responses, fun worker request response outcome => ?_,
    fun instanceNr => ?_⟩
  · have latest := sequential.finished_answered worker request response outcome
    refine ⟨latest, fun method => ?_⟩
    obtain ⟨i, here⟩ := List.mem_iff_getElem?.mp (mem_of_latestAnswer latest)
    obtain ⟨asked, answered⟩ := List.getElem?_zip_eq_some.mp here
    rcases get_answered_from state.turns (fun turn member => by
        obtain ⟨count, made⟩ := all.turns turn member
        exact made.wellFormed) sequential.executed asked answered method with
      refused | ⟨set, member, sets, related, rfl⟩
    · exact .inl refused
    · obtain ⟨count, payload⟩ :=
        (all.turns set (List.mem_of_mem_take member)).payload_eq related
          (all.turns _ (List.mem_of_getElem? asked)) sets
      exact .inr ⟨count, payload ▸ rfl⟩
  have separate := separateSource_of_source Request.clientId state.turns
    (fun turn member => by
      obtain ⟨count, made⟩ := all.turns turn member
      exact made.wellFormed.key)
    (fun turn member => by
      obtain ⟨count, made⟩ := all.turns turn member
      exact made.noReset)
    (fun turn member turn' member' distinct =>
      (all.turns turn member).unrelated (all.turns turn' member') distinct)
    instanceNr
  obtain ⟨ht', responses', alone, executed, executedAlone, -⟩ :=
    separate.executeAll_alone
  obtain ⟨-, rfl⟩ : ht' = ht ∧ responses' = responses := by
    simpa using executed.symm.trans sequential.executed
  exact ⟨alone, executedAlone⟩

def freshConn (instanceNr : Int32) : InstanceConn where
  connT := .rc
  instanceNr := instanceNr
  requests _ := Request.zero

def firstSet (instanceNr : Int32) : Request :=
  (((freshConn instanceNr).makeSetRequest 0).getD
    (freshConn instanceNr)).request

theorem firstSet_madeBy (instanceNr : Int32) :
    (firstSet instanceNr).MadeBy instanceNr 0 := by
  obtain ⟨after, made, -⟩ := (freshConn instanceNr).makeSetRequest_eq 0
  refine ⟨freshConn instanceNr, after, rfl, ?_, .inr made⟩
  rw [firstSet, made, Option.getD_some]

def bothStarted : OrderedState where
  work := (WorkerState.initial.stepped 0 empty
    (.setLockBucket (firstSet 0)) []).stepped 1 empty
      (.setLockBucket (firstSet 1)) []
  turns := []

theorem bothStarted_reached :
    orderedWorkers.GuardedReach InstanceByInstance bothStarted := by
  have firstStep : orderedWorkers.step ⟨.initial, []⟩
      (.start 0 (firstSet 0)) = some
        { work := WorkerState.initial.stepped 0 empty
            (.setLockBucket (firstSet 0)) []
          turns := [] } := rfl
  have secondStep : orderedWorkers.step
      { work := WorkerState.initial.stepped 0 empty
          (.setLockBucket (firstSet 0)) []
        turns := [] } (.start 1 (firstSet 1)) = some bothStarted := rfl
  have clientIds (instanceNr : Int32) :
      (firstSet instanceNr).clientId = instanceNr :=
    (firstSet_madeBy instanceNr).cases.1
  have ofInstance (instanceNr : Int32) : (firstSet instanceNr).OfInstance :=
    ⟨0, (clientIds instanceNr).symm ▸ firstSet_madeBy instanceNr⟩
  refine .next (.next (.start rfl) ?_ firstStep) ?_ secondStep
  · exact ⟨ofInstance 0, fun other current none => by cases none⟩
  · refine ⟨ofInstance 1, fun other current inProgress => ?_⟩
    by_cases same : other = 0
    · subst same
      cases inProgress
      rw [clientIds, clientIds]
      decide
    · rw [WorkerState.stepped_of_ne _ _ _ _ same] at inProgress
      cases inProgress

/-- One instance sets its key while the other one holds the lock of its own. -/
def bothLabels : List WorkerLabel :=
  WorkerLabel.advances 0 .zero 4 ++ WorkerLabel.advances 1 .zero 6 ++
    WorkerLabel.advances 0 .zero 2

theorem bothLabels_answered_alone :
    ∃ state, orderedWorkers.run bothStarted bothLabels = some state ∧
      ∃ responses : List Response, ∀ instanceNr, ∃ alone,
        executeAll empty
            (state.turns.filter fun turn => turn.2.clientId = instanceNr) =
          some (alone, ((state.turns.zip responses).filter fun turn =>
            turn.1.2.clientId = instanceNr).map Prod.snd) := by
  obtain ⟨state, runTo⟩ := Option.isSome_iff_exists.mp
    (show (orderedWorkers.run bothStarted bothLabels).isSome by
      decide +kernel)
  have guarded : orderedWorkers.RunGuarded InstanceByInstance bothStarted
      bothLabels := by
    apply TransitionSystem.runGuarded_of_forall
    intro label member state
    simp only [bothLabels, WorkerLabel.advances, List.mem_append,
      List.mem_replicate] at member
    obtain (⟨-, rfl⟩ | ⟨-, rfl⟩) | ⟨-, rfl⟩ := member <;> trivial
  obtain ⟨responses, -, alone⟩ := instances_answered_alone
    (TransitionSystem.guardedReach_of_run bothStarted_reached guarded runTo)
  exact ⟨state, runTo, responses, alone⟩

end RdmaKVStore
