import RdmaKVStore.ServerLock

/-!
# Response buffers of the UD workers

All workers of a UD server take their send completions from one queue.  A
worker that takes the completion of another one's response goes on while the
adapter may still read its own response, and so does one whose wait fails.  As
long as every worker takes its own completion, every response is sent as it was
posted.
-/

namespace RdmaKVStore

variable {Worker Store : Type*} [DecidableEq Worker]
variable {messages : Nat → Request} {handlers : StoreHandlers Store}
variable {store : Store} {state : DatagramState Worker Store}

/-- The worker is in the wait of `ud_send_response`. -/
def DatagramPhase.SendWaits : DatagramPhase → Prop
  | .dispatchWait _ | .exitWait | .respondWait => True
  | .prepare | .receive | .lock _ | .current _ | .dispatch _ | .check _
  | .repost _ | .count _ | .unlock _ | .clear _ | .switch _ | .respond
  | .ended | .crashed => False

instance (phase : DatagramPhase) : Decidable phase.SendWaits :=
  match phase with
  | .dispatchWait _ | .exitWait | .respondWait => isTrue trivial
  | .prepare | .receive | .lock _ | .current _ | .dispatch _ | .check _
  | .repost _ | .count _ | .unlock _ | .clear _ | .switch _ | .respond
  | .ended | .crashed => isFalse id

/-- A response whose worker has returned from `ud_send_response` has completed,
a response that has not completed is unchanged in its worker's buffer, and the
adapter has sent what the workers posted. -/
structure ResponsesStable (state : DatagramState Worker Store) : Prop where
  returned : ∀ (number : Nat) worker response,
    state.server.sends.posted[number]? = some (worker, response) →
      state.server.sends.ticket worker ≠ some number →
        number < state.server.sends.done
  stable : ∀ (number : Nat) worker response,
    state.server.sends.posted[number]? = some (worker, response) →
      state.server.sends.done ≤ number →
        state.server.response worker = response
  sent : ∀ (number : Nat) response,
    state.server.sends.wire[number]? = some response →
      ∃ worker, state.server.sends.posted[number]? = some (worker, response)

/-- A worker that takes a send completion takes that of its own response: the
completions are taken in the order of the postings.  No wait for one fails. -/
def TakesOwn (state : DatagramState Worker Store) :
    DatagramLabel Worker → Prop
  | .work worker _ =>
      (state.phase worker).SendWaits → state.server.sends.IsNext worker
  | .failWait worker => ¬ (state.phase worker).SendWaits
  | _ => True

instance (state : DatagramState Worker Store)
    (label : DatagramLabel Worker) : Decidable (TakesOwn state label) :=
  match label with
  | .work worker _ => inferInstanceAs (Decidable
      ((state.phase worker).SendWaits → state.server.sends.IsNext worker))
  | .failWait worker =>
      inferInstanceAs (Decidable (¬ (state.phase worker).SendWaits))
  | .arrive | .flush | .transmit | .complete => isTrue trivial

/-- Only waiting workers have a posting to wait for, their buffers hold what
they posted, and what has been sent was posted. -/
structure ResponsesHeld (state : DatagramState Worker Store) : Prop where
  accounted : state.server.sends.Accounted state.server.response
  faithful : state.server.sends.Faithful
  idle : ∀ worker, ¬ (state.phase worker).SendWaits →
    state.server.sends.ticket worker = none

/-- What a step of a worker does to its response and to the sends: it may fill
in the response, it posts the response and goes on to wait, or it takes a
completion. -/
theorem DatagramServes.send_cases {worker : Worker} {calls : WorkerCalls}
    {server after : DatagramServer Worker Store}
    {before next : DatagramPhase}
    (serves : DatagramServes messages worker server calls before after next) :
    (¬ before.SendWaits ∧ ∃ response,
        after.response = Function.update server.response worker response ∧
          (after.sends = server.sends ∧ ¬ next.SendWaits ∨
            after.sends = server.sends.post worker response ∧
              next.SendWaits)) ∨
      before.SendWaits ∧ after.response = server.response ∧
        server.sends.take worker = some after.sends := by
  have same : server.response =
      Function.update server.response worker (server.response worker) :=
    (Function.update_eq_self _ _).symm
  cases serves with
  | answer | exit =>
      refine .inl ⟨id, _, rfl, .inr ⟨?_, trivial⟩⟩
      simp [DatagramServer.postSend, DatagramServer.setResponse]
  | respond => exact .inl ⟨id, _, same, .inr ⟨rfl, trivial⟩⟩
  | clear | switch => exact .inl ⟨id, _, rfl, .inl ⟨rfl, id⟩⟩
  | answered taken | exited taken | close taken | again taken =>
      exact .inr ⟨trivial, rfl, taken⟩
  | _ => exact .inl ⟨id, _, same, .inl ⟨rfl, id⟩⟩

theorem DatagramFails.of_not_sendWaits {worker : Worker}
    {server after : DatagramServer Worker Store}
    {before next : DatagramPhase}
    (fails : DatagramFails messages worker server before after next)
    (receives : ¬ before.SendWaits) : after = server ∧ ¬ next.SendWaits := by
  cases fails with
  | receive => exact ⟨rfl, id⟩
  | answered | exited | close | again => exact absurd trivial receives

namespace ResponsesHeld

variable {server after : DatagramServer Worker Store} {worker : Worker}
variable {phase : Worker → DatagramPhase} {next : DatagramPhase}
variable {calls : WorkerCalls}

omit [DecidableEq Worker] in
theorem initial :
    ResponsesHeld (.initial store : DatagramState Worker Store) where
  accounted := SendQueue.accounted_empty
  faithful := SendQueue.faithful_empty
  idle _ _ := rfl

theorem idle_serves (held : ResponsesHeld ⟨server, phase⟩)
    (serves : DatagramServes messages worker server calls (phase worker) after
      next) : ∀ other,
    ¬ (Function.update phase worker next other).SendWaits →
      after.sends.ticket other = none := by
  have idle := held.idle
  refine (Function.forall_update_iff _ fun other (phase : DatagramPhase) =>
    ¬ phase.SendWaits → after.sends.ticket other = none).mpr
      ⟨fun free => ?_, fun other distinct free => ?_⟩
  · rcases serves.send_cases with
      ⟨before, response, -, ⟨sends, -⟩ | ⟨-, waits⟩⟩ | ⟨-, -, taken⟩
    · exact sends ▸ idle worker before
    · exact absurd waits free
    · obtain ⟨-, -, -, -, -, ticket⟩ := SendQueue.take_eq_some taken
      rw [ticket, Function.update_self]
  · rcases serves.send_cases with
      ⟨-, response, -, ⟨sends, -⟩ | ⟨sends, -⟩⟩ | ⟨-, -, taken⟩
    · exact sends ▸ idle other free
    · rw [sends]
      exact (Function.update_of_ne distinct _ _).trans (idle other free)
    · obtain ⟨-, -, -, -, -, ticket⟩ := SendQueue.take_eq_some taken
      rw [ticket, Function.update_of_ne distinct, idle other free]

theorem serves (held : ResponsesHeld ⟨server, phase⟩)
    (guarded : TakesOwn ⟨server, phase⟩ (.work worker calls))
    (serves : DatagramServes messages worker server calls (phase worker) after
      next) :
    ResponsesHeld ⟨after, Function.update phase worker next⟩ := by
  have idle := held.idle_serves serves
  rcases serves.send_cases with
    ⟨free, response, filled, ⟨sends, -⟩ | ⟨sends, -⟩⟩ | ⟨waits, kept, taken⟩
  · have rewritten : server.sends.Accounted
        (Function.update server.response worker response) :=
      held.accounted.rewrite (held.idle worker free)
    exact ⟨by simpa only [sends, filled] using rewritten,
      by simpa only [sends] using held.faithful, idle⟩
  · have rewritten : server.sends.Accounted
        (Function.update server.response worker response) :=
      held.accounted.rewrite (held.idle worker free)
    have posted := rewritten.post (held.idle worker free)
    rw [Function.update_self] at posted
    exact ⟨by simpa only [sends, filled] using posted,
      by simpa only [sends] using held.faithful.post worker response, idle⟩
  · obtain ⟨-, -, -, available, -⟩ := SendQueue.take_eq_some taken
    have done := SendQueue.ownDone_of_isNext (guarded waits) available
    exact ⟨by simpa only [kept] using held.accounted.take taken,
      held.faithful.take done taken, idle⟩

theorem step {after : DatagramState Worker Store}
    {label : DatagramLabel Worker} (held : ResponsesHeld state)
    (guarded : TakesOwn state label)
    (stepTo : (datagramServer messages handlers store).step state label =
      some after) : ResponsesHeld after := by
  cases datagramServer_steps stepTo with
  | arrive | flush => exact ⟨held.accounted, held.faithful, held.idle⟩
  | transmit sent =>
      refine ⟨held.accounted.transmit sent,
        held.faithful.transmit held.accounted sent, fun worker free => ?_⟩
      obtain ⟨entry, -, rfl⟩ := Option.map_eq_some_iff.mp sent
      exact held.idle worker free
  | complete completed =>
      refine ⟨held.accounted.complete completed,
        held.faithful.complete completed, fun worker free => ?_⟩
      obtain ⟨-, same⟩ := Option.ite_none_right_eq_some.mp completed
      cases same
      exact held.idle worker free
  | @failWait worker server next fails =>
      obtain ⟨rfl, unready⟩ := fails.of_not_sendWaits guarded
      refine ⟨held.accounted, held.faithful, fun other free => ?_⟩
      by_cases same : other = worker
      · exact same ▸ held.idle worker guarded
      · simp only [Function.update_of_ne same] at free
        exact held.idle other free
  | work serves => exact held.serves guarded serves

omit [DecidableEq Worker] in
theorem responsesStable (held : ResponsesHeld state) :
    ResponsesStable state where
  returned number worker response posted left :=
    held.accounted.done_of_not_waiting held.faithful posted left
  stable number worker response posted pending := by
    have waits : state.server.sends.ticket worker = some number := by
      by_contra left
      exact absurd (held.accounted.done_of_not_waiting held.faithful posted
        left) (not_lt.mpr pending)
    have content := held.accounted.waiting worker number waits
    rw [posted, Option.some.injEq, Prod.mk.injEq] at content
    exact content.2.symm
  sent := held.faithful.read

end ResponsesHeld

/-- In every run of any number of UD workers in which every worker takes the
completion of its own response, the responses are stable until they are
sent. -/
theorem responsesStable_of_takesOwn
    (reached : (datagramServer messages handlers store).GuardedReach
      TakesOwn state) : ResponsesStable state := by
  have held : ResponsesHeld state := reached.invariant
    (fun _ initial => initial ▸ ResponsesHeld.initial)
    fun _ _ _ held guarded stepTo => held.step guarded stepTo
  exact held.responsesStable

/-- The first datagram is a GET, and the second one asks for an unknown
option. -/
def getThenOption (number : Nat) : Request :=
  if number = 0 then .make .get [97] [] else .make .setopt [97] []

/-- Worker 0 posts the answer to the GET, and then worker 1 the one to the
option. -/
def postingLabels : List (DatagramLabel Nat) :=
  [[.arrive, .arrive], workerLabels 0 12, workerLabels 1 5].flatten

def patientLabels : List (DatagramLabel Nat) :=
  [postingLabels, sendLabels, workerLabels 0 1, sendLabels,
    workerLabels 1 6].flatten

theorem responsesStable_after_patientLabels :
    ∃ state : DatagramState Nat Unit,
      (datagramServer getThenOption .idle ()).run (.initial ())
        patientLabels = some state ∧
      state.server.sends.waited = [0, 1] ∧ ResponsesStable state := by
  obtain ⟨state, runTo, waited⟩ := Option.map_eq_some_iff.mp
    (show ((datagramServer getThenOption .idle ()).run
        (.initial () : DatagramState Nat Unit) patientLabels).map
          (fun state => state.server.sends.waited) = some [0, 1]
            by decide +kernel)
  exact ⟨state, runTo, waited, responsesStable_of_takesOwn
    (TransitionSystem.guardedReach_of_run (.start rfl)
      (show (datagramServer getThenOption .idle ()).RunGuarded TakesOwn
        (.initial () : DatagramState Nat Unit) patientLabels
          by decide +kernel) runTo)⟩

/-- Worker 1 takes the completion of worker 0 and clears its response, which
the adapter has not sent yet. -/
def hastyLabels : List (DatagramLabel Nat) :=
  [postingLabels, sendLabels, workerLabels 1 6, [.transmit]].flatten

theorem hastyLabels_sends_cleared_response :
    ∃ state : DatagramState Nat Unit,
      (datagramServer getThenOption .idle ()).Reachable state ∧
        state.server.sends.posted[1]? =
          some (1, .reply .keyError []) ∧
        state.server.sends.ticket 1 = none ∧
        state.server.sends.done = 1 ∧
        state.server.sends.wire[1]? = some Response.zero ∧
        ¬ ResponsesStable state := by
  obtain ⟨state, runTo, checked⟩ := Option.map_eq_some_iff.mp
    (show ((datagramServer getThenOption .idle ()).run
        (.initial () : DatagramState Nat Unit) hastyLabels).map
          (fun state => (state.server.sends.posted[1]?,
            state.server.sends.ticket 1, state.server.sends.done,
            state.server.sends.wire[1]?)) =
      some (some (1, .reply .keyError []), none, 1, some Response.zero)
        by decide +kernel)
  simp only [Prod.mk.injEq] at checked
  obtain ⟨posted, left, done, wire⟩ := checked
  refine ⟨state, TransitionSystem.reachable_of_run (.start rfl) runTo, posted,
    left, done, wire, fun stable => ?_⟩
  have completed := stable.returned 1 1 _ posted (by rw [left]; simp)
  omega

end RdmaKVStore
