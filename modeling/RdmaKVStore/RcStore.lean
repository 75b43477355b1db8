import RdmaKVStore.InstanceWorkers
import RdmaKVStore.RcSession

/-!
# The store over RC

Any number of clients, each with an RC connection and the worker that serves
it, all in polling mode, and the table that the workers share.  A worker takes
up the request that it finds in its slot, advances in it step by step, and
leaves the response in the buffer of its connection; the adapter reads the
buffer when it sends the response, and the client reads its own when
`rc_receive_response` has returned.
-/

namespace RdmaKVStore

open HashTable

/-- The table with the workers' requests and their lookups, the connection of
each worker, what the response buffers on the server and at the clients hold,
and the responses that each client has read. -/
structure RcStore where
  store : OrderedState
  session : WorkerId → RcSession
  buffer : WorkerId → Response
  inbox : WorkerId → Response
  seen : WorkerId → List Response

/-- A connection takes a step, in which its worker may take up a request or
hand over the response, or a worker advances in its request. -/
inductive RcStoreLabel
  | session (worker : WorkerId) (label : RcLabel)
  | handler (worker : WorkerId) (stale : HashItem)

def RcStoreLabel.worker : RcStoreLabel → WorkerId
  | .session worker _ | .handler worker _ => worker

namespace RcStore

def initial : RcStore where
  store := ⟨.initial, []⟩
  session _ := .initial
  buffer _ := Response.zero
  inbox _ := Response.zero
  seen _ := []

variable (messages : WorkerId → Nat → Request) (state : RcStore)

def request (worker : WorkerId) (slot : Nat) : Request :=
  (state.session worker).server.ring.request (messages worker) slot

/-- What a step of the worker's loop does to the table and the response: at the
`switch` the response is cleared and the handler called, and the loop goes on
when the handler has returned. -/
def serve (worker : WorkerId) (thread : Fin 1) : Option RcStore :=
  match (state.session worker).server.phase thread with
  | .switch slot _ =>
      (orderedWorkers.step state.store
          (.start worker (state.request messages worker slot))).map
        fun store => { state with
          store := store
          buffer := Function.update state.buffer worker Response.zero }
  | .handle _ _ =>
      (state.store.work.phase worker).outcome.map fun (_, response) =>
        { state with
          buffer := Function.update state.buffer worker response }
  | _ => some state

/-- What a step of a connection does to the table and to the responses. -/
def carry (worker : WorkerId) : RcLabel → Option RcStore
  | .server (.work thread) => state.serve messages worker thread
  | .responseArrives =>
      some { state with
        inbox := Function.update state.inbox worker (state.buffer worker) }
  | .client =>
      some (if (state.session worker).client.phase = .receiveWait then
          { state with
            seen := Function.update state.seen worker
              (state.seen worker ++ [state.inbox worker]) }
        else state)
  | .server .arrive | .server .sendDone | .sendDone => some state

def handlerStep (worker : WorkerId) (stale : HashItem) : Option RcStore :=
  match (state.session worker).server.phase (Fin.last 0) with
  | .handle _ _ =>
      (orderedWorkers.step state.store (.advance worker stale)).map
        fun store => { state with store := store }
  | _ => none

end RcStore

/-- The clients of a server over RC, with the requests that each of them
sends. -/
def rcStore (messages : WorkerId → Nat → Request) :
    TransitionSystem RcStore RcStoreLabel where
  initial state := state = .initial
  step state
    | .session worker label =>
        ((rcSession (messages worker)).step (state.session worker) label).bind
          fun session => (state.carry messages worker label).map
            fun after => { after with
              session := Function.update state.session worker session }
    | .handler worker stale => state.handlerStep worker stale

/-- A worker takes up a request only if it is well formed and conflicts with
none that is in progress. -/
def RcStore.ConflictFree (messages : WorkerId → Nat → Request)
    (state : RcStore) : RcStoreLabel → Prop
  | .session worker (.server (.work thread)) => ∀ slot (turn : Nat),
      (state.session worker).server.phase thread = .switch slot turn →
        RdmaKVStore.ConflictFree state.store
          (.start worker (state.request messages worker slot))
  | _ => True

inductive RcStoreSteps (messages : WorkerId → Nat → Request)
    (before : RcStore) : RcStoreLabel → RcStore → Prop
  | handler {worker : WorkerId} {stale : HashItem} {store : OrderedState}
      {slot turn : Nat}
      (place : (before.session worker).server.phase 0 = .handle slot turn)
      (stepTo : orderedWorkers.step before.store (.advance worker stale) =
        some store) :
      RcStoreSteps messages before (.handler worker stale)
        { before with store := store }
  | start {worker : WorkerId} {thread : Fin 1} {session : RcSession}
      {store : OrderedState} {slot turn : Nat}
      (moved : (rcSession (messages worker)).step (before.session worker)
        (.server (.work thread)) = some session)
      (place : (before.session worker).server.phase 0 = .switch slot turn)
      (stepTo : orderedWorkers.step before.store
        (.start worker (before.request messages worker slot)) = some store) :
      RcStoreSteps messages before (.session worker (.server (.work thread)))
        { before with
          store := store
          session := Function.update before.session worker session
          buffer := Function.update before.buffer worker Response.zero }
  | returned {worker : WorkerId} {thread : Fin 1} {session : RcSession}
      {slot turn : Nat} {request : Request} {response : Response}
      (moved : (rcSession (messages worker)).step (before.session worker)
        (.server (.work thread)) = some session)
      (place : (before.session worker).server.phase 0 = .handle slot turn)
      (outcome : (before.store.work.phase worker).outcome =
        some (request, response)) :
      RcStoreSteps messages before (.session worker (.server (.work thread)))
        { before with
          session := Function.update before.session worker session
          buffer := Function.update before.buffer worker response }
  | arrives {worker : WorkerId} {session : RcSession}
      (moved : (rcSession (messages worker)).step (before.session worker)
        .responseArrives = some session) :
      RcStoreSteps messages before (.session worker .responseArrives)
        { before with
          session := Function.update before.session worker session
          inbox := Function.update before.inbox worker
            (before.buffer worker) }
  | read {worker : WorkerId} {session : RcSession}
      (moved : (rcSession (messages worker)).step (before.session worker)
        .client = some session)
      (place : (before.session worker).client.phase = .receiveWait) :
      RcStoreSteps messages before (.session worker .client)
        { before with
          session := Function.update before.session worker session
          seen := Function.update before.seen worker
            (before.seen worker ++ [before.inbox worker]) }
  | other {worker : WorkerId} {label : RcLabel} {session : RcSession}
      (moved : (rcSession (messages worker)).step (before.session worker)
        label = some session)
      (arrives : label ≠ .responseArrives)
      (client : label = .client →
        (before.session worker).client.phase ≠ .receiveWait)
      (server : ∀ thread, label = .server (.work thread) →
        ∀ slot turn, (before.session worker).server.phase 0 ≠
            .switch slot turn ∧
          (before.session worker).server.phase 0 ≠ .handle slot turn) :
      RcStoreSteps messages before (.session worker label)
        { before with
          session := Function.update before.session worker session }

theorem rcStore_steps {messages : WorkerId → Nat → Request}
    {before after : RcStore} {label : RcStoreLabel}
    (stepTo : (rcStore messages).step before label = some after) :
    RcStoreSteps messages before label after := by
  cases label with
  | handler worker stale =>
      simp only [rcStore, RcStore.handlerStep] at stepTo
      split at stepTo
      case h_1 place =>
        obtain ⟨store, advanced, rfl⟩ := Option.map_eq_some_iff.mp stepTo
        exact .handler place advanced
      case h_2 => cases stepTo
  | session worker label =>
      obtain ⟨session, moved, rest⟩ := Option.bind_eq_some_iff.mp stepTo
      obtain ⟨next, carried, rfl⟩ := Option.map_eq_some_iff.mp rest
      cases label with
      | responseArrives =>
          simp only [RcStore.carry, Option.some.injEq] at carried
          subst carried
          exact .arrives moved
      | client =>
          simp only [RcStore.carry, Option.some.injEq] at carried
          subst carried
          split
          · exact .read moved ‹_›
          · exact .other moved nofun (fun _ => ‹_›) nofun
      | sendDone =>
          simp only [RcStore.carry, Option.some.injEq] at carried
          subst carried
          exact .other moved nofun nofun nofun
      | server served =>
          cases served with
          | arrive | sendDone =>
              simp only [RcStore.carry, Option.some.injEq] at carried
              subst carried
              exact .other moved nofun nofun nofun
          | work thread =>
              obtain rfl : thread = 0 := Subsingleton.elim _ _
              simp only [RcStore.carry, RcStore.serve] at carried
              split at carried
              case h_1 place =>
                obtain ⟨store, started, same⟩ :=
                  Option.map_eq_some_iff.mp carried
                subst same
                exact .start moved place started
              case h_2 place =>
                obtain ⟨⟨request, response⟩, outcome, same⟩ :=
                  Option.map_eq_some_iff.mp carried
                subst same
                exact .returned moved place outcome
              case h_3 switching handling =>
                rw [Option.some.injEq] at carried
                subst carried
                exact .other moved nofun nofun fun _ _ slot turn =>
                  ⟨switching slot turn, handling slot turn⟩

theorem Method.Handled.stored {method : Method} (handled : method.Handled) :
    method.Stored :=
  handled.imp_right (Or.imp_right Or.inl)

theorem Phase.current_of_outcome {phase : Phase}
    {outcome : Request × Response} (finished : phase.outcome = some outcome) :
    phase.current = none := by
  cases phase <;> cases finished
  rfl

theorem Phase.handled_of_first {request : Request} {phase : Phase}
    (first : Phase.first request = some phase) : request.method.Handled := by
  unfold Phase.first at first
  split at first
  · exact .inl ‹_›
  · exact .inr (.inl ‹_›)
  · exact .inr (.inr ‹_›)
  · cases first

/-- The handler has not been called, or has returned. -/
def ServePhase.Outside (phase : ServePhase) : Prop :=
  ∀ slot turn, phase ≠ .handle slot turn

/-- Nothing that concerns the worker has changed. -/
structure RcStore.SameFor (before after : RcStore) (worker : WorkerId) :
    Prop where
  work : after.store.work.phase worker = before.store.work.phase worker
  session : after.session worker = before.session worker
  buffer : after.buffer worker = before.buffer worker
  inbox : after.inbox worker = before.inbox worker
  seen : after.seen worker = before.seen worker

/-- A step concerns one worker and its client. -/
theorem RcStoreSteps.frame {messages : WorkerId → Nat → Request}
    {before after : RcStore} {label : RcStoreLabel} {other : WorkerId}
    (steps : RcStoreSteps messages before label after)
    (distinct : other ≠ label.worker) : before.SameFor after other := by
  cases steps with
  | handler place stepTo =>
      obtain ⟨work, workStep, rfl⟩ := Option.map_eq_some_iff.mp stepTo
      obtain ⟨_, -, rfl⟩ := Option.map_eq_some_iff.mp workStep
      exact ⟨Function.update_of_ne distinct _ _, rfl, rfl, rfl, rfl⟩
  | start moved place stepTo =>
      obtain ⟨work, workStep, rfl⟩ := Option.map_eq_some_iff.mp stepTo
      obtain ⟨-, started⟩ := Option.ite_none_right_eq_some.mp workStep
      obtain ⟨phase, -, rfl⟩ := Option.map_eq_some_iff.mp started
      exact ⟨Function.update_of_ne distinct _ _,
        Function.update_of_ne distinct _ _,
        Function.update_of_ne distinct _ _, rfl, rfl⟩
  | returned =>
      exact ⟨rfl, Function.update_of_ne distinct _ _,
        Function.update_of_ne distinct _ _, rfl, rfl⟩
  | arrives =>
      exact ⟨rfl, Function.update_of_ne distinct _ _, rfl,
        Function.update_of_ne distinct _ _, rfl⟩
  | read =>
      exact ⟨rfl, Function.update_of_ne distinct _ _, rfl, rfl,
        Function.update_of_ne distinct _ _⟩
  | other =>
      exact ⟨rfl, Function.update_of_ne distinct _ _, rfl, rfl, rfl⟩

namespace RcStore

variable {messages : WorkerId → Nat → Request} {state before after : RcStore}
variable {worker : WorkerId} {session : RcSession}

theorem session_reachable (reached : (rcStore messages).Reachable state)
    (worker : WorkerId) :
    (rcSession (messages worker)).Reachable (state.session worker) := by
  induction reached with
  | start initial => exact .start (initial ▸ rfl)
  | @next before after label _ _ stepTo earlier =>
      have one {other : WorkerId} {label : RcLabel} {session : RcSession}
          (moved : (rcSession (messages other)).step (before.session other)
            label = some session) :
          (rcSession (messages worker)).Reachable
            (Function.update before.session other session worker) := by
        by_cases same : worker = other
        · subst same
          rw [Function.update_self]
          exact .next earlier trivial moved
        · rw [Function.update_of_ne same]
          exact earlier
      cases rcStore_steps stepTo with
      | handler => exact earlier
      | start moved | returned moved | arrives moved | read moved
      | other moved => exact one moved

/-- The workers by themselves are workers on one table, who take up requests
under the condition under which the loops do. -/
theorem store_reached {guard : RcStore → RcStoreLabel → Prop}
    {free : OrderedState → WorkerLabel → Prop}
    (starts : ∀ before worker thread slot (turn : Nat),
      guard before (.session worker (.server (.work thread))) →
        (before.session worker).server.phase 0 = .switch slot turn →
          free before.store
            (.start worker (before.request messages worker slot)))
    (advances : ∀ store worker stale, free store (.advance worker stale))
    (reached : (rcStore messages).GuardedReach guard state) :
    orderedWorkers.GuardedReach free state.store := by
  induction reached with
  | start initial => exact .start (initial ▸ rfl)
  | @next before _ _ _ guarded moved earlier =>
      cases rcStore_steps moved with
      | handler _ stepTo => exact .next earlier (advances _ _ _) stepTo
      | start _ place stepTo =>
          exact .next earlier (starts _ _ _ _ _ guarded place) stepTo
      | returned | arrives | read | other => exact earlier

theorem store_conflictFree
    (reached : (rcStore messages).GuardedReach
      (RcStore.ConflictFree messages) state) :
    orderedWorkers.GuardedReach RdmaKVStore.ConflictFree state.store :=
  store_reached (fun _ _ thread _ _ guarded place =>
      guarded _ _ (Subsingleton.elim 0 thread ▸ place))
    (fun _ _ _ => trivial) reached

theorem store_reachable (reached : (rcStore messages).Reachable state) :
    orderedWorkers.Reachable state.store :=
  store_reached (fun _ _ _ _ _ _ _ => trivial) (fun _ _ _ => trivial) reached

theorem session_balanced
    (handled : ∀ worker number, (messages worker number).method.Handled)
    (reached : (rcStore messages).Reachable state) (worker : WorkerId) :
    (state.session worker).Balanced :=
  RcSession.Balanced.of_reachable
    (fun number => (handled worker number).stored)
    (session_reachable reached worker)

theorem work_cases {thread : Fin 1}
    (moved : (rcSession (messages worker)).step (before.session worker)
      (.server (.work thread)) = some session) :
    ∃ ring next, session =
        { before.session worker with
          server :=
            { ring := ring
              phase := fun _ => next } } ∧
      Serves .rc (messages worker) thread (before.session worker).server.ring
        ((before.session worker).server.phase 0) ring next ∧
      (before.session worker).server.ring.advance .rc (messages worker) thread
        ((before.session worker).server.phase 0) = some (ring, next) := by
  rcases rcSession_step_cases moved with
    ⟨served, server, same, -, worked, rfl⟩ | ⟨none, -⟩ | ⟨none, -⟩ |
      ⟨_, none, -⟩
  · cases same
    obtain ⟨ring, next, advanced, rfl⟩ := serving_work worked
    obtain rfl : thread = 0 := Subsingleton.elim _ _
    refine ⟨ring, next, ?_, ServeRing.advance_serves advanced, advanced⟩
    congr
    funext other
    rw [Subsingleton.elim other 0, Function.update_self]
  all_goals cases none

theorem handle_of_start {thread : Fin 1} {slot turn : Nat}
    (moved : (rcSession (messages worker)).step (before.session worker)
      (.server (.work thread)) = some session)
    (place : (before.session worker).server.phase 0 = .switch slot turn)
    (handled : ((before.session worker).server.ring.request
      (messages worker) slot).method.Handled) :
    session = { before.session worker with
      server :=
        { ring := (before.session worker).server.ring
          phase := fun _ => .handle slot turn } } := by
  obtain ⟨ring, next, rfl, -, advanced⟩ := work_cases moved
  rw [place] at advanced
  simp only [ServeRing.advance, if_pos handled, Option.some.injEq,
    Prod.mk.injEq] at advanced
  obtain ⟨rfl, rfl⟩ := advanced
  rfl

theorem outside_of_moved {label : RcLabel}
    (moved : (rcSession (messages worker)).step (before.session worker)
      label = some session)
    (server : ∀ thread, label = .server (.work thread) →
      ((before.session worker).server.phase 0).Outside)
    (outside : (session.server.phase 0).Outside) :
    ((before.session worker).server.phase 0).Outside := by
  rcases rcSession_step_cases moved with
    ⟨served, next, rfl, -, worked, rfl⟩ | ⟨-, -, rfl⟩ | ⟨-, -, rfl⟩ |
      ⟨next, -, -, rfl⟩
  · rcases serving_step_cases worked with
      ⟨queue, -, -, rfl⟩ | ⟨-, -, rfl⟩ | ⟨thread, ring, phase, rfl, -, rfl⟩
    · exact outside
    · exact outside
    · exact server thread rfl
  all_goals exact outside

/-- The requests in progress are the client's, and there is one only while the
worker's loop is in the handler. -/
structure Theirs (messages : WorkerId → Nat → Request) (state : RcStore)
    (worker : WorkerId) : Prop where
  own : ∀ request, (state.store.work.phase worker).current = some request →
    ∃ number, request = messages worker number
  outside : ((state.session worker).server.phase 0).Outside →
    (state.store.work.phase worker).current = none

theorem Theirs.of_same (theirs : Theirs messages before worker)
    (work : after.store.work.phase worker = before.store.work.phase worker)
    (outside : ((after.session worker).server.phase 0).Outside →
      ((before.session worker).server.phase 0).Outside ∨
        (before.store.work.phase worker).current = none) :
    Theirs messages after worker where
  own := by rw [work]; exact theirs.own
  outside away := by
    rw [work]
    exact (outside away).elim theirs.outside id

theorem Theirs.step {label : RcStoreLabel}
    (handled : ∀ worker number, (messages worker number).method.Handled)
    (reached : (rcStore messages).Reachable before)
    (stepTo : (rcStore messages).step before label = some after)
    (theirs : ∀ worker, Theirs messages before worker) (worker : WorkerId) :
    Theirs messages after worker := by
  have steps := rcStore_steps stepTo
  by_cases own : worker = label.worker
  · subst own
    cases steps with
    | handler place advanced =>
        obtain ⟨work, workStep, rfl⟩ := Option.map_eq_some_iff.mp advanced
        obtain ⟨⟨table, next⟩, moved, rfl⟩ :=
          Option.map_eq_some_iff.mp workStep
        refine ⟨fun request inProgress => ?_,
          fun away => absurd place (away _ _)⟩
        simp only [RcStoreLabel.worker, Function.update_self] at inProgress
        rcases (advance_advances moved).current with none | kept
        · rw [none] at inProgress
          cases inProgress
        · exact (theirs _).own request (kept ▸ inProgress)
    | @start worker thread session store slot turn moved place started =>
        have request : before.request messages worker slot =
            messages worker turn :=
          (session_balanced handled reached worker).request_of_pointer
            (by rw [place]; rfl)
        obtain ⟨work, workStep, rfl⟩ := Option.map_eq_some_iff.mp started
        obtain ⟨-, begun⟩ := Option.ite_none_right_eq_some.mp workStep
        obtain ⟨phase, first, rfl⟩ := Option.map_eq_some_iff.mp begun
        obtain rfl :=
          handle_of_start moved place (Phase.handled_of_first first)
        refine ⟨fun other inProgress => ⟨turn, ?_⟩, fun away => ?_⟩ <;>
          simp only [RcStoreLabel.worker, Function.update_self] at *
        · rw [Phase.current_of_first first] at inProgress
          rw [← Option.some.inj inProgress, request]
        · exact absurd rfl (away slot turn)
    | returned moved place outcome =>
        refine (theirs _).of_same rfl fun _ => .inr ?_
        exact Phase.current_of_outcome outcome
    | arrives moved =>
        refine (theirs _).of_same rfl fun away => .inl ?_
        simp only [RcStoreLabel.worker, Function.update_self] at away
        exact outside_of_moved moved nofun away
    | read moved place =>
        refine (theirs _).of_same rfl fun away => .inl ?_
        simp only [RcStoreLabel.worker, Function.update_self] at away
        exact outside_of_moved moved nofun away
    | other moved arrives client server =>
        refine (theirs _).of_same rfl fun away => .inl ?_
        simp only [RcStoreLabel.worker, Function.update_self] at away
        exact outside_of_moved moved
          (fun thread same slot turn => (server thread same slot turn).2) away
  · have frame := steps.frame own
    refine (theirs worker).of_same frame.work fun away => .inl ?_
    rwa [frame.session] at away

theorem Theirs.of_reachable
    (handled : ∀ worker number, (messages worker number).method.Handled)
    (reached : (rcStore messages).Reachable state) (worker : WorkerId) :
    Theirs messages state worker := by
  induction reached generalizing worker with
  | start initial =>
      obtain rfl := initial
      refine ⟨fun request none => ?_, fun _ => rfl⟩
      cases none
  | next earlier _ stepTo ih =>
      exact Theirs.step handled earlier stepTo ih worker

def OnlyClients (clients : Finset WorkerId) (_ : RcStore)
    (label : RcStoreLabel) : Prop :=
  label.worker ∈ clients

instance (clients : Finset WorkerId) (state : RcStore) (label : RcStoreLabel) :
    Decidable (OnlyClients clients state label) :=
  inferInstanceAs (Decidable (_ ∈ _))

theorem initial_sameFor {clients : Finset WorkerId}
    (reached : (rcStore messages).GuardedReach (OnlyClients clients) state)
    (absent : worker ∉ clients) : RcStore.initial.SameFor state worker := by
  induction reached with
  | start initial =>
      obtain rfl := initial
      exact ⟨rfl, rfl, rfl, rfl, rfl⟩
  | @next before after _ _ guarded stepTo ih =>
      have same : before.SameFor after worker :=
        (rcStore_steps stepTo).frame fun own => absent (own ▸ guarded)
      exact ⟨same.work.trans ih.work, same.session.trans ih.session,
        same.buffer.trans ih.buffer, same.inbox.trans ih.inbox,
        same.seen.trans ih.seen⟩

/-- What is known while only these clients are there. -/
structure Attended (messages : WorkerId → Nat → Request)
    (clients : Finset WorkerId) (state : RcStore) : Prop where
  theirs : ∀ worker, Theirs messages state worker
  balanced : ∀ worker, (state.session worker).Balanced
  absent : ∀ worker, worker ∉ clients →
    RcStore.initial.SameFor state worker

/-- The keys of different clients have nothing to do with each other, and where
one of them deletes from a bucket no other one reads. -/
structure KeysApart (messages : WorkerId → Nat → Request)
    (clients : Finset WorkerId) : Prop where
  handled : ∀ worker number, (messages worker number).method.Handled
  wellFormed : ∀ worker ∈ clients, ∀ number,
    (messages worker number).KeyWellFormed
  unrelated : ∀ worker ∈ clients, ∀ other ∈ clients, worker ≠ other →
    ∀ number number',
      ¬ (messages worker number).Related (messages other number')
  unwalked : ∀ worker ∈ clients, ∀ other ∈ clients, worker ≠ other →
    ∀ number number',
      ¬ (messages worker number).WalksDuringRemoval (messages other number')

/-- Requests of clients with keys apart do not conflict. -/
theorem KeysApart.conflictFree {clients : Finset WorkerId}
    (apart : KeysApart messages clients)
    (reached : (rcStore messages).GuardedReach (OnlyClients clients) state) :
    (rcStore messages).GuardedReach (RcStore.ConflictFree messages) state := by
  have attended (state : RcStore)
      (earlier : (rcStore messages).GuardedReach (OnlyClients clients)
        state) : Attended messages clients state :=
    ⟨.of_reachable apart.handled earlier.reachable,
      session_balanced apart.handled earlier.reachable,
      fun _ => initial_sameFor earlier⟩
  refine reached.of_invariant attended fun state label known present => ?_
  cases label with
  | handler => trivial
  | session worker label =>
      cases label with
      | responseArrives | sendDone | client => trivial
      | server served =>
          cases served with
          | arrive | sendDone => trivial
          | work thread =>
              obtain rfl : thread = 0 := Subsingleton.elim _ _
              intro slot turn place
              have request : state.request messages worker slot =
                  messages worker turn :=
                (known.balanced worker).request_of_pointer (by rw [place]; rfl)
              refine ⟨request ▸ apart.wellFormed worker present turn,
                fun other current inProgress conflicts => ?_⟩
              obtain ⟨number, rfl⟩ :=
                (known.theirs other).own current inProgress
              by_cases same : worker = other
              · subst same
                have idle := (known.theirs worker).outside
                  fun _ _ handling => by rw [place] at handling; cases handling
                rw [idle] at inProgress
                cases inProgress
              by_cases client : other ∈ clients
              · rw [request] at conflicts
                rcases conflicts with conflicts | walks
                · exact apart.unrelated worker present other client same turn
                    number conflicts.1
                · exact apart.unwalked worker present other client same turn
                    number walks
              · rw [(known.absent other client).work] at inProgress
                cases inProgress

end RcStore

end RdmaKVStore
