import RdmaKVStore.RcStore

/-!
# Clients read the answers of one store

A response is posted when its request has been answered, its buffer is not
written before the response has arrived, and a client reads its buffer when
just that response is in it.  So what the clients read over RC are the answers
of a store that executes all their requests one after another.
-/

namespace RdmaKVStore

open HashTable

def answersOf (worker : WorkerId)
    (answered : List ((WorkerId × Request) × Response)) :
    List (Request × Response) :=
  (answered.filter fun turn => turn.1.1 = worker).map
    fun turn => (turn.1.2, turn.2)

section Answers

variable {worker : WorkerId}
variable {answered : List ((WorkerId × Request) × Response)}

theorem latestAnswer_eq_getLast? :
    latestAnswer worker answered = (answersOf worker answered).getLast? := by
  rw [latestAnswer, answersOf, List.getLast?_map,
    List.getLast?_eq_head?_reverse, ← List.filter_reverse, List.head?_filter]

theorem answersOf_append (worker : WorkerId)
    (answered : List ((WorkerId × Request) × Response))
    (turn : WorkerId × Request) (response : Response) :
    answersOf worker (answered ++ [(turn, response)]) =
      answersOf worker answered ++
        if turn.1 = worker then [(turn.2, response)] else [] := by
  by_cases same : turn.1 = worker <;> simp [answersOf, same]

end Answers

/-- The answers that the requests of a worker get when all requests are
executed one after another. -/
def OrderedState.answers (state : OrderedState) (worker : WorkerId) :
    List (Request × Response) :=
  answersOf worker (state.turns.zip
    ((executeAll empty state.turns).elim [] Prod.snd))

def Phase.unanswered : Phase → Nat
  | .setLockBucket _ | .setFindEntry _ | .getSearch _ | .delLockBucket _
  | .delSearch _ => 1
  | _ => 0

theorem Phase.unanswered_le (phase : Phase) : phase.unanswered ≤ 1 := by
  cases phase <;> simp [unanswered]

theorem Phase.unanswered_of_first {request : Request} {phase : Phase}
    (first : Phase.first request = some phase) : phase.unanswered = 1 := by
  rcases Phase.first_eq first with rfl | rfl | rfl <;> rfl

theorem Phase.current_of_unanswered {phase : Phase}
    (waits : phase.unanswered = 1) : phase.current ≠ none := by
  cases phase <;> simp [unanswered, current] at waits ⊢

theorem Phase.unanswered_of_outcome {phase : Phase}
    {outcome : Request × Response} (finished : phase.outcome = some outcome) :
    phase.unanswered = 0 := by
  cases phase <;> cases finished
  rfl

/-- A lookup settles the answer of a request. -/
theorem Advances.unanswered {ht after : HashTable} {worker : WorkerId}
    {stale : HashItem} {before next : Phase}
    (advances : Advances ht worker stale before after next) :
    before.unanswered =
      next.unanswered + if before.lookup.isSome then 1 else 0 := by
  cases advances <;> rfl

namespace OrderedState

variable {state before after : OrderedState} {worker : WorkerId}

theorem answers_eq {ht : HashTable} {responses : List Response}
    (executed : executeAll empty state.turns = some (ht, responses))
    (worker : WorkerId) :
    state.answers worker = answersOf worker (state.turns.zip responses) := by
  rw [answers, executed]
  rfl

/-- A lookup appends the answer of the request, and no other step of a worker
adds to the answers. -/
theorem answers_advance {stale : HashItem}
    (reached : orderedWorkers.GuardedReach ConflictFree before)
    (stepTo : orderedWorkers.step before (.advance worker stale) =
      some after) :
    (before.work.phase worker).lookup = none ∧
        after.answers = before.answers ∨
      ∃ request response,
        (before.work.phase worker).lookup = some request ∧
          after.answers = Function.update before.answers worker
            (before.answers worker ++ [(request, response)]) := by
  have free : ConflictFree before (.advance worker stale) := trivial
  obtain ⟨ht, responses, sequential⟩ := sequential_of_reached reached
  obtain ⟨ht', responses', later⟩ :=
    sequential_of_reached (.next reached free stepTo)
  obtain ⟨work, -, rfl⟩ := Option.map_eq_some_iff.mp stepTo
  cases lookup : (before.work.phase worker).lookup with
  | none =>
      refine .inl ⟨rfl, ?_⟩
      unfold answers
      simp only [WorkerState.lookups, lookup, Option.map_none,
        Option.toList_none, List.append_nil]
  | some request =>
      have executed := later.executed
      simp only [WorkerState.lookups, lookup, Option.map_some,
        Option.toList_some] at executed
      rw [executeAll_append, sequential.executed, Option.bind_some]
        at executed
      obtain ⟨⟨table, more⟩, one, same⟩ := Option.map_eq_some_iff.mp executed
      obtain ⟨response, rfl⟩ : ∃ response, more = [response] := by
        obtain ⟨⟨_, response⟩, -, rest⟩ := Option.bind_eq_some_iff.mp one
        cases rest
        exact ⟨response, rfl⟩
      refine .inr ⟨request, response, rfl, funext fun other => ?_⟩
      rw [answers_eq later.executed, ← (Prod.mk.inj same).2]
      simp only [WorkerState.lookups, lookup, Option.map_some,
        Option.toList_some]
      rw [List.zip_append sequential.length.symm, List.zip_cons_cons,
        List.zip_nil_right, answersOf_append,
        ← answers_eq sequential.executed]
      by_cases own : other = worker
      · subst own
        rw [Function.update_self, if_pos rfl]
      · rw [Function.update_of_ne own, if_neg (Ne.symm own), List.append_nil]

theorem answers_start {request : Request}
    (stepTo : orderedWorkers.step before (.start worker request) =
      some after) : after.answers = before.answers := by
  obtain ⟨work, -, rfl⟩ := Option.map_eq_some_iff.mp stepTo
  unfold answers
  simp only [WorkerState.lookups, List.append_nil]

theorem answers_of_outcome {request : Request} {response : Response}
    (reached : orderedWorkers.GuardedReach ConflictFree state)
    (outcome : (state.work.phase worker).outcome = some (request, response)) :
    (state.answers worker).getLast? = some (request, response) := by
  obtain ⟨ht, responses, sequential⟩ := sequential_of_reached reached
  rw [answers_eq sequential.executed, ← latestAnswer_eq_getLast?]
  exact sequential.finished_answered worker request response outcome

end OrderedState

/-- How many of the turns that the worker has begun still wait for an
answer. -/
def ServePhase.owed (work : Phase) : ServePhase → Nat
  | .dispatch _ _ | .dispatchWait _ _ | .check _ _ | .switch _ _ => 1
  | .handle _ _ => work.unanswered
  | .prepare | .receive | .current | .exitWait | .respond | .respondWait
  | .ended => 0

/-- A connection passes the answers of its worker's requests on: the worker has
an answer for each turn that does not wait for one, outside the handler the
response buffer holds the last one, and the client has the one that has arrived
last and has read the others. -/
structure RcStore.Delivers (messages : WorkerId → Nat → Request)
    (state : RcStore) (worker : WorkerId) : Prop where
  asked : (state.store.answers worker).map Prod.fst =
    (List.range (state.store.answers worker).length).map (messages worker)
  count : (state.store.answers worker).length +
      ((state.session worker).server.phase 0).owed
        (state.store.work.phase worker) =
    (state.session worker).server.ring.begun
  current : (state.store.work.phase worker).unanswered = 1 →
    (state.store.work.phase worker).current =
      some (messages worker (state.store.answers worker).length)
  buffer : ((state.session worker).server.phase 0).Outside →
    ∀ answer, (state.store.answers worker).getLast? = some answer →
      state.buffer worker = answer.2
  inbox : ∀ index answer, (state.session worker).client.arrived = index + 1 →
    (state.store.answers worker)[index]? = some answer →
      state.inbox worker = answer.2
  seen : state.seen worker =
    ((state.store.answers worker).map Prod.snd).take
      (state.session worker).client.received

theorem Answered.sent_add_owed_le {ring : ServeRing (Fin 1)}
    {phase : ServePhase} (answered : Answered ring phase) (work : Phase) :
    ring.sent + phase.owed work ≤ ring.begun := by
  have bounds := answered.begun_bounds
  cases phase with
  | dispatch | check | switch =>
      obtain ⟨begun, sent⟩ := answered
      simp only [ServePhase.owed]
      omega
  | handle =>
      obtain ⟨begun, sent⟩ := answered
      have bound := work.unanswered_le
      simp only [ServePhase.owed]
      omega
  | dispatchWait => exact answered.elim
  | _ => exact bounds.1

/-- In the handler the response has not been posted. -/
theorem Answered.outside {ring : ServeRing (Fin 1)} {phase : ServePhase}
    (answered : Answered ring phase) (posted : ring.sent = ring.begun) :
    phase.Outside := by
  rintro slot turn rfl
  obtain ⟨begun, sent⟩ := answered
  omega

/-- Outside `switch` and the handler the worker's loop owes an answer for each
turn that it begins. -/
theorem Serves.owed_other {messages : Nat → Request} {thread : Fin 1}
    {ring after : ServeRing (Fin 1)} {before next : ServePhase}
    (serves : Serves .rc messages thread ring before after next)
    (work : Phase) (earlier : Answered ring before)
    (answered : Answered after next)
    (switching : ∀ slot turn, before ≠ .switch slot turn)
    (handling : before.Outside) :
    next.owed work + ring.begun = before.owed work + after.begun := by
  cases serves with
  | handler | other => exact absurd rfl (switching _ _)
  | handled => exact absurd rfl (handling _ _)
  | answer | exit => exact answered.elim
  | crash =>
      obtain ⟨begun, sent⟩ := earlier
      have same : ring.begun = ring.sent := answered
      omega
  | current =>
      simp only [ServePhase.owed, ServeRing.beginTurn]
      omega
  | _ => rfl

namespace RcStore

variable {messages : WorkerId → Nat → Request} {before after : RcStore}
variable {worker : WorkerId} {session : RcSession}

theorem Delivers.initial : Delivers messages .initial worker where
  asked := rfl
  count := rfl
  current := nofun
  buffer _ _ none := by cases none
  inbox _ _ none := by cases none
  seen := rfl

theorem Delivers.of_same (delivers : Delivers messages before worker)
    (same : before.SameFor after worker)
    (answers : after.store.answers worker = before.store.answers worker) :
    Delivers messages after worker where
  asked := by rw [answers]; exact delivers.asked
  count := by rw [answers, same.session, same.work]; exact delivers.count
  current := by rw [answers, same.work]; exact delivers.current
  buffer := by rw [answers, same.session, same.buffer]; exact delivers.buffer
  inbox := by rw [answers, same.session, same.inbox]; exact delivers.inbox
  seen := by rw [answers, same.session, same.seen]; exact delivers.seen

/-- A response that has been posted and has not arrived is the last answer, and
it is in the buffer. -/
theorem Delivers.posted (delivers : Delivers messages before worker)
    (balanced : (before.session worker).Balanced)
    (posted : (before.session worker).client.received <
      (before.session worker).server.ring.sent) :
    (before.store.answers worker).length =
        (before.session worker).client.received + 1 ∧
      (before.session worker).server.ring.sent =
        (before.session worker).client.received + 1 ∧
      ((before.session worker).server.phase 0).Outside := by
  have answered := balanced.one.answered 0
  have bounds := answered.begun_bounds
  have begun := balanced.counted.begun
  have received := balanced.counted.received
  have requests := balanced.paired.requests
  have client := balanced.paired.client.bounds
  have count := delivers.count
  have owed := answered.sent_add_owed_le (before.store.work.phase worker)
  exact ⟨by omega, by omega, answered.outside (by omega)⟩

/-- A worker advances in its request. -/
theorem Delivers.handler {store : OrderedState} {stale : HashItem}
    {slot turn : Nat} (delivers : Delivers messages before worker)
    (balanced : (before.session worker).Balanced)
    (reached : orderedWorkers.GuardedReach RdmaKVStore.ConflictFree
      before.store)
    (place : (before.session worker).server.phase 0 = .handle slot turn)
    (stepTo : orderedWorkers.step before.store (.advance worker stale) =
      some store) :
    Delivers messages { before with store := store } worker := by
  have answers := OrderedState.answers_advance reached stepTo
  obtain ⟨work, workStep, rfl⟩ := Option.map_eq_some_iff.mp stepTo
  obtain ⟨⟨table, next⟩, advanced, rfl⟩ := Option.map_eq_some_iff.mp workStep
  have advances := advance_advances advanced
  have unanswered := advances.unanswered
  have count := delivers.count
  simp only [place, ServePhase.owed] at count
  rcases answers with ⟨lookup, same⟩ | ⟨request, response, lookup, same⟩
  · rw [lookup] at unanswered
    refine ⟨?_, ?_, fun waits => ?_, ?_, ?_, ?_⟩ <;> simp only [same]
    · exact delivers.asked
    · simp only [place, ServePhase.owed, Function.update_self]
      rw [← count, unanswered]
      rfl
    · simp only [Function.update_self] at waits ⊢
      have current := delivers.current (unanswered.trans waits)
      rcases advances.current with finished | kept
      · exact absurd finished (Phase.current_of_unanswered waits)
      · exact kept.trans current
    · exact delivers.buffer
    · exact delivers.inbox
    · exact delivers.seen
  · rw [lookup, Option.isSome_some, if_pos rfl] at unanswered
    have waits : (before.store.work.phase worker).unanswered = 1 := by
      have bound := (before.store.work.phase worker).unanswered_le
      omega
    have settled : next.unanswered = 0 := by omega
    obtain rfl : request = messages worker
        (before.store.answers worker).length :=
      Option.some.inj ((Phase.current_of_lookup lookup).symm.trans
        (delivers.current waits))
    have answered := balanced.one.answered 0
    rw [place] at answered
    obtain ⟨begun, sent⟩ := answered
    have responses := balanced.paired.responses
    have received := balanced.paired.client.received
    refine ⟨?_, ?_, fun waits => ?_, fun outside => ?_, ?_, ?_⟩ <;>
      simp only [same, Function.update_self]
    · rw [List.map_append, delivers.asked, List.length_append,
        List.length_singleton, List.range_succ, List.map_append]
      rfl
    · simp only [place, ServePhase.owed, List.length_append,
        List.length_singleton, settled]
      omega
    · simp only [Function.update_self, settled] at waits
      cases waits
    · exact absurd place (outside slot turn)
    · intro index answer arrived at_
      rw [List.getElem?_append_left (by omega)] at at_
      exact delivers.inbox index answer arrived at_
    · rw [List.map_append, List.take_append_of_le_length
        (by rw [List.length_map]; omega)]
      exact delivers.seen

/-- A worker takes up the request of its turn. -/
theorem Delivers.start {store : OrderedState} {thread : Fin 1}
    {slot turn : Nat} {buffer : WorkerId → Response}
    (delivers : Delivers messages before worker)
    (balanced : (before.session worker).Balanced)
    (moved : (rcSession (messages worker)).step (before.session worker)
      (.server (.work thread)) = some session)
    (place : (before.session worker).server.phase 0 = .switch slot turn)
    (stepTo : orderedWorkers.step before.store
      (.start worker (before.request messages worker slot)) = some store) :
    Delivers messages
      { before with
        store := store
        session := Function.update before.session worker session
        buffer := buffer } worker := by
  have answers := OrderedState.answers_start stepTo
  have request : before.request messages worker slot =
      messages worker turn :=
    balanced.request_of_pointer (by rw [place]; rfl)
  have answered := balanced.one.answered 0
  rw [place] at answered
  obtain ⟨begun, -⟩ := answered
  have count := delivers.count
  simp only [place, ServePhase.owed] at count
  obtain ⟨work, workStep, rfl⟩ := Option.map_eq_some_iff.mp stepTo
  obtain ⟨-, started⟩ := Option.ite_none_right_eq_some.mp workStep
  obtain ⟨phase, first, rfl⟩ := Option.map_eq_some_iff.mp started
  obtain rfl := handle_of_start moved place (Phase.handled_of_first first)
  refine ⟨?_, ?_, fun _ => ?_, fun outside => ?_, ?_, ?_⟩ <;>
    simp only [answers, Function.update_self]
  · exact delivers.asked
  · simp only [ServePhase.owed, Phase.unanswered_of_first first]
    exact count
  · rw [Phase.current_of_first first, request]
    congr
    omega
  · simp only [Function.update_self] at outside
    exact absurd rfl (outside slot turn)
  · exact delivers.inbox
  · exact delivers.seen

/-- The handler has returned. -/
theorem Delivers.returned {thread : Fin 1} {slot turn : Nat}
    {request : Request} {response : Response}
    (delivers : Delivers messages before worker)
    (reached : orderedWorkers.GuardedReach RdmaKVStore.ConflictFree
      before.store)
    (moved : (rcSession (messages worker)).step (before.session worker)
      (.server (.work thread)) = some session)
    (place : (before.session worker).server.phase 0 = .handle slot turn)
    (outcome : (before.store.work.phase worker).outcome =
      some (request, response)) :
    Delivers messages
      { before with
        session := Function.update before.session worker session
        buffer := Function.update before.buffer worker response } worker := by
  obtain ⟨ring, next, rfl, -, advanced⟩ := work_cases moved
  rw [place] at advanced
  cases advanced
  have count := delivers.count
  simp only [place, ServePhase.owed, Phase.unanswered_of_outcome outcome]
    at count
  refine ⟨delivers.asked, ?_, delivers.current, fun _ answer last => ?_, ?_,
    ?_⟩ <;> simp only [Function.update_self]
  · exact count
  · rw [OrderedState.answers_of_outcome reached outcome] at last
    cases last
    rfl
  · exact delivers.inbox
  · exact delivers.seen

/-- A response arrives. -/
theorem Delivers.arrives (delivers : Delivers messages before worker)
    (balanced : (before.session worker).Balanced)
    (moved : (rcSession (messages worker)).step (before.session worker)
      .responseArrives = some session) :
    Delivers messages
      { before with
        session := Function.update before.session worker session
        inbox := Function.update before.inbox worker (before.buffer worker) }
      worker := by
  obtain ⟨⟨sent, -⟩, same⟩ := Option.ite_none_right_eq_some.mp moved
  cases same
  have received := balanced.paired.client.received
  obtain ⟨length, posted, outside⟩ := delivers.posted balanced (by omega)
  refine ⟨delivers.asked, ?_, delivers.current, fun _ => ?_,
    fun index answer arrived at_ => ?_, ?_⟩ <;>
    simp only [Function.update_self]
  · exact delivers.count
  · exact delivers.buffer outside
  · simp only [Function.update_self] at arrived
    refine delivers.buffer outside answer ?_
    rw [List.getLast?_eq_getElem?, ← at_]
    congr 1
    omega
  · exact delivers.seen

/-- The client reads a response. -/
theorem Delivers.read (delivers : Delivers messages before worker)
    (balanced : (before.session worker).Balanced)
    (moved : (rcSession (messages worker)).step (before.session worker)
      .client = some session)
    (place : (before.session worker).client.phase = .receiveWait) :
    Delivers messages
      { before with
        session := Function.update before.session worker session
        seen := Function.update before.seen worker
          (before.seen worker ++ [before.inbox worker]) } worker := by
  obtain ⟨client, advanced, rfl⟩ := Option.map_eq_some_iff.mp moved
  have later := (balanced.paired.client.advance advanced).received
  simp only [RcClient.advance, place] at advanced
  obtain ⟨-, same⟩ := Option.ite_none_right_eq_some.mp advanced
  cases same
  have responses := balanced.paired.responses
  simp only at later
  obtain ⟨length, posted, outside⟩ := delivers.posted balanced (by omega)
  refine ⟨delivers.asked, ?_, delivers.current, ?_, ?_, ?_⟩ <;>
    simp only [Function.update_self]
  · exact delivers.count
  · exact delivers.buffer
  · exact delivers.inbox
  · have inside : (before.session worker).client.received <
        (before.store.answers worker).length := by omega
    have inbox := delivers.inbox _ _ (by omega)
      (List.getElem?_eq_getElem inside)
    rw [delivers.seen, inbox, List.take_add_one, List.getElem?_map,
      List.getElem?_eq_getElem inside]
    rfl

theorem Delivers.of_session (delivers : Delivers messages before worker)
    (count : (session.server.phase 0).owed (before.store.work.phase worker) +
        (before.session worker).server.ring.begun =
      ((before.session worker).server.phase 0).owed
          (before.store.work.phase worker) +
        session.server.ring.begun)
    (outside : (session.server.phase 0).Outside →
      ((before.session worker).server.phase 0).Outside)
    (arrived : session.client.arrived =
      (before.session worker).client.arrived)
    (received : session.client.received =
      (before.session worker).client.received) :
    Delivers messages
      { before with
        session := Function.update before.session worker session }
      worker := by
  have own := delivers.count
  refine ⟨delivers.asked, ?_, delivers.current, ?_, ?_, ?_⟩ <;>
    simp only [Function.update_self]
  · omega
  · exact fun away => delivers.buffer (outside away)
  · rw [arrived]
    exact delivers.inbox
  · rw [received]
    exact delivers.seen

/-- All other steps of a connection leave the responses where they are. -/
theorem Delivers.other {label : RcLabel}
    (delivers : Delivers messages before worker)
    (balanced : (before.session worker).Balanced)
    (later : session.Balanced)
    (moved : (rcSession (messages worker)).step (before.session worker)
      label = some session)
    (arrives : label ≠ .responseArrives)
    (client : label = .client →
      (before.session worker).client.phase ≠ .receiveWait)
    (server : ∀ thread, label = .server (.work thread) →
      ∀ slot turn, (before.session worker).server.phase 0 ≠
          .switch slot turn ∧
        (before.session worker).server.phase 0 ≠ .handle slot turn) :
    Delivers messages
      { before with
        session := Function.update before.session worker session }
      worker := by
  rcases rcSession_step_cases moved with
    ⟨served, next, rfl, -, worked, rfl⟩ | ⟨same, -⟩ | ⟨-, -, rfl⟩ |
      ⟨next, rfl, advanced, rfl⟩
  · rcases serving_step_cases worked with
      ⟨queue, rfl, delivered, rfl⟩ | ⟨rfl, -, rfl⟩ |
        ⟨thread, ring, phase, rfl, serves, rfl⟩
    · exact delivers.of_session rfl id rfl rfl
    · exact delivers.of_session rfl id rfl rfl
    · obtain rfl : thread = 0 := Subsingleton.elim _ _
      have answered := later.one.answered 0
      simp only [Function.update_self] at answered
      have outside : ((before.session worker).server.phase 0).Outside :=
        fun slot turn => (server 0 rfl slot turn).2
      refine delivers.of_session ?_ (fun _ => outside) rfl rfl
      simp only [Function.update_self]
      exact serves.owed_other (before.store.work.phase worker)
        (balanced.one.answered 0) answered
        (fun slot turn => (server 0 rfl slot turn).1) outside
  · exact absurd same arrives
  · exact delivers.of_session rfl id rfl rfl
  · have same := client rfl
    refine delivers.of_session rfl id (RcClient.advance_frame advanced).1 ?_
    cases phase : (before.session worker).client.phase with
    | send | post =>
        simp only [RcClient.advance, phase, Option.some.injEq] at advanced
        subst advanced
        rfl
    | sendWait =>
        simp only [RcClient.advance, phase] at advanced
        obtain ⟨-, same⟩ := Option.ite_none_right_eq_some.mp advanced
        cases same
        rfl
    | receiveWait => exact absurd phase same

/-- A step of one connection or worker does not concern the others. -/
theorem Delivers.frame {label : RcStoreLabel} {other : WorkerId}
    (delivers : Delivers messages before other)
    (stored : orderedWorkers.GuardedReach RdmaKVStore.ConflictFree
      before.store)
    (steps : RcStoreSteps messages before label after)
    (distinct : other ≠ label.worker) : Delivers messages after other := by
  refine delivers.of_same (steps.frame distinct) ?_
  cases steps with
  | handler place stepTo =>
      rcases OrderedState.answers_advance stored stepTo with
        ⟨-, same⟩ | ⟨_, _, -, same⟩
      · exact congrFun same other
      · exact (congrFun same other).trans (Function.update_of_ne distinct _ _)
  | start moved place stepTo =>
      exact congrFun (OrderedState.answers_start stepTo) other
  | returned | arrives | read | other => rfl

theorem Delivers.step {label : RcStoreLabel}
    (handled : ∀ worker number, (messages worker number).method.Handled)
    (reached : (rcStore messages).GuardedReach (RcStore.ConflictFree messages)
      before)
    (stepTo : (rcStore messages).step before label = some after)
    (delivers : ∀ worker, Delivers messages before worker)
    (worker : WorkerId) : Delivers messages after worker := by
  have balanced := session_balanced handled reached.reachable worker
  have later := session_balanced handled
    (.next reached.reachable trivial stepTo) worker
  have stored := store_conflictFree reached
  have steps := rcStore_steps stepTo
  by_cases own : worker = label.worker
  · subst own
    cases steps with
    | handler place advanced =>
        exact (delivers _).handler balanced stored place advanced
    | start moved place started =>
        exact (delivers _).start balanced moved place started
    | returned moved place outcome =>
        exact (delivers _).returned stored moved place outcome
    | arrives moved => exact (delivers _).arrives balanced moved
    | read moved place => exact (delivers _).read balanced moved place
    | other moved arrives client server =>
        simp only [RcStoreLabel.worker, Function.update_self] at later
        exact (delivers _).other balanced later moved arrives client server
  · exact (delivers worker).frame stored steps own

theorem Delivers.of_reached
    (handled : ∀ worker number, (messages worker number).method.Handled)
    (reached : (rcStore messages).GuardedReach (RcStore.ConflictFree messages)
      before) (worker : WorkerId) : Delivers messages before worker := by
  induction reached generalizing worker with
  | start initial => exact initial ▸ .initial
  | next earlier _ stepTo ih =>
      exact Delivers.step handled earlier stepTo ih worker

/-- The client has read only answers, and only requests that it has sent are
answered. -/
theorem Delivers.bounds (delivers : Delivers messages before worker)
    (balanced : (before.session worker).Balanced) :
    (before.session worker).client.received ≤
        (before.store.answers worker).length ∧
      (before.store.answers worker).length ≤
        (before.session worker).client.sent := by
  have count := delivers.count
  have owed := (balanced.one.answered 0).sent_add_owed_le
    (before.store.work.phase worker)
  have begun := balanced.counted.begun
  have arrived := balanced.counted.received
  have requests := balanced.paired.requests
  have received := balanced.paired.client.received
  have responses := balanced.paired.responses
  omega

end RcStore

/-- What the clients of a server over RC read are the answers that their
requests get when the requests of all clients are executed one after another,
as long as no two requests in progress conflict: those of each client in the
order in which it sends them, each between its sending and the reading of its
response. -/
theorem rcStore_answered_in_order (messages : WorkerId → Nat → Request)
    (handled : ∀ worker number, (messages worker number).method.Handled)
    {state : RcStore}
    (reached : (rcStore messages).GuardedReach (RcStore.ConflictFree messages)
      state) :
    ∃ ht responses,
      executeAll empty state.store.turns = some (ht, responses) ∧
        responses.length = state.store.turns.length ∧
        ∀ worker, ∃ answers,
          answers = answersOf worker (state.store.turns.zip responses) ∧
          answers.map Prod.fst =
            (List.range answers.length).map (messages worker) ∧
          state.seen worker = (answers.map Prod.snd).take
            (state.session worker).client.received ∧
          (state.session worker).client.received ≤ answers.length ∧
          answers.length ≤ (state.session worker).client.sent := by
  obtain ⟨ht, responses, sequential⟩ :=
    sequential_of_reached (RcStore.store_conflictFree reached)
  refine ⟨ht, responses, sequential.executed, sequential.length,
    fun worker => ?_⟩
  have delivers := RcStore.Delivers.of_reached handled reached worker
  exact ⟨_, OrderedState.answers_eq sequential.executed worker,
    delivers.asked, delivers.seen, delivers.bounds
      (RcStore.session_balanced handled reached.reachable worker)⟩

/-- One client sets a key and another one reads its own. -/
def twoClientMessages (worker : WorkerId) (_ : Nat) : Request :=
  if worker = 0 then .make .set [121] [1] else .make .get [122] []

theorem twoClientMessages_apart :
    RcStore.KeysApart twoClientMessages {0, 1} where
  handled worker number := by
    unfold twoClientMessages
    split <;> decide
  wellFormed worker _ number := by
    unfold twoClientMessages
    split <;> decide
  unrelated worker isClient other isClient' distinct _ _ := by
    have unrelated : ∀ worker ∈ ({0, 1} : Finset WorkerId),
        ∀ other ∈ ({0, 1} : Finset WorkerId), worker ≠ other →
          ¬ (twoClientMessages worker 0).Related
            (twoClientMessages other 0) := by decide +kernel
    exact unrelated worker isClient other isClient' distinct
  unwalked worker isClient other isClient' distinct _ _ := by
    have unwalked : ∀ worker ∈ ({0, 1} : Finset WorkerId),
        ∀ other ∈ ({0, 1} : Finset WorkerId), worker ≠ other →
          ¬ (twoClientMessages worker 0).WalksDuringRemoval
            (twoClientMessages other 0) := by decide +kernel
    exact unwalked worker isClient other isClient' distinct

/-- Both clients send, the GET is answered while the SET is in progress, and
both clients read their responses. -/
def twoClientLabels : List RcStoreLabel :=
  let served (worker : WorkerId) : RcStoreLabel :=
    .session worker (.server (.work (Fin.last 0)))
  let client (worker : WorkerId) : RcStoreLabel := .session worker .client
  [[client 0, client 1, .session 0 (.server .arrive),
      .session 1 (.server .arrive)],
    List.replicate 6 (served 0), List.replicate 2 (.handler 0 .zero),
    List.replicate 6 (served 1), List.replicate 1 (.handler 1 .zero),
    List.replicate 4 (.handler 0 .zero), List.replicate 2 (served 1),
    List.replicate 2 (served 0),
    [.session 1 .responseArrives, .session 0 .responseArrives, client 0,
      client 1, client 0, client 1, .session 0 .sendDone,
      .session 1 .sendDone, client 1, client 0]].flatten

theorem twoClients_read : ∃ state,
    (rcStore twoClientMessages).run .initial twoClientLabels = some state ∧
      (state.seen 0).length = 1 ∧ (state.seen 1).length = 1 ∧
      (rcStore twoClientMessages).GuardedReach (RcStore.OnlyClients {0, 1})
        state := by
  have runs : ((rcStore twoClientMessages).run .initial twoClientLabels).any
      (fun state => (state.seen 0).length = 1 ∧ (state.seen 1).length = 1) =
        true := by decide +kernel
  have present : ∀ label ∈ twoClientLabels,
      label.worker ∈ ({0, 1} : Finset WorkerId) := by decide
  obtain ⟨state, runTo, facts⟩ := (Option.any_eq_true _ _).mp runs
  obtain ⟨first, second⟩ := of_decide_eq_true facts
  exact ⟨state, runTo, first, second, TransitionSystem.guardedReach_of_run
    (.start rfl) (TransitionSystem.runGuarded_of_forall
      (fun label member _ => present label member) _) runTo⟩

theorem twoClients_answered_in_order : ∃ state,
    (rcStore twoClientMessages).run .initial twoClientLabels = some state ∧
      ∃ ht responses,
        executeAll empty state.store.turns = some (ht, responses) ∧
          ∀ worker, ∃ answers,
            answers = answersOf worker (state.store.turns.zip responses) ∧
            state.seen worker = (answers.map Prod.snd).take
              (state.session worker).client.received := by
  obtain ⟨state, runTo, -, -, reached⟩ := twoClients_read
  obtain ⟨ht, responses, executed, -, answered⟩ :=
    rcStore_answered_in_order twoClientMessages twoClientMessages_apart.handled
      (twoClientMessages_apart.conflictFree reached)
  refine ⟨state, runTo, ht, responses, executed, fun worker => ?_⟩
  obtain ⟨answers, same, -, seen, -⟩ := answered worker
  exact ⟨answers, same, seen⟩

end RdmaKVStore
