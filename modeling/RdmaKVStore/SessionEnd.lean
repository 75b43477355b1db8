import RdmaKVStore.ReceiveOverrun
import RdmaKVStore.ReceiveRing

/-!
# Ends of sessions

After each response a worker tests `is_connection_closed`, which looks at the
first slot of the ring, not at the slot of the request it has handled.  The
test therefore sees the request that was last put into the first slot, and over
RC and UC the first statement of `main_job` may have cleared its flag.  Besides
TCP sessions, this file treats all runs of the workers of a ring, with a log of
the tests that they make.
-/

namespace RdmaKVStore

def Request.Asks (request : Request) : Prop :=
  request.connectionClose ≠ 0

instance (request : Request) : Decidable request.Asks :=
  inferInstanceAs (Decidable (¬ _))

/-! ### TCP sessions -/

section InTurn

variable {Store : Type*} (handlers : StoreHandlers Store)

/-- The turn after which the loop of `main_job` ends. -/
def Session.endedAfter : Session Store → List Receipt → Option Nat
  | _, [] => none
  | session, receipt :: receipts =>
      match session.mainTurn handlers receipt with
      | none => none
      | some (_, _, true) => some 0
      | some (_, session, false) =>
          (endedAfter session receipts).map (· + 1)

def firstAsking (requests : List Request) : Option Nat :=
  requests.findIdx? fun request => decide request.Asks

variable {session : Session Store} {index : Nat} {message : Request}
variable {messages : List Request}

theorem firstAsking_cons_of_asks (asks : message.Asks) :
    firstAsking (message :: messages) = some 0 := by
  rw [firstAsking, List.findIdx?_cons, if_pos (decide_eq_true asks)]

theorem firstAsking_cons_of_not_asks (silent : ¬ message.Asks) :
    firstAsking (message :: messages) =
      (firstAsking messages).map (· + 1) := by
  rw [firstAsking, List.findIdx?_cons, if_neg (by simp [silent]), firstAsking]

theorem Aligned.endedAfter_iff (aligned : Aligned session index)
    (arrivals : List (Request × SocketReport))
    (stored : ∀ arrival ∈ arrivals, arrival.1.method.Stored) :
    session.endedAfter handlers
          (arrivals.map fun arrival => .arrival arrival.1 arrival.2) =
        firstAsking (arrivals.map Prod.fst) ↔
      ∀ first ∈ firstAsking (arrivals.map Prod.fst),
        ringSize session.type ∣ index + first := by
  induction arrivals generalizing session index with
  | nil => exact iff_of_true rfl fun first asking => by cases asking
  | cons arrival arrivals ih =>
      obtain ⟨message, socket⟩ := arrival
      have method : message.method.Stored := stored (message, socket) (by simp)
      have stays : message.method ≠ .exit := by
        intro exits
        rw [exits] at method
        exact absurd method (by decide)
      obtain ⟨sent, after, turned, -, -, -, -, known, -⟩ :=
        aligned.mainTurn handlers stays (method.not_kills session.type) socket
      simp only [List.map_cons]
      by_cases closes : message.Closes session.type index
      · simp only [Session.endedAfter, turned, decide_eq_true closes,
          firstAsking_cons_of_asks closes.2]
        apply iff_of_true trivial
        intro first asking
        obtain rfl := Option.some.inj asking
        exact closes.1
      · simp only [Session.endedAfter, turned, decide_eq_false closes]
        by_cases asks : message.Asks
        · -- the session goes on although its client has asked for its end
          rw [firstAsking_cons_of_asks asks]
          refine iff_of_false (fun same => ?_) fun divides =>
            closes ⟨divides 0 rfl, asks⟩
          obtain ⟨turn, -, later⟩ := Option.map_eq_some_iff.mp same
          cases later
        · obtain ⟨type, aligned'⟩ := known method.ne_unk closes
          rw [firstAsking_cons_of_not_asks asks,
            (Option.map_injective (add_left_injective 1)).eq_iff,
            ih aligned' fun arrival member => stored arrival (by simp [member]),
            type]
          simp only [Option.mem_def, Option.map_eq_some_iff]
          constructor
          · rintro divides _ ⟨first, asking, rfl⟩
            rw [show index + (first + 1) = index + 1 + first by omega]
            exact divides first asking
          · intro divides first asking
            rw [show index + 1 + first = index + (first + 1) by omega]
            exact divides _ ⟨first, asking, rfl⟩

end InTurn

/-! ### Workers of a ring -/

/-- A test of the loop: the number of the message that the worker has handled,
and whether the loop ends. -/
structure LoopTest where
  handled : Option Nat
  ended : Bool

def AsksAt (messages : Nat → Request) (number : Option Nat) : Prop :=
  (number.elim Request.zero messages).Asks

instance (messages : Nat → Request) (number : Option Nat) :
    Decidable (AsksAt messages number) :=
  inferInstanceAs (Decidable (Request.Asks _))

/-- The session ends exactly if the request that was handled asks for it. -/
def LoopTest.AsAsked (messages : Nat → Request) (test : LoopTest) : Prop :=
  test.ended = true ↔ AsksAt messages test.handled

/-- The workers, those that have run the first statement of `main_job`, the
message that has lost its close flag to it, the messages that they last ran the
method switch on, and the tests made so far. -/
structure ClosingState (Worker : Type*) where
  serve : ServeState Worker
  started : Worker → Bool
  cleared : Option Nat
  handled : Worker → Option Nat
  tests : List LoopTest

namespace ClosingState

variable {Worker : Type*} [DecidableEq Worker]

def initial (type : ConnectionType) : ClosingState Worker where
  serve := .initial type
  started _ := false
  cleared := none
  handled _ := none
  tests := []

/-- The messages as the workers find them in the slots. -/
def found (messages : Nat → Request) (state : ClosingState Worker)
    (number : Nat) : Request :=
  if state.cleared = some number then (messages number).opened
  else messages number

/-- The first statement of `main_job` clears the close flag of the client's own
first buffer; the buffers of the UD server are others. -/
def start (type : ConnectionType) (state : ClosingState Worker)
    (worker : Worker) : ClosingState Worker :=
  { state with
    started := Function.update state.started worker true
    cleared :=
      if type = .ud then state.cleared else state.serve.ring.queue.slots 0 }

/-- What the step of a worker handles: the content of its slot when the method
switch reads it. -/
def switched (state : ClosingState Worker) (worker : Worker) :
    Worker → Option Nat :=
  match state.serve.phase worker with
  | .switch slot _ =>
      Function.update state.handled worker (state.serve.ring.queue.slots slot)
  | _ => state.handled

/-- The state after a step, in which a worker that has waited for its response
tests for the end of the loop. -/
def record (state : ClosingState Worker) (after : ServeState Worker) :
    ServeLabel Worker → ClosingState Worker
  | .arrive | .sendDone => { state with serve := after }
  | .work worker =>
      { state with
        serve := after
        handled := state.switched worker
        tests :=
          if state.serve.phase worker = .respondWait then
            state.tests ++
              [⟨state.handled worker, after.phase worker = .ended⟩]
          else state.tests }

/-- The step runs the first statement of `main_job`. -/
def starting (state : ClosingState Worker) : ServeLabel Worker → Option Worker
  | .work worker =>
      if state.started worker ∨ state.serve.ring.exited then none
      else some worker
  | .arrive | .sendDone => none

end ClosingState

/-- The workers of a ring, with the log of their tests.  A worker that leaves
its loop looks for the socket of a TCP client, which it does not have; the runs
are continued for the case that the process survives that. -/
def closing {Worker : Type*} [DecidableEq Worker] (type : ConnectionType)
    (messages : Nat → Request) :
    TransitionSystem (ClosingState Worker) (ServeLabel Worker) where
  initial state := state = .initial type
  step state label :=
    match state.starting label with
    | some worker => some (state.start type worker)
    | none =>
        ((serving type (state.found messages)).step state.serve label).map
          fun after => state.record after label

/-- After `arrived` messages, the number of the one last put into the first
slot. -/
def inFirstSlot (type : ConnectionType) (arrived : Nat) : Option Nat :=
  if arrived = 0 then none
  else some (ringSize type * ((arrived - 1) / ringSize type))

/-- When a worker tests for the end of its loop, the request last put into the
first slot, unless its flag has been cleared there, asks for it exactly if the
one that the worker has handled does. -/
def FirstSlotAgrees {Worker : Type*} (type : ConnectionType)
    (messages : Nat → Request) (state : ClosingState Worker) :
    ServeLabel Worker → Prop
  | .arrive | .sendDone => True
  | .work worker =>
      state.serve.phase worker = .respondWait →
        (AsksAt (state.found messages)
            (inFirstSlot type state.serve.ring.queue.arrived) ↔
          AsksAt messages (state.handled worker))

instance {Worker : Type*} (type : ConnectionType) (messages : Nat → Request)
    (state : ClosingState Worker) (label : ServeLabel Worker) :
    Decidable (FirstSlotAgrees type messages state label) :=
  match label with
  | .arrive | .sendDone => isTrue trivial
  | .work _ => inferInstanceAs (Decidable (_ → (_ ↔ _)))

namespace ReceiveQueue

theorem slots_zero_of_cyclic {queue : ReceiveQueue (Option Nat)}
    (type : ConnectionType) (traced : queue.Traced some)
    (cyclic : queue.Cyclic (ringSize type))
    (unfilled : queue.arrived = 0 → queue.slots 0 = none) :
    queue.slots 0 = inFirstSlot type queue.arrived := by
  rw [inFirstSlot]
  by_cases none : queue.arrived = 0
  · rw [if_pos none, unfilled none]
  · rw [if_neg none]
    have positive := Aligned.ringSize_pos type
    have split := Nat.div_add_mod (queue.arrived - 1) (ringSize type)
    have small := Nat.mod_lt (queue.arrived - 1) positive
    have content := traced.slots_of_cyclic cyclic
      (show ringSize type * ((queue.arrived - 1) / ringSize type) <
        queue.arrived by omega) (by omega)
    rwa [Nat.mul_mod_right] at content

end ReceiveQueue

namespace ClosingState

variable {Worker : Type*} [DecidableEq Worker] {type : ConnectionType}
variable {messages : Nat → Request} {before after : ClosingState Worker}
variable {label : ServeLabel Worker}

def stepTests (messages : Nat → Request) (state : ClosingState Worker) :
    ServeLabel Worker → List LoopTest
  | .arrive | .sendDone => []
  | .work worker =>
      if state.started worker ∧ state.serve.phase worker = .respondWait then
        [⟨state.handled worker, decide (state.serve.ring.request
          (state.found messages) 0).Asks⟩]
      else []

theorem ended_iff {state served : ServeState Worker} {worker : Worker}
    (waits : state.phase worker = .respondWait)
    (stepped : (serving type messages).step state (.work worker) =
      some served) :
    served.phase worker = .ended ↔ (state.ring.request messages 0).Asks := by
  obtain ⟨ring, next, advanced, rfl⟩ := serving_work stepped
  rw [waits] at advanced
  obtain ⟨-, same⟩ := Option.ite_none_right_eq_some.mp advanced
  obtain ⟨-, rfl⟩ := Prod.mk.inj (Option.some.inj same)
  simp only [Function.update_self]
  split
  · next asks => exact iff_of_true rfl asks
  · next silent => exact iff_of_false (by simp) silent

/-- A step of `closing` is the first statement of a worker or a step of
`serving`. -/
theorem step_cases
    (stepTo : (closing type messages).step before label = some after) :
    (∃ worker, label = .work worker ∧ before.started worker = false ∧
        after = before.start type worker) ∨
      ∃ served, (∀ worker, label = .work worker →
          before.started worker = true) ∧
        (serving type (before.found messages)).step before.serve label =
          some served ∧ after = before.record served label := by
  cases label with
  | arrive | sendDone =>
      obtain ⟨served, stepped, rfl⟩ := Option.map_eq_some_iff.mp stepTo
      exact .inr ⟨served, fun _ works => (by cases works), stepped, rfl⟩
  | work worker =>
      by_cases started : before.started worker = true
      · have onward : before.starting (.work worker) = none :=
          if_pos (.inl started)
        simp only [closing, onward] at stepTo
        obtain ⟨served, stepped, rfl⟩ := Option.map_eq_some_iff.mp stepTo
        refine .inr ⟨served, fun other works => ?_, stepped, rfl⟩
        cases works
        exact started
      · have fresh := Bool.eq_false_iff.mpr started
        by_cases exited : before.serve.ring.exited = true
        · have onward : before.starting (.work worker) = none :=
            if_pos (.inr exited)
          simp only [closing, onward, serving, if_pos exited,
            Option.map_none] at stepTo
          cases stepTo
        · have starts : before.starting (.work worker) = some worker :=
            if_neg (by simp [fresh, exited])
          simp only [closing, starts, Option.some.injEq] at stepTo
          exact .inl ⟨worker, rfl, fresh, stepTo.symm⟩

theorem tests_step
    (stepTo : (closing type messages).step before label = some after) :
    after.tests = before.tests ++ before.stepTests messages label := by
  rcases step_cases stepTo with
    ⟨worker, rfl, fresh, rfl⟩ | ⟨served, started, stepped, rfl⟩
  · simp [stepTests, fresh, start]
  · cases label with
    | arrive | sendDone => exact (List.append_nil _).symm
    | work worker =>
        simp only [record, stepTests, started worker rfl, true_and]
        by_cases waits : before.serve.phase worker = .respondWait
        · have same : decide (served.phase worker = .ended) =
              decide (before.serve.ring.request (before.found messages)
                0).Asks :=
            decide_eq_decide.mpr (ended_iff waits stepped)
          rw [if_pos waits, if_pos waits, same]
        · rw [if_neg waits, if_neg waits, List.append_nil]

omit [DecidableEq Worker] in
theorem found_method (state : ClosingState Worker) (number : Nat) :
    (state.found messages number).method = (messages number).method := by
  unfold found
  split <;> rfl

/-- The invariant that the account of the tests rests on. -/
structure Followed (type : ConnectionType) (messages : Nat → Request)
    (state : ClosingState Worker) : Prop where
  fresh : ∀ worker, state.started worker = false →
    state.serve.phase worker = .prepare ∧
      (type ≠ .ud → ∀ others, (serving type others).Reachable state.serve)
  reached : (serving type (state.found messages)).Reachable state.serve
  unfilled : state.serve.ring.queue.arrived = 0 →
    state.serve.ring.queue.slots 0 = none

namespace Followed

theorem initial :
    Followed type messages (.initial type : ClosingState Worker) where
  fresh _ _ := ⟨rfl, fun _ _ => .start rfl⟩
  reached := .start rfl
  unfilled _ := rfl

/-- Nothing that happens before a worker's first statement depends on what the
messages are. -/
theorem start_step {worker : Worker} (followed : Followed type messages before)
    (fresh : before.started worker = false) :
    Followed type messages (before.start type worker) where
  fresh other still := by
    by_cases same : other = worker
    · subst same
      simp [start] at still
    · have still : before.started other = false := by
        simpa only [start, Function.update_of_ne same] using still
      exact followed.fresh other still
  reached := by
    by_cases shared : type = .ud
    · have same : (before.start type worker).found messages =
          before.found messages := by
        funext number
        simp only [found, start, if_pos shared]
      rw [same]
      exact followed.reached
    · exact (followed.fresh worker fresh).2 shared _
  unfilled := followed.unfilled

theorem serving_step {served : ServeState Worker}
    (single : type ≠ .ud → Subsingleton Worker)
    (followed : Followed type messages before)
    (started : ∀ worker, label = .work worker → before.started worker = true)
    (stepped : (serving type (before.found messages)).step before.serve label =
      some served) :
    Followed type messages (before.record served label) := by
  have same : (before.record served label).serve = served ∧
      (before.record served label).started = before.started ∧
      (before.record served label).found messages = before.found messages := by
    cases label <;> exact ⟨rfl, rfl, rfl⟩
  obtain ⟨serve, starteds, found⟩ := same
  refine ⟨fun other fresh => ?_, ?_, ?_⟩
  · rw [starteds] at fresh
    obtain ⟨atHead, unread⟩ := followed.fresh other fresh
    rw [serve]
    cases label with
    | arrive =>
        have arrives (others : Nat → Request) :
            (serving type others).step before.serve .arrive = some served :=
          stepped
        obtain ⟨queue, -, rfl⟩ := Option.map_eq_some_iff.mp stepped
        exact ⟨atHead, fun shared others =>
          .next (unread shared others) trivial (arrives others)⟩
    | sendDone =>
        have completes (others : Nat → Request) :
            (serving type others).step before.serve .sendDone = some served :=
          stepped
        obtain ⟨-, same⟩ := Option.ite_none_right_eq_some.mp stepped
        cases same
        exact ⟨atHead, fun shared others =>
          .next (unread shared others) trivial (completes others)⟩
    | work worker =>
        have distinct : other ≠ worker := by
          rintro rfl
          rw [started other rfl] at fresh
          cases fresh
        obtain ⟨ring, next, -, rfl⟩ := serving_work stepped
        refine ⟨(Function.update_of_ne distinct _ _).trans atHead,
          fun shared => ?_⟩
        exact absurd ((single shared).elim other worker) distinct
  · rw [serve, found]
    exact .next followed.reached trivial stepped
  · have unfilled := followed.unfilled
    rw [serve]
    rcases serving_step_cases stepped with
      ⟨queue, -, delivered, rfl⟩ | ⟨-, -, rfl⟩ |
        ⟨worker, ring, next, -, serves, rfl⟩
    · obtain ⟨slot, -, rfl⟩ := ReceiveQueue.deliver_eq_some delivered
      exact fun none => absurd none (Nat.succ_ne_zero _)
    · exact unfilled
    · rcases serves.queue_cases with kept | posted
      · simpa only [kept] using unfilled
      · simpa only [posted, ReceiveQueue.post] using unfilled

theorem step (single : type ≠ .ud → Subsingleton Worker)
    (followed : Followed type messages before)
    (stepTo : (closing type messages).step before label = some after) :
    Followed type messages after := by
  rcases step_cases stepTo with
    ⟨worker, -, fresh, rfl⟩ | ⟨served, started, stepped, rfl⟩
  · exact followed.start_step fresh
  · exact followed.serving_step single started stepped

variable [Fintype Worker]

theorem slots_zero (single : type ≠ .ud → Subsingleton Worker)
    (stored : ∀ number, (messages number).method.Stored)
    (followed : Followed type messages before) :
    before.serve.ring.queue.slots 0 =
      inFirstSlot type before.serve.ring.queue.arrived := by
  have counted := Counted.of_reachable single followed.reached
  refine ReceiveQueue.slots_zero_of_cyclic type counted.traced ?_
    followed.unfilled
  by_cases shared : type = .ud
  · subst shared
    exact (SharedRing.of_reachable followed.reached).cyclic
  · have := single shared
    refine (RoundRing.of_reachable shared (fun number => ?_)
      followed.reached).cyclic
    rw [found_method]
    exact (stored number).ne_unk

theorem asAsked_iff (single : type ≠ .ud → Subsingleton Worker)
    (stored : ∀ number, (messages number).method.Stored)
    (followed : Followed type messages before) :
    (∀ test ∈ before.stepTests messages label, test.AsAsked messages) ↔
      FirstSlotAgrees type messages before label := by
  cases label with
  | arrive | sendDone => simp [stepTests, FirstSlotAgrees]
  | work worker =>
      simp only [stepTests, FirstSlotAgrees]
      by_cases waits : before.serve.phase worker = .respondWait
      · have started : before.started worker = true := by
          by_contra fresh
          have atHead := (followed.fresh worker (by simpa using fresh)).1
          cases atHead.symm.trans waits
        rw [if_pos ⟨started, waits⟩, List.forall_mem_singleton,
          forall_prop_of_true waits,
          LoopTest.AsAsked, decide_eq_true_eq, ServeRing.request,
          followed.slots_zero single stored]
        rfl
      · simp [waits]

end Followed

end ClosingState

def lastGet : Request :=
  { Request.make .get [97] [] with connectionClose := 1 }

/-- A worker's start, and a turn in which it is the only one to run. -/
def wholeTurn {Worker : Type*} (worker : Worker) : List (ServeLabel Worker) :=
  [.work worker, .work worker, .arrive, .work worker, .work worker,
    .work worker, .work worker, .work worker, .work worker, .work worker,
    .sendDone, .work worker]

def firstAsks : Nat → Request
  | 0 => lastGet
  | _ => .make .get [97] []

/-- Two requests arrive; the first worker has given back `lock` and is in its
handler when the second one tests for the end of its loop. -/
def secondTests {Worker : Type*} (first second : Worker) :
    List (ServeLabel Worker) :=
  [.work first, .work second, .arrive, .arrive] ++
    List.replicate 5 (.work first) ++ List.replicate 8 (.work second) ++
    [.sendDone, .work second]

end RdmaKVStore
