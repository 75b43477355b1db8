import RdmaKVStore.ServerSession
import RdmaKVStore.TransitionRuns

/-!
# Serving while messages arrive

The request loop of `main_job` over RC, UC and UD, cut at the points where the
adapter can get in between.  Messages are numbered in the order in which they
arrive, and a slot of the receive ring holds the number of the message that the
adapter has written to it.  An RC or UC session has one worker and one
completion queue; the workers of a UD server share the ring under `lock` and
have a queue of their own for receive completions.
-/

namespace RdmaKVStore

/-- What the workers of a ring and the adapter share: the ring, `lock`, whether
the process has exited, the number of turns begun, of completions taken by
`receive_header`, of responses posted, of their completions, and of completions
taken by the waits for them. -/
structure ServeRing (Worker : Type*) where
  queue : ReceiveQueue (Option Nat)
  requestCount : Nat
  lock : Option Worker
  exited : Bool
  begun : Nat
  received : Nat
  sent : Nat
  sendsDone : Nat
  sendsWaited : Nat

/-- Where a worker is in its loop: at `prepare_for_next_request`, at the wait
in `receive_header`, at `get_current_request` (over UD: at the `lock` before
it), at `request_dispatcher` and the wait for its response, at the test for UNK
before `ready_for_next_request`, at the method switch, in a handler, at
`send_response_to_client` and its wait, or out of the loop.  It keeps its
pointer to the slot; the number of its turn says which message it is for. -/
inductive ServePhase
  | prepare
  | receive
  | current
  | dispatch (slot turn : Nat)
  | dispatchWait (slot turn : Nat)
  | exitWait
  | check (slot turn : Nat)
  | switch (slot turn : Nat)
  | handle (slot turn : Nat)
  | respond
  | respondWait
  | ended
  deriving DecidableEq

/-- The methods with a handler: `set_request`, `get_request` and
`del_request`. -/
def Method.Handled (method : Method) : Prop :=
  method = .set ∨ method = .get ∨ method = .del

instance (method : Method) : Decidable method.Handled :=
  inferInstanceAs (Decidable (_ ∨ _ ∨ _))

namespace ServeRing

variable {Worker : Type*}

def initial (type : ConnectionType) : ServeRing Worker where
  queue :=
    { postings := List.range (ringSize type)
      arrived := 0
      slots := fun _ => none }
  requestCount := 0
  lock := none
  exited := false
  begun := 0
  received := 0
  sent := 0
  sendsDone := 0
  sendsWaited := 0

variable (ring : ServeRing Worker) (type : ConnectionType)

/-- The request structure in a slot, when message `n` is `messages n`. -/
def request (messages : Nat → Request) (slot : Nat) : Request :=
  (ring.queue.slots slot).elim Request.zero messages

/-- A receive completion, or over RC and UC any completion, can be taken. -/
def ReceiveCompleted : Prop :=
  match type with
  | .ud => ring.received < ring.queue.arrived
  | .rc | .uc | .tcp =>
      ring.received + ring.sendsWaited < ring.queue.arrived + ring.sendsDone

instance : Decidable (ring.ReceiveCompleted type) :=
  match type with
  | .ud | .rc | .uc | .tcp => inferInstanceAs (Decidable (_ < _))

/-- A send completion, or over RC and UC any completion, can be taken. -/
def SendCompleted : Prop :=
  match type with
  | .ud => ring.sendsWaited < ring.sendsDone
  | .rc | .uc | .tcp =>
      ring.received + ring.sendsWaited < ring.queue.arrived + ring.sendsDone

instance : Decidable (ring.SendCompleted type) :=
  match type with
  | .ud | .rc | .uc | .tcp => inferInstanceAs (Decidable (_ < _))

variable {ring type} in
theorem receiveCompleted_iff (single : type ≠ .ud) :
    ring.ReceiveCompleted type ↔
      ring.received + ring.sendsWaited <
        ring.queue.arrived + ring.sendsDone := by
  cases type with
  | ud => exact absurd rfl single
  | tcp | rc | uc => rfl

variable {ring type} in
theorem sendCompleted_iff (single : type ≠ .ud) :
    ring.SendCompleted type ↔
      ring.received + ring.sendsWaited <
        ring.queue.arrived + ring.sendsDone := by
  cases type with
  | ud => exact absurd rfl single
  | tcp | rc | uc => rfl

/-- `rc_post_receive_request`, `uc_post_receive_request` and
`ud_post_receive_request` -/
def postReceive : ServeRing Worker :=
  { ring with queue := ring.queue.post ring.requestCount }

/-- `post_send` -/
def postSend : ServeRing Worker :=
  { ring with sent := ring.sent + 1 }

/-- The worker takes the completion that it waits for after `post_send`. -/
def takeSend : ServeRing Worker :=
  { ring with sendsWaited := ring.sendsWaited + 1 }

/-- The worker takes the completion that `receive_header` waits for. -/
def takeReceive : ServeRing Worker :=
  { ring with received := ring.received + 1 }

/-- A turn begins; over UD its worker takes `lock`. -/
def beginTurn (worker : Worker) : ServeRing Worker :=
  { ring with
    begun := ring.begun + 1
    lock := if type = .ud then some worker else ring.lock }

/-- `ready_for_next_request` -/
def readyForNextRequest : ServeRing Worker :=
  { ring with
    queue :=
      if type = .ud then ring.queue.post ring.requestCount else ring.queue
    requestCount := (ring.requestCount + 1) % ringSize type
    lock := if type = .ud then none else ring.lock }

/-- The next step of a worker; `none` while it waits. -/
def advance (messages : Nat → Request) (worker : Worker) :
    ServePhase → Option (ServeRing Worker × ServePhase)
  | .prepare =>
      some (if type = .ud then ring else ring.postReceive, .receive)
  | .receive =>
      if ring.ReceiveCompleted type then some (ring.takeReceive, .current)
      else none
  | .current =>
      if type = .ud ∧ ring.lock.isSome then none
      else some (ring.beginTurn type worker,
        .dispatch ring.requestCount ring.begun)
  | .dispatch slot turn =>
      if (ring.request messages slot).Kills type then
        some ({ ring with exited := true }, .ended)
      else match (ring.request messages slot).method with
        | .ping | .setopt | .unk =>
            some (ring.postSend, .dispatchWait slot turn)
        | .exit => some (ring.postSend, .exitWait)
        | .set | .get | .del | .dump | .rst => some (ring, .check slot turn)
  | .dispatchWait slot turn =>
      if ring.SendCompleted type then some (ring.takeSend, .check slot turn)
      else none
  | .exitWait =>
      if ring.SendCompleted type then
        some ({ ring.takeSend with exited := true }, .ended)
      else none
  | .check slot turn =>
      some (if (ring.request messages slot).method ≠ .unk then
          ring.readyForNextRequest type
        else ring, .switch slot turn)
  | .switch slot turn =>
      some (ring, if (ring.request messages slot).method.Handled then
        .handle slot turn else .respond)
  | .handle _ _ => some (ring, .respond)
  | .respond => some (ring.postSend, .respondWait)
  | .respondWait =>
      if ring.SendCompleted type then
        some (ring.takeSend,
          if (ring.request messages 0).connectionClose ≠ 0 then .ended
          else .prepare)
      else none
  | .ended => none

end ServeRing

theorem ServeRing.advance_of_silent {Worker : Type*} {type : ConnectionType}
    {messages : Nat → Request} {ring : ServeRing Worker} {worker : Worker}
    {slot turn : Nat} (survives : ¬ (ring.request messages slot).Kills type)
    (silent : dispatchReply (ring.request messages slot) = none) :
    ring.advance type messages worker (.dispatch slot turn) =
      some (ring, .check slot turn) := by
  rw [advance, if_neg survives]
  cases method : (ring.request messages slot).method with
  | set | get | del | dump | rst => rfl
  | _ => simp [dispatchReply, method] at silent

theorem ServeRing.advance_of_answered {Worker : Type*} {type : ConnectionType}
    {messages : Nat → Request} {ring : ServeRing Worker} {worker : Worker}
    {slot turn : Nat} (survives : ¬ (ring.request messages slot).Kills type)
    {reply : Response}
    (answered : dispatchReply (ring.request messages slot) = some reply) :
    ring.advance type messages worker (.dispatch slot turn) =
      some (ring.postSend,
        if (ring.request messages slot).method = .exit then .exitWait
        else .dispatchWait slot turn) := by
  rw [advance, if_neg survives]
  cases method : (ring.request messages slot).method with
  | ping | setopt | unk | exit => rfl
  | _ => simp [dispatchReply, method] at answered

inductive Serves {Worker : Type*} (type : ConnectionType)
    (messages : Nat → Request) (worker : Worker) (ring : ServeRing Worker) :
    ServePhase → ServeRing Worker → ServePhase → Prop
  | prepare (single : type ≠ .ud) :
      Serves type messages worker ring .prepare ring.postReceive .receive
  | prepareUd (shared : type = .ud) :
      Serves type messages worker ring .prepare ring .receive
  | receive (completed : ring.ReceiveCompleted type) :
      Serves type messages worker ring .receive ring.takeReceive .current
  | current (free : type = .ud → ring.lock = none) :
      Serves type messages worker ring .current (ring.beginTurn type worker)
        (.dispatch ring.requestCount ring.begun)
  | answer {slot turn : Nat} :
      Serves type messages worker ring (.dispatch slot turn) ring.postSend
        (.dispatchWait slot turn)
  | exit {slot turn : Nat} :
      Serves type messages worker ring (.dispatch slot turn) ring.postSend
        .exitWait
  | crash {slot turn : Nat}
      (kills : (ring.request messages slot).Kills type) :
      Serves type messages worker ring (.dispatch slot turn)
        { ring with exited := true } .ended
  | pass {slot turn : Nat} :
      Serves type messages worker ring (.dispatch slot turn) ring
        (.check slot turn)
  | answered {slot turn : Nat} (completed : ring.SendCompleted type) :
      Serves type messages worker ring (.dispatchWait slot turn) ring.takeSend
        (.check slot turn)
  | exited (completed : ring.SendCompleted type) :
      Serves type messages worker ring .exitWait
        { ring.takeSend with exited := true } .ended
  | ready {slot turn : Nat}
      (known : (ring.request messages slot).method ≠ .unk) :
      Serves type messages worker ring (.check slot turn)
        (ring.readyForNextRequest type) (.switch slot turn)
  | skip {slot turn : Nat}
      (unknown : (ring.request messages slot).method = .unk) :
      Serves type messages worker ring (.check slot turn) ring
        (.switch slot turn)
  | handler {slot turn : Nat}
      (handled : (ring.request messages slot).method.Handled) :
      Serves type messages worker ring (.switch slot turn) ring
        (.handle slot turn)
  | other {slot turn : Nat} :
      Serves type messages worker ring (.switch slot turn) ring .respond
  | handled {slot turn : Nat} :
      Serves type messages worker ring (.handle slot turn) ring .respond
  | respond :
      Serves type messages worker ring .respond ring.postSend .respondWait
  | close (completed : ring.SendCompleted type) :
      Serves type messages worker ring .respondWait ring.takeSend .ended
  | again (completed : ring.SendCompleted type) :
      Serves type messages worker ring .respondWait ring.takeSend .prepare

theorem ServeRing.advance_serves {Worker : Type*} {type : ConnectionType}
    {messages : Nat → Request} {worker : Worker}
    {ring after : ServeRing Worker} {before next : ServePhase}
    (advanced : ring.advance type messages worker before =
      some (after, next)) :
    Serves type messages worker ring before after next := by
  cases before with
  | prepare =>
      simp only [advance, Option.some.injEq, Prod.mk.injEq] at advanced
      obtain ⟨rfl, rfl⟩ := advanced
      split
      · exact .prepareUd ‹_›
      · exact .prepare ‹_›
  | receive =>
      obtain ⟨completed, same⟩ := Option.ite_none_right_eq_some.mp advanced
      cases same
      exact .receive completed
  | current =>
      obtain ⟨free, same⟩ := Option.ite_none_left_eq_some.mp advanced
      cases same
      exact .current fun shared => by simpa [shared] using free
  | dispatch slot turn =>
      simp only [advance] at advanced
      split at advanced
      · cases advanced
        exact .crash ‹_›
      · split at advanced <;> cases advanced
        · exact .answer
        · exact .answer
        · exact .answer
        · exact .exit
        all_goals exact .pass
  | dispatchWait slot turn =>
      obtain ⟨completed, same⟩ := Option.ite_none_right_eq_some.mp advanced
      cases same
      exact .answered completed
  | exitWait =>
      obtain ⟨completed, same⟩ := Option.ite_none_right_eq_some.mp advanced
      cases same
      exact .exited completed
  | check slot turn =>
      simp only [advance, Option.some.injEq, Prod.mk.injEq] at advanced
      obtain ⟨rfl, rfl⟩ := advanced
      split
      · exact .ready ‹_›
      · exact .skip (not_not.mp ‹_›)
  | switch slot turn =>
      simp only [advance, Option.some.injEq, Prod.mk.injEq] at advanced
      obtain ⟨rfl, rfl⟩ := advanced
      split
      · exact .handler ‹_›
      · exact .other
  | handle slot turn => cases advanced; exact .handled
  | respond => cases advanced; exact .respond
  | respondWait =>
      obtain ⟨completed, same⟩ := Option.ite_none_right_eq_some.mp advanced
      simp only [Option.some.injEq, Prod.mk.injEq] at same
      obtain ⟨rfl, rfl⟩ := same
      split
      · exact .close completed
      · exact .again completed
  | ended => cases advanced

structure ServeState (Worker : Type*) where
  ring : ServeRing Worker
  phase : Worker → ServePhase

/-- A message arrives in a posted slot, a posted response completes, or a
worker takes a step. -/
inductive ServeLabel (Worker : Type*)
  | arrive
  | sendDone
  | work (worker : Worker)

def ServeState.initial {Worker : Type*} (type : ConnectionType) :
    ServeState Worker where
  ring := .initial type
  phase _ := .prepare

/-- The workers of a ring and the adapter, for given messages. -/
def serving {Worker : Type*} [DecidableEq Worker] (type : ConnectionType)
    (messages : Nat → Request) :
    TransitionSystem (ServeState Worker) (ServeLabel Worker) where
  initial state := state = .initial type
  step state
    | .arrive =>
        (state.ring.queue.deliver (some state.ring.queue.arrived)).map
          fun queue => { state with ring.queue := queue }
    | .sendDone =>
        if state.ring.sendsDone < state.ring.sent then
          some { state with ring.sendsDone := state.ring.sendsDone + 1 }
        else none
    | .work worker =>
        if state.ring.exited then none
        else
          (state.ring.advance type messages worker (state.phase worker)).map
            fun (ring, phase) =>
              { ring := ring
                phase := Function.update state.phase worker phase }

theorem serving_work {Worker : Type*} [DecidableEq Worker]
    {type : ConnectionType} {messages : Nat → Request}
    {before after : ServeState Worker} {worker : Worker}
    (stepTo : (serving type messages).step before (.work worker) =
      some after) :
    ∃ ring next,
      before.ring.advance type messages worker (before.phase worker) =
        some (ring, next) ∧
      after =
        { ring := ring
          phase := Function.update before.phase worker next } := by
  obtain ⟨-, moved⟩ := Option.ite_none_left_eq_some.mp stepTo
  obtain ⟨⟨ring, next⟩, advanced, rfl⟩ := Option.map_eq_some_iff.mp moved
  exact ⟨ring, next, advanced, rfl⟩

theorem serving_step_cases {Worker : Type*} [DecidableEq Worker]
    {type : ConnectionType} {messages : Nat → Request}
    {before after : ServeState Worker} {label : ServeLabel Worker}
    (stepTo : (serving type messages).step before label = some after) :
    (∃ queue, label = .arrive ∧
        before.ring.queue.deliver (some before.ring.queue.arrived) =
          some queue ∧
        after = { before with ring.queue := queue }) ∨
      (label = .sendDone ∧ before.ring.sendsDone < before.ring.sent ∧
        after =
          { before with ring.sendsDone := before.ring.sendsDone + 1 }) ∨
      ∃ worker ring next, label = .work worker ∧
        Serves type messages worker before.ring (before.phase worker) ring
          next ∧
        after =
          { ring := ring
            phase := Function.update before.phase worker next } := by
  cases label with
  | arrive =>
      obtain ⟨queue, delivered, rfl⟩ := Option.map_eq_some_iff.mp stepTo
      exact .inl ⟨queue, rfl, delivered, rfl⟩
  | sendDone =>
      obtain ⟨pending, same⟩ := Option.ite_none_right_eq_some.mp stepTo
      cases same
      exact .inr (.inl ⟨rfl, pending, rfl⟩)
  | work worker =>
      obtain ⟨ring, next, advanced, rfl⟩ := serving_work stepTo
      exact .inr (.inr ⟨worker, ring, next, rfl,
        ServeRing.advance_serves advanced, rfl⟩)

end RdmaKVStore
