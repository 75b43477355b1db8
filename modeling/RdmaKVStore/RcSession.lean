import RdmaKVStore.ClientRetries
import RdmaKVStore.ReceiveOverrun

/-!
# Completions of an RC session

A client and a worker over RC, both in polling mode: with `blocking` set a wait
needs an event as well, and none comes for a completion that an earlier wait
has left behind.  Each side has one completion queue for its sends and its
receives, and no wait looks at what the completion that it takes is for.  A
queue is therefore known by the numbers of completions that have come in and of
those that have been taken.  The client sends its next request after
`rc_receive_response` has returned.
-/

namespace RdmaKVStore

/-- `CQ_CAPACITY` -/
def cqCapacity : Nat := 16

theorem ServePhase.pendingSend_le (phase : ServePhase) :
    phase.pendingSend ≤ 1 := by
  cases phase <;> simp [pendingSend]

theorem ServePhase.pendingPost_le (phase : ServePhase) :
    phase.pendingPost ≤ 1 := by
  cases phase <;> simp [pendingPost]

namespace ServeRing

variable {Worker : Type*} (ring : ServeRing Worker)

def postedReceives : Nat :=
  ring.queue.postings.length - ring.queue.arrived

def unpolled : Nat :=
  ring.queue.arrived + ring.sendsDone - (ring.received + ring.sendsWaited)

end ServeRing

/-- Where a client is: at `post_send` and the wait after it in
`rc_send_request`, at `post_recieve` and the wait after it in
`rc_receive_response`. -/
inductive RcPhase
  | send
  | sendWait
  | post
  | receiveWait
  deriving DecidableEq

/-- An RC client and its adapter: the receives posted, the responses that have
arrived, the requests posted and those whose sending has completed, and the
completions taken by `rc_send_request` and by `rc_receive_response`. -/
structure RcClient where
  phase : RcPhase
  posted : Nat
  arrived : Nat
  sent : Nat
  sendsDone : Nat
  sendsWaited : Nat
  received : Nat

namespace RcClient

/-- A connected client: `rc_pre_post_receive_response` has posted a receive. -/
def initial : RcClient where
  phase := .send
  posted := 1
  arrived := 0
  sent := 0
  sendsDone := 0
  sendsWaited := 0
  received := 0

variable (client : RcClient)

def Completed : Prop :=
  client.received + client.sendsWaited < client.arrived + client.sendsDone

instance : Decidable client.Completed :=
  inferInstanceAs (Decidable (_ < _))

def postedReceives : Nat :=
  client.posted - client.arrived

def unpolled : Nat :=
  client.arrived + client.sendsDone - (client.received + client.sendsWaited)

/-- The next step of `rc_send_request` or `rc_receive_response`; `none` while
it waits. -/
def advance : Option RcClient :=
  match client.phase with
  | .send => some { client with sent := client.sent + 1, phase := .sendWait }
  | .sendWait =>
      if client.Completed then
        some { client with
          sendsWaited := client.sendsWaited + 1
          phase := .post }
      else none
  | .post =>
      some { client with posted := client.posted + 1, phase := .receiveWait }
  | .receiveWait =>
      if client.Completed then
        some { client with received := client.received + 1, phase := .send }
      else none

end RcClient

structure RcSession where
  server : ServeState (Fin 1)
  client : RcClient

/-- A step of the server's side, in which a request may arrive; a response
arrives, the sending of a request completes, or the client takes a step. -/
inductive RcLabel
  | server (label : ServeLabel (Fin 1))
  | responseArrives
  | sendDone
  | client

namespace RcSession

def initial : RcSession where
  server := .initial .rc
  client := .initial

def Sent (session : RcSession) : ServeLabel (Fin 1) → Prop
  | .arrive => session.server.ring.queue.arrived < session.client.sent
  | .sendDone | .work _ => True

instance (session : RcSession) (label : ServeLabel (Fin 1)) :
    Decidable (session.Sent label) :=
  match label with
  | .arrive => inferInstanceAs (Decidable (_ < _))
  | .sendDone | .work _ => isTrue trivial

end RcSession

/-- A client and a worker over RC, both polling, with their adapters. -/
def rcSession (messages : Nat → Request) :
    TransitionSystem RcSession RcLabel where
  initial session := session = .initial
  step session
    | .server label =>
        if session.Sent label then
          ((serving .rc messages).step session.server label).map fun server =>
            { session with server := server }
        else none
    | .responseArrives =>
        if session.client.arrived < session.server.ring.sent ∧
            session.client.arrived < session.client.posted then
          some { session with client.arrived := session.client.arrived + 1 }
        else none
    | .sendDone =>
        if session.client.sendsDone < session.client.sent then
          some { session with client.sendsDone := session.client.sendsDone + 1 }
        else none
    | .client =>
        session.client.advance.map fun client =>
          { session with client := client }

variable {messages : Nat → Request}

/-! ### The worker sends one response in each turn -/

section Serving

variable {Worker : Type*} {type : ConnectionType}
variable {ring after : ServeRing Worker} {worker : Worker}
variable {state : ServeState Worker}

theorem ServeRing.advance_dispatch {slot turn : Nat}
    (stored : (ring.request messages slot).method.Stored) :
    ring.advance type messages worker (.dispatch slot turn) =
      some (ring, .check slot turn) :=
  advance_of_silent (stored.not_kills type) stored.dispatchReply

/-- The turns begun and the responses posted, at each place of the loop. -/
def Answered (ring : ServeRing Worker) : ServePhase → Prop
  | .prepare | .receive | .current | .respondWait | .ended =>
      ring.begun = ring.sent
  | .dispatch _ turn | .check _ turn | .switch _ turn | .handle _ turn =>
      ring.begun = turn + 1 ∧ ring.sent = turn
  | .respond => ring.begun = ring.sent + 1
  | .dispatchWait _ _ | .exitWait => False

theorem Answered.serves {before next : ServePhase}
    (answered : Answered ring before)
    (dispatched : ∀ slot turn, before = .dispatch slot turn →
      after = ring ∧ next = .check slot turn)
    (serves : Serves type messages worker ring before after next) :
    Answered after next := by
  cases serves with
  | answer | exit | crash => exact absurd (dispatched _ _ rfl).2 (by simp)
  | answered | exited => exact answered.elim
  | current => exact ⟨rfl, answered.symm⟩
  | other | handled =>
      obtain ⟨begun, sent⟩ := answered
      rw [Answered, begun, sent]
  | _ => exact answered

theorem Answered.pointer {phase : ServePhase} {slot turn : Nat}
    (answered : Answered ring phase)
    (points : phase.pointer = some (slot, turn)) :
    ring.begun = turn + 1 ∧ ring.sent = turn := by
  cases phase with
  | dispatch | check | switch | handle => cases points; exact answered
  | dispatchWait => exact answered.elim
  | _ => cases points

theorem Answered.begun_bounds {phase : ServePhase}
    (answered : Answered ring phase) :
    ring.sent ≤ ring.begun ∧ ring.begun ≤ ring.sent + 1 := by
  cases phase <;> simp only [Answered] at answered <;> omega

/-- No more completions are taken than have come in. -/
def ServeRing.Drawn (ring : ServeRing Worker) : Prop :=
  ring.received + ring.sendsWaited ≤ ring.queue.arrived + ring.sendsDone

theorem ServeRing.Drawn.serves {before next : ServePhase}
    (single : type ≠ .ud) (drawn : ring.Drawn)
    (serves : Serves type messages worker ring before after next) :
    after.Drawn := by
  have arrived := serves.arrived
  have done := serves.sendsDone.1
  unfold ServeRing.Drawn at drawn ⊢
  rw [arrived, done]
  cases serves with
  | receive completed =>
      have more := (ServeRing.receiveCompleted_iff single).mp completed
      simp only [ServeRing.takeReceive]
      omega
  | answered completed | exited completed | close completed
  | again completed =>
      have more := (ServeRing.sendCompleted_iff single).mp completed
      simp only [ServeRing.takeSend]
      omega
  | _ => exact drawn

/-- The worker of an RC or UC session answers each turn once. -/
structure OneResponse (state : ServeState Worker) : Prop where
  answered : ∀ worker, Answered state.ring (state.phase worker)
  drawn : state.ring.Drawn

namespace OneResponse

theorem initial : OneResponse (.initial type : ServeState Worker) where
  answered _ := rfl
  drawn := le_rfl

theorem of_reachable [DecidableEq Worker] [Fintype Worker]
    [Subsingleton Worker] (single : type ≠ .ud)
    (stored : ∀ number, (messages number).method.Stored)
    (reached : (serving type messages).Reachable state) :
    OneResponse state := by
  have known : ∀ number, (messages number).method ≠ .unk :=
    fun number => (stored number).ne_unk
  refine TransitionSystem.GuardedReach.invariant_with
    (fun _ reached => And.intro
      (Counted.of_reachable (fun _ => inferInstance) reached) (And.intro
        (Preposted.of_reachable single reached)
        (RoundRing.of_reachable single known reached)))
    (fun _ initial => initial ▸ OneResponse.initial)
    (fun before label after base one _ stepTo => ?_) reached
  obtain ⟨counted, preposted, round⟩ := base
  cases label with
  | arrive =>
      obtain ⟨queue, delivered, rfl⟩ := Option.map_eq_some_iff.mp stepTo
      obtain ⟨slot, -, rfl⟩ := ReceiveQueue.deliver_eq_some delivered
      refine ⟨one.answered, ?_⟩
      have drawn := one.drawn
      simp only [ServeRing.Drawn] at drawn ⊢
      omega
  | sendDone =>
      obtain ⟨-, same⟩ := Option.ite_none_right_eq_some.mp stepTo
      cases same
      refine ⟨one.answered, ?_⟩
      have drawn := one.drawn
      simp only [ServeRing.Drawn] at drawn ⊢
      omega
  | work worker =>
      obtain ⟨ring, next, advanced, rfl⟩ := serving_work stepTo
      have serves := ServeRing.advance_serves advanced
      refine ⟨fun other => ?_, one.drawn.serves single serves⟩
      obtain rfl := Subsingleton.elim worker other
      simp only [Function.update_self]
      refine (one.answered worker).serves (fun slot turn at_ => ?_) serves
      obtain ⟨later, request⟩ :
          ∃ later, before.ring.request messages slot = messages later :=
        round.request_of_pointer preposted counted
          (show (before.phase worker).pointer = some (slot, turn) by
            rw [at_]
            rfl)
      rw [at_, ServeRing.advance_dispatch (request ▸ stored later)]
        at advanced
      cases advanced
      exact ⟨rfl, rfl⟩

end OneResponse

end Serving

/-! ### The two sides together -/

/-- What the client has done in its current operation, counted from the
operations that it has finished. -/
def RcClient.InStep (client : RcClient) : Prop :=
  match client.phase with
  | .send =>
      client.sent = client.received ∧ client.sendsWaited = client.received ∧
        client.posted = client.received + 1
  | .sendWait =>
      client.sent = client.received + 1 ∧
        client.sendsWaited = client.received ∧
        client.posted = client.received + 1
  | .post =>
      client.sent = client.received + 1 ∧
        client.sendsWaited = client.received + 1 ∧
        client.posted = client.received + 1
  | .receiveWait =>
      client.sent = client.received + 1 ∧
        client.sendsWaited = client.received + 1 ∧
        client.posted = client.received + 2

theorem RcClient.advance_frame {client after : RcClient}
    (advanced : client.advance = some after) :
    after.arrived = client.arrived ∧ client.sent ≤ after.sent := by
  cases phase : client.phase with
  | send =>
      simp only [RcClient.advance, phase, Option.some.injEq] at advanced
      subst advanced
      exact ⟨rfl, Nat.le_succ _⟩
  | post =>
      simp only [RcClient.advance, phase, Option.some.injEq] at advanced
      subst advanced
      exact ⟨rfl, le_rfl⟩
  | sendWait | receiveWait =>
      simp only [RcClient.advance, phase] at advanced
      obtain ⟨-, same⟩ := Option.ite_none_right_eq_some.mp advanced
      cases same
      exact ⟨rfl, le_rfl⟩

/-- The account of the client's completions. -/
structure RcClient.Counted (client : RcClient) : Prop where
  inStep : client.InStep
  received : client.received ≤ client.arrived
  done : client.sendsDone ≤ client.sent
  drawn : client.received + client.sendsWaited ≤
    client.arrived + client.sendsDone

namespace RcClient.Counted

variable {client after : RcClient}

theorem initial : RcClient.initial.Counted where
  inStep := ⟨rfl, rfl, rfl⟩
  received := le_rfl
  done := le_rfl
  drawn := le_rfl

theorem advance (counted : client.Counted)
    (advanced : client.advance = some after) : after.Counted := by
  obtain ⟨inStep, received, done, drawn⟩ := counted
  cases phase : client.phase with
  | send =>
      simp only [RcClient.advance, phase, Option.some.injEq] at advanced
      simp only [InStep, phase] at inStep
      subst advanced
      exact ⟨⟨congrArg (· + 1) inStep.1, inStep.2⟩, received,
        done.trans (Nat.le_succ _), drawn⟩
  | sendWait =>
      simp only [RcClient.advance, phase] at advanced
      simp only [InStep, phase] at inStep
      obtain ⟨completed, same⟩ := Option.ite_none_right_eq_some.mp advanced
      cases same
      unfold Completed at completed
      refine ⟨⟨inStep.1, congrArg (· + 1) inStep.2.1, inStep.2.2⟩, received,
        done, ?_⟩
      simp only
      omega
  | post =>
      simp only [RcClient.advance, phase, Option.some.injEq] at advanced
      simp only [InStep, phase] at inStep
      subst advanced
      exact ⟨⟨inStep.1, inStep.2.1, congrArg (· + 1) inStep.2.2⟩, received,
        done, drawn⟩
  | receiveWait =>
      simp only [RcClient.advance, phase] at advanced
      simp only [InStep, phase] at inStep
      obtain ⟨completed, same⟩ := Option.ite_none_right_eq_some.mp advanced
      cases same
      unfold Completed at completed
      -- one completion for each send leaves the others to the receives
      refine ⟨inStep, ?_, done, ?_⟩ <;> simp only <;> omega

/-- The client has at most one unanswered request and waits for at most one
response. -/
theorem bounds (counted : client.Counted) :
    client.sent ≤ client.received + 1 ∧
      client.received ≤ client.sendsWaited ∧
      client.posted ≤ client.received + 2 := by
  have inStep := counted.inStep
  cases phase : client.phase <;>
    simp only [RcClient.InStep, phase] at inStep <;>
    omega

end RcClient.Counted

theorem rcSession_step_cases {before after : RcSession} {label : RcLabel}
    (stepTo : (rcSession messages).step before label = some after) :
    (∃ served server, label = .server served ∧ before.Sent served ∧
        (serving .rc messages).step before.server served = some server ∧
        after = { before with server := server }) ∨
      (label = .responseArrives ∧
        before.client.arrived < before.server.ring.sent ∧
        after =
          { before with client.arrived := before.client.arrived + 1 }) ∨
      (label = .sendDone ∧ before.client.sendsDone < before.client.sent ∧
        after =
          { before with client.sendsDone := before.client.sendsDone + 1 }) ∨
      ∃ client, label = .client ∧ before.client.advance = some client ∧
        after = { before with client := client } := by
  cases label with
  | server served =>
      obtain ⟨sent, moved⟩ := Option.ite_none_right_eq_some.mp stepTo
      obtain ⟨server, served', rfl⟩ := Option.map_eq_some_iff.mp moved
      exact .inl ⟨served, server, rfl, sent, served', rfl⟩
  | responseArrives =>
      obtain ⟨⟨sent, -⟩, same⟩ := Option.ite_none_right_eq_some.mp stepTo
      cases same
      exact .inr (.inl ⟨rfl, sent, rfl⟩)
  | sendDone =>
      obtain ⟨pending, same⟩ := Option.ite_none_right_eq_some.mp stepTo
      cases same
      exact .inr (.inr (.inl ⟨rfl, pending, rfl⟩))
  | client =>
      obtain ⟨client, advanced, rfl⟩ := Option.map_eq_some_iff.mp stepTo
      exact .inr (.inr (.inr ⟨client, rfl, advanced, rfl⟩))

/-- Nothing arrives on either side that the other has not sent. -/
structure RcSession.Paired (session : RcSession) : Prop where
  client : session.client.Counted
  requests : session.server.ring.queue.arrived ≤ session.client.sent
  responses : session.client.arrived ≤ session.server.ring.sent

namespace RcSession

variable {session : RcSession}

theorem server_reachable (reached : (rcSession messages).Reachable session) :
    (serving .rc messages).Reachable session.server := by
  induction reached with
  | start initial => exact .start (initial ▸ rfl)
  | next _ _ stepTo earlier =>
      rcases rcSession_step_cases stepTo with
        ⟨served, server, -, -, served', rfl⟩ | ⟨-, -, rfl⟩ | ⟨-, -, rfl⟩ |
          ⟨client, -, -, rfl⟩
      · exact .next earlier trivial served'
      all_goals exact earlier

theorem Paired.initial : RcSession.initial.Paired where
  client := .initial
  requests := le_rfl
  responses := le_rfl

theorem Paired.serve {server : ServeState (Fin 1)}
    {label : ServeLabel (Fin 1)} (paired : session.Paired)
    (sent : session.Sent label)
    (served : (serving .rc messages).step session.server label =
      some server) :
    Paired { session with server := server } := by
  obtain ⟨client, requests, responses⟩ := paired
  rcases serving_step_cases served with
    ⟨queue, rfl, delivered, rfl⟩ | ⟨-, -, rfl⟩ |
      ⟨worker, ring, next, -, serves, rfl⟩
  · obtain ⟨slot, -, rfl⟩ := ReceiveQueue.deliver_eq_some delivered
    exact ⟨client, sent, responses⟩
  · exact ⟨client, requests, responses⟩
  · refine ⟨client, ?_, responses.trans serves.sendsDone.2⟩
    rw [serves.arrived]
    exact requests

theorem Paired.of_reachable (reached : (rcSession messages).Reachable session) :
    session.Paired := by
  refine reached.invariant (fun _ initial => initial ▸ Paired.initial)
    fun before label after paired stepTo => ?_
  rcases rcSession_step_cases stepTo with
    ⟨served, server, -, sent, served', rfl⟩ | ⟨-, sent, rfl⟩ |
      ⟨-, pending, rfl⟩ | ⟨client, -, advanced, rfl⟩
  · exact paired.serve sent served'
  · obtain ⟨⟨inStep, received, done, drawn⟩, requests, responses⟩ := paired
    refine ⟨⟨inStep, received.trans (Nat.le_succ _), done, ?_⟩, requests,
      sent⟩
    simp only
    omega
  · obtain ⟨⟨inStep, received, done, drawn⟩, requests, responses⟩ := paired
    refine ⟨⟨inStep, received, pending, ?_⟩, requests, responses⟩
    simp only
    omega
  · obtain ⟨arrived, sent⟩ := RcClient.advance_frame advanced
    refine ⟨paired.client.advance advanced, paired.requests.trans sent, ?_⟩
    rw [arrived]
    exact paired.responses

/-- What the counts of completions say of a session: when `rc_receive_header`
has returned for a turn its request has arrived and is what the worker reads,
when the response is cleared all earlier ones have been sent, when
`rc_receive_response` has returned for an operation its response has arrived,
and neither the posted receives nor the completions exceed what the queues
hold. -/
structure Accounted (messages : Nat → Request) (session : RcSession) :
    Prop where
  header : session.server.ring.received ≤ session.server.ring.queue.arrived
  request : ∀ slot (turn : Nat),
    (session.server.phase 0).pointer = some (slot, turn) →
      session.server.ring.request messages slot = messages turn
  cleared : ∀ slot (turn : Nat),
    session.server.phase 0 = .switch slot turn →
      session.server.ring.sent = turn ∧
        session.server.ring.sendsDone = turn
  response : session.client.received ≤ session.client.arrived
  serverReceives : session.server.ring.postedReceives ≤ maxWr
  clientReceives : session.client.postedReceives ≤ maxWr
  serverCompletions : session.server.ring.unpolled ≤ cqCapacity
  clientCompletions : session.client.unpolled ≤ cqCapacity

theorem Paired.arrived_le (paired : session.Paired) :
    session.server.ring.queue.arrived ≤ session.server.ring.sent + 1 := by
  calc session.server.ring.queue.arrived ≤ session.client.sent :=
        paired.requests
    _ ≤ session.client.received + 1 := paired.client.bounds.1
    _ ≤ session.client.arrived + 1 :=
        Nat.succ_le_succ paired.client.received
    _ ≤ session.server.ring.sent + 1 := Nat.succ_le_succ paired.responses

end RcSession

/-- What is known of both sides of a session whose requests are for the
store. -/
structure RcSession.Balanced (session : RcSession) : Prop where
  paired : session.Paired
  counted : Counted .rc session.server
  preposted : Preposted .rc session.server
  round : RoundRing .rc session.server
  one : OneResponse session.server

namespace RcSession.Balanced

variable {session : RcSession}

theorem of_reachable
    (stored : ∀ number, (messages number).method.Stored)
    (reached : (rcSession messages).Reachable session) : session.Balanced := by
  have served := server_reachable reached
  have single : ConnectionType.rc ≠ .ud := by decide
  have known : ∀ number, (messages number).method ≠ .unk :=
    fun number => (stored number).ne_unk
  constructor
  · exact Paired.of_reachable reached
  · exact Counted.of_reachable (fun _ => inferInstance) served
  · exact Preposted.of_reachable single served
  · exact RoundRing.of_reachable single known served
  · exact OneResponse.of_reachable single stored served

variable (balanced : session.Balanced)
include balanced

theorem request_of_pointer {slot turn : Nat}
    (points : (session.server.phase 0).pointer = some (slot, turn)) :
    session.server.ring.request messages slot = messages turn := by
  have sent := ((balanced.one.answered 0).pointer points).2
  have arrived := balanced.paired.arrived_le
  have near : session.server.ring.queue.arrived ≤ turn + ringSize .rc := by
    simp only [ringSize, requestBacklog]
    omega
  have content := content_iff_of_cyclic balanced.counted (by decide)
    balanced.round.cyclic (balanced.preposted.pointed 0 slot turn points)
    (balanced.counted.turn_lt_arrived points)
  rw [ServeRing.request, content.mpr near]
  rfl

/-- When a response is cleared, all earlier ones have been sent: the
completions taken until then are more than the requests that have arrived. -/
theorem done_of_switch {slot turn : Nat}
    (clearing : session.server.phase 0 = .switch slot turn) :
    session.server.ring.sent = turn ∧
      session.server.ring.sendsDone = turn := by
  have answered := balanced.one.answered 0
  rw [clearing] at answered
  obtain ⟨begun, sent⟩ := answered
  have arrived := balanced.paired.arrived_le
  have waited := balanced.counted.waited (by decide) 0
  have received := balanced.counted.begun
  have drawn := balanced.one.drawn
  have done := balanced.counted.done
  rw [Fintype.sum_subsingleton _ (0 : Fin 1)] at received
  simp only [clearing, ServePhase.pendingSend, ServePhase.pendingTurn,
    ServeRing.Drawn] at waited received drawn
  exact ⟨sent, by omega⟩

theorem server_postedReceives_le :
    session.server.ring.postedReceives ≤ maxWr := by
  have posted := balanced.preposted.posted 0
  have received := balanced.counted.begun
  have bound := balanced.counted.received
  have pending := (session.server.phase 0).pendingPost_le
  simp only [ServeRing.postedReceives, posted, ringSize, requestBacklog,
    maxWr]
  omega

theorem client_postedReceives_le : session.client.postedReceives ≤ maxWr := by
  have bound := balanced.paired.client.bounds
  have received := balanced.paired.client.received
  simp only [RcClient.postedReceives, maxWr]
  omega

theorem server_unpolled_le : session.server.ring.unpolled ≤ cqCapacity := by
  have arrived := balanced.paired.arrived_le
  have begun := (balanced.one.answered 0).begun_bounds
  have waited := balanced.counted.waited (by decide) 0
  have received := balanced.counted.begun
  have done := balanced.counted.done
  have pending := (session.server.phase 0).pendingSend_le
  simp only [ServeRing.unpolled, cqCapacity]
  omega

theorem client_unpolled_le : session.client.unpolled ≤ cqCapacity := by
  have bound := balanced.paired.client.bounds
  have done := balanced.paired.client.done
  have responses := balanced.paired.responses
  have begun := (balanced.one.answered 0).begun_bounds
  have received := balanced.counted.begun
  have requests := balanced.counted.received.trans balanced.paired.requests
  simp only [RcClient.unpolled, cqCapacity]
  omega

end RcSession.Balanced

/-- Over RC, whatever the order of the completions, a client that sends one
request at a time and a worker that serves them find the counts of their
completions in step. -/
theorem rcSession_accounted (messages : Nat → Request)
    (stored : ∀ number, (messages number).method.Stored)
    {session : RcSession} (reached : (rcSession messages).Reachable session) :
    session.Accounted messages := by
  have balanced := RcSession.Balanced.of_reachable stored reached
  constructor
  case header => exact balanced.counted.received
  case request => exact fun _ _ points => balanced.request_of_pointer points
  case cleared => exact fun _ _ clearing => balanced.done_of_switch clearing
  case response => exact balanced.paired.client.received
  case serverReceives => exact balanced.server_postedReceives_le
  case clientReceives => exact balanced.client_postedReceives_le
  case serverCompletions => exact balanced.server_unpolled_le
  case clientCompletions => exact balanced.client_unpolled_le

/-- One operation in which each wait of the client takes the completion meant
for the other. -/
def swappedLabels : List RcLabel :=
  [[.client, .server .arrive],
    List.replicate 8 (.server (.work (Fin.last 0))),
    [.responseArrives, .client, .client, .sendDone, .client]].flatten

theorem accounted_after_swappedLabels :
    ∃ session, (rcSession fun _ => .make .set [97] [1]).run .initial
        swappedLabels = some session ∧ session.client.received = 1 ∧
      session.Accounted fun _ => .make .set [97] [1] := by
  obtain ⟨session, runTo, finished⟩ := Option.map_eq_some_iff.mp
    (show ((rcSession fun _ => .make .set [97] [1]).run .initial
        swappedLabels).map (fun session => session.client.received) =
      some 1 by decide)
  exact ⟨session, runTo, finished, rcSession_accounted
    (fun _ => .make .set [97] [1]) (fun _ => by decide)
    (TransitionSystem.reachable_of_run (.start rfl) runTo)⟩

end RdmaKVStore
