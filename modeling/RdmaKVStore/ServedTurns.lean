import RdmaKVStore.ReceiveRing
import RdmaKVStore.ServeSteps

/-!
# Turns as steps

The session of `main_job` takes a whole turn at once, and the workers of a ring
take it in steps between which the adapter gets in.  This file shows that the
turns of an RDMA session are runs of its worker: each message arrives while the
worker waits for it, and the other workers of a UD server stay where they are.
-/

namespace RdmaKVStore

variable {Worker Store : Type*} [DecidableEq Worker]
variable {type : ConnectionType} {messages : Nat → Request}

def standing (phases : Worker → ServePhase) (worker : Worker)
    (ring : ServeRing Worker) (phase : ServePhase) : ServeState Worker where
  ring := ring
  phase := Function.update phases worker phase

structure ServeRing.Settled (ring : ServeRing Worker) : Prop where
  running : ring.exited = false
  received : ring.received = ring.queue.arrived
  sendsDone : ring.sendsDone = ring.sent
  sendsWaited : ring.sendsWaited = ring.sent

/-- The ring once a response has been sent and its completion taken. -/
def ServeRing.answered (ring : ServeRing Worker) : ServeRing Worker :=
  { ring with
    sent := ring.sent + 1
    sendsDone := ring.sendsDone + 1
    sendsWaited := ring.sendsWaited + 1 }

/-- The session has the slots of the ring, the worker's place in it and its
`lock`. -/
structure Session.OnRing (messages : Nat → Request) (session : Session Store)
    (ring : ServeRing Worker) : Prop where
  postings : ring.queue.postings = session.queue.postings
  arrived : ring.queue.arrived = session.queue.arrived
  slots : ∀ slot, ring.request messages slot = session.queue.slots slot
  requestCount : ring.requestCount = session.requestCount
  lock : ring.lock.isSome = session.locked

/-- At the head of the loop a slot is posted for the next message, or one will
be before the worker waits; over UD the worker may have kept `lock`. -/
structure Session.Supplied (session : Session Store) : Prop where
  bounded : session.queue.arrived ≤ session.queue.postings.length
  posted : session.type = .ud → session.locked = false →
    session.queue.arrived < session.queue.postings.length
  shared : session.locked = true → session.type = .ud

def arrivals (messages : Nat → Request) : Nat → List SocketReport →
    List Receipt
  | _, [] => []
  | number, socket :: sockets =>
      .arrival (messages number) socket ::
        arrivals messages (number + 1) sockets

/-- The turns of a session in the steps of a worker: for each, the worker comes
to read the slot of the turn and finds the request that the turn serves; then
it sends as many responses. -/
inductive ServedTurns (type : ConnectionType) (messages : Nat → Request)
    (worker : Worker) :
    ServeState Worker → List Turn → ServeState Worker → Prop
  | nil {state : ServeState Worker} :
      ServedTurns type messages worker state [] state
  | cons {before reading after last : ServeState Worker} {turn : Turn}
      {turns : List Turn} {number : Nat}
      (receives : (serving type messages).Leads before reading)
      (reads : reading.phase worker = .dispatch turn.current number)
      (serves : ∀ request ∈ turn.served,
        reading.ring.request messages turn.current = request)
      (answers : (serving type messages).Leads reading after)
      (counted : after.ring.sent = before.ring.sent + turn.responses.length)
      (later : ServedTurns type messages worker after turns last) :
      ServedTurns type messages worker before (turn :: turns) last

theorem ServedTurns.reachable {worker : Worker}
    {before last : ServeState Worker} {turns : List Turn}
    (served : ServedTurns type messages worker before turns last)
    (reached : (serving type messages).Reachable before) :
    (serving type messages).Reachable last := by
  induction served with
  | nil => exact reached
  | cons receives _ _ answers _ _ ih =>
      exact ih (answers.reachable (receives.reachable reached))

section Steps

variable {phases : Worker → ServePhase} {worker : Worker}
variable {ring after : ServeRing Worker} {phase next waits : ServePhase}

theorem leads_work (running : ring.exited = false)
    (advanced : ring.advance type messages worker phase =
      some (after, next)) :
    (serving type messages).Leads (standing phases worker ring phase)
      (standing phases worker after next) := by
  refine .step (.work worker) ?_
  simp only [serving, standing, running, Function.update_self, advanced,
    Function.update_idem]
  rfl

theorem leads_arrive {queue : ReceiveQueue (Option Nat)}
    (delivered : ring.queue.deliver (some ring.queue.arrived) = some queue) :
    (serving type messages).Leads (standing phases worker ring phase)
      (standing phases worker { ring with queue := queue } phase) := by
  refine .step .arrive ?_
  simp only [serving, standing, delivered]
  rfl

theorem leads_sendDone (pending : ring.sendsDone < ring.sent) :
    (serving type messages).Leads (standing phases worker ring phase)
      (standing phases worker { ring with sendsDone := ring.sendsDone + 1 }
        phase) :=
  .step .sendDone (if_pos pending)

omit [DecidableEq Worker] in
theorem ServeRing.Settled.answered (settled : ring.Settled) :
    ring.answered.Settled where
  running := settled.running
  received := settled.received
  sendsDone := congrArg (· + 1) settled.sendsDone
  sendsWaited := congrArg (· + 1) settled.sendsWaited

/-- The worker posts a response, the response completes, and the worker goes on
behind the wait for it. -/
theorem ServeRing.Settled.leads_send (settled : ring.Settled)
    (posts : ring.advance type messages worker phase =
      some (ring.postSend, waits))
    (takes :
      let sent := { ring.postSend with sendsDone := ring.sendsDone + 1 }
      sent.SendCompleted type →
        sent.advance type messages worker waits = some (after, next)) :
    (serving type messages).Leads (standing phases worker ring phase)
      (standing phases worker after next) := by
  have pending : ring.postSend.sendsDone < ring.postSend.sent := by
    simp only [postSend, settled.sendsDone, Nat.lt_succ_self]
  have completed : { ring.postSend with
      sendsDone := ring.sendsDone + 1 }.SendCompleted type := by
    have received := settled.received
    have done := settled.sendsDone
    have waited := settled.sendsWaited
    cases type <;> simp only [SendCompleted, postSend] <;> omega
  exact (leads_work settled.running posts).trans ((leads_sendDone pending).trans
    (leads_work settled.running (takes completed)))

theorem ServeRing.Settled.leads_respond (settled : ring.Settled)
    {slot turn : Nat} :
    (serving type messages).Leads
      (standing phases worker ring (.switch slot turn))
      (standing phases worker ring.answered
        (if (ring.request messages 0).connectionClose ≠ 0 then .ended
          else .prepare)) := by
  have respond : (serving type messages).Leads
      (standing phases worker ring .respond)
      (standing phases worker ring.answered
        (if (ring.request messages 0).connectionClose ≠ 0 then .ended
          else .prepare)) :=
    settled.leads_send rfl fun completed => if_pos completed
  have switch : ring.advance type messages worker (.switch slot turn) =
      some (ring, if (ring.request messages slot).method.Handled then
        .handle slot turn else .respond) := rfl
  refine (leads_work settled.running switch).trans ?_
  split
  · exact (leads_work settled.running rfl).trans respond
  · exact respond

theorem ServeRing.Settled.leads_check (settled : ring.Settled)
    (phases : Worker → ServePhase) (worker : Worker) {slot : Nat} (turn : Nat)
    (socket : SocketReport)
    (stays : (ring.request messages slot).method ≠ .exit)
    (survived : ¬ (ring.request messages slot).Kills type) :
    ∃ asked : ServeRing Worker,
      (serving type messages).Leads
        (standing phases worker ring (.dispatch slot turn))
        (standing phases worker asked (.check slot turn)) ∧
      asked.queue = ring.queue ∧ asked.requestCount = ring.requestCount ∧
      asked.lock = ring.lock ∧ asked.Settled ∧
      asked.sent = ring.sent +
        (dispatchCodes (ring.request messages slot) socket).length := by
  by_cases silent : dispatchReply (ring.request messages slot) = none
  · refine ⟨ring, leads_work settled.running
      (ServeRing.advance_of_silent survived silent), rfl, rfl, rfl, settled, ?_⟩
    have none : dispatchCodes (ring.request messages slot) socket = [] := by
      cases method : (ring.request messages slot).method <;>
        simp_all [dispatchReply, dispatchCodes]
    rw [none, List.length_nil, Nat.add_zero]
  · have posts : ring.advance type messages worker (.dispatch slot turn) =
        some (ring.postSend, .dispatchWait slot turn) := by
      obtain ⟨reply, answered⟩ := Option.ne_none_iff_exists'.mp silent
      rw [advance_of_answered survived answered, if_neg stays]
    have one : (dispatchCodes (ring.request messages slot)
        socket).length = 1 := by
      cases method : (ring.request messages slot).method <;>
        simp_all [dispatchReply, dispatchCodes]
      split_ifs <;> rfl
    exact ⟨ring.answered, settled.leads_send posts
      fun completed => if_pos completed, rfl, rfl, rfl, settled.answered,
      by rw [one]; rfl⟩

end Steps

namespace Session

variable {session other : Session Store} {ring : ServeRing Worker}

omit [DecidableEq Worker] in
theorem OnRing.of_frame (onRing : session.OnRing messages ring)
    (same : other.frame = session.frame) : other.OnRing messages ring := by
  simp only [frame, Prod.mk.injEq] at same
  obtain ⟨-, queue, count, locked⟩ := same
  exact
    { postings := by rw [onRing.postings, queue]
      arrived := by rw [onRing.arrived, queue]
      slots := fun slot => by rw [onRing.slots, queue]
      requestCount := by rw [onRing.requestCount, count]
      lock := by rw [onRing.lock, locked] }

theorem Supplied.of_frame (supplied : session.Supplied)
    (same : other.frame = session.frame) : other.Supplied := by
  simp only [frame, config, Prod.mk.injEq] at same
  obtain ⟨⟨type, -⟩, queue, -, locked⟩ := same
  exact
    { bounded := by rw [queue]; exact supplied.bounded
      posted := by rw [type, queue, locked]; exact supplied.posted
      shared := by rw [type, locked]; exact supplied.shared }

omit [DecidableEq Worker] in
theorem OnRing.prepare (onRing : session.OnRing messages ring)
    (rdma : session.type ≠ .tcp) :
    session.prepareForNextRequest.OnRing messages
      (if session.type = .ud then ring else ring.postReceive) := by
  cases type : session.type with
  | tcp => exact absurd type rdma
  | ud => simpa only [prepareForNextRequest, type, if_true] using onRing
  | rc | uc =>
      simp only [prepareForNextRequest, type, reduceCtorEq, if_false]
      exact
        { onRing with
          postings := by
            simp only [ServeRing.postReceive, ReceiveQueue.post,
              onRing.postings, onRing.requestCount] }

theorem Supplied.next_prepared (supplied : session.Supplied)
    (rdma : session.type ≠ .tcp) (unlocked : session.locked = false) :
    ∃ slot, session.prepareForNextRequest.queue.next = some slot := by
  have posted : session.prepareForNextRequest.queue.arrived <
      session.prepareForNextRequest.queue.postings.length := by
    cases type : session.type with
    | tcp => exact absurd type rdma
    | ud =>
        simp only [prepareForNextRequest, type]
        exact supplied.posted type unlocked
    | rc | uc =>
        simp only [prepareForNextRequest, type, ReceiveQueue.post,
          List.length_append, List.length_singleton]
        exact Nat.lt_succ_of_le supplied.bounded
  exact ⟨_, List.getElem?_eq_getElem posted⟩

omit [DecidableEq Worker] in
/-- A message that arrives on the ring is the next one in its slot. -/
theorem OnRing.deliver (onRing : session.OnRing messages ring) {slot : Nat}
    (next : session.queue.next = some slot) :
    ∃ queue, ring.queue.deliver (some ring.queue.arrived) = some queue ∧
      (session.arrive (some (messages session.queue.arrived))).OnRing messages
        { ring with queue := queue } := by
  have waited : ring.queue.next = some slot := by
    rw [ReceiveQueue.next, onRing.postings, onRing.arrived]
    exact next
  refine ⟨_, by rw [ReceiveQueue.deliver, waited, Option.map_some], ?_⟩
  simp only [arrive, ReceiveQueue.deliver, next, Option.map_some,
    Option.getD_some]
  refine
    { onRing with
      arrived := congrArg (· + 1) onRing.arrived
      slots := fun other => ?_ }
  by_cases same : other = slot
  · subst same
    simp only [ServeRing.request, Function.update_self, Option.elim_some,
      onRing.arrived]
  · simp only [ServeRing.request, Function.update_of_ne same]
    exact onRing.slots other

theorem arrived_prepareForNextRequest :
    session.prepareForNextRequest.queue.arrived = session.queue.arrived := by
  unfold prepareForNextRequest
  split <;> rfl

omit [DecidableEq Worker] in
/-- Over UD the turn begins under `lock`, which the session takes when the
message arrives. -/
theorem OnRing.beginTurn {message : Request}
    (onRing : (session.arrive (some message)).OnRing messages ring)
    (rdma : session.type ≠ .tcp) (worker : Worker) :
    (session.landed message).OnRing messages
      (ring.takeReceive.beginTurn session.type worker) := by
  cases type : session.type with
  | tcp => exact absurd type rdma
  | rc | uc =>
      simp only [landed, type]
      exact
        { onRing with
          lock := by
            simpa [ServeRing.beginTurn, ServeRing.takeReceive] using
              onRing.lock }
  | ud =>
      simp only [landed, type]
      exact { onRing with lock := rfl }

/-- Up to the dispatcher the worker waits for the next message and then looks
at its own slot. -/
theorem OnRing.leads_dispatch (onRing : session.OnRing messages ring)
    (rdma : session.type ≠ .tcp) (settled : ring.Settled)
    (supplied : session.Supplied) (unlocked : session.locked = false)
    (phases : Worker → ServePhase) (worker : Worker) :
    ∃ reading : ServeRing Worker,
      (serving session.type messages).Leads
        (standing phases worker ring .prepare)
        (standing phases worker reading
          (.dispatch session.requestCount ring.begun)) ∧
      (session.prepareForNextRequest.landed
        (messages session.queue.arrived)).OnRing messages reading ∧
      reading.Settled ∧ reading.sent = ring.sent := by
  set prepared : ServeRing Worker :=
    if session.type = .ud then ring else ring.postReceive with preparedEq
  have onPrepared := onRing.prepare rdma
  rw [← preparedEq] at onPrepared
  have kept : prepared.Settled ∧ prepared.sent = ring.sent ∧
      prepared.begun = ring.begun ∧ prepared.lock = ring.lock := by
    rw [preparedEq]
    split
    · exact ⟨settled, rfl, rfl, rfl⟩
    · exact ⟨⟨settled.running, settled.received, settled.sendsDone,
        settled.sendsWaited⟩, rfl, rfl, rfl⟩
  obtain ⟨settled', sent, begun, lock⟩ := kept
  obtain ⟨slot, next⟩ := supplied.next_prepared rdma unlocked
  obtain ⟨queue, delivered, onQueue⟩ := onPrepared.deliver next
  rw [arrived_prepareForNextRequest] at onQueue
  set filled : ServeRing Worker := { prepared with queue := queue }
  have arrived : queue.arrived = prepared.queue.arrived + 1 := by
    obtain ⟨target, -, rfl⟩ := ReceiveQueue.deliver_eq_some delivered
    rfl
  have type : session.prepareForNextRequest.type = session.type :=
    congrArg Prod.fst (config_prepareForNextRequest session)
  have received := settled'.received
  have done := settled'.sendsDone
  have waited := settled'.sendsWaited
  have completed : filled.ReceiveCompleted session.type := by
    cases session.type <;>
      simp only [ServeRing.ReceiveCompleted, filled] <;> omega
  have free : ¬ (session.type = .ud ∧ filled.takeReceive.lock.isSome) := by
    rintro ⟨-, held⟩
    have taken : ring.lock.isSome = true := lock ▸ held
    rw [onRing.lock, unlocked] at taken
    cases taken
  have count : filled.takeReceive.requestCount = session.requestCount :=
    onPrepared.requestCount.trans requestCount_prepareForNextRequest
  refine ⟨filled.takeReceive.beginTurn session.type worker, ?_, ?_, ?_, sent⟩
  · have takes : filled.advance session.type messages worker .receive =
        some (filled.takeReceive, .current) := if_pos completed
    have begins : filled.takeReceive.advance session.type messages worker
        .current = some (filled.takeReceive.beginTurn session.type worker,
          .dispatch session.requestCount ring.begun) := by
      rw [ServeRing.advance, if_neg free, count]
      simp only [ServeRing.takeReceive, filled, begun]
    have running : filled.exited = false := settled'.running
    exact (leads_work settled.running rfl).trans ((leads_arrive delivered).trans
      ((leads_work running takes).trans (leads_work running begins)))
  · rw [← type]
    exact onQueue.beginTurn (type ▸ rdma) worker
  · exact
      { running := settled'.running
        received := (congrArg (· + 1) received).trans arrived.symm
        sendsDone := done
        sendsWaited := waited }

theorem Supplied.landed (supplied : session.Supplied)
    (rdma : session.type ≠ .tcp) (unlocked : session.locked = false)
    (message : Request) :
    (session.prepareForNextRequest.landed message).Supplied ∧
      (session.prepareForNextRequest.landed message).queue.arrived =
        session.queue.arrived + 1 ∧
      ((session.prepareForNextRequest.landed message).locked = true ↔
        session.type = .ud) := by
  obtain ⟨slot, next⟩ := supplied.next_prepared rdma unlocked
  have room := (List.getElem?_eq_some_iff.mp next).1
  have arrived := session.arrived_prepareForNextRequest
  have locked : session.prepareForNextRequest.locked = false :=
    locked_prepareForNextRequest.trans unlocked
  have type : session.prepareForNextRequest.type = session.type :=
    congrArg Prod.fst (config_prepareForNextRequest session)
  generalize session.prepareForNextRequest = prepared at *
  rw [← type] at rdma ⊢
  cases kind : prepared.type with
  | tcp => exact absurd kind rdma
  | ud =>
      simp only [Session.landed, kind, arrive, ReceiveQueue.deliver,
        show prepared.queue.next = some slot from next]
      exact ⟨⟨room, fun _ free => (by cases free), fun _ => rfl⟩,
        congrArg (· + 1) arrived, trivial⟩
  | rc | uc =>
      simp only [Session.landed, kind, arrive, ReceiveQueue.deliver,
        show prepared.queue.next = some slot from next]
      refine ⟨⟨room, fun shared => ?_, fun held => ?_⟩,
        congrArg (· + 1) arrived, ?_⟩
      · simp at shared
      · simp [locked] at held
      · simp [locked]

theorem requestCount_landed (message : Request) :
    (session.landed message).requestCount = session.requestCount := by
  unfold Session.landed
  split <;> rfl

/-- A slot that is posted again keeps the adapter supplied. -/
theorem Supplied.ready (supplied : session.Supplied)
    (held : session.locked = true ↔ session.type = .ud) :
    session.readyForNextRequest.Supplied ∧
      session.readyForNextRequest.queue.arrived = session.queue.arrived ∧
      session.readyForNextRequest.locked = false := by
  cases type : session.type with
  | ud =>
      simp only [readyForNextRequest, type, ReceiveQueue.post]
      refine ⟨⟨?_, fun _ _ => ?_, fun taken => (by cases taken)⟩, trivial,
        trivial⟩
      all_goals
        simp only [List.length_append, List.length_singleton]
        have bounded := supplied.bounded
        omega
  | tcp | rc | uc =>
      have unlocked : session.locked = false := by simpa [type] using held
      simp only [readyForNextRequest, type]
      exact ⟨⟨supplied.bounded, fun shared => (by cases shared),
        fun taken => by simp [unlocked] at taken⟩, trivial, unlocked⟩

omit [DecidableEq Worker] in
theorem OnRing.ready (onRing : session.OnRing messages ring)
    (rdma : session.type ≠ .tcp) :
    session.readyForNextRequest.OnRing messages
      (ring.readyForNextRequest session.type) := by
  cases type : session.type with
  | tcp => exact absurd type rdma
  | ud =>
      simp only [readyForNextRequest, type, ServeRing.readyForNextRequest,
        if_true, ringSize]
      exact
        { onRing with
          postings := by
            simp only [ReceiveQueue.post, onRing.postings, onRing.requestCount]
          requestCount := by rw [onRing.requestCount]
          lock := rfl }
  | rc | uc =>
      simp only [readyForNextRequest, type, ServeRing.readyForNextRequest,
        reduceCtorEq, if_false, ringSize]
      exact { onRing with requestCount := by rw [onRing.requestCount] }

omit [DecidableEq Worker] in
theorem OnRing.of_ring {other : ServeRing Worker}
    (onRing : session.OnRing messages ring) (queue : other.queue = ring.queue)
    (count : other.requestCount = ring.requestCount)
    (lock : other.lock = ring.lock) : session.OnRing messages other where
  postings := by rw [queue, onRing.postings]
  arrived := by rw [queue, onRing.arrived]
  slots slot := by
    rw [← onRing.slots, ServeRing.request, queue, ServeRing.request]
  requestCount := by rw [count, onRing.requestCount]
  lock := by rw [lock, onRing.lock]

omit [DecidableEq Worker] in
theorem OnRing.getCurrentRequest (onRing : session.OnRing messages ring) :
    ring.request messages ring.requestCount = session.getCurrentRequest := by
  rw [onRing.slots, onRing.requestCount, Session.getCurrentRequest]

/-- How a turn ends once the dispatcher has left the request to the worker:
`after` is the session behind `ready_for_next_request`. -/
theorem OnRing.leads_loopTest {after : Session Store} {turn : Nat}
    (onRing : session.OnRing messages ring) (rdma : session.type ≠ .tcp)
    (settled : ring.Settled) (supplied : session.Supplied)
    (held : session.locked = true ↔ session.type = .ud) {slot : Nat}
    (frame : after.frame =
      (if (ring.request messages slot).method ≠ .unk then
        session.readyForNextRequest else session).frame)
    (phases : Worker → ServePhase) (worker : Worker) :
    ∃ last : ServeRing Worker,
      (serving session.type messages).Leads
        (standing phases worker ring (.check slot turn))
        (standing phases worker last
          (if after.isConnectionClosed then .ended else .prepare)) ∧
      last.sent = ring.sent + 1 ∧ after.OnRing messages last ∧
      last.Settled ∧ after.Supplied ∧
      after.queue.arrived = session.queue.arrived := by
  set ready : ServeRing Worker :=
    if (ring.request messages slot).method ≠ .unk then
      ring.readyForNextRequest session.type else ring with readyEq
  have checked : ring.advance session.type messages worker
      (.check slot turn) = some (ready, .switch slot turn) := rfl
  have onReady : after.OnRing messages ready ∧ ready.Settled ∧
      ready.sent = ring.sent ∧ after.Supplied ∧
      after.queue.arrived = session.queue.arrived := by
    rw [readyEq]
    split at frame
    · next known =>
        obtain ⟨supplied', arrived, -⟩ := supplied.ready held
        rw [if_pos known]
        refine ⟨(onRing.ready rdma).of_frame frame, ?_, rfl,
          supplied'.of_frame frame, ?_⟩
        · exact
            { running := settled.running
              received := settled.received.trans (by
                simp only [ServeRing.readyForNextRequest]
                split <;> rfl)
              sendsDone := settled.sendsDone
              sendsWaited := settled.sendsWaited }
        · rw [← arrived]
          simp only [Session.frame, Prod.mk.injEq] at frame
          rw [frame.2.1]
    · next unknown =>
        rw [if_neg unknown]
        refine ⟨onRing.of_frame frame, settled, rfl,
          supplied.of_frame frame, ?_⟩
        simp only [Session.frame, Prod.mk.injEq] at frame
        rw [frame.2.1]
  obtain ⟨onReady, settled', sent, supplied', arrived⟩ := onReady
  have closed : (if after.isConnectionClosed then ServePhase.ended
      else .prepare) = if (ready.request messages 0).connectionClose ≠ 0 then
        .ended else .prepare := by
    simp only [isConnectionClosed, onReady.slots, decide_eq_true_eq]
  refine ⟨ready.answered, ?_, congrArg (· + 1) sent,
    onReady.of_ring rfl rfl rfl, settled'.answered, supplied', arrived⟩
  rw [closed]
  exact (leads_work settled.running checked).trans settled'.leads_respond

/-- One turn on a message that arrives while the worker waits is a run of the
worker through its loop. -/
theorem OnRing.mainTurn_leads (handlers : StoreHandlers Store)
    (onRing : session.OnRing messages ring) (rdma : session.type ≠ .tcp)
    (settled : ring.Settled) (supplied : session.Supplied)
    (unlocked : session.locked = false) (socket : SocketReport)
    (phases : Worker → ServePhase) (worker : Worker) :
    ∃ turn after ended,
      ∃ (reading last : ServeRing Worker) (number : Nat),
      session.mainTurn handlers
        (.arrival (messages session.queue.arrived) socket) =
          some (turn, after, ended) ∧
      (serving session.type messages).Leads
        (standing phases worker ring .prepare)
        (standing phases worker reading (.dispatch turn.current number)) ∧
      (∀ request ∈ turn.served,
        reading.request messages turn.current = request) ∧
      (serving session.type messages).Leads
        (standing phases worker reading (.dispatch turn.current number))
        (standing phases worker last (if ended then .ended else .prepare)) ∧
      last.sent = ring.sent + turn.responses.length ∧
      (ended = false → after.OnRing messages last ∧ last.Settled ∧
        after.Supplied ∧ after.type = session.type ∧
        after.queue.arrived = session.queue.arrived + 1) := by
  obtain ⟨reading, receives, onReading, settled', sent⟩ :=
    onRing.leads_dispatch rdma settled supplied unlocked phases worker
  obtain ⟨supplied', arrived, held⟩ :=
    supplied.landed rdma unlocked (messages session.queue.arrived)
  have type : (session.prepareForNextRequest.landed
      (messages session.queue.arrived)).type = session.type :=
    congrArg Prod.fst
      (config_landed.trans (config_prepareForNextRequest session))
  have count : session.prepareForNextRequest.requestCount =
      session.requestCount := requestCount_prepareForNextRequest
  generalize requestEq : (session.prepareForNextRequest.landed
    (messages session.queue.arrived)).getCurrentRequest = request
  have current : reading.request messages session.requestCount = request := by
    rw [← requestEq, ← onReading.getCurrentRequest, onReading.requestCount,
      requestCount_landed, count]
  by_cases ends : request.method = .exit ∨ request.Kills session.type
  · obtain ⟨responses, after, turned, counted⟩ :=
      mainTurn_exits handlers socket unlocked requestEq ends
    by_cases kills : request.Kills session.type
    · refine ⟨_, after, true, reading, { reading with exited := true }, _,
        turned, count ▸ receives, fun _ served => (by cases served), ?_, ?_,
        fun goesOn => (by cases goesOn)⟩
      · refine leads_work settled'.running ?_
        rw [ServeRing.advance, count, current, if_pos kills]
        rfl
      · rw [counted, if_pos kills, Nat.add_zero, ← sent]
    · refine ⟨_, after, true, reading, { reading.answered with exited := true },
        _, turned, count ▸ receives, fun _ served => (by cases served), ?_, ?_,
        fun goesOn => (by cases goesOn)⟩
      · have posts : reading.advance session.type messages worker
            (.dispatch session.requestCount ring.begun) =
              some (reading.postSend, .exitWait) := by
          rw [ServeRing.advance, current, if_neg kills,
            ends.resolve_right kills]
        rw [count]
        exact settled'.leads_send posts fun completed => if_pos completed
      · rw [counted, if_neg kills, ← sent]
        rfl
  · obtain ⟨stays, survived⟩ := not_or.mp ends
    obtain ⟨responses, after, turned, codes, -, frame⟩ :=
      mainTurn_arrival handlers socket unlocked requestEq stays survived
    obtain ⟨asked, answers, queue, asking, lock, settled'', counted⟩ :=
      settled'.leads_check phases worker ring.begun socket (current ▸ stays)
        (current ▸ survived)
    have same : asked.request messages session.requestCount = request := by
      rw [← current, ServeRing.request, queue, ServeRing.request]
    rw [← same] at frame
    obtain ⟨last, ends, one, onLast, settledLast, suppliedLast, kept⟩ :=
      (onReading.of_ring queue asking lock).leads_loopTest (type ▸ rdma)
        settled'' supplied' (type ▸ held) frame phases worker
    rw [type] at ends
    refine ⟨_, after, _, reading, last, _, turned, count ▸ receives, ?_,
      ?_, ?_, fun _ => ⟨onLast, settledLast, suppliedLast, ?_, ?_⟩⟩
    · rintro served ⟨⟩
      rw [count, current]
    · rw [count]
      exact answers.trans ends
    · rw [one, counted, sent, List.length_append, current, ← codes,
        List.length_map]
      rfl
    · exact congrArg Prod.fst (config_mainTurn handlers turned)
    · rw [kept, arrived]

theorem mainTurn_of_locked (handlers : StoreHandlers Store)
    (shared : session.type = .ud) (held : session.locked = true)
    (receipt : Receipt) : session.mainTurn handlers receipt = none := by
  simp only [mainTurn, recvRequest, receiveHeader, prepareForNextRequest,
    shared, udReceiveHeader, held, true_or, if_true, Option.map_none]

theorem OnRing.mainLoop_serves (handlers : StoreHandlers Store)
    (onRing : session.OnRing messages ring) (rdma : session.type ≠ .tcp)
    (settled : ring.Settled) (supplied : session.Supplied)
    (phases : Worker → ServePhase) (worker : Worker)
    (sockets : List SocketReport) :
    ∃ last, ServedTurns session.type messages worker
      (standing phases worker ring .prepare)
      (session.mainLoop handlers
        (arrivals messages session.queue.arrived sockets)) last := by
  induction sockets generalizing session ring with
  | nil => exact ⟨_, .nil⟩
  | cons socket sockets ih =>
      cases locked : session.locked with
      | true =>
          -- after UNK a UD worker waits for the `lock` that it holds
          rw [arrivals, mainLoop, mainTurn_of_locked handlers
            (supplied.shared locked) locked]
          exact ⟨_, .nil⟩
      | false =>
          obtain ⟨turn, after, ended, reading, middle, number, turned,
              receives, serves, answers, counted, goesOn⟩ :=
            onRing.mainTurn_leads handlers rdma settled supplied locked socket
              phases worker
          have reads : (standing phases worker reading
              (.dispatch turn.current number)).phase worker =
                .dispatch turn.current number := Function.update_self _ _ _
          rw [arrivals, mainLoop, turned]
          cases ended with
          | true => exact ⟨_, .cons receives reads serves answers counted .nil⟩
          | false =>
              obtain ⟨onMiddle, settled', supplied', type, arrived⟩ :=
                goesOn rfl
              obtain ⟨last, later⟩ := ih onMiddle (type ▸ rdma) settled'
                supplied'
              rw [type, arrived] at later
              exact ⟨last, .cons receives reads serves answers counted later⟩

theorem mainJob_serves (handlers : StoreHandlers Store) (rdma : type ≠ .tcp)
    (blocking : Bool) (store : Store) (messages : Nat → Request)
    (worker : Worker) (sockets : List SocketReport) :
    ∃ last, (serving type messages).Reachable last ∧
      ServedTurns type messages worker (.initial type)
        ((accepted type blocking store).mainJob handlers
          (arrivals messages 0 sockets)) last := by
  have size : 0 < ringSize type := by cases type <;> decide
  have onRing : (accepted type blocking store).OnRing messages
      (ServeRing.initial type : ServeRing Worker) :=
    { postings := (if_neg rdma).symm
      arrived := rfl
      slots := fun _ => rfl
      requestCount := rfl
      lock := rfl }
  have supplied : (accepted type blocking store).Supplied :=
    { bounded := Nat.zero_le _
      posted := fun _ _ => by
        simpa only [accepted, if_neg rdma, List.length_range] using size
      shared := fun taken => by cases taken }
  obtain ⟨last, turns⟩ := onRing.mainLoop_serves handlers rdma
    ⟨rfl, rfl, rfl, rfl⟩ supplied (fun _ => .prepare) worker sockets
  have initial : standing (fun _ => .prepare) worker (.initial type) .prepare =
      ServeState.initial type := by
    rw [standing, Function.update_eq_self]
    rfl
  rw [initial] at turns
  refine ⟨last, turns.reachable (.start rfl), ?_⟩
  rw [mainJob, start_of_open rfl]
  exact turns

end Session

end RdmaKVStore
