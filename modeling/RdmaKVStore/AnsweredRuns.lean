import RdmaKVStore.ResponseCount
import RdmaKVStore.SessionEnd

/-!
# Answers while requests arrive

The worker of an RDMA connection with its response buffer, the store and the
responses that it sends, while requests arrive at any time.  A request that
arrives in the slot of one that has not been executed replaces it, a worker that
has taken the completion of a receive for that of its response clears the
response before it has been sent, and a close flag ends the session early.
Otherwise every request gets one response, as over TCP when `read` returns whole
requests.
-/

namespace RdmaKVStore

variable {Store : Type*}

def StoreHandlers.run (handlers : StoreHandlers Store) (method : Method)
    (request : Request) (store : Store) : Store × Response :=
  match method with
  | .set => handlers.setRequest request Response.zero store
  | .get => handlers.getRequest request Response.zero store
  | .del => handlers.delRequest request Response.zero store
  | .rst =>
      (handlers.initHashtable store, { Response.zero with code := .ok })
  | .unk | .ping | .dump | .exit | .setopt => (store, Response.zero)

theorem StoreHandlers.run_self (handlers : StoreHandlers Store)
    (request : Request) (store : Store) :
    handlers.run request.method request store =
      handlers.switch request store :=
  rfl

/-- The worker of a connection with its response buffer, the store, and the
responses posted. -/
structure AnsweringState (Worker Store : Type*) where
  closing : ClosingState Worker
  store : Store
  response : Response
  sent : List Response

namespace AnsweringState

variable {Worker : Type*} [DecidableEq Worker]

def initial (type : ConnectionType) (store : Store) :
    AnsweringState Worker Store where
  closing := .initial type
  store := store
  response := .zero
  sent := []

variable (handlers : StoreHandlers Store) (type : ConnectionType)
variable (messages : Nat → Request) (state : AnsweringState Worker Store)

def request (slot : Nat) : Request :=
  state.closing.serve.ring.request (state.closing.found messages) slot

/-- `send_response_to_client` -/
def send (response : Response) : AnsweringState Worker Store :=
  { state with response := response, sent := state.sent ++ [response] }

def handle (method : Method) (request : Request) :
    AnsweringState Worker Store :=
  { state with
    store := (handlers.run method request state.store).1
    response := (handlers.run method request state.store).2 }

/-- What a step of the worker does besides its step in the ring: the dispatcher
answers, the method switch handles RST itself, a handler runs, or the response
is sent.  The handler is that of the method that the switch has read. -/
def effect (worker : Worker) : AnsweringState Worker Store :=
  match state.closing.serve.phase worker with
  | .dispatch slot _ =>
      if (state.request messages slot).Kills type then state
      else match dispatchReply (state.request messages slot) with
        | none => state
        | some reply => state.send reply
  | .switch slot _ =>
      if (state.request messages slot).method.Handled then
        { state with response := .zero }
      else
        state.handle handlers (state.request messages slot).method
          (state.request messages slot)
  | .handle slot _ =>
      state.handle handlers
        ((state.closing.handled worker).elim Request.zero
          (state.closing.found messages)).method
        (state.request messages slot)
  | .respond => state.send state.response
  | .prepare | .receive | .current | .dispatchWait _ _ | .exitWait
  | .check _ _ | .respondWait | .ended => state

/-- The state after a step of `closing`. -/
def advance (closing : ClosingState Worker) :
    ServeLabel Worker → AnsweringState Worker Store
  | .arrive | .sendDone => { state with closing := closing }
  | .work worker =>
      if state.closing.started worker then
        { state.effect handlers type messages worker with closing := closing }
      else { state with closing := closing }

end AnsweringState

/-- The worker of a connection, with its responses. -/
def answering {Worker : Type*} [DecidableEq Worker]
    (handlers : StoreHandlers Store) (type : ConnectionType)
    (messages : Nat → Request) (store : Store) :
    TransitionSystem (AnsweringState Worker Store) (ServeLabel Worker) where
  initial state := state = .initial type store
  step state label :=
    ((closing type messages).step state.closing label).map fun closing =>
      state.advance handlers type messages closing label

/-- The worker clears its response next. -/
def ServePhase.Clears : ServePhase → Prop
  | .switch _ _ => True
  | .prepare | .receive | .current | .dispatch _ _ | .dispatchWait _ _
  | .exitWait | .check _ _ | .handle _ _ | .respond | .respondWait
  | .ended => False

instance (phase : ServePhase) : Decidable phase.Clears :=
  match phase with
  | .switch _ _ => isTrue trivial
  | .prepare | .receive | .current | .dispatch _ _ | .dispatchWait _ _
  | .exitWait | .check _ _ | .handle _ _ | .respond | .respondWait
  | .ended => isFalse id

/-- A message arrives while the worker is in its loop and the slot is not that
of a request still to be executed, the worker clears its response only when the
earlier ones have been sent, and it finds a close flag only when it has answered
all messages. -/
def Answerable {Worker : Type*} (type : ConnectionType)
    (messages : Nat → Request) (state : AnsweringState Worker Store) :
    ServeLabel Worker → Prop
  | .arrive =>
      state.closing.serve.ring.queue.arrived <
          state.closing.serve.ring.begun + ringSize type ∧
        ∀ worker, state.closing.serve.phase worker ≠ .ended ∧
          ∀ place ∈ (state.closing.serve.phase worker).pointer,
            state.closing.serve.ring.queue.arrived < place.2 + ringSize type
  | .sendDone => True
  | .work worker =>
      ((state.closing.serve.phase worker).Clears →
        state.closing.serve.ring.sent ≤ state.closing.serve.ring.sendsDone) ∧
      (state.closing.serve.phase worker = .respondWait →
        (state.request messages 0).Asks →
          state.closing.serve.ring.queue.arrived =
            state.closing.serve.ring.begun)

instance {Worker : Type*} [Fintype Worker] (type : ConnectionType)
    (messages : Nat → Request) (state : AnsweringState Worker Store)
    (label : ServeLabel Worker) :
    Decidable (Answerable type messages state label) :=
  match label with
  | .arrive => inferInstanceAs (Decidable (_ ∧ ∀ _, _ ∧ _))
  | .sendDone => isTrue trivial
  | .work _ => inferInstanceAs (Decidable ((_ → _) ∧ (_ → _ → _)))

def AnsweringState.firstMessages {Worker : Type*} (messages : Nat → Request)
    (state : AnsweringState Worker Store) (count : Nat) : List Request :=
  (List.range count).map (state.closing.found messages)

/-- A worker that has begun a turn and has not sent its response. -/
def ServePhase.owes : ServePhase → Nat
  | .dispatch _ _ | .dispatchWait _ _ | .exitWait | .check _ _ | .switch _ _
  | .handle _ _ | .respond => 1
  | .prepare | .receive | .current | .respondWait | .ended => 0

/-- The responses posted are those to the first messages, each with the code
decided for its message, and one for each turn; until a response has been sent
the worker's buffer holds it; and when the worker has left its loop, or waits
and nothing is under way, all messages have been answered. -/
structure AnsweredInOrder {Worker : Type*} (handlers : StoreHandlers Store)
    (type : ConnectionType) (messages : Nat → Request) (store : Store)
    (state : AnsweringState Worker Store) : Prop where
  codes : ∀ sockets, state.sent.map Response.code =
    decidedCodes handlers store sockets
      (state.firstMessages messages state.sent.length)
  each : ∀ worker, state.sent.length +
    (state.closing.serve.phase worker).owes = state.closing.serve.ring.begun
  posted : state.closing.serve.ring.sent = state.sent.length
  stable : ∀ (number : Nat) response, state.sent[number]? = some response →
    state.closing.serve.ring.sendsDone ≤ number → state.response = response
  complete : ∀ worker,
    state.closing.serve.phase worker = .ended ∨
        state.closing.serve.phase worker = .receive ∧
          ¬ state.closing.serve.ring.ReceiveCompleted type ∧
          state.closing.serve.ring.sendsDone = state.closing.serve.ring.sent →
      state.sent.length = state.closing.serve.ring.queue.arrived

/-- The worker has cleared its response and has not posted it yet. -/
def ServePhase.Fills : ServePhase → Prop
  | .handle _ _ | .respond => True
  | .prepare | .receive | .current | .dispatch _ _ | .dispatchWait _ _
  | .exitWait | .check _ _ | .switch _ _ | .respondWait | .ended => False

def Method.LeftToWorker (method : Method) : Prop :=
  ¬ method.Dispatched ∧ method ≠ .exit

theorem Method.LeftToWorker.dispatchReply {request : Request}
    (left : request.method.LeftToWorker) : dispatchReply request = none := by
  cases method : request.method with
  | ping => exact absurd (.inl method) left.1
  | setopt => exact absurd (.inr (.inl method)) left.1
  | unk => exact absurd (.inr (.inr method)) left.1
  | exit => exact absurd method left.2
  | _ => simp only [RdmaKVStore.dispatchReply, method]

theorem Method.LeftToWorker.survives {request : Request}
    (left : request.method.LeftToWorker) (type : ConnectionType) :
    ¬ request.Kills type :=
  fun kills => left.1 (.inr (.inl kills.2.1))

namespace AnsweringState

variable {Worker : Type*} [DecidableEq Worker]

/-- Where a worker stands with its answers: it has answered all its turns, is
about to execute the message of its turn, has executed it, or has left its loop
after the last message. -/
def Due (handlers : StoreHandlers Store) (messages : Nat → Request)
    (store : Store) (state : AnsweringState Worker Store) (worker : Worker) :
    ServePhase → Prop
  | .prepare | .receive | .current | .respondWait =>
      state.sent.length = state.closing.serve.ring.begun ∧
        state.store = handlers.storeAfter store
          (state.firstMessages messages state.sent.length)
  | .dispatch _ turn | .check _ turn | .switch _ turn =>
      turn = state.sent.length ∧
        state.closing.serve.ring.begun = state.sent.length + 1 ∧
        state.store = handlers.storeAfter store
          (state.firstMessages messages state.sent.length)
  | .handle _ turn =>
      turn = state.sent.length ∧
        state.closing.serve.ring.begun = state.sent.length + 1 ∧
        state.store = handlers.storeAfter store
          (state.firstMessages messages state.sent.length) ∧
        state.closing.handled worker = some turn
  | .respond =>
      state.closing.serve.ring.begun = state.sent.length + 1 ∧
        state.store = handlers.storeAfter store
          (state.firstMessages messages (state.sent.length + 1)) ∧
        ∀ socket, state.response.code = decidedCode handlers
          (state.closing.found messages state.sent.length) socket
          (handlers.storeAfter store
            (state.firstMessages messages state.sent.length))
  | .ended =>
      state.sent.length = state.closing.serve.ring.begun ∧
        state.closing.serve.ring.queue.arrived =
          state.closing.serve.ring.begun
  | .dispatchWait _ _ | .exitWait => False

/-- The response buffer: a worker that has cleared it and not posted it yet has
no response under way, and one that has not been sent is still in it. -/
structure Held (sent : List Response) (response : Response)
    (ring : ServeRing Worker) (phase : ServePhase) : Prop where
  posted : ring.sent = sent.length
  stable : ∀ (number : Nat) posted, sent[number]? = some posted →
    ring.sendsDone ≤ number → response = posted
  cleared : phase.Fills → ring.sent ≤ ring.sendsDone

/-- The invariant of the runs in which every message is answered. -/
structure Answers (handlers : StoreHandlers Store) (type : ConnectionType)
    (messages : Nat → Request) (store : Store)
    (state : AnsweringState Worker Store) : Prop where
  followed : ClosingState.Followed type messages state.closing
  fresh : ∀ worker, state.closing.started worker = false →
    state.closing.serve.ring.begun = 0
  window : state.closing.serve.ring.queue.arrived ≤
    state.closing.serve.ring.begun + ringSize type
  pointed : ∀ worker,
    ∀ place ∈ (state.closing.serve.phase worker).pointer,
      state.closing.serve.ring.queue.arrived ≤ place.2 + ringSize type
  codes : ∀ sockets, state.sent.map Response.code =
    decidedCodes handlers store sockets
      (state.firstMessages messages state.sent.length)
  due : ∀ worker, state.Due handlers messages store worker
    (state.closing.serve.phase worker)
  held : ∀ worker, Held state.sent state.response state.closing.serve.ring
    (state.closing.serve.phase worker)

variable {handlers : StoreHandlers Store} {type : ConnectionType}
variable {messages : Nat → Request} {store : Store}
variable {state : AnsweringState Worker Store} {worker : Worker}

omit [DecidableEq Worker] in
theorem firstMessages_succ (count : Nat) :
    state.firstMessages messages (count + 1) =
      state.firstMessages messages count ++
        [state.closing.found messages count] := by
  rw [firstMessages, List.range_succ, List.map_append]
  rfl

omit [DecidableEq Worker] in
theorem storeAfter_succ (count : Nat) :
    handlers.storeAfter store (state.firstMessages messages (count + 1)) =
      (handlers.switch (state.closing.found messages count)
        (handlers.storeAfter store
          (state.firstMessages messages count))).1 := by
  rw [firstMessages_succ, StoreHandlers.storeAfter, List.foldl_append]
  rfl

theorem decidedCode_of_left {request : Request}
    (left : request.method.LeftToWorker) (socket : SocketReport)
    (store : Store) :
    decidedCode handlers request socket store =
      (handlers.switch request store).2.code := by
  rw [decidedCode, (dispatchCodes_eq_nil_iff socket left.2).mpr left.1]
  rfl

namespace Held

variable {sent : List Response} {response : Response}
variable {ring after : ServeRing Worker} {phase next : ServePhase}

omit [DecidableEq Worker] in
theorem keep (held : Held sent response ring phase)
    (posted : after.sent = ring.sent)
    (done : ring.sendsDone ≤ after.sendsDone) (fills : next.Fills → phase.Fills) :
    Held sent response after next where
  posted := posted.trans held.posted
  stable number other found unsent :=
    held.stable number other found (done.trans unsent)
  cleared filling := by
    have before := held.cleared (fills filling)
    omega

omit [DecidableEq Worker] in
/-- With no response under way the worker may write to the buffer. -/
theorem rewrite (held : Held sent response ring phase)
    (done : ring.sent ≤ ring.sendsDone) (other : Response)
    (next : ServePhase) : Held sent other ring next where
  posted := held.posted
  stable number response found unsent := by
    have inside := (List.getElem?_eq_some_iff.mp found).1
    have posted := held.posted
    omega
  cleared _ := done

omit [DecidableEq Worker] in
theorem post (held : Held sent response ring .respond) :
    Held (sent ++ [response]) response ring.postSend .respondWait where
  posted := by
    rw [List.length_append, List.length_singleton, ← held.posted]
    rfl
  stable number other found unsent := by
    have done := held.cleared trivial
    have posted := held.posted
    have inside := (List.getElem?_eq_some_iff.mp found).1
    rw [List.length_append, List.length_singleton] at inside
    obtain rfl : number = sent.length := by
      simp only [ServeRing.postSend] at unsent
      omega
    rw [List.getElem?_concat_length, Option.some.injEq] at found
    exact found
  cleared fills := fills.elim

end Held

namespace Answers

theorem initial : Answers handlers type messages store
    (.initial type store : AnsweringState Worker Store) where
  followed := .initial
  fresh _ _ := rfl
  window := Nat.zero_le _
  pointed _ _ member := by cases member
  codes _ := rfl
  due _ := ⟨rfl, rfl⟩
  held _ := ⟨rfl, fun _ _ found => (by cases found), fun _ => le_rfl⟩

variable [Fintype Worker] [Subsingleton Worker]

theorem request_of_pointer
    (left : ∀ number, (messages number).method.LeftToWorker)
    (answers : Answers handlers type messages store state)
    {slot turn : Nat}
    (points : (state.closing.serve.phase worker).pointer =
      some (slot, turn)) :
    state.request messages slot = state.closing.found messages turn ∧
      state.closing.serve.ring.queue.slots slot = some turn := by
  have known : type = .ud ∨ ∀ number,
      (state.closing.found messages number).method ≠ .unk :=
    .inr fun number => by
      rw [ClosingState.found_method]
      exact fun unk => (left number).1 (.inr (.inr unk))
  obtain ⟨-, -, content⟩ := content_of_pointer (fun _ => inferInstance) known
    answers.followed.reached points
    (answers.pointed worker (slot, turn) points)
  exact ⟨by rw [request, ServeRing.request, content]; rfl, content⟩

theorem due_work (left : ∀ number, (messages number).method.LeftToWorker)
    (answers : Answers handlers type messages store state)
    (guarded : Answerable type messages state (.work worker))
    {ring : ServeRing Worker} {next : ServePhase}
    (advanced : state.closing.serve.ring.advance type
      (state.closing.found messages) worker
      (state.closing.serve.phase worker) = some (ring, next))
    {after : AnsweringState Worker Store}
    (same : after = { state.effect handlers type messages worker with
      closing := state.closing.record
        ⟨ring, Function.update state.closing.serve.phase worker next⟩
        (.work worker) }) :
    (∀ sockets, after.sent.map Response.code =
      decidedCodes handlers store sockets
        (after.firstMessages messages after.sent.length)) ∧
      after.Due handlers messages store worker next := by
  have due := answers.due worker
  have codes := answers.codes
  have foundLeft (number : Nat) :
      (state.closing.found messages number).method.LeftToWorker := by
    rw [ClosingState.found_method]
    exact left number
  have content : ∀ slot (turn : Nat),
      (state.closing.serve.phase worker).pointer = some (slot, turn) →
        state.request messages slot = state.closing.found messages turn ∧
          state.closing.serve.ring.queue.slots slot = some turn :=
    fun _ _ => answers.request_of_pointer left
  subst same
  cases phase : state.closing.serve.phase worker with
  | prepare =>
      rw [phase] at due advanced
      cases advanced
      simp only [effect, phase]
      refine ⟨codes, ?_, due.2⟩
      simp only [ClosingState.record]
      split <;> exact due.1
  | receive =>
      rw [phase] at due advanced
      obtain ⟨-, moved⟩ := Option.ite_none_right_eq_some.mp advanced
      cases moved
      simp only [effect, phase]
      exact ⟨codes, due⟩
  | current =>
      rw [phase] at due advanced
      obtain ⟨-, moved⟩ := Option.ite_none_left_eq_some.mp advanced
      cases moved
      simp only [effect, phase]
      exact ⟨codes, due.1.symm, congrArg (· + 1) due.1.symm, due.2⟩
  | dispatch slot turn =>
      obtain ⟨here, -⟩ := content slot turn (by rw [phase]; rfl)
      rw [phase] at due advanced
      have survives := (foundLeft turn).survives type
      have silent := (foundLeft turn).dispatchReply
      rw [← here] at survives silent
      have passes : state.closing.serve.ring.advance type
          (state.closing.found messages) worker (.dispatch slot turn) =
            some (state.closing.serve.ring, .check slot turn) :=
        ServeRing.advance_of_silent survives silent
      cases passes.symm.trans advanced
      simp only [effect, phase, if_neg survives, silent]
      exact ⟨codes, due⟩
  | check slot turn =>
      obtain ⟨here, -⟩ := content slot turn (by rw [phase]; rfl)
      rw [phase] at due advanced
      cases advanced
      simp only [effect, phase]
      refine ⟨codes, due.1, ?_, due.2.2⟩
      simp only [ClosingState.record]
      split <;> exact due.2.1
  | switch slot turn =>
      obtain ⟨here, holds⟩ := content slot turn (by rw [phase]; rfl)
      rw [phase] at due advanced
      obtain ⟨rfl, begun, stored⟩ := due
      simp only [ServeRing.advance, Option.some.injEq, Prod.mk.injEq]
        at advanced
      obtain ⟨rfl, rfl⟩ := advanced
      by_cases handled : (state.request messages slot).method.Handled
      · simp only [effect, phase, if_pos handled]
        rw [if_pos (show (state.closing.serve.ring.request
          (state.closing.found messages) slot).method.Handled from handled)]
        refine ⟨codes, rfl, begun, stored, ?_⟩
        simp only [ClosingState.record, ClosingState.switched, phase,
          Function.update_self]
        exact holds
      · simp only [effect, phase, if_neg handled]
        rw [if_neg (show ¬ (state.closing.serve.ring.request
          (state.closing.found messages) slot).method.Handled from handled)]
        have ran : handlers.run (state.request messages slot).method
              (state.request messages slot) state.store =
            handlers.switch (state.closing.found messages state.sent.length)
              (handlers.storeAfter store
                (state.firstMessages messages state.sent.length)) := by
          rw [StoreHandlers.run_self, here, stored]
        refine ⟨codes, begun, ?_, fun socket => ?_⟩
        · exact (congrArg Prod.fst ran).trans (storeAfter_succ _).symm
        · exact (congrArg (Response.code ∘ Prod.snd) ran).trans
            (decidedCode_of_left (foundLeft _) socket _).symm
  | handle slot turn =>
      obtain ⟨here, -⟩ := content slot turn (by rw [phase]; rfl)
      rw [phase] at due advanced
      cases advanced
      obtain ⟨rfl, begun, stored, handled⟩ := due
      simp only [effect, phase, handled]
      have ran : handlers.run
            (state.closing.found messages state.sent.length).method
            (state.request messages slot) state.store =
          handlers.switch (state.closing.found messages state.sent.length)
            (handlers.storeAfter store
              (state.firstMessages messages state.sent.length)) := by
        rw [here, StoreHandlers.run_self, stored]
      refine ⟨codes, begun, ?_, fun socket => ?_⟩
      · exact (congrArg Prod.fst ran).trans (storeAfter_succ _).symm
      · exact (congrArg (Response.code ∘ Prod.snd) ran).trans
          (decidedCode_of_left (foundLeft _) socket _).symm
  | respond =>
      rw [phase] at due advanced
      cases advanced
      obtain ⟨begun, stored, code⟩ := due
      simp only [effect, phase, send]
      have length : (state.sent ++ [state.response]).length =
          state.sent.length + 1 := List.length_append
      refine ⟨fun sockets => ?_, ?_, ?_⟩
      · simp only [length]
        refine Eq.trans ?_ (congrArg (decidedCodes handlers store sockets)
          (firstMessages_succ state.sent.length)).symm
        rw [decidedCodes_concat, List.map_append, codes sockets,
          List.map_singleton, code (sockets (state.firstMessages messages
            state.sent.length).length)]
        rfl
      · exact length.trans begun.symm
      · simp only [length]
        exact stored
  | respondWait =>
      rw [phase] at due advanced
      obtain ⟨-, moved⟩ := Option.ite_none_right_eq_some.mp advanced
      cases moved
      simp only [effect, phase]
      refine ⟨codes, ?_⟩
      split
      · next asks => exact ⟨due.1, guarded.2 phase asks⟩
      · exact due
  | dispatchWait | exitWait =>
      rw [phase] at due
      exact due.elim
  | ended =>
      rw [phase] at advanced
      cases advanced

theorem held_work (left : ∀ number, (messages number).method.LeftToWorker)
    (answers : Answers handlers type messages store state)
    (guarded : Answerable type messages state (.work worker))
    {ring : ServeRing Worker} {next : ServePhase}
    (advanced : state.closing.serve.ring.advance type
      (state.closing.found messages) worker
      (state.closing.serve.phase worker) = some (ring, next)) :
    Held (state.effect handlers type messages worker).sent
      (state.effect handlers type messages worker).response ring next := by
  have held := answers.held worker
  have clears := guarded.1
  cases phase : state.closing.serve.phase worker with
  | prepare =>
      rw [phase] at held advanced
      cases advanced
      simp only [effect, phase]
      split <;> exact held.keep rfl le_rfl id
  | receive =>
      rw [phase] at held advanced
      obtain ⟨-, moved⟩ := Option.ite_none_right_eq_some.mp advanced
      cases moved
      simp only [effect, phase]
      exact held.keep rfl le_rfl id
  | current =>
      rw [phase] at held advanced
      obtain ⟨-, moved⟩ := Option.ite_none_left_eq_some.mp advanced
      cases moved
      simp only [effect, phase]
      exact held.keep rfl le_rfl id
  | dispatch slot turn =>
      obtain ⟨here, -⟩ := answers.request_of_pointer left
        (show (state.closing.serve.phase worker).pointer = some (slot, turn)
          by rw [phase]; rfl)
      rw [phase] at held advanced
      have found : (state.closing.found messages turn).method.LeftToWorker := by
        rw [ClosingState.found_method]
        exact left turn
      have survives := found.survives type
      have silent := found.dispatchReply
      rw [← here] at survives silent
      have passes : state.closing.serve.ring.advance type
          (state.closing.found messages) worker (.dispatch slot turn) =
            some (state.closing.serve.ring, .check slot turn) :=
        ServeRing.advance_of_silent survives silent
      cases passes.symm.trans advanced
      simp only [effect, phase, if_neg survives, silent]
      exact held.keep rfl le_rfl id
  | check slot turn =>
      rw [phase] at held advanced
      cases advanced
      simp only [effect, phase]
      split <;> exact held.keep rfl le_rfl id
  | switch slot turn =>
      rw [phase] at held advanced clears
      cases advanced
      simp only [effect, phase]
      split <;> exact held.rewrite (clears trivial) _ _
  | handle slot turn =>
      rw [phase] at held advanced
      cases advanced
      simp only [effect, phase]
      exact held.rewrite (held.cleared trivial) _ _
  | respond =>
      rw [phase] at held advanced
      cases advanced
      simp only [effect, phase]
      exact held.post
  | respondWait =>
      rw [phase] at held advanced
      obtain ⟨-, moved⟩ := Option.ite_none_right_eq_some.mp advanced
      cases moved
      simp only [effect, phase]
      refine held.keep rfl le_rfl ?_
      split <;> exact False.elim
  | dispatchWait | exitWait =>
      have due := answers.due worker
      rw [phase] at due
      exact due.elim
  | ended =>
      rw [phase] at advanced
      cases advanced

omit [Fintype Worker] in
theorem start (answers : Answers handlers type messages store state)
    (fresh : state.closing.started worker = false) :
    Answers handlers type messages store
      { state with closing := state.closing.start type worker } := by
  have none := answers.fresh worker fresh
  have due := answers.due worker
  rw [(answers.followed.fresh worker fresh).1] at due
  have silent : state.sent = [] := List.eq_nil_of_length_eq_zero
    (due.1.trans none)
  obtain ⟨-, stored⟩ := due
  rw [silent] at stored
  refine ⟨answers.followed.start_step fresh, fun _ _ => none, answers.window,
    answers.pointed, fun sockets => ?_, fun other => ?_, answers.held⟩
  · rw [silent]
    rfl
  · obtain rfl := Subsingleton.elim worker other
    have atHead : (state.closing.start type worker).serve.phase worker =
        .prepare := (answers.followed.fresh worker fresh).1
    rw [atHead]
    refine ⟨?_, ?_⟩
    · rw [silent]
      exact none.symm
    · rw [silent]
      exact stored

theorem work (left : ∀ number, (messages number).method.LeftToWorker)
    (answers : Answers handlers type messages store state)
    (guarded : Answerable type messages state (.work worker))
    (started : state.closing.started worker = true)
    {ring : ServeRing Worker} {next : ServePhase}
    (advanced : state.closing.serve.ring.advance type
      (state.closing.found messages) worker
      (state.closing.serve.phase worker) = some (ring, next))
    {after : AnsweringState Worker Store}
    (followed : ClosingState.Followed type messages after.closing)
    (same : after = { state.effect handlers type messages worker with
      closing := state.closing.record
        ⟨ring, Function.update state.closing.serve.phase worker next⟩
        (.work worker) }) :
    Answers handlers type messages store after := by
  obtain ⟨codes, due⟩ := answers.due_work left guarded advanced same
  have serves := ServeRing.advance_serves advanced
  obtain ⟨begun, pointer⟩ := serves.pointer_cases
  have window := answers.window
  have serve : after.closing.serve =
      ⟨ring, Function.update state.closing.serve.phase worker next⟩ := by
    rw [same]
    rfl
  have starteds : after.closing.started = state.closing.started := by
    rw [same]
    rfl
  have held := answers.held_work left guarded advanced
  refine ⟨followed, fun other fresh => ?_, ?_, fun other => ?_, codes,
    fun other => ?_, fun other => ?_⟩
  · obtain rfl := Subsingleton.elim worker other
    rw [starteds, started] at fresh
    cases fresh
  · rw [serve]
    simp only [serves.arrived]
    omega
  · obtain rfl := Subsingleton.elim worker other
    rw [serve]
    simp only [Function.update_self, serves.arrived]
    rintro ⟨slot, turn⟩ points
    rcases pointer slot turn points with old | ⟨-, rfl, -⟩
    · exact answers.pointed worker (slot, turn) old
    · exact window
  · obtain rfl := Subsingleton.elim worker other
    rw [serve]
    simpa only [Function.update_self] using due
  · obtain rfl := Subsingleton.elim worker other
    rw [serve]
    simp only [same, Function.update_self]
    exact held

theorem step (left : ∀ number, (messages number).method.LeftToWorker)
    (answers : Answers handlers type messages store state)
    {label : ServeLabel Worker} {after : AnsweringState Worker Store}
    (guarded : Answerable type messages state label)
    (stepTo : (answering handlers type messages store).step state label =
      some after) :
    Answers handlers type messages store after := by
  obtain ⟨closing, stepped, rfl⟩ := Option.map_eq_some_iff.mp stepTo
  have followed := answers.followed.step (fun _ => inferInstance) stepped
  rcases ClosingState.step_cases stepped with
    ⟨worker, rfl, fresh, rfl⟩ | ⟨served, started, served', rfl⟩
  · have onward : state.advance handlers type messages
        (state.closing.start type worker) (.work worker) =
          { state with closing := state.closing.start type worker } := by
      rw [advance, fresh]
      rfl
    rw [onward]
    exact answers.start fresh
  cases label with
  | sendDone =>
      obtain ⟨-, same⟩ := Option.ite_none_right_eq_some.mp served'
      cases same
      exact ⟨followed, answers.fresh, answers.window, answers.pointed,
        answers.codes, fun worker => answers.due worker,
        fun worker => (answers.held worker).keep rfl (Nat.le_succ _) id⟩
  | arrive =>
      obtain ⟨queue, delivered, rfl⟩ := Option.map_eq_some_iff.mp served'
      obtain ⟨slot, -, rfl⟩ := ReceiveQueue.deliver_eq_some delivered
      obtain ⟨room, apart⟩ := guarded
      refine ⟨followed, answers.fresh, room,
        fun worker place points => (apart worker).2 place points,
        answers.codes, fun worker => ?_,
        fun worker => (answers.held worker).keep rfl le_rfl id⟩
      have due := answers.due worker
      obtain ⟨loops, -⟩ := apart worker
      simp only [advance, ClosingState.record]
      generalize state.closing.serve.phase worker = phase at due loops
      cases phase with
      | ended => exact absurd rfl loops
      | _ => exact due
  | work worker =>
      obtain ⟨ring, next, advanced, rfl⟩ := serving_work served'
      have onward (closing : ClosingState Worker) :
          state.advance handlers type messages closing (.work worker) =
            { state.effect handlers type messages worker with
              closing := closing } := by
        rw [advance, started worker rfl]
        rfl
      rw [onward]
      exact answers.work left guarded (started worker rfl) advanced followed rfl

theorem answeredInOrder [Nonempty Worker]
    (answers : Answers handlers type messages store state) :
    AnsweredInOrder handlers type messages store state := by
  have held := answers.held (Classical.arbitrary Worker)
  have counted := Counted.of_reachable (fun _ => inferInstance)
    answers.followed.reached
  refine ⟨answers.codes, fun worker => ?_, held.posted, held.stable,
    fun worker finished => ?_⟩
  · have due := answers.due worker
    generalize state.closing.serve.phase worker = phase at due ⊢
    cases phase with
    | prepare | receive | current | respondWait | ended => exact due.1
    | dispatch | check | switch | handle => exact due.2.1.symm
    | respond => exact due.1.symm
    | dispatchWait | exitWait => exact due.elim
  · have due := answers.due worker
    rcases finished with ended | ⟨waits, idle, settled⟩
    · rw [ended] at due
      exact due.1.trans due.2.symm
    · rw [waits] at due
      have received := counted.received
      have begun := counted.begun
      rw [Fintype.sum_subsingleton _ worker, waits] at begun
      simp only [ServePhase.pendingTurn, Nat.add_zero] at begun
      suffices all : state.closing.serve.ring.queue.arrived ≤
          state.closing.serve.ring.received by
        have same := due.1
        omega
      by_cases shared : type = .ud
      · subst shared
        exact not_lt.mp idle
      · have waited := counted.waited shared worker
        rw [waits] at waited
        simp only [ServePhase.pendingSend, Nat.add_zero] at waited
        rw [ServeRing.receiveCompleted_iff shared] at idle
        omega

end Answers

end AnsweringState

def setThenDump : List Request :=
  [.make .set [97] [1], .make .dump [] []]

def setThenGets (number : Nat) : Request :=
  if number = 0 then .make .set [97] [1] else .make .get [97] []

/-- Two messages arrive before the worker starts, and it handles the first. -/
def twoWaitingLabels {Worker : Type*} (worker : Worker) :
    List (ServeLabel Worker) :=
  [.arrive, .arrive] ++ List.replicate 9 (.work worker) ++
    [.sendDone, .work worker]

end RdmaKVStore
