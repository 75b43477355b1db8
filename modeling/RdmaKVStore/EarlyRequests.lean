import RdmaKVStore.ReceiveRing

/-!
# Early requests

A client that sends its next request after the answer to the last one may be
faster than the worker: over RDMA the request can be in its slot before the
worker has come back to the head of its loop, and the first one before the
worker has taken its first step.  Over TCP the bytes wait for `read`.
-/

namespace RdmaKVStore

variable {Store : Type*} {session base : Session Store} {index : Nat}

/-- A request on its way to the server, and whether it arrives before the
worker comes back to the head of its loop. -/
structure Delivery where
  request : Request
  socket : SocketReport
  early : Bool

namespace Session

/-- The next request arrives early, if it does. -/
def receiveEarly (session : Session Store) : List Delivery → Session Store
  | [] => session
  | delivery :: _ =>
      if delivery.early ∧ session.type ≠ .tcp then
        session.arrive (some delivery.request)
      else session

/-- A receive step in which the request arrives, or has arrived. -/
def receipt (session : Session Store) (delivery : Delivery) : Receipt :=
  { Receipt.arrival delivery.request delivery.socket with
    message :=
      if delivery.early ∧ session.type ≠ .tcp then none
      else some delivery.request }

variable (handlers : StoreHandlers Store)

def serveAll : Session Store → List Delivery → List Turn × Session Store
  | session, [] => ([], session)
  | session, delivery :: deliveries =>
      match session.mainTurn handlers (session.receipt delivery) with
      | none => ([], session)
      | some (turn, after, _) =>
          let next := after.receiveEarly deliveries
          if turn.served = none ∨ next.isConnectionClosed then ([turn], next)
          else
            let (turns, last) := serveAll next deliveries
            (turn :: turns, last)

/-- `main_job` on the deliveries. -/
def serveJob (session : Session Store) (deliveries : List Delivery) :
    List Turn × Session Store :=
  (session.receiveEarly deliveries).start.serveAll handlers deliveries

variable {handlers}

theorem arrive_of_deliver {queue : ReceiveQueue Request} {message : Request}
    (delivered : session.queue.deliver message = some queue) :
    session.arrive (some message) = { session with queue := queue } := by
  rw [arrive, delivered]
  rfl

theorem exists_deliver {slot : Nat} (next : session.queue.next = some slot)
    (message : Request) :
    ∃ queue, session.queue.deliver message = some queue :=
  ⟨_, by rw [ReceiveQueue.deliver, next, Option.map_some]⟩

theorem receiveHeader_of_early {queue : ReceiveQueue Request}
    {message : Request} (rdma : session.type ≠ .tcp)
    (delivered : session.queue.deliver message = some queue)
    (socket : SocketReport) :
    (session.arrive (some message)).prepareForNextRequest.receiveHeader
        { Receipt.arrival message socket with message := none } =
      session.prepareForNextRequest.receiveHeader
        (.arrival message socket) := by
  rw [arrive_of_deliver delivered]
  cases type : session.type with
  | tcp => exact absurd type rdma
  | rc | uc =>
      have posted := ReceiveQueue.deliver_post delivered session.requestCount
      simp only [prepareForNextRequest, type, receiveHeader, rdmaReceiveHeader,
        Receipt.arrival, arrive, posted, Option.getD_some]
  | ud =>
      simp only [prepareForNextRequest, type, receiveHeader, udReceiveHeader,
        rdmaReceiveHeader, Receipt.arrival, arrive, delivered,
        Option.getD_some]
      rfl

/-- An early request is served in the turn that it would have been served
in. -/
theorem mainTurn_receiveEarly (delivery : Delivery)
    (deliveries : List Delivery)
    (deliverable : session.type ≠ .tcp →
      ∃ queue, session.queue.deliver delivery.request = some queue) :
    (session.receiveEarly (delivery :: deliveries)).mainTurn handlers
        ((session.receiveEarly (delivery :: deliveries)).receipt delivery) =
      session.mainTurn handlers
        (.arrival delivery.request delivery.socket) := by
  by_cases early : delivery.early ∧ session.type ≠ .tcp
  · obtain ⟨queue, delivered⟩ := deliverable early.2
    have arrived := arrive_of_deliver delivered
    have receipt : (session.arrive (some delivery.request)).receipt delivery =
        { Receipt.arrival delivery.request delivery.socket with
          message := none } := by
      rw [arrived]
      simp only [Session.receipt, if_pos early]
    have count : (session.arrive
        (some delivery.request)).prepareForNextRequest.requestCount =
          session.prepareForNextRequest.requestCount := by
      rw [requestCount_prepareForNextRequest,
        requestCount_prepareForNextRequest, arrived]
    have received : (session.arrive
        (some delivery.request)).prepareForNextRequest.recvRequest
          { Receipt.arrival delivery.request delivery.socket with
            message := none } =
        session.prepareForNextRequest.recvRequest
          (.arrival delivery.request delivery.socket) := by
      rw [recvRequest, recvRequest,
        receiveHeader_of_early early.2 delivered delivery.socket]
    rw [receiveEarly, if_pos early, receipt, mainTurn, mainTurn, received,
      count]
  · simp only [receiveEarly, if_neg early, receipt]
    rfl

/-- The next message asks for the end of the session and is put into the first
slot before the worker tests for it. -/
def EndsEarly (type : ConnectionType) (index : Nat)
    (deliveries : List Delivery) : Prop :=
  ∃ next ∈ deliveries.head?, (next.early ∧ type ≠ .tcp) ∧
    next.request.Closes type index

instance (type : ConnectionType) (index : Nat) (deliveries : List Delivery) :
    Decidable (EndsEarly type index deliveries) :=
  inferInstanceAs (Decidable (∃ _ ∈ _, _))

@[simp]
theorem type_receiveEarly (deliveries : List Delivery) :
    (session.receiveEarly deliveries).type = session.type := by
  cases deliveries with
  | nil => rfl
  | cons delivery deliveries =>
      have kept : (session.arrive (some delivery.request)).config =
          session.config := config_arrive _
      rw [receiveEarly]
      split
      · exact congrArg Prod.fst kept
      · rfl

theorem receiveEarly_of_early {slot : Nat} {delivery : Delivery}
    (deliveries : List Delivery)
    (early : delivery.early ∧ session.type ≠ .tcp)
    (next : session.queue.next = some slot) :
    session.receiveEarly (delivery :: deliveries) =
      { session with
        queue :=
          { session.queue with
            arrived := session.queue.arrived + 1
            slots := Function.update session.queue.slots slot
              delivery.request } } := by
  rw [receiveEarly, if_pos early, arrive, ReceiveQueue.deliver, next]
  rfl

theorem isConnectionClosed_receiveEarly {deliveries : List Delivery}
    (opened : session.isConnectionClosed = false)
    (next : session.type ≠ .tcp →
      session.queue.next = some (index % ringSize session.type)) :
    (session.receiveEarly deliveries).isConnectionClosed =
      decide (EndsEarly session.type index deliveries) := by
  cases deliveries with
  | nil =>
      rw [receiveEarly, opened]
      simp [EndsEarly]
  | cons delivery deliveries =>
      by_cases early : delivery.early ∧ session.type ≠ .tcp
      · rw [receiveEarly_of_early deliveries early (next early.2),
          isConnectionClosed, decide_eq_decide]
        simp only [EndsEarly, List.head?_cons, Option.mem_some_iff,
          exists_eq_left', early, ne_eq, not_false_eq_true, and_self, true_and,
          Request.Closes, Nat.dvd_iff_mod_eq_zero]
        by_cases first : index % ringSize session.type = 0
        · rw [first, Function.update_self]
          simp
        · rw [Function.update_of_ne (Ne.symm first)]
          simpa [first, isConnectionClosed] using opened
      · rw [receiveEarly, if_neg early, opened]
        simp [EndsEarly, early]

theorem isConnectionClosed_receiveEarly_of_closed {slot : Nat}
    {deliveries : List Delivery} (closed : session.isConnectionClosed = true)
    (next : session.type ≠ .tcp → session.queue.next = some slot)
    (later : slot ≠ 0) :
    (session.receiveEarly deliveries).isConnectionClosed = true := by
  cases deliveries with
  | nil => exact closed
  | cons delivery deliveries =>
      by_cases early : delivery.early ∧ session.type ≠ .tcp
      · rw [receiveEarly_of_early deliveries early (next early.2),
          isConnectionClosed]
        simpa only [Function.update_of_ne later.symm, isConnectionClosed]
          using closed
      · rwa [receiveEarly, if_neg early]

end Session

def Delivery.opened (delivery : Delivery) : Delivery :=
  { delivery with request := delivery.request.opened }

/-- The deliveries as the loop finds them: the first statement of `main_job`
clears the close flag of a first request that is there before it. -/
def asFound (type : ConnectionType) : List Delivery → List Delivery
  | [] => []
  | delivery :: deliveries =>
      if delivery.early ∧ (type = .rc ∨ type = .uc) then
        delivery.opened :: deliveries
      else delivery :: deliveries

/-- The session does not outlive this message: the message kills the process,
or the worker finds a close flag, if only that of the next message. -/
def Delivery.Ends (type : ConnectionType) (index : Nat) (delivery : Delivery)
    (later : List Delivery) : Prop :=
  delivery.request.Kills type ∨ delivery.request.Closes type index ∨
    Session.EndsEarly type (index + 1) later

instance Delivery.decidableEnds (type : ConnectionType) (index : Nat)
    (delivery : Delivery) (later : List Delivery) :
    Decidable (delivery.Ends type index later) :=
  inferInstanceAs (Decidable (_ ∨ _ ∨ _))

/-- No UNK request is followed by another turn of its session. -/
def UnkLast (type : ConnectionType) : Nat → List Delivery → Prop
  | _, [] => True
  | index, delivery :: later =>
      delivery.Ends type index later ∨
        (later ≠ [] → delivery.request.method ≠ .unk) ∧
          UnkLast type (index + 1) later

/-- In every turn the worker reads the slot whose completion it has waited for,
and turn `n` serves message `n`, unless the process dies of it. -/
def ServedInTurn (type : ConnectionType) (turns : List Turn)
    (messages : List Request) : Prop :=
  ∀ (index : Nat) turn, turns[index]? = some turn →
    turn.completed = some turn.current ∧
      (turn.served = messages[index]? ∨
        turn.served = none ∧ ∃ message ∈ messages[index]?, message.Kills type)

theorem servedInTurn_cons {type : ConnectionType} {turn : Turn}
    {turns : List Turn} {message : Request} {messages : List Request} :
    ServedInTurn type (turn :: turns) (message :: messages) ↔
      (turn.completed = some turn.current ∧
        (turn.served = some message ∨
          turn.served = none ∧ message.Kills type)) ∧
        ServedInTurn type turns messages := by
  constructor
  · intro served
    refine ⟨?_, fun index => served (index + 1)⟩
    simpa using served 0 turn rfl
  · rintro ⟨first, rest⟩ index turn' turned
    cases index with
    | zero =>
        cases turned
        simpa using first
    | succ index => exact rest index turn' turned

namespace Session

variable (handlers : StoreHandlers Store)

/-- Of an early request, the rest of the session only sees what is in the
slot. -/
theorem serveAll_congr {delivery delivery' : Delivery}
    (same : session.receipt delivery = session.receipt delivery')
    (later : List Delivery) :
    session.serveAll handlers (delivery :: later) =
      session.serveAll handlers (delivery' :: later) := by
  rw [serveAll, serveAll, same]

theorem serveJob_accepted {type : ConnectionType}
    (ring : type = .rc ∨ type = .uc) (blocking : Bool) (store : Store)
    (deliveries : List Delivery) :
    (accepted type blocking store).serveJob handlers deliveries =
      ((accepted type blocking store).receiveEarly
        (asFound type deliveries)).serveAll handlers
          (asFound type deliveries) := by
  cases deliveries with
  | nil =>
      rw [serveJob, asFound, receiveEarly, start_of_open (by rfl)]
  | cons delivery later =>
      by_cases early : delivery.early
      · have cleared : ((accepted type blocking store).receiveEarly
            (delivery :: later)).start =
              (accepted type blocking store).receiveEarly
                (asFound type (delivery :: later)) := by
          have rdma : type ≠ .tcp := by rcases ring with rfl | rfl <;> decide
          have next : (accepted type blocking store).queue.next = some 0 := by
            rcases ring with rfl | rfl <;> rfl
          have opened : delivery.opened.early ∧
              (accepted type blocking store).type ≠ .tcp := ⟨early, rdma⟩
          rw [asFound, if_pos ⟨early, ring⟩,
            receiveEarly_of_early later ⟨early, rdma⟩ next,
            receiveEarly_of_early later opened next]
          rcases ring with rfl | rfl <;>
            simp [start, accepted, Delivery.opened]
        rw [serveJob, cleared, asFound, if_pos ⟨early, ring⟩]
        refine serveAll_congr handlers ?_ later
        have rdma : type ≠ .tcp := by rcases ring with rfl | rfl <;> decide
        simp [receipt, Receipt.arrival, Delivery.opened, early, accepted, rdma]
      · rw [serveJob, asFound, if_neg (fun both => early both.1), receiveEarly,
          if_neg (fun both => early both.1), start_of_open (by rfl)]

theorem serveAll_servedInTurn_iff {base : Session Store} {index : Nat}
    (aligned : Aligned base index) (ring : base.type = .rc ∨ base.type = .uc)
    (deliveries : List Delivery)
    (stay : ∀ delivery ∈ deliveries, delivery.request.method ≠ .exit) :
    ServedInTurn base.type
        ((base.receiveEarly deliveries).serveAll handlers deliveries).1
        (deliveries.map Delivery.request) ↔
      UnkLast base.type index deliveries := by
  induction deliveries generalizing base index with
  | nil => simp [serveAll, ServedInTurn, UnkLast]
  | cons delivery later ih =>
      have stays : delivery.request.method ≠ .exit := stay delivery (by simp)
      have same : (base.receiveEarly (delivery :: later)).mainTurn handlers
          ((base.receiveEarly (delivery :: later)).receipt delivery) =
            base.mainTurn handlers
              (.arrival delivery.request delivery.socket) :=
        mainTurn_receiveEarly delivery later
          fun rdma => exists_deliver (aligned.next rdma) _
      rw [serveAll, same, UnkLast, List.map_cons]
      by_cases kills : delivery.request.Kills base.type
      · -- the process dies in this turn
        obtain ⟨after, turned⟩ :=
          aligned.mainTurn_of_kills handlers kills delivery.socket
        simp only [turned, true_or, if_true]
        refine iff_of_true (servedInTurn_cons.mpr ⟨⟨rfl, .inr ⟨rfl, kills⟩⟩,
          fun _ _ turned => by simp at turned⟩) (.inl (.inl kills))
      obtain ⟨sent, after, turned, -, -, closed, next, known, unknown⟩ :=
        aligned.mainTurn handlers stays kills delivery.socket
      have type : after.type = base.type :=
        congrArg Prod.fst (config_mainTurn handlers turned)
      have ends : (after.receiveEarly later).isConnectionClosed =
          decide (delivery.Ends base.type index later) := by
        by_cases closes : delivery.request.Closes base.type index
        · rw [decide_eq_true (.inr (.inl closes))]
          exact isConnectionClosed_receiveEarly_of_closed
            (closed.trans (decide_eq_true closes))
            (fun rdma => next (type ▸ rdma)) closes.slot_succ_ne
        · rw [isConnectionClosed_receiveEarly
            (closed.trans (decide_eq_false closes)) (type ▸ next)]
          simp [Delivery.Ends, kills, closes, type]
      simp only [turned, ends, reduceCtorEq, false_or, decide_eq_true_eq]
      by_cases stops : delivery.Ends base.type index later
      · -- the session ends after this turn
        rw [if_pos stops]
        exact iff_of_true (servedInTurn_cons.mpr ⟨⟨rfl, .inl rfl⟩,
          fun _ _ turned => by simp at turned⟩) (.inl stops)
      rw [if_neg stops, servedInTurn_cons]
      simp only [stops, false_or, true_and, true_or]
      by_cases unk : delivery.request.method = .unk
      · cases later with
        | nil => simp [serveAll, ServedInTurn, UnkLast]
        | cons following later =>
            refine iff_of_false (fun served => ?_)
              fun last => last.1 (by simp) unk
            obtain ⟨turn, final, ended, turned', apart⟩ :=
              aligned.mainTurn_after_unk handlers ring unk (unknown unk)
                following.request following.socket
            refine apart (served 0 turn ?_).1
            rw [serveAll, mainTurn_receiveEarly following later fun rdma =>
              exists_deliver (next (type ▸ rdma)) _, turned']
            dsimp only
            split <;> rfl
      · obtain ⟨-, aligned'⟩ :=
          known unk fun closes => stops (.inr (.inl closes))
        rw [← type, ih aligned' (type ▸ ring) fun delivery member =>
          stay delivery (by simp [member])]
        simp [unk]

end Session

/-- On an RC or UC connection, for requests sent one at a time, the worker
always reads the slot whose completion it has waited for, and serves the n-th
message in the n-th turn, exactly when no UNK request is followed by another
turn. -/
theorem receiveRing_servedInTurn_iff (handlers : StoreHandlers Store)
    (type : ConnectionType) (ring : type = .rc ∨ type = .uc) (blocking : Bool)
    (store : Store) (deliveries : List Delivery)
    (stay : ∀ delivery ∈ deliveries, delivery.request.method ≠ .exit) :
    ServedInTurn type
        ((Session.accepted type blocking store).serveJob handlers deliveries).1
        ((asFound type deliveries).map Delivery.request) ↔
      UnkLast type 0 (asFound type deliveries) := by
  have stays : ∀ delivery ∈ asFound type deliveries,
      delivery.request.method ≠ .exit := by
    cases deliveries with
    | nil => simp [asFound]
    | cons delivery later =>
        have first := stay delivery (by simp)
        rw [asFound]
        split
        · intro found member
          obtain rfl | member := List.mem_cons.mp member
          · exact first
          · exact stay found (by simp [member])
        · exact stay
  rw [Session.serveJob_accepted handlers ring]
  exact Session.serveAll_servedInTurn_iff handlers
    (.accepted type blocking store) ring _ stays

theorem pingThenUnk_servedInTurn :
    ServedInTurn .rc
      ((Session.accepted .rc false ()).serveJob .idle
        [⟨.make .ping [] [], ⟨0, 0, []⟩, true⟩,
          ⟨.make .unk [] [], ⟨0, 0, []⟩, true⟩]).1
      [.make .ping [] [], .make .unk [] []] := by
  refine (receiveRing_servedInTurn_iff .idle .rc (.inl rfl) false ()
    [⟨.make .ping [] [], ⟨0, 0, []⟩, true⟩,
      ⟨.make .unk [] [], ⟨0, 0, []⟩, true⟩] ?_).mpr ?_
  · simp [Request.make]
  · exact .inr ⟨fun _ => by decide, .inr ⟨fun more => absurd rfl more, trivial⟩⟩

/-- The SET after an UNK is waited for in slot 1, but the worker reads
slot 0. -/
theorem unkThenSet_not_servedInTurn :
    ¬ ServedInTurn .rc
      ((Session.accepted .rc false ()).serveJob .idle
        [⟨.make .unk [] [], ⟨0, 0, []⟩, false⟩,
          ⟨.make .set [97] [1], ⟨0, 0, []⟩, false⟩]).1
      [.make .unk [] [], .make .set [97] [1]] := by
  intro served
  obtain ⟨turn, turned, apart⟩ := Option.map_eq_some_iff.mp
    (show ((Session.accepted .rc false ()).serveJob .idle
        [⟨.make .unk [] [], ⟨0, 0, []⟩, false⟩,
          ⟨.make .set [97] [1], ⟨0, 0, []⟩, false⟩]).1[1]?.map
        (fun turn => decide (turn.completed = some turn.current)) =
      some false by decide)
  exact absurd (served 1 turn turned).1 (of_decide_eq_false apart)

end RdmaKVStore
