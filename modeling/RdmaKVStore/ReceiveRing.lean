import RdmaKVStore.ServerSession

/-!
# Receive ring

Requests that arrive one at a time, each in its turn.  A session is aligned
when the worker's slot is the next one in the order of postings.  An aligned
turn serves the message that has just arrived and leaves an aligned session,
unless its method is UNK: then the worker's slot stays behind the adapter's.
-/

namespace RdmaKVStore

variable {Store : Type*} {session other after : Session Store}
variable {message : Request} {socket : SocketReport} {index : Nat}

/-- The codes of the responses that the dispatcher sends for a request. -/
def dispatchCodes (request : Request) (socket : SocketReport) :
    List ResponseCode :=
  match request.method with
  | .ping | .exit => [.ok]
  | .setopt =>
      if request.keyString = Session.sndbufKey then
        if socket.setsockopt < 0 then [.setoptError]
        else if socket.getsockopt ≠ 0 then [.setoptError]
        else [.ok]
      else [.keyError]
  | .unk => [.parsingError]
  | .set | .get | .del | .dump | .rst => []

namespace Session

theorem requestDispatcher_codes
    (survived : ¬ session.getCurrentRequest.Kills session.type) :
    (session.requestDispatcher socket).sent.map Response.code =
      dispatchCodes session.getCurrentRequest socket := by
  cases method : session.getCurrentRequest.method with
  | setopt =>
      simp only [requestDispatcher, dispatchCodes, method, setoptRequest]
      split
      · next key =>
          rw [if_neg fun rdma => survived ⟨rdma, method, key⟩]
          split
          · rfl
          · split <;> rfl
      · rfl
  | _ =>
      simp only [requestDispatcher, dispatchCodes, method]
      rfl

theorem requestDispatcher_exits
    (stays : session.getCurrentRequest.method ≠ .exit)
    (survived : ¬ session.getCurrentRequest.Kills session.type) :
    (session.requestDispatcher socket).exits = false := by
  cases method : session.getCurrentRequest.method with
  | exit => exact absurd method stays
  | setopt =>
      simp only [requestDispatcher, method, setoptRequest]
      split
      · next key =>
          rw [if_neg fun rdma => survived ⟨rdma, method, key⟩]
          split
          · rfl
          · split <;> rfl
      · rfl
  | _ => simp only [requestDispatcher, method] <;> rfl

theorem requestDispatcher_of_kills (socket : SocketReport)
    (kills : session.getCurrentRequest.Kills session.type) :
    session.requestDispatcher socket =
      { session := session, sent := [], exits := true } := by
  obtain ⟨rdma, method, key⟩ := kills
  simp only [requestDispatcher, method, setoptRequest, if_pos key, if_pos rdma]

/-- The session into whose buffer a message has just been put. -/
def landed (session : Session Store) (message : Request) : Session Store :=
  match session.type with
  | .tcp => session.readInto (some message)
  | .rc | .uc => session.arrive (some message)
  | .ud => { session with locked := true }.arrive (some message)

theorem process_arrival (blocking : Bool) (message : Request)
    (socket : SocketReport) :
    processWorkCompletionEvents blocking 1
      (Receipt.arrival message socket).wait = some 1 := by
  cases blocking <;> rfl

theorem receiveHeader_arrival (message : Request) (socket : SocketReport)
    (unlocked : session.locked = false) :
    ∃ header, header ≠ -1 ∧
      session.receiveHeader (.arrival message socket) =
        some (header, session.landed message) := by
  have received (session : Session Store) :
      session.rdmaReceiveHeader (.arrival message socket) =
        some (1, session.arrive (some message)) := by
    rw [rdmaReceiveHeader, process_arrival]
    rfl
  cases type : session.type with
  | tcp =>
      refine ⟨requestSize, by decide, ?_⟩
      simp only [receiveHeader, landed, type]
      rfl
  | rc | uc =>
      refine ⟨1, by decide, ?_⟩
      simp only [receiveHeader, landed, type]
      exact received session
  | ud =>
      refine ⟨1, by decide, ?_⟩
      simp only [receiveHeader, landed, type, udReceiveHeader, unlocked]
      rw [if_neg (by simp [Receipt.arrival]), received]

theorem store_landed : (session.landed message).store = session.store := by
  unfold landed
  split <;> rfl

theorem config_landed :
    (session.landed message).config = session.config := by
  unfold landed
  split
  · exact config_readInto _
  · exact config_arrive _
  · exact config_arrive _
  · exact config_arrive _

theorem completedSlot_of_frame (same : session.frame = other.frame) :
    session.completedSlot = other.completedSlot := by
  simp only [frame, config, Prod.mk.injEq] at same
  obtain ⟨⟨type, -⟩, queue, count, -⟩ := same
  simp only [completedSlot, type, queue, count]

theorem mainTurn_arrival (handlers : StoreHandlers Store)
    (socket : SocketReport)
    (unlocked : session.locked = false) {request : Request}
    (current : (session.prepareForNextRequest.landed
      message).getCurrentRequest = request)
    (stays : request.method ≠ .exit)
    (survived : ¬ request.Kills session.type) :
    ∃ sent after,
      session.mainTurn handlers (.arrival message socket) =
        some (⟨(session.prepareForNextRequest.landed message).completedSlot,
          session.prepareForNextRequest.requestCount, some request,
          sent ++ [(handlers.switch request session.store).2]⟩, after,
          after.isConnectionClosed) ∧
      sent.map Response.code = dispatchCodes request socket ∧
      after.store = (handlers.switch request session.store).1 ∧
      after.frame =
        (if request.method ≠ .unk then
          (session.prepareForNextRequest.landed message).readyForNextRequest
        else session.prepareForNextRequest.landed message).frame := by
  have unlocked' := (locked_prepareForNextRequest).trans unlocked
  obtain ⟨header, opened, received⟩ :=
    receiveHeader_arrival message socket unlocked'
  set landed := session.prepareForNextRequest.landed message with landedEq
  have remembered : (landed.rememberClient request).frame = landed.frame :=
    frame_rememberClient request
  have request' : (landed.rememberClient request).getCurrentRequest = request :=
    (getCurrentRequest_of_frame remembered).trans current
  have type : (landed.rememberClient request).type = session.type :=
    congrArg Prod.fst ((config_of_frame remembered).trans
      (config_landed.trans (config_prepareForNextRequest session)))
  set dispatch := (landed.rememberClient request).requestDispatcher socket
    with dispatchEq
  have recv : session.prepareForNextRequest.recvRequest
      (.arrival message socket) =
        some (.request request dispatch.session dispatch.sent) := by
    simp only [recvRequest, received, Option.map_some, opened, if_false,
      current]
    rw [requestDispatcher_exits (by rwa [request']) (by rwa [request', type])]
    rfl
  have store : dispatch.session.store = session.store := by
    rw [dispatchEq, store_requestDispatcher, store_rememberClient, landedEq,
      store_landed, store_prepareForNextRequest]
  have frame : dispatch.session.frame = landed.frame :=
    (frame_requestDispatcher socket).trans remembered
  set ready := if request.method ≠ .unk then
    dispatch.session.readyForNextRequest else dispatch.session with readyEq
  have readyStore : ready.store = session.store := by
    rw [readyEq]
    split
    · rw [store_readyForNextRequest, store]
    · exact store
  refine ⟨dispatch.sent, ready.handle handlers request, ?_, ?_, ?_, ?_⟩
  · rw [mainTurn, recv, Option.map_some, ← readyStore]
    have completed := completedSlot_of_frame frame
    simp only [Received.session, completed]
    rfl
  · rw [dispatchEq, requestDispatcher_codes (by rwa [request', type]), request']
  · rw [handle, readyStore]
  · rw [frame_handle, readyEq]
    split
    · exact frame_readyForNextRequest frame
    · exact frame

theorem mainTurn_exits (handlers : StoreHandlers Store)
    (socket : SocketReport)
    (unlocked : session.locked = false) {request : Request}
    (current : (session.prepareForNextRequest.landed
      message).getCurrentRequest = request)
    (ends : request.method = .exit ∨ request.Kills session.type) :
    ∃ sent after,
      session.mainTurn handlers (.arrival message socket) =
        some (⟨(session.prepareForNextRequest.landed message).completedSlot,
          session.prepareForNextRequest.requestCount, none, sent⟩, after,
          true) ∧
      sent.length = if request.Kills session.type then 0 else 1 := by
  obtain ⟨header, opened, received⟩ := receiveHeader_arrival message socket
    (locked_prepareForNextRequest.trans unlocked)
  set landed := session.prepareForNextRequest.landed message with landedEq
  have remembered : (landed.rememberClient request).frame = landed.frame :=
    frame_rememberClient request
  have request' : (landed.rememberClient request).getCurrentRequest = request :=
    (getCurrentRequest_of_frame remembered).trans current
  have type : (landed.rememberClient request).type = session.type :=
    congrArg Prod.fst ((config_of_frame remembered).trans
      (config_landed.trans (config_prepareForNextRequest session)))
  set dispatch := (landed.rememberClient request).requestDispatcher socket
    with dispatchEq
  have ended : dispatch.exits = true ∧
      dispatch.sent.length = if request.Kills session.type then 0 else 1 := by
    by_cases kills : request.Kills session.type
    · rw [dispatchEq, requestDispatcher_of_kills socket (by
        rwa [request', type]), if_pos kills]
      exact ⟨rfl, rfl⟩
    · rw [dispatchEq, requestDispatcher, request', if_neg kills,
        ends.resolve_right kills]
      exact ⟨rfl, rfl⟩
  have recv : session.prepareForNextRequest.recvRequest
      (.arrival message socket) =
        some (.exited dispatch.session dispatch.sent) := by
    simp only [recvRequest, received, Option.map_some, opened, if_false,
      current]
    rw [show (Receipt.arrival message socket).socket = socket from rfl,
      ended.1]
    rfl
  have completed : dispatch.session.completedSlot = landed.completedSlot :=
    completedSlot_of_frame ((frame_requestDispatcher socket).trans remembered)
  refine ⟨dispatch.sent, dispatch.session, ?_, ended.2⟩
  rw [mainTurn, recv, Option.map_some]
  simp only [Received.session, completed]

/-- A worker that waits for one slot and reads another serves what the other
slot has held before. -/
theorem mainTurn_of_apart (handlers : StoreHandlers Store)
    (socket : SocketReport) (ring : session.type = .rc ∨ session.type = .uc)
    (unlocked : session.locked = false) {slot : Nat}
    (waited : session.queue.next = some slot)
    (apart : slot ≠ session.requestCount)
    (stays : session.getCurrentRequest.method ≠ .exit)
    (survived : ¬ session.getCurrentRequest.Kills session.type) :
    ∃ turn after ended,
      session.mainTurn handlers (.arrival message socket) =
        some (turn, after, ended) ∧ turn.completed ≠ some turn.current := by
  have prepared : session.prepareForNextRequest =
      { session with queue := session.queue.post session.requestCount } := by
    rcases ring with type | type <;> simp only [prepareForNextRequest, type]
  have next : (session.queue.post session.requestCount).next = some slot :=
    (List.getElem?_append_left
      (List.getElem?_eq_some_iff.mp waited).1).trans waited
  have landedEq : session.prepareForNextRequest.landed message =
      { session with
        queue :=
          { postings := (session.queue.post session.requestCount).postings
            arrived := session.queue.arrived + 1
            slots := Function.update session.queue.slots slot message } } := by
    rw [prepared]
    rcases ring with type | type <;>
    · simp only [landed, type, arrive, ReceiveQueue.deliver, next,
        Option.map_some, Option.getD_some]
      rfl
  have current : (session.prepareForNextRequest.landed
      message).getCurrentRequest = session.getCurrentRequest := by
    rw [landedEq]
    exact Function.update_of_ne apart.symm _ _
  have completed : (session.prepareForNextRequest.landed
      message).completedSlot = some slot := by
    rw [landedEq, ← next]
    rcases ring with type | type <;>
      simp only [completedSlot, type, ReceiveQueue.next, ReceiveQueue.post,
        Nat.add_sub_cancel]
  have read : session.prepareForNextRequest.requestCount =
      session.requestCount := by
    rw [prepared]
  obtain ⟨sent, after, turned, -⟩ :=
    mainTurn_arrival handlers socket unlocked current stays survived
  refine ⟨_, after, _, turned, ?_⟩
  simpa only [completed, read, ne_eq, Option.some.injEq] using apart

end Session

/-- Before turn `index` the worker's slot is the one that comes next in cyclic
order; over RDMA the whole ring is posted, and `index` messages have used up
their postings. -/
structure Aligned (session : Session Store) (index : Nat) : Prop where
  count : session.requestCount = index % ringSize session.type
  unlocked : session.locked = false
  stillOpen : (session.queue.slots 0).connectionClose = 0
  arrived : session.type ≠ .tcp → session.queue.arrived = index
  posted : session.type ≠ .tcp →
    session.queue.postings.length = ringSize session.type + index
  cyclic : session.type ≠ .tcp → session.queue.Cyclic (ringSize session.type)

/-- In turn `index` the message has been put into the worker's slot. -/
structure Landed (session : Session Store) (index : Nat) (message : Request)
    (landed : Session Store) : Prop where
  type : landed.type = session.type
  count : landed.requestCount = index % ringSize session.type
  slots : landed.queue.slots = Function.update session.queue.slots
    (index % ringSize session.type) message
  unlocked : session.type ≠ .ud → landed.locked = false
  arrived : session.type ≠ .tcp → landed.queue.arrived = index + 1
  posted : session.type ≠ .tcp → landed.queue.postings.length =
    ringSize session.type + index + if session.type = .ud then 0 else 1
  cyclic : session.type ≠ .tcp → landed.queue.Cyclic (ringSize session.type)

namespace Aligned

theorem ringSize_pos (type : ConnectionType) : 0 < ringSize type := by
  cases type <;> decide

theorem accepted (type : ConnectionType) (blocking : Bool) (store : Store) :
    Aligned (Session.accepted type blocking store) 0 where
  count := (Nat.zero_mod _).symm
  unlocked := rfl
  stillOpen := rfl
  arrived _ := rfl
  posted rdma := by
    have rdma' : type ≠ .tcp := rdma
    simp [Session.accepted, rdma']
  cyclic rdma := by
    have rdma' : type ≠ .tcp := rdma
    intro position inside
    simp only [Session.accepted, rdma', if_false, List.length_range]
      at inside ⊢
    rw [List.getElem?_range inside, Nat.mod_eq_of_lt inside]

variable (aligned : Aligned session index)
include aligned

/-- The next message is put into the worker's slot. -/
theorem next (rdma : session.type ≠ .tcp) :
    session.queue.next = some (index % ringSize session.type) := by
  have positive := ringSize_pos session.type
  rw [ReceiveQueue.next, aligned.arrived rdma]
  exact aligned.cyclic rdma index (by rw [aligned.posted rdma]; omega)

theorem next_prepared (rdma : session.type ≠ .tcp) :
    session.prepareForNextRequest.queue.next =
      some (index % ringSize session.type) := by
  have next := aligned.next rdma
  unfold Session.prepareForNextRequest
  split
  · exact next
  · exact next
  all_goals exact ReceiveQueue.next_post next _

theorem requestCount_prepared :
    session.prepareForNextRequest.requestCount =
      index % ringSize session.type :=
  Session.requestCount_prepareForNextRequest.trans aligned.count

theorem deliver (rdma : session.type ≠ .tcp) (message : Request) :
    session.prepareForNextRequest.queue.deliver message = some
      { postings := session.prepareForNextRequest.queue.postings
        arrived := index + 1
        slots := Function.update session.queue.slots
          (index % ringSize session.type) message } := by
  have arrived := aligned.arrived rdma
  rw [ReceiveQueue.deliver, aligned.next_prepared rdma, Option.map_some]
  cases type : session.type with
  | tcp => exact absurd type rdma
  | rc | uc | ud =>
      simp only [Session.prepareForNextRequest, type, ReceiveQueue.post,
        arrived]

/-- In an aligned turn the message is put into the worker's slot. -/
theorem landed (message : Request) :
    Landed session index message
      (session.prepareForNextRequest.landed message) := by
  have count := aligned.count
  have delivered (rdma) := aligned.deliver rdma message
  have cyclic := aligned.cyclic
  have posted := aligned.posted
  cases type : session.type with
  | tcp =>
      rw [type] at count
      simp only [Session.prepareForNextRequest, Session.landed, type]
      refine ⟨rfl, by rw [type]; exact count, ?_, fun _ => aligned.unlocked,
        fun rdma => absurd type rdma, fun rdma => absurd type rdma,
        fun rdma => absurd type rdma⟩
      rw [type, ← count]
      rfl
  | ud =>
      rw [type] at count delivered posted cyclic
      simp only [Session.prepareForNextRequest, type, ne_eq, reduceCtorEq,
        not_false_eq_true, forall_const] at delivered posted cyclic
      simp only [Session.prepareForNextRequest, Session.landed, type,
        Session.arrive, delivered, Option.getD_some]
      refine ⟨type.symm, by rw [type]; exact count, by rw [type],
        fun other => absurd type other, fun _ => rfl, fun _ => ?_,
        fun _ => ?_⟩
      · simp only [type, if_true, posted]
        rfl
      · rw [type]
        exact cyclic
  | rc | uc =>
      rw [type] at count delivered posted cyclic
      simp only [Session.prepareForNextRequest, type, ne_eq, reduceCtorEq,
        not_false_eq_true, forall_const] at delivered posted cyclic
      simp only [Session.prepareForNextRequest, Session.landed, type,
        Session.arrive, delivered, Option.getD_some]
      refine ⟨type.symm, by rw [type]; exact count, by rw [type],
        fun _ => aligned.unlocked, fun _ => rfl, fun _ => ?_, fun _ => ?_⟩
      · simp only [type, ReceiveQueue.post, List.length_append, posted]
        rfl
      · have post := cyclic.post
        rw [posted, Nat.add_mod_left, ← count] at post
        rw [type]
        exact post

end Aligned

/-- The worker ends the session after this message: it only looks at the close
flag of slot 0. -/
def Request.Closes (type : ConnectionType) (index : Nat) (message : Request) :
    Prop :=
  ringSize type ∣ index ∧ message.connectionClose ≠ 0

instance (type : ConnectionType) (index : Nat) (message : Request) :
    Decidable (message.Closes type index) :=
  inferInstanceAs (Decidable (_ ∧ _))

theorem Request.Closes.slot_succ_ne {type : ConnectionType}
    {message : Request} (closes : message.Closes type index) :
    (index + 1) % ringSize type ≠ 0 := by
  obtain ⟨turns, rfl⟩ := closes.1
  rw [Nat.mul_add_mod]
  cases type <;> decide

namespace Session

theorem isConnectionClosed_of_frame (same : session.frame = other.frame) :
    session.isConnectionClosed = other.isConnectionClosed := by
  simp only [frame, Prod.mk.injEq] at same
  rw [isConnectionClosed, same.2.1, isConnectionClosed]

theorem isConnectionClosed_readyForNextRequest :
    session.readyForNextRequest.isConnectionClosed =
      session.isConnectionClosed := by
  unfold readyForNextRequest
  split <;> rfl

theorem next_readyForNextRequest {slot : Nat}
    (next : session.queue.next = some slot) :
    session.readyForNextRequest.queue.next = some slot := by
  unfold readyForNextRequest
  split
  all_goals first
    | exact next
    | exact ReceiveQueue.next_post next _

end Session

namespace Landed

variable {landed : Session Store}

theorem getCurrentRequest (put : Landed session index message landed) :
    landed.getCurrentRequest = message := by
  rw [Session.getCurrentRequest, put.slots, put.count, Function.update_self]

theorem completedSlot (put : Landed session index message landed) :
    landed.completedSlot = some (index % ringSize session.type) := by
  by_cases tcp : session.type = .tcp
  · have type := put.type.trans tcp
    rw [← put.count]
    simp only [Session.completedSlot, type]
  · have positive := Aligned.ringSize_pos session.type
    have last := put.cyclic tcp index (by rw [put.posted tcp]; omega)
    rw [← last, Session.completedSlot, put.type, put.arrived tcp,
      Nat.add_sub_cancel]
    cases kind : session.type with
    | tcp => exact absurd kind tcp
    | rc | uc | ud => rfl

theorem next (put : Landed session index message landed)
    (rdma : session.type ≠ .tcp) :
    landed.queue.next = some ((index + 1) % ringSize session.type) := by
  have several : 1 < ringSize session.type := by
    cases session.type <;> decide
  rw [ReceiveQueue.next, put.arrived rdma]
  exact put.cyclic rdma _ (by rw [put.posted rdma]; omega)

/-- The close flag of slot 0 is the message's only in every ring-th turn. -/
theorem isConnectionClosed (aligned : Aligned session index)
    (put : Landed session index message landed) :
    landed.isConnectionClosed =
      decide (message.Closes session.type index) := by
  rw [Session.isConnectionClosed, put.slots, decide_eq_decide]
  by_cases first : ringSize session.type ∣ index
  · rw [Nat.mod_eq_zero_of_dvd first, Function.update_self]
    exact ⟨fun closed => ⟨first, closed⟩, And.right⟩
  · have later : index % ringSize session.type ≠ 0 := fun zero =>
      first (Nat.dvd_of_mod_eq_zero zero)
    rw [Function.update_of_ne later.symm]
    exact ⟨fun closed => absurd aligned.stillOpen closed,
      fun closes => absurd closes.1 first⟩

theorem ready (put : Landed session index message landed)
    (stillOpen : landed.isConnectionClosed = false)
    (same : after.frame = landed.readyForNextRequest.frame) :
    after.type = session.type ∧ Aligned after (index + 1) := by
  have stillOpen : (landed.queue.slots 0).connectionClose = 0 := by
    simpa [Session.isConnectionClosed] using stillOpen
  have count := put.count
  have unlocked := put.unlocked
  have arrived := put.arrived
  have posted := put.posted
  have cyclic := put.cyclic
  simp only [Session.frame, Session.config, Prod.mk.injEq] at same
  obtain ⟨⟨sameType, -⟩, sameQueue, sameCount, sameLocked⟩ := same
  have type := sameType.trans (congrArg Prod.fst
    Session.config_readyForNextRequest) |>.trans put.type
  refine ⟨type, ?_⟩
  have next : (landed.requestCount + 1) % ringSize session.type =
      (index + 1) % ringSize session.type := by
    rw [count, Nat.mod_add_mod]
  cases kind : session.type with
  | tcp =>
      simp only [Session.readyForNextRequest, put.type, kind]
        at sameQueue sameCount sameLocked
      rw [kind] at next unlocked type
      refine ⟨by rw [sameCount, type]; exact next,
        by rw [sameLocked]; exact unlocked (by decide),
        by rw [sameQueue]; exact stillOpen, fun rdma => absurd type rdma,
        fun rdma => absurd type rdma, fun rdma => absurd type rdma⟩
  | rc | uc =>
      simp only [Session.readyForNextRequest, put.type, kind]
        at sameQueue sameCount sameLocked
      rw [kind] at next unlocked type arrived posted cyclic
      refine ⟨by rw [sameCount, type]; exact next,
        by rw [sameLocked]; exact unlocked (by decide),
        by rw [sameQueue]; exact stillOpen,
        fun _ => by rw [sameQueue]; exact arrived (by decide),
        fun _ => by rw [sameQueue, type]; exact posted (by decide),
        fun _ => by rw [sameQueue, type]; exact cyclic (by decide)⟩
  | ud =>
      simp only [Session.readyForNextRequest, put.type, kind]
        at sameQueue sameCount sameLocked
      rw [kind] at next type arrived posted cyclic count
      have length : landed.queue.postings.length = maxClients + index :=
        posted (by decide)
      have post := (cyclic (by decide)).post
      refine ⟨by rw [sameCount, type]; exact next, sameLocked,
        by rw [sameQueue]; exact stillOpen,
        fun _ => by rw [sameQueue]; exact arrived (by decide),
        fun _ => ?_, fun _ => ?_⟩
      · rw [sameQueue, type, ReceiveQueue.post, List.length_append, length]
        rfl
      · rw [sameQueue, type, count, ringSize]
        rwa [length, ringSize, Nat.add_mod_left] at post

end Landed

namespace Aligned

variable (handlers : StoreHandlers Store)

/-- An aligned turn serves its message, and stays aligned unless the session
ends or the method is UNK; the slots are used up in cyclic order anyway. -/
theorem mainTurn (aligned : Aligned session index)
    (stays : message.method ≠ .exit)
    (survived : ¬ message.Kills session.type) (socket : SocketReport) :
    ∃ sent after,
      session.mainTurn handlers (.arrival message socket) =
        some (⟨some (index % ringSize session.type),
          index % ringSize session.type, some message,
          sent ++ [(handlers.switch message session.store).2]⟩, after,
          decide (message.Closes session.type index)) ∧
      sent.map Response.code = dispatchCodes message socket ∧
      after.store = (handlers.switch message session.store).1 ∧
      after.isConnectionClosed = decide (message.Closes session.type index) ∧
      (session.type ≠ .tcp → after.queue.next =
        some ((index + 1) % ringSize session.type)) ∧
      (message.method ≠ .unk → ¬ message.Closes session.type index →
        after.type = session.type ∧ Aligned after (index + 1)) ∧
      (message.method = .unk → after.frame =
        (session.prepareForNextRequest.landed message).frame) := by
  have put := aligned.landed message
  obtain ⟨sent, after, turned, codes, store, frame⟩ :=
    Session.mainTurn_arrival handlers socket aligned.unlocked
      put.getCurrentRequest stays survived
  have closed : after.isConnectionClosed =
      decide (message.Closes session.type index) := by
    rw [← put.isConnectionClosed aligned,
      Session.isConnectionClosed_of_frame frame]
    split
    · exact Session.isConnectionClosed_readyForNextRequest
    · rfl
  rw [put.completedSlot, aligned.requestCount_prepared, closed] at turned
  refine ⟨sent, after, turned, codes, store, closed, fun rdma => ?_,
    fun known opened => ?_, fun unknown => ?_⟩
  · simp only [Session.frame, Prod.mk.injEq] at frame
    rw [frame.2.1]
    split
    · exact Session.next_readyForNextRequest (put.next rdma)
    · exact put.next rdma
  · refine put.ready ?_ (by rw [frame, if_pos known])
    rw [put.isConnectionClosed aligned]
    exact decide_eq_false opened
  · rw [frame, if_neg (not_not.mpr unknown)]

/-- An aligned turn reads the slot of a message that kills the process, but
executes nothing. -/
theorem mainTurn_of_kills (aligned : Aligned session index)
    (kills : message.Kills session.type) (socket : SocketReport) :
    ∃ after, session.mainTurn handlers (.arrival message socket) =
      some (⟨some (index % ringSize session.type),
        index % ringSize session.type, none, []⟩, after, true) := by
  have put := aligned.landed message
  obtain ⟨sent, after, turned, none⟩ := Session.mainTurn_exits handlers socket
    aligned.unlocked put.getCurrentRequest (.inr kills)
  rw [if_pos kills, List.length_eq_zero_iff] at none
  exact ⟨after, by
    rw [turned, none, put.completedSlot, aligned.requestCount_prepared]⟩

theorem mainTurn_after_unk (aligned : Aligned session index)
    (ring : session.type = .rc ∨ session.type = .uc)
    (unknown : message.method = .unk)
    (frame : after.frame =
      (session.prepareForNextRequest.landed message).frame)
    (next : Request) (socket : SocketReport) :
    ∃ turn final ended,
      after.mainTurn handlers (.arrival next socket) =
        some (turn, final, ended) ∧ turn.completed ≠ some turn.current := by
  have put := aligned.landed message
  have rdma : session.type ≠ .tcp := by rcases ring with h | h <;> simp [h]
  have single : session.type ≠ .ud := by rcases ring with h | h <;> simp [h]
  have size : ringSize session.type = 5 := by
    rcases ring with h | h <;> rw [h] <;> rfl
  have request := Session.getCurrentRequest_of_frame frame
  simp only [Session.frame, Session.config, Prod.mk.injEq] at frame
  obtain ⟨⟨type, -⟩, queue, count, locked⟩ := frame
  have waited : after.queue.next = some ((index + 1) % 5) := by
    rw [queue, ReceiveQueue.next, put.arrived rdma, ← size]
    exact put.cyclic rdma _ (by rw [put.posted rdma, size]; split <;> omega)
  refine Session.mainTurn_of_apart handlers socket
    (by rwa [type, put.type]) (locked.trans (put.unlocked single)) waited ?_ ?_
    fun kills => ?_
  · rw [count, put.count, size]
    omega
  · rw [request, put.getCurrentRequest, unknown]
    decide
  · have method := kills.2.1
    rw [request, put.getCurrentRequest, unknown] at method
    cases method

end Aligned

end RdmaKVStore
