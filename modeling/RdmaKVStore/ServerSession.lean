import RdmaKVStore.ReceiveQueue
import RdmaKVStore.Requests
import RdmaKVStore.WorkCompletion

/-!
# Server sessions

The session of one worker: `main_job` with `request_dispatcher.c`,
`server_utils.c` and the receive and send functions of the four transports.
Each turn of the request loop takes a receipt, which says what the calls of
the receive step report and what reaches the request buffer.  The store is
behind the handlers that the method switch calls.
-/

namespace RdmaKVStore

def Request.opened (request : Request) : Request :=
  { request with connectionClose := 0 }

/-- `REQUEST_BACKLOG` -/
def requestBacklog : Nat := 5

/-- `MAX_CLIENTS` -/
def maxClients : Nat := 1024

/-- `sizeof(struct request)` -/
def requestSize : Int := 352

/-- The number of request buffers that a session cycles through. -/
def ringSize : ConnectionType → Nat
  | .tcp | .rc | .uc => requestBacklog
  | .ud => maxClients

/-- What the socket calls of `setopt_request` report; `sndbuf` is the printed
buffer size. -/
structure SocketReport where
  setsockopt : Int
  getsockopt : Int
  sndbuf : Bytes

/-- One receive step: the results of `select` and `read` over TCP, of the wait
for a completion over RDMA, the value of `errno` when `receive_header` of the
transport reads it, whether `lock` of the UD server can be had, and what the
peer's message, if one arrives, puts into the request buffer. -/
structure Receipt where
  select : Int
  read : Int
  wait : CompletionWait
  errno : Int
  lockObtained : Bool
  message : Option Request
  socket : SocketReport

def Receipt.arrival (message : Request) (socket : SocketReport) : Receipt where
  select := 1
  read := requestSize
  wait :=
    { getCqEvent := 0
      reqNotifyCq := 0
      eventErrno := 0
      polls := [.completed [0]] }
  errno := 0
  lockObtained := true
  message := some message
  socket := socket

/-- The functions that the method switch of `main_job` calls. -/
structure StoreHandlers (Store : Type*) where
  setRequest : Request → Response → Store → Store × Response
  getRequest : Request → Response → Store → Store × Response
  delRequest : Request → Response → Store → Store × Response
  initHashtable : Store → Store

/-- `struct client_info` and, for UD, the fields of `struct ud_server_info`
that the worker uses; `locked` says that the worker holds the server's
`lock`. -/
structure Session (Store : Type*) where
  type : ConnectionType
  blocking : Bool
  queue : ReceiveQueue Request
  requestCount : Nat
  locked : Bool
  clientHandling : Int32
  response : Response
  store : Store

namespace Session

variable {Store : Type*}

/-- The session that `accept_new_connection` sets up: receives are posted for
all slots in order, except over TCP. -/
def accepted (type : ConnectionType) (blocking : Bool) (store : Store) :
    Session Store where
  type := type
  blocking := blocking
  queue :=
    { postings := if type = .tcp then [] else List.range (ringSize type)
      arrived := 0
      slots := fun _ => Request.zero }
  requestCount := 0
  locked := false
  clientHandling := 0
  response := Response.zero
  store := store

variable (session : Session Store)

/-- `get_current_request` -/
def getCurrentRequest : Request :=
  session.queue.slots session.requestCount

/-- `prepare_for_next_request` -/
def prepareForNextRequest : Session Store :=
  match session.type with
  | .tcp | .ud => session
  | .rc | .uc =>
      { session with queue := session.queue.post session.requestCount }

/-- `ready_for_next_request` -/
def readyForNextRequest : Session Store :=
  match session.type with
  | .tcp | .rc | .uc =>
      { session with
        requestCount := (session.requestCount + 1) % requestBacklog }
  | .ud =>
      { session with
        queue := session.queue.post session.requestCount
        requestCount := (session.requestCount + 1) % maxClients
        locked := false }

/-- The first statement of `main_job` clears the close flag of the client's own
first buffer; the UD server has others. -/
def start : Session Store :=
  match session.type with
  | .ud => session
  | .tcp | .rc | .uc =>
      { session with
        queue.slots := Function.update session.queue.slots 0
          (session.queue.slots 0).opened }

/-- `is_connection_closed`: the flag of the first request buffer. -/
def isConnectionClosed : Bool :=
  (session.queue.slots 0).connectionClose ≠ 0

/-- The slot that the last message was put into. -/
def completedSlot : Option Nat :=
  match session.type with
  | .tcp => some session.requestCount
  | .rc | .uc | .ud => session.queue.postings[session.queue.arrived - 1]?

/-- `read` puts what it gets into the current buffer. -/
def readInto (message : Option Request) : Session Store :=
  match message with
  | none => session
  | some message =>
      { session with
        queue.slots :=
          Function.update session.queue.slots session.requestCount message }

/-- The adapter puts an arriving message into the first posted buffer. -/
def arrive (message : Option Request) : Session Store :=
  match message with
  | none => session
  | some message =>
      { session with
        queue := (session.queue.deliver message).getD session.queue }

/-- `tcp_read_header` behind `connection_ready` -/
def tcpReceiveHeader (receipt : Receipt) : Int × Session Store :=
  if receipt.select = -1 then (-1, session)
  else if receipt.read ≠ requestSize then
    (-1, session.readInto receipt.message)
  else (receipt.read, session.readInto receipt.message)

/-- `rc_receive_header` and `uc_receive_header`; `none` while the wait for a
completion goes on. -/
def rdmaReceiveHeader (receipt : Receipt) : Option (Int × Session Store) :=
  (processWorkCompletionEvents session.blocking 1 receipt.wait).map fun ret =>
    (if ret < 0 then -receipt.errno else ret,
      session.arrive receipt.message)

/-- `ud_receive_header`, which takes the server's `lock` before it looks at
the result. -/
def udReceiveHeader (receipt : Receipt) : Option (Int × Session Store) :=
  if session.locked ∨ receipt.lockObtained = false then none
  else { session with locked := true }.rdmaReceiveHeader receipt

/-- `receive_header` -/
def receiveHeader (receipt : Receipt) : Option (Int × Session Store) :=
  match session.type with
  | .tcp => some (session.tcpReceiveHeader receipt)
  | .rc | .uc => session.rdmaReceiveHeader receipt
  | .ud => session.udReceiveHeader receipt

end Session

/-- The structure that `send_response` sends. -/
def Response.reply (code : ResponseCode) (payload : Bytes) : Response where
  code := code
  msg := writeArray (zeroArray msgSize) payload
  msgLen := UInt64.ofNat payload.length

/-- How a dispatcher function leaves the session, what it sends, and whether
the process ends in it. -/
structure Dispatch (Store : Type*) where
  session : Session Store
  sent : List Response
  exits : Bool

namespace Session

variable {Store : Type*} (session : Session Store)

/-- `send_response` -/
def sendResponse (code : ResponseCode) (payload : Bytes) : Dispatch Store :=
  { session := { session with response := .reply code payload }
    sent := [.reply code payload]
    exits := false }

/-- `ping` -/
def ping : Dispatch Store :=
  session.sendResponse .ok []

/-- The bytes of `SNDBUF`. -/
def sndbufKey : Bytes :=
  [83, 78, 68, 66, 85, 70]

/-- `setopt_request`.  Only over TCP has `tcp_client` been set; otherwise the
process dies where it looks for the socket. -/
def setoptRequest (request : Request) (socket : SocketReport) :
    Dispatch Store :=
  if request.keyString = sndbufKey then
    if session.type ≠ .tcp then
      { session := session, sent := [], exits := true }
    else if socket.setsockopt < 0 then session.sendResponse .setoptError []
    else if socket.getsockopt ≠ 0 then session.sendResponse .setoptError []
    else session.sendResponse .ok socket.sndbuf
  else session.sendResponse .keyError []

/-- `request_dispatcher` -/
def requestDispatcher (socket : SocketReport) : Dispatch Store :=
  let request := session.getCurrentRequest
  match request.method with
  | .ping => session.ping
  | .exit => { session.sendResponse .ok [] with exits := true }
  | .setopt => session.setoptRequest request socket
  | .unk => session.sendResponse .parsingError []
  | .set | .get | .del | .dump | .rst =>
      { session := session, sent := [], exits := false }

end Session

/-- How `recv_request` ends: it returns NULL or a request, after the
dispatcher has sent its responses, or the process ends. -/
inductive Received (Store : Type*)
  | null (session : Session Store)
  | request (request : Request) (session : Session Store)
      (sent : List Response)
  | exited (session : Session Store) (sent : List Response)

/-- The session that `recv_request` leaves behind. -/
def Received.session {Store : Type*} : Received Store → Session Store
  | .null session | .request _ session _ | .exited session _ => session

namespace Session

variable {Store : Type*} (session : Session Store)

/-- Over UD the worker remembers which client it answers. -/
def rememberClient (request : Request) : Session Store :=
  if session.type = .ud then
    { session with clientHandling := request.clientId }
  else session

/-- `recv_request`; `none` when a call in it does not return. -/
def recvRequest (receipt : Receipt) : Option (Received Store) :=
  (session.receiveHeader receipt).map fun (header, session) =>
    if header = -1 then .null session
    else
      let current := session.getCurrentRequest
      let session := session.rememberClient current
      let dispatch := session.requestDispatcher receipt.socket
      if dispatch.exits then .exited dispatch.session dispatch.sent
      else .request current dispatch.session dispatch.sent

end Session

/-- The method switch of `main_job`, on a cleared response. -/
def StoreHandlers.switch {Store : Type*} (handlers : StoreHandlers Store)
    (request : Request) (store : Store) : Store × Response :=
  match request.method with
  | .set => handlers.setRequest request Response.zero store
  | .get => handlers.getRequest request Response.zero store
  | .del => handlers.delRequest request Response.zero store
  | .rst =>
      (handlers.initHashtable store, { Response.zero with code := .ok })
  | .unk | .ping | .dump | .exit | .setopt => (store, Response.zero)

/-- A request that the process does not survive: `setopt_request` reaches for
the socket of a client that has none. -/
def Request.Kills (type : ConnectionType) (request : Request) : Prop :=
  type ≠ .tcp ∧ request.method = .setopt ∧
    request.keyString = Session.sndbufKey

instance (type : ConnectionType) (request : Request) :
    Decidable (request.Kills type) :=
  inferInstanceAs (Decidable (_ ∧ _ ∧ _))

/-- What `request_dispatcher` answers itself over RDMA, if it survives;
`setopt_request` knows the key SNDBUF only. -/
def dispatchReply (request : Request) : Option Response :=
  match request.method with
  | .ping | .exit => some (.reply .ok [])
  | .setopt => some (.reply .keyError [])
  | .unk => some (.reply .parsingError [])
  | .set | .get | .del | .dump | .rst => none

/-- The methods that the method switch has a case for. -/
def Method.Stored (method : Method) : Prop :=
  method = .set ∨ method = .get ∨ method = .del ∨ method = .rst

instance (method : Method) : Decidable method.Stored :=
  inferInstanceAs (Decidable (_ ∨ _ ∨ _ ∨ _))

def StaysOpen (messages : Nat → Request) : Prop :=
  ∀ number, (messages number).connectionClose = 0

theorem Method.Stored.ne_unk {method : Method} (stored : method.Stored) :
    method ≠ .unk := by
  rintro rfl
  exact absurd stored (by decide)

theorem Method.Stored.not_kills {request : Request}
    (stored : request.method.Stored) (type : ConnectionType) :
    ¬ request.Kills type := by
  rintro ⟨-, setopt, -⟩
  rw [setopt] at stored
  exact absurd stored (by decide)

theorem Method.Stored.dispatchReply {request : Request}
    (stored : request.method.Stored) : dispatchReply request = none := by
  rcases stored with method | method | method | method <;>
    simp only [RdmaKVStore.dispatchReply, method]

def StoreHandlers.idle : StoreHandlers Unit where
  setRequest _ response store := (store, response)
  getRequest _ response store := (store, response)
  delRequest _ response store := (store, response)
  initHashtable store := store

/-- The worker's step of the switch: the store and the response buffer
change. -/
def Session.handle {Store : Type*} (session : Session Store)
    (handlers : StoreHandlers Store) (request : Request) : Session Store :=
  { session with
    store := (handlers.switch request session.store).1
    response := (handlers.switch request session.store).2 }

/-- What one turn of the request loop did: the slot that the last message was
put into, the slot that the worker read, the request it ran the method switch
on, and the responses it sent. -/
structure Turn where
  completed : Option Nat
  current : Nat
  served : Option Request
  responses : List Response

namespace Session

variable {Store : Type*} (handlers : StoreHandlers Store)

/-- One turn of the loop of `main_job`; the last component says that the loop
ends. -/
def mainTurn (session : Session Store) (receipt : Receipt) :
    Option (Turn × Session Store × Bool) :=
  let session := session.prepareForNextRequest
  let current := session.requestCount
  (session.recvRequest receipt).map fun received =>
    let completed := received.session.completedSlot
    match received with
    | .null session => (⟨completed, current, none, []⟩, session, true)
    | .exited session sent => (⟨completed, current, none, sent⟩, session, true)
    | .request request session sent =>
        let session :=
          if request.method ≠ .unk then session.readyForNextRequest
          else session
        let session := session.handle handlers request
        (⟨completed, current, some request, sent ++ [session.response]⟩,
          session, session.isConnectionClosed)

/-- The turns of the loop, as long as calls return and receipts last. -/
def mainLoop : Session Store → List Receipt → List Turn
  | _, [] => []
  | session, receipt :: receipts =>
      match session.mainTurn handlers receipt with
      | none => []
      | some (turn, _, true) => [turn]
      | some (turn, session, false) => turn :: mainLoop session receipts

/-- `main_job` -/
def mainJob (session : Session Store) (receipts : List Receipt) : List Turn :=
  session.start.mainLoop handlers receipts

theorem start_of_open {session : Session Store}
    (stillOpen : (session.queue.slots 0).connectionClose = 0) :
    session.start = session := by
  have same : (session.queue.slots 0).opened = session.queue.slots 0 := by
    rw [Request.opened, ← stillOpen]
  unfold start
  split
  · rfl
  all_goals rw [same, Function.update_eq_self]

/-! ### What stays the same during a session -/

def config (session : Session Store) : ConnectionType × Bool :=
  (session.type, session.blocking)

/-- All of a session but its store, its response and the client it answers. -/
def frame (session : Session Store) :
    (ConnectionType × Bool) × ReceiveQueue Request × Nat × Bool :=
  (session.config, session.queue, session.requestCount, session.locked)

variable {session other : Session Store} {receipt : Receipt}

theorem config_of_frame (same : session.frame = other.frame) :
    session.config = other.config :=
  congrArg Prod.fst same

theorem config_prepareForNextRequest (session : Session Store) :
    session.prepareForNextRequest.config = session.config := by
  unfold prepareForNextRequest
  split <;> rfl

theorem locked_prepareForNextRequest :
    session.prepareForNextRequest.locked = session.locked := by
  unfold prepareForNextRequest
  split <;> rfl

theorem requestCount_prepareForNextRequest :
    session.prepareForNextRequest.requestCount = session.requestCount := by
  unfold prepareForNextRequest
  split <;> rfl

theorem config_readyForNextRequest :
    session.readyForNextRequest.config = session.config := by
  unfold readyForNextRequest
  split <;> rfl

theorem config_start (session : Session Store) :
    session.start.config = session.config := by
  unfold start
  split <;> rfl

theorem config_readInto (message : Option Request) :
    (session.readInto message).config = session.config := by
  cases message <;> rfl

theorem config_arrive (message : Option Request) :
    (session.arrive message).config = session.config := by
  cases message <;> rfl

theorem frame_handle (request : Request) :
    (session.handle handlers request).frame = session.frame :=
  rfl

theorem config_rdmaReceiveHeader {header : Int} {after : Session Store}
    (received : session.rdmaReceiveHeader receipt = some (header, after)) :
    after.config = session.config := by
  obtain ⟨ret, -, same⟩ := Option.map_eq_some_iff.mp received
  cases same
  exact config_arrive _

theorem config_receiveHeader {header : Int} {after : Session Store}
    (received : session.receiveHeader receipt = some (header, after)) :
    after.config = session.config := by
  unfold receiveHeader at received
  split at received
  · simp only [tcpReceiveHeader, Option.some.injEq] at received
    split at received
    · cases received; rfl
    · split at received <;> cases received <;> exact config_readInto _
  · exact config_rdmaReceiveHeader received
  · exact config_rdmaReceiveHeader received
  · simp only [udReceiveHeader] at received
    split at received
    · cases received
    · exact (config_rdmaReceiveHeader received).trans rfl

theorem setoptRequest_session (request : Request) (socket : SocketReport) :
    ∃ response, (session.setoptRequest request socket).session =
      { session with response := response } := by
  unfold setoptRequest
  split
  · split
    · exact ⟨_, rfl⟩
    · split
      · exact ⟨_, rfl⟩
      · split <;> exact ⟨_, rfl⟩
  · exact ⟨_, rfl⟩

theorem requestDispatcher_session (session : Session Store)
    (socket : SocketReport) :
    ∃ response, (session.requestDispatcher socket).session =
      { session with response := response } := by
  cases method : session.getCurrentRequest.method with
  | setopt =>
      simp only [requestDispatcher, method]
      exact setoptRequest_session _ _
  | _ =>
      simp only [requestDispatcher, method]
      exact ⟨_, rfl⟩

theorem frame_rememberClient (request : Request) :
    (session.rememberClient request).frame = session.frame := by
  unfold rememberClient
  split <;> rfl

theorem store_rememberClient (request : Request) :
    (session.rememberClient request).store = session.store := by
  unfold rememberClient
  split <;> rfl

theorem frame_requestDispatcher (socket : SocketReport) :
    (session.requestDispatcher socket).session.frame = session.frame := by
  obtain ⟨response, same⟩ := session.requestDispatcher_session socket
  rw [same]
  rfl

theorem store_requestDispatcher (socket : SocketReport) :
    (session.requestDispatcher socket).session.store = session.store := by
  obtain ⟨response, same⟩ := session.requestDispatcher_session socket
  rw [same]

theorem config_recvRequest {received : Received Store}
    (ended : session.recvRequest receipt = some received) :
    received.session.config = session.config := by
  obtain ⟨⟨header, middle⟩, headerEq, same⟩ := Option.map_eq_some_iff.mp ended
  have kept := config_receiveHeader headerEq
  by_cases closed : header = -1
  · simp only [closed, if_true] at same
    subst same
    exact kept
  · simp only [closed, if_false] at same
    have dispatched :=
      (config_of_frame (frame_requestDispatcher receipt.socket)).trans
        ((config_of_frame (frame_rememberClient
          middle.getCurrentRequest)).trans kept)
    split at same <;> subst same <;> exact dispatched

theorem config_mainTurn {turn : Turn} {after : Session Store} {ended : Bool}
    (turned : session.mainTurn handlers receipt = some (turn, after, ended)) :
    after.config = session.config := by
  obtain ⟨received, ended, same⟩ := Option.map_eq_some_iff.mp turned
  have kept := (config_recvRequest ended).trans
    (config_prepareForNextRequest session)
  cases received with
  | null middle => cases same; exact kept
  | exited middle sent => cases same; exact kept
  | request request middle sent =>
      cases same
      rw [config_of_frame (frame_handle handlers request)]
      split
      · rw [config_readyForNextRequest]
        exact kept
      · exact kept

theorem frame_readyForNextRequest (same : session.frame = other.frame) :
    session.readyForNextRequest.frame = other.readyForNextRequest.frame := by
  simp only [frame, config, Prod.mk.injEq] at same
  obtain ⟨⟨type, blocking⟩, queue, count, locked⟩ := same
  unfold readyForNextRequest
  rw [type]
  split <;> simp [frame, config, blocking, queue, count, locked]

theorem getCurrentRequest_of_frame (same : session.frame = other.frame) :
    session.getCurrentRequest = other.getCurrentRequest := by
  simp only [frame, Prod.mk.injEq] at same
  rw [getCurrentRequest, same.2.1, same.2.2.1, getCurrentRequest]

theorem store_prepareForNextRequest :
    session.prepareForNextRequest.store = session.store := by
  unfold prepareForNextRequest
  split <;> rfl

theorem store_readyForNextRequest :
    session.readyForNextRequest.store = session.store := by
  unfold readyForNextRequest
  split <;> rfl

end Session

end RdmaKVStore
