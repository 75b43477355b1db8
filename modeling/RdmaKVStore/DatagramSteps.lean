import RdmaKVStore.SendQueue
import RdmaKVStore.ServerSession
import RdmaKVStore.TransitionRuns

/-!
# The workers of a UD server

`main_job` of any number of workers over UD with the functions of
`ud_server_utils.c`, cut at every access to what the workers share: the queue
of receive completions, `lock`, the ring of requests with its counter, and the
send queue.  Receives may fail, and what the calls of a step report is part of
its label.  Datagrams are named by the receives that they use up.
-/

namespace RdmaKVStore

/-- A return of `recv_request` with a request: the datagram in the slot at that
moment, and the client that the worker then answers. -/
structure DatagramReturn (Worker : Type*) where
  worker : Worker
  datagram : Option Nat
  clientHandling : Int32

/-- `struct ud_server_info`, the table, and of each worker its `response` and
`client_handling`.  `statuses` says which receive completions are successful,
`polled` counts those taken from the queue, and `returns` records what
`recv_request` has returned. -/
structure DatagramServer (Worker Store : Type*) where
  queue : ReceiveQueue (Option Nat)
  statuses : List Bool
  polled : Nat
  requestCount : Nat
  lock : Option Worker
  sends : SendQueue Worker Response
  response : Worker → Response
  clientHandling : Worker → Int32
  store : Store
  exited : Bool
  returns : List (DatagramReturn Worker)

/-- What a worker does next: `prepare_for_next_request`; the wait in
`ud_receive_header`; taking `lock`, with the wait's failure known; returning
from `ud_receive_header` and reading the current slot; `request_dispatcher` and
the wait for its response; the test for UNK; the three steps of
`ready_for_next_request`; `bzero` and the method switch; `ud_send_response` and
its wait.  An ended worker has returned, and a crashed one has taken the
process with it. -/
inductive DatagramPhase
  | prepare
  | receive
  | lock (failed : Bool)
  | current (failed : Bool)
  | dispatch (slot : Nat)
  | dispatchWait (slot : Nat)
  | exitWait
  | check (slot : Nat)
  | repost (slot : Nat)
  | count (slot : Nat)
  | unlock (slot : Nat)
  | clear (slot : Nat)
  | switch (slot : Nat)
  | respond
  | respondWait
  | ended
  | crashed
  deriving DecidableEq

/-- What the calls in a worker's step report: `errno` where
`ud_receive_header` reads it. -/
structure WorkerCalls where
  errno : Int

namespace DatagramServer

variable {Worker Store : Type*} [DecidableEq Worker]

/-- The server that `init_ud_server` sets up: all slots are posted in order. -/
def initial (store : Store) : DatagramServer Worker Store where
  queue :=
    { postings := List.range maxClients
      arrived := 0
      slots := fun _ => none }
  statuses := []
  polled := 0
  requestCount := 0
  lock := none
  sends := .empty
  response _ := Response.zero
  clientHandling _ := 0
  store := store
  exited := false
  returns := []

variable (server : DatagramServer Worker Store)

/-- The request structure in a slot, when datagram `n` is `messages n`. -/
def request (messages : Nat → Request) (slot : Nat) : Request :=
  (server.queue.slots slot).elim Request.zero messages

def arrive : Option (DatagramServer Worker Store) :=
  (server.queue.deliver (some server.queue.arrived)).map fun queue =>
    { server with queue := queue, statuses := server.statuses ++ [true] }

/-- A posted receive completes with an error. -/
def flush : Option (DatagramServer Worker Store) :=
  if server.queue.arrived < server.queue.postings.length then
    some { server with
      queue.arrived := server.queue.arrived + 1
      statuses := server.statuses ++ [false] }
  else none

/-- The adapter reads the response posted next. -/
def transmit : Option (DatagramServer Worker Store) :=
  (server.sends.transmit server.response).map fun sends =>
    { server with sends := sends }

def complete : Option (DatagramServer Worker Store) :=
  server.sends.complete.map fun sends => { server with sends := sends }

/-- The wait in `ud_receive_header` takes a completion. -/
def poll : DatagramServer Worker Store :=
  { server with polled := server.polled + 1 }

def takeLock (worker : Worker) : DatagramServer Worker Store :=
  { server with lock := some worker }

/-- `recv_request` remembers the client of the current request. -/
def rememberClient (messages : Nat → Request) (worker : Worker) :
    DatagramServer Worker Store :=
  { server with
    clientHandling := Function.update server.clientHandling worker
      (server.request messages server.requestCount).clientId }

def setResponse (worker : Worker) (response : Response) :
    DatagramServer Worker Store :=
  { server with response := Function.update server.response worker response }

/-- `ud_post_send` of a worker's response. -/
def postSend (worker : Worker) : DatagramServer Worker Store :=
  { server with sends := server.sends.post worker (server.response worker) }

/-- The wait in `ud_send_response` takes a completion. -/
def waitSend (worker : Worker) : Option (DatagramServer Worker Store) :=
  (server.sends.take worker).map fun sends => { server with sends := sends }

/-- The wait in `ud_send_response` ends without a completion. -/
def abandonSend (worker : Worker) : DatagramServer Worker Store :=
  { server with sends := server.sends.abandon worker }

/-- `recv_request` returns the request in a slot. -/
def returned (worker : Worker) (slot : Nat) : DatagramServer Worker Store :=
  { server with
    returns := server.returns ++
      [⟨worker, server.queue.slots slot, server.clientHandling worker⟩] }

/-- `ud_post_receive_request` -/
def postReceive : DatagramServer Worker Store :=
  { server with queue := server.queue.post server.requestCount }

def advanceCount : DatagramServer Worker Store :=
  { server with requestCount := (server.requestCount + 1) % maxClients }

def releaseLock : DatagramServer Worker Store :=
  { server with lock := none }

/-- The method switch of `main_job`. -/
def handle (handlers : StoreHandlers Store) (worker : Worker)
    (request : Request) : DatagramServer Worker Store :=
  { server.setResponse worker (handlers.switch request server.store).2 with
    store := (handlers.switch request server.store).1 }

/-- After its response a worker tests `is_connection_closed`. -/
def afterResponse (messages : Nat → Request) : DatagramPhase :=
  if (server.request messages 0).connectionClose ≠ 0 then .ended else .prepare

/-- The next step of a worker; `none` while it waits. -/
def advance (messages : Nat → Request) (handlers : StoreHandlers Store)
    (worker : Worker) (calls : WorkerCalls) :
    DatagramPhase → Option (DatagramServer Worker Store × DatagramPhase)
  | .prepare => some (server, .receive)
  | .receive => server.statuses[server.polled]?.map fun successful =>
      (server.poll, .lock (!successful))
  | .lock failed =>
      if server.lock.isSome then none
      else some (server.takeLock worker, .current failed)
  | .current failed =>
      -- `recv_request` knows only the header result -1
      if failed ∧ -calls.errno = -1 then some (server, .ended)
      else some (server.rememberClient messages worker,
        .dispatch server.requestCount)
  | .dispatch slot =>
      if (server.request messages slot).Kills .ud then
        some ({ server with exited := true }, .crashed)
      else match dispatchReply (server.request messages slot) with
        | none => some (server.returned worker slot, .check slot)
        | some reply =>
            some ((server.setResponse worker reply).postSend worker,
              if (server.request messages slot).method = .exit then .exitWait
              else .dispatchWait slot)
  | .dispatchWait slot => (server.waitSend worker).map fun server =>
      (server.returned worker slot, .check slot)
  | .exitWait => (server.waitSend worker).map fun server =>
      ({ server with exited := true }, .exitWait)
  | .check slot =>
      some (server, if (server.request messages slot).method ≠ .unk then
        .repost slot else .clear slot)
  | .repost slot => some (server.postReceive, .count slot)
  | .count slot => some (server.advanceCount, .unlock slot)
  | .unlock slot => some (server.releaseLock, .clear slot)
  | .clear slot =>
      some (server.setResponse worker Response.zero, .switch slot)
  | .switch slot =>
      some (server.handle handlers worker (server.request messages slot),
        .respond)
  | .respond => some (server.postSend worker, .respondWait)
  | .respondWait => (server.waitSend worker).map fun server =>
      (server, server.afterResponse messages)
  | .ended | .crashed => none

/-- A worker's wait fails.  `ud_receive_header` remembers it; a wait after a
response returns all the same. -/
def failWait (messages : Nat → Request) (worker : Worker) :
    DatagramPhase → Option (DatagramServer Worker Store × DatagramPhase)
  | .receive => some (server, .lock true)
  | .dispatchWait slot =>
      some ((server.abandonSend worker).returned worker slot, .check slot)
  | .exitWait =>
      some ({ server.abandonSend worker with exited := true }, .exitWait)
  | .respondWait =>
      some (server.abandonSend worker, server.afterResponse messages)
  | .prepare | .lock _ | .current _ | .dispatch _ | .check _ | .repost _
  | .count _ | .unlock _ | .clear _ | .switch _ | .respond | .ended
  | .crashed => none

end DatagramServer

inductive DatagramServes {Worker Store : Type*} [DecidableEq Worker]
    (messages : Nat → Request) (worker : Worker)
    (server : DatagramServer Worker Store) (calls : WorkerCalls) :
    DatagramPhase → DatagramServer Worker Store → DatagramPhase → Prop
  | prepare : DatagramServes messages worker server calls .prepare server
      .receive
  | receive {successful : Bool}
      (completed : server.statuses[server.polled]? = some successful) :
      DatagramServes messages worker server calls .receive server.poll
        (.lock (!successful))
  | lock {failed : Bool} (free : server.lock = none) :
      DatagramServes messages worker server calls (.lock failed)
        (server.takeLock worker) (.current failed)
  | null (one : calls.errno = 1) :
      DatagramServes messages worker server calls (.current true) server .ended
  | current {failed : Bool} :
      DatagramServes messages worker server calls (.current failed)
        (server.rememberClient messages worker)
        (.dispatch server.requestCount)
  | crash {slot : Nat} (kills : (server.request messages slot).Kills .ud) :
      DatagramServes messages worker server calls (.dispatch slot)
        { server with exited := true } .crashed
  | pass {slot : Nat} :
      DatagramServes messages worker server calls (.dispatch slot)
        (server.returned worker slot) (.check slot)
  | answer {slot : Nat} {reply : Response} :
      DatagramServes messages worker server calls (.dispatch slot)
        ((server.setResponse worker reply).postSend worker)
        (.dispatchWait slot)
  | exit {slot : Nat} {reply : Response} :
      DatagramServes messages worker server calls (.dispatch slot)
        ((server.setResponse worker reply).postSend worker) .exitWait
  | answered {slot : Nat} {sends : SendQueue Worker Response}
      (taken : server.sends.take worker = some sends) :
      DatagramServes messages worker server calls (.dispatchWait slot)
        ({ server with sends := sends }.returned worker slot) (.check slot)
  | exited {sends : SendQueue Worker Response}
      (taken : server.sends.take worker = some sends) :
      DatagramServes messages worker server calls .exitWait
        { server with sends := sends, exited := true } .exitWait
  | known {slot : Nat}
      (method : (server.request messages slot).method ≠ .unk) :
      DatagramServes messages worker server calls (.check slot) server
        (.repost slot)
  | unknown {slot : Nat}
      (method : (server.request messages slot).method = .unk) :
      DatagramServes messages worker server calls (.check slot) server
        (.clear slot)
  | repost {slot : Nat} :
      DatagramServes messages worker server calls (.repost slot)
        server.postReceive (.count slot)
  | count {slot : Nat} :
      DatagramServes messages worker server calls (.count slot)
        server.advanceCount (.unlock slot)
  | unlock {slot : Nat} :
      DatagramServes messages worker server calls (.unlock slot)
        server.releaseLock (.clear slot)
  | clear {slot : Nat} :
      DatagramServes messages worker server calls (.clear slot)
        (server.setResponse worker Response.zero) (.switch slot)
  | switch {slot : Nat} {response : Response} {store : Store} :
      DatagramServes messages worker server calls (.switch slot)
        { server.setResponse worker response with store := store } .respond
  | respond :
      DatagramServes messages worker server calls .respond
        (server.postSend worker) .respondWait
  | close {sends : SendQueue Worker Response}
      (taken : server.sends.take worker = some sends) :
      DatagramServes messages worker server calls .respondWait
        { server with sends := sends } .ended
  | again {sends : SendQueue Worker Response}
      (taken : server.sends.take worker = some sends) :
      DatagramServes messages worker server calls .respondWait
        { server with sends := sends } .prepare

theorem DatagramServer.advance_serves {Worker Store : Type*}
    [DecidableEq Worker] {messages : Nat → Request}
    {handlers : StoreHandlers Store} {worker : Worker} {calls : WorkerCalls}
    {server after : DatagramServer Worker Store}
    {before next : DatagramPhase}
    (advanced : server.advance messages handlers worker calls before =
      some (after, next)) :
    DatagramServes messages worker server calls before after next := by
  cases before with
  | prepare => cases advanced; exact .prepare
  | receive =>
      obtain ⟨successful, completed, same⟩ :=
        Option.map_eq_some_iff.mp advanced
      cases same
      exact .receive completed
  | lock failed =>
      obtain ⟨free, same⟩ := Option.ite_none_left_eq_some.mp advanced
      cases same
      exact .lock (by simpa using free)
  | current failed =>
      simp only [advance] at advanced
      split at advanced
      case isTrue null =>
        obtain ⟨rfl, one⟩ := null
        cases advanced
        exact .null (by omega)
      case isFalse =>
        cases advanced
        exact .current
  | dispatch slot =>
      simp only [advance] at advanced
      split at advanced
      case isTrue kills =>
        cases advanced
        exact .crash kills
      case isFalse =>
        split at advanced
        · cases advanced; exact .pass
        · simp only [Option.some.injEq, Prod.mk.injEq] at advanced
          obtain ⟨rfl, rfl⟩ := advanced
          split
          · exact .exit
          · exact .answer
  | dispatchWait slot =>
      obtain ⟨middle, waited, same⟩ := Option.map_eq_some_iff.mp advanced
      obtain ⟨sends, taken, rfl⟩ := Option.map_eq_some_iff.mp waited
      cases same
      exact .answered taken
  | exitWait =>
      obtain ⟨middle, waited, same⟩ := Option.map_eq_some_iff.mp advanced
      obtain ⟨sends, taken, rfl⟩ := Option.map_eq_some_iff.mp waited
      cases same
      exact .exited taken
  | check slot =>
      simp only [advance, Option.some.injEq, Prod.mk.injEq] at advanced
      obtain ⟨rfl, rfl⟩ := advanced
      split
      · exact .known ‹_›
      · exact .unknown (not_not.mp ‹_›)
  | repost slot => cases advanced; exact .repost
  | count slot => cases advanced; exact .count
  | unlock slot => cases advanced; exact .unlock
  | clear slot => cases advanced; exact .clear
  | switch slot => cases advanced; exact .switch
  | respond => cases advanced; exact .respond
  | respondWait =>
      obtain ⟨middle, waited, same⟩ := Option.map_eq_some_iff.mp advanced
      obtain ⟨sends, taken, rfl⟩ := Option.map_eq_some_iff.mp waited
      simp only [Prod.mk.injEq, DatagramServer.afterResponse] at same
      obtain ⟨rfl, rfl⟩ := same
      split
      · exact .close taken
      · exact .again taken
  | ended | crashed => cases advanced

inductive DatagramFails {Worker Store : Type*} [DecidableEq Worker]
    (messages : Nat → Request) (worker : Worker)
    (server : DatagramServer Worker Store) :
    DatagramPhase → DatagramServer Worker Store → DatagramPhase → Prop
  | receive : DatagramFails messages worker server .receive server (.lock true)
  | answered {slot : Nat} :
      DatagramFails messages worker server (.dispatchWait slot)
        ((server.abandonSend worker).returned worker slot) (.check slot)
  | exited :
      DatagramFails messages worker server .exitWait
        { server.abandonSend worker with exited := true } .exitWait
  | close :
      DatagramFails messages worker server .respondWait
        (server.abandonSend worker) .ended
  | again :
      DatagramFails messages worker server .respondWait
        (server.abandonSend worker) .prepare

theorem DatagramServer.failWait_fails {Worker Store : Type*}
    [DecidableEq Worker] {messages : Nat → Request} {worker : Worker}
    {server after : DatagramServer Worker Store}
    {before next : DatagramPhase}
    (failed : server.failWait messages worker before = some (after, next)) :
    DatagramFails messages worker server before after next := by
  cases before with
  | receive => cases failed; exact .receive
  | dispatchWait slot => cases failed; exact .answered
  | exitWait => cases failed; exact .exited
  | respondWait =>
      simp only [failWait, afterResponse, Option.some.injEq, Prod.mk.injEq]
        at failed
      obtain ⟨rfl, rfl⟩ := failed
      split
      · exact .close
      · exact .again
  | _ => cases failed

structure DatagramState (Worker Store : Type*) where
  server : DatagramServer Worker Store
  phase : Worker → DatagramPhase

/-- A datagram arrives or a receive fails, a response is read by the adapter or
completes, a worker's wait fails, or a worker takes a step. -/
inductive DatagramLabel (Worker : Type*)
  | arrive
  | flush
  | transmit
  | complete
  | failWait (worker : Worker)
  | work (worker : Worker) (calls : WorkerCalls)

def DatagramState.initial {Worker Store : Type*} (store : Store) :
    DatagramState Worker Store where
  server := .initial store
  phase _ := .prepare

/-- The workers of a UD server, which poll, and its adapter, for given
datagrams. -/
def datagramServer {Worker Store : Type*} [DecidableEq Worker]
    (messages : Nat → Request) (handlers : StoreHandlers Store)
    (store : Store) :
    TransitionSystem (DatagramState Worker Store) (DatagramLabel Worker) where
  initial state := state = .initial store
  step state
    | .arrive => state.server.arrive.map fun server =>
        { state with server := server }
    | .flush => state.server.flush.map fun server =>
        { state with server := server }
    | .transmit => state.server.transmit.map fun server =>
        { state with server := server }
    | .complete => state.server.complete.map fun server =>
        { state with server := server }
    | .failWait worker =>
        if state.server.exited then none
        else
          (state.server.failWait messages worker (state.phase worker)).map
            fun (server, phase) =>
              { server := server
                phase := Function.update state.phase worker phase }
    | .work worker calls =>
        if state.server.exited then none
        else
          (state.server.advance messages handlers worker calls
            (state.phase worker)).map fun (server, phase) =>
              { server := server
                phase := Function.update state.phase worker phase }

inductive DatagramSteps {Worker Store : Type*} [DecidableEq Worker]
    (messages : Nat → Request) (before : DatagramState Worker Store) :
    DatagramLabel Worker → DatagramState Worker Store → Prop
  | arrive {queue : ReceiveQueue (Option Nat)}
      (delivered : before.server.queue.deliver
        (some before.server.queue.arrived) = some queue) :
      DatagramSteps messages before .arrive
        { before with
          server.queue := queue
          server.statuses := before.server.statuses ++ [true] }
  | flush (room : before.server.queue.arrived <
        before.server.queue.postings.length) :
      DatagramSteps messages before .flush
        { before with
          server.queue.arrived := before.server.queue.arrived + 1
          server.statuses := before.server.statuses ++ [false] }
  | transmit {sends : SendQueue Worker Response}
      (sent : before.server.sends.transmit before.server.response =
        some sends) :
      DatagramSteps messages before .transmit
        { before with server.sends := sends }
  | complete {sends : SendQueue Worker Response}
      (completed : before.server.sends.complete = some sends) :
      DatagramSteps messages before .complete
        { before with server.sends := sends }
  | failWait {worker : Worker} {server : DatagramServer Worker Store}
      {next : DatagramPhase}
      (fails : DatagramFails messages worker before.server
        (before.phase worker) server next) :
      DatagramSteps messages before (.failWait worker)
        { server := server
          phase := Function.update before.phase worker next }
  | work {worker : Worker} {calls : WorkerCalls}
      {server : DatagramServer Worker Store} {next : DatagramPhase}
      (serves : DatagramServes messages worker before.server calls
        (before.phase worker) server next) :
      DatagramSteps messages before (.work worker calls)
        { server := server
          phase := Function.update before.phase worker next }

theorem datagramServer_steps {Worker Store : Type*} [DecidableEq Worker]
    {messages : Nat → Request} {handlers : StoreHandlers Store}
    {store : Store} {before after : DatagramState Worker Store}
    {label : DatagramLabel Worker}
    (stepTo : (datagramServer messages handlers store).step before label =
      some after) :
    DatagramSteps messages before label after := by
  cases label with
  | arrive =>
      obtain ⟨server, arrived, rfl⟩ := Option.map_eq_some_iff.mp stepTo
      obtain ⟨queue, delivered, rfl⟩ := Option.map_eq_some_iff.mp arrived
      exact .arrive delivered
  | flush =>
      obtain ⟨server, flushed, rfl⟩ := Option.map_eq_some_iff.mp stepTo
      obtain ⟨room, same⟩ := Option.ite_none_right_eq_some.mp flushed
      cases same
      exact .flush room
  | transmit =>
      obtain ⟨server, moved, rfl⟩ := Option.map_eq_some_iff.mp stepTo
      obtain ⟨sends, sent, rfl⟩ := Option.map_eq_some_iff.mp moved
      exact .transmit sent
  | complete =>
      obtain ⟨server, moved, rfl⟩ := Option.map_eq_some_iff.mp stepTo
      obtain ⟨sends, completed, rfl⟩ := Option.map_eq_some_iff.mp moved
      exact .complete completed
  | failWait worker =>
      obtain ⟨-, moved⟩ := Option.ite_none_left_eq_some.mp stepTo
      obtain ⟨⟨server, next⟩, failed, rfl⟩ := Option.map_eq_some_iff.mp moved
      exact .failWait (DatagramServer.failWait_fails failed)
  | work worker calls =>
      obtain ⟨-, moved⟩ := Option.ite_none_left_eq_some.mp stepTo
      obtain ⟨⟨server, next⟩, advanced, rfl⟩ :=
        Option.map_eq_some_iff.mp moved
      exact .work (DatagramServer.advance_serves advanced)

end RdmaKVStore
