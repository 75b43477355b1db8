import RdmaKVStore.TransitionRuns
import Mathlib.Data.List.Perm.Basic

/-!
# Connecting RC clients

RC connections are made by the connection manager.  A client has an event
channel of its own, but the server reads the events of all its connections from
one channel, in the order in which they happen, while it accepts one client
after the other: it waits for a connect request, and then for the connection to
be established.
-/

namespace RdmaKVStore

/-- The events of `enum rdma_cm_event_type` that connections lead to. -/
inductive CmEventType
  | addrResolved
  | addrError
  | routeResolved
  | routeError
  | connectRequest
  | connectError
  | unreachable
  | rejected
  | established
  | disconnected
  | timewaitExit
  deriving DecidableEq

/-- `struct rdma_cm_event`: its status is zero unless it reports a failure, and
its `id` is known by the client of the connection. -/
structure CmEvent where
  type : CmEventType
  status : Int
  id : Nat
  deriving DecidableEq

def CmEvent.connectRequest (client : Nat) : CmEvent where
  type := .connectRequest
  status := 0
  id := client

def CmEvent.established (client : Nat) : CmEvent where
  type := .established
  status := 0
  id := client

/-- `struct rdma_event_channel`: the events that wait, and the numbers of those
that have been taken and of those that have been acknowledged. -/
structure CmChannel where
  events : List CmEvent
  taken : Nat
  acked : Nat

namespace CmChannel

def initial : CmChannel where
  events := []
  taken := 0
  acked := 0

variable (channel : CmChannel)

def report (event : CmEvent) : CmChannel :=
  { channel with events := channel.events ++ [event] }

/-- `rdma_ack_cm_event` -/
def ack : CmChannel :=
  { channel with acked := channel.acked + 1 }

/-- `process_rdma_cm_event`; `none` while it waits.  If `rdma_get_cm_event` gets
no event, it leaves `fault + 1` in `errno`.  The result comes with the event,
which the caller has to acknowledge if the result is zero; otherwise the event
has been acknowledged and is thrown away. -/
def processRdmaCmEvent (expected : CmEventType) (got : Bool) (fault : Nat) :
    Option (Int × Option CmEvent × CmChannel) :=
  if got then
    match channel.events with
    | [] => none
    | event :: rest =>
        let channel :=
          { channel with events := rest, taken := channel.taken + 1 }
        some
          (if event.status ≠ 0 then (-event.status, some event, channel.ack)
          else if event.type ≠ expected then (-1, some event, channel.ack)
          else (0, some event, channel))
  else some (-(fault + 1), none, channel)

end CmChannel

/-- Where a client is: before `client_prepare_connection`; at `rdma_connect`
and the wait after it in `client_connect_to_server`; connected, or back with a
failed connection. -/
inductive CmClientPhase
  | prepare
  | connect
  | wait
  | connected
  | failed
  deriving DecidableEq

structure CmClient where
  phase : CmClientPhase
  channel : CmChannel

/-- Where the server is in `rc_accept_new_connection`: at the wait for a
connect request, at what it does for the connection with this identifier up to
`rdma_accept`, and at the wait for it to be established. -/
inductive CmServerPhase
  | request
  | prepare (id : Nat)
  | establish (id : Nat)
  deriving DecidableEq

/-- The wait in `rc_accept_new_connection`: for a connect request, or for the
connection with this identifier to be established. -/
def CmServerPhase.waits : Option Nat → CmServerPhase
  | none => .request
  | some id => .establish id

/-- What passes between the connection managers of a client and the server:
the client asks for a connection, the server accepts it, and the client is
ready to use it. -/
inductive CmMessage
  | request (client : Nat)
  | reply (client : Nat)
  | ready (client : Nat)
  deriving DecidableEq

/-- The clients, the server with its event channel, the messages on their way,
the connections for which workers have been started (none that could be told,
if the first wait has failed with a result that is not negative), and on record
the clients that have called `rdma_connect`, those that have been accepted with
`rdma_accept`, those that the server has given up before, and the events that
`process_rdma_cm_event` has thrown away. -/
structure CmState where
  clients : Nat → CmClient
  phase : CmServerPhase
  channel : CmChannel
  flight : List CmMessage
  workers : List (Option Nat)
  asked : List Nat
  accepted : List Nat
  givenUp : List Nat
  thrownAway : List CmEvent

/-- What the calls of a step report: whether `rdma_get_cm_event` gets an event,
whether `rdma_ack_cm_event` succeeds, and `rdma_connect` or `rdma_accept`; what
the function returns if something fails that it does before these; and the
`errno` that was there before, and less one the `errno` of a call that
fails. -/
structure CmCalls where
  got : Bool
  acked : Bool
  linked : Bool
  prepared : Option Int
  errno : Nat
  fault : Nat
  deriving DecidableEq

def CmCalls.success : CmCalls where
  got := true
  acked := true
  linked := true
  prepared := none
  errno := 0
  fault := 0

namespace CmState

def initial : CmState where
  clients _ := ⟨.prepare, .initial⟩
  phase := .request
  channel := .initial
  flight := []
  workers := []
  asked := []
  accepted := []
  givenUp := []
  thrownAway := []

variable (state : CmState)

def setClient (number : Nat) (client : CmClient) : CmState :=
  { state with clients := Function.update state.clients number client }

/-- The next step of `client_prepare_connection` and
`client_connect_to_server`; `none` while it waits.  The client is ready to use
the connection when it takes the event. -/
def stepClient (number : Nat) (calls : CmCalls) : Option CmState :=
  let client := state.clients number
  match client.phase with
  | .prepare =>
      some (state.setClient number
        { client with
          phase := if calls.prepared.getD 0 = 0 then .connect else .failed })
  | .connect =>
      some (if calls.linked then
          { state.setClient number { client with phase := .wait } with
            flight := state.flight ++ [.request number]
            asked := number :: state.asked }
        else state.setClient number { client with phase := .failed })
  | .wait =>
      (client.channel.processRdmaCmEvent .established calls.got
        calls.fault).map fun (ret, _, channel) =>
          if ret ≠ 0 then state.setClient number ⟨.failed, channel⟩
          else
            { state.setClient number
                (if calls.acked then ⟨.connected, channel.ack⟩
                  else ⟨.failed, channel⟩) with
              flight := state.flight ++ [.ready number] }
  | .connected | .failed => none

/-- `accept_new_connection` takes only a negative result for a failure;
otherwise `main` starts a worker.  Then it accepts the next connection. -/
def accepts (id : Option Nat) (ret : Int) : CmState :=
  { state with
    phase := .request
    workers := if ret < 0 then state.workers else state.workers ++ [id] }

/-- The server gives the connection up before it has accepted it. -/
def abandons (id : Nat) (ret : Int) : CmState :=
  { state with givenUp := id :: state.givenUp }.accepts (some id) ret

def throwsAway (channel : CmChannel) (event : Option CmEvent) : CmState :=
  { state with
    channel := channel
    thrownAway := event.toList ++ state.thrownAway }

/-- The next step of `rc_accept_new_connection`; `none` while it waits. -/
def stepServer (calls : CmCalls) : Option CmState :=
  match state.phase with
  | .request =>
      (state.channel.processRdmaCmEvent .connectRequest calls.got
        calls.fault).bind fun (ret, event, channel) =>
          if ret ≠ 0 then
            some ((state.throwsAway channel event).accepts none ret)
          else
            event.map fun event =>
              { state with channel := channel, phase := .prepare event.id }
  | .prepare id =>
      some (if calls.acked then
          let state := { state with channel := state.channel.ack }
          match calls.prepared with
          | some ret => state.abandons id ret
          | none =>
              if calls.linked then
                { state with
                  phase := .establish id
                  flight := state.flight ++ [.reply id]
                  accepted := id :: state.accepted }
              else state.abandons id (-(calls.fault + 1))
        else state.abandons id (-(calls.fault + 1)))
  | .establish id =>
      (state.channel.processRdmaCmEvent .established calls.got
        calls.fault).map fun (ret, event, channel) =>
          if ret ≠ 0 then
            (state.throwsAway channel event).accepts (some id)
              (if calls.got then -calls.errno else -(calls.fault + 1))
          else if calls.acked then
            { state with channel := channel.ack }.accepts (some id) 0
          else
            { state with channel := channel }.accepts (some id)
              (-(calls.fault + 1))

/-- A message arrives and leads to an event. -/
def deliver (index : Nat) : Option CmState :=
  state.flight[index]?.map fun message =>
    let state := { state with flight := state.flight.eraseIdx index }
    match message with
    | .request client =>
        { state with channel := state.channel.report (.connectRequest client) }
    | .reply client =>
        state.setClient client { state.clients client with
          channel := (state.clients client).channel.report
            (.established client) }
    | .ready client =>
        { state with channel := state.channel.report (.established client) }

/-- Another event happens on a connection, of which the server learns. -/
def notice (event : CmEvent) : Option CmState :=
  if event.type ≠ .connectRequest ∧ event.type ≠ .established then
    some { state with channel := state.channel.report event }
  else none

def clientNotice (number : Nat) (event : CmEvent) : Option CmState :=
  if event.type ≠ .established then
    some (state.setClient number { state.clients number with
      channel := (state.clients number).channel.report event })
  else none

end CmState

/-- A client or the server takes a step, a message arrives, or something else
happens to a connection. -/
inductive CmLabel
  | client (number : Nat) (calls : CmCalls)
  | server (calls : CmCalls)
  | deliver (index : Nat)
  | notice (event : CmEvent)
  | clientNotice (number : Nat) (event : CmEvent)

/-- An RC server and its clients while they connect. -/
def rcConnections : TransitionSystem CmState CmLabel where
  initial state := state = .initial
  step state
    | .client number calls => state.stepClient number calls
    | .server calls => state.stepServer calls
    | .deliver index => state.deliver index
    | .notice event => state.notice event
    | .clientNotice number event => state.clientNotice number event

inductive CmSteps (before : CmState) : CmState → Prop
  | client {number : Nat} {phase : CmClientPhase}
      (moved : (before.clients number).phase = .prepare ∧
          (phase = .connect ∨ phase = .failed) ∨
        (before.clients number).phase = .connect ∧ phase = .failed) :
      CmSteps before (before.setClient number
        { before.clients number with phase := phase })
  | connect {number : Nat}
      (place : (before.clients number).phase = .connect) :
      CmSteps before
        { before.setClient number
            { before.clients number with phase := .wait } with
          flight := before.flight ++ [.request number]
          asked := number :: before.asked }
  | fails {number : Nat} {channel : CmChannel} {event : Option CmEvent}
      (place : (before.clients number).phase = .wait)
      (events : (before.clients number).channel.events =
        event.toList ++ channel.events) :
      CmSteps before (before.setClient number ⟨.failed, channel⟩)
  | takesReply {number : Nat} {phase : CmClientPhase} {channel : CmChannel}
      {event : CmEvent}
      (place : (before.clients number).phase = .wait)
      (events : (before.clients number).channel.events =
        event :: channel.events)
      (type : event.type = .established)
      (ends : phase = .connected ∨ phase = .failed) :
      CmSteps before
        { before.setClient number ⟨phase, channel⟩ with
          flight := before.flight ++ [.ready number] }
  | throwsAway (id : Option Nat) {channel : CmChannel}
      {event : Option CmEvent} {ret : Int}
      (place : before.phase = .waits id)
      (events : before.channel.events = event.toList ++ channel.events) :
      CmSteps before ((before.throwsAway channel event).accepts id ret)
  | takesRequest {channel : CmChannel} {id : Nat}
      (place : before.phase = .request)
      (events : before.channel.events =
        .connectRequest id :: channel.events) :
      CmSteps before
        { before with
          phase := .prepare id
          channel := channel }
  | abandons {id : Nat} {channel : CmChannel} {ret : Int}
      (place : before.phase = .prepare id)
      (events : before.channel.events = channel.events) :
      CmSteps before ({ before with channel := channel }.abandons id ret)
  | accepts {id : Nat} {channel : CmChannel}
      (place : before.phase = .prepare id)
      (events : before.channel.events = channel.events) :
      CmSteps before
        { before with
          phase := .establish id
          channel := channel
          flight := before.flight ++ [.reply id]
          accepted := id :: before.accepted }
  | takesReady {id : Nat} {channel : CmChannel} {event : CmEvent} {ret : Int}
      (place : before.phase = .establish id)
      (events : before.channel.events = event :: channel.events)
      (type : event.type = .established) :
      CmSteps before
        ({ before with channel := channel }.accepts (some id) ret)
  | request {client : Nat} {flight : List CmMessage}
      (arrives : before.flight.Perm (.request client :: flight)) :
      CmSteps before
        { before with
          flight := flight
          channel := before.channel.report (.connectRequest client) }
  | reply {client : Nat} {flight : List CmMessage}
      (arrives : before.flight.Perm (.reply client :: flight)) :
      CmSteps before
        ({ before with flight := flight }.setClient client
          { before.clients client with
            channel := (before.clients client).channel.report
              (.established client) })
  | ready {client : Nat} {flight : List CmMessage}
      (arrives : before.flight.Perm (.ready client :: flight)) :
      CmSteps before
        { before with
          flight := flight
          channel := before.channel.report (.established client) }
  | notice {event : CmEvent}
      (other : event.type ≠ .connectRequest ∧ event.type ≠ .established) :
      CmSteps before
        { before with channel := before.channel.report event }
  | clientNotice {number : Nat} {event : CmEvent}
      (other : event.type ≠ .established) :
      CmSteps before (before.setClient number
        { before.clients number with
          channel := (before.clients number).channel.report event })

/-- The result is zero if and only if the event is the expected one, without an
error. -/
theorem CmChannel.processRdmaCmEvent_cases {channel after : CmChannel}
    {expected : CmEventType} {got : Bool} {fault : Nat} {ret : Int}
    {event : Option CmEvent}
    (processed : channel.processRdmaCmEvent expected got fault =
      some (ret, event, after)) :
    channel.events = event.toList ++ after.events ∧
      (ret = 0 → ∃ taken, event = some taken ∧ taken.type = expected ∧
        taken.status = 0) := by
  unfold processRdmaCmEvent at processed
  split at processed
  · split at processed
    · cases processed
    · rename_i first rest events
      simp only [Option.some.injEq] at processed
      rw [events]
      split at processed
      · cases processed
        exact ⟨rfl, fun zero => by omega⟩
      · split at processed
        · cases processed
          exact ⟨rfl, nofun⟩
        · rename_i clean same
          cases processed
          exact ⟨rfl, fun _ => ⟨first, rfl, not_not.mp same, not_not.mp clean⟩⟩
  · cases processed
    exact ⟨rfl, fun zero => by omega⟩

namespace CmState

variable {before after : CmState}

theorem stepClient_steps {number : Nat} {calls : CmCalls}
    (stepTo : before.stepClient number calls = some after) :
    CmSteps before after := by
  unfold stepClient at stepTo
  simp only at stepTo
  split at stepTo
  · rename_i place
    cases stepTo
    exact .client (.inl ⟨place, by split <;> simp⟩)
  · rename_i place
    simp only [Option.some.injEq] at stepTo
    subst stepTo
    split
    · exact .connect place
    · exact .client (.inr ⟨place, rfl⟩)
  · rename_i place
    obtain ⟨⟨ret, event, channel⟩, processed, rfl⟩ :=
      Option.map_eq_some_iff.mp stepTo
    obtain ⟨events, expected⟩ := CmChannel.processRdmaCmEvent_cases processed
    simp only
    split
    · exact .fails place events
    · rename_i zero
      obtain ⟨taken, rfl, type, -⟩ := expected (not_not.mp zero)
      split
      · refine .takesReply place ?_ type (.inl rfl)
        exact events
      · exact .takesReply place events type (.inr rfl)
  · cases stepTo
  · cases stepTo

theorem stepServer_steps {calls : CmCalls}
    (stepTo : before.stepServer calls = some after) :
    CmSteps before after := by
  unfold stepServer at stepTo
  split at stepTo
  · rename_i place
    obtain ⟨⟨ret, event, channel⟩, processed, rest⟩ :=
      Option.bind_eq_some_iff.mp stepTo
    obtain ⟨events, expected⟩ := CmChannel.processRdmaCmEvent_cases processed
    simp only at rest
    split at rest
    · cases rest
      exact .throwsAway none place events
    · rename_i zero
      obtain ⟨⟨type, status, id⟩, rfl, rfl, rfl⟩ := expected (not_not.mp zero)
      cases rest
      exact .takesRequest place events
  · rename_i id place
    rw [Option.some.injEq] at stepTo
    subst stepTo
    split
    · split
      · exact .abandons place rfl
      · split
        · exact .accepts place rfl
        · exact .abandons place rfl
    · exact .abandons place rfl
  · rename_i id place
    obtain ⟨⟨ret, event, channel⟩, processed, rfl⟩ :=
      Option.map_eq_some_iff.mp stepTo
    obtain ⟨events, expected⟩ := CmChannel.processRdmaCmEvent_cases processed
    simp only
    split
    · exact .throwsAway (some id) place events
    · rename_i zero
      obtain ⟨taken, rfl, type, -⟩ := expected (not_not.mp zero)
      split
      · refine .takesReady place ?_ type
        exact events
      · exact .takesReady place events type

theorem deliver_steps {index : Nat}
    (stepTo : before.deliver index = some after) : CmSteps before after := by
  obtain ⟨message, arrives, rfl⟩ := Option.map_eq_some_iff.mp stepTo
  obtain ⟨inside, rfl⟩ := List.getElem?_eq_some_iff.mp arrives
  have perm := (List.getElem_cons_eraseIdx_perm inside).symm
  simp only
  split
  · rename_i client same
    exact .request (same ▸ perm)
  · rename_i client same
    exact .reply (same ▸ perm)
  · rename_i client same
    exact .ready (same ▸ perm)

end CmState

theorem rcConnections_steps {before after : CmState} {label : CmLabel}
    (stepTo : rcConnections.step before label = some after) :
    CmSteps before after := by
  cases label with
  | client number calls => exact CmState.stepClient_steps stepTo
  | server calls => exact CmState.stepServer_steps stepTo
  | deliver index => exact CmState.deliver_steps stepTo
  | notice event =>
      obtain ⟨other, same⟩ := Option.ite_none_right_eq_some.mp stepTo
      cases same
      exact .notice other
  | clientNotice number event =>
      obtain ⟨other, same⟩ := Option.ite_none_right_eq_some.mp stepTo
      cases same
      exact .clientNotice other

end RdmaKVStore
