import RdmaKVStore.QueuePairs
import RdmaKVStore.ResponseRoutes
import RdmaKVStore.TransitionRuns

/-!
# Connecting UC clients

Over UC the two sides take their queue pairs through the states themselves.
The server prepares a queue pair before it accepts anybody, then reads the
attributes of whoever has connected to its socket, sends its own, and connects
the queue pair; the client sends its attributes first.  Any number of clients
do so while the server accepts one after the other, and a client that has
connected may send its first request while the server is still at it.
-/

namespace RdmaKVStore

namespace QueuePair

variable (qp : QueuePair)

/-- `uc_set_init_qp` -/
def ucSetInitQp : Option QueuePair :=
  qp.modify .init .zero [.pkeyIndex, .port, .accessFlags]

/-- The first call of `connect_qp`. -/
def connectRtr (remote : QpAttr) : Option QueuePair :=
  qp.modify .rtr
    { dlid := remote.ahAttr.dlid
      destQpn := remote.qpn
      rqPsn := remote.psn.toUInt32
      sqPsn := 0 }
    [.av, .pathMtu, .destQpn, .rqPsn]

/-- The second call of `connect_qp`. -/
def connectRts (own : QpAttr) : Option QueuePair :=
  qp.modify .rts { QpValues.zero with sqPsn := own.psn.toUInt32 } [.sqPsn]

/-- The queue pair sends to the one with these attributes and expects the
packet numbers that it starts with. -/
structure Targets (remote : QpAttr) : Prop where
  dlid : qp.values.dlid = remote.ahAttr.dlid
  destQpn : qp.values.destQpn = remote.qpn
  rqPsn : qp.values.rqPsn = remote.psn.toUInt32

/-- A queue pair as `uc_set_init_qp` leaves it. -/
def ucInit : QueuePair where
  type := .uc
  state := .init
  values := .zero

theorem ucSetInitQp_create : (create .uc).ucSetInitQp = some ucInit := by
  decide

variable {qp}

theorem connectRtr_of_init (uc : qp.type = .uc) (init : qp.state = .init)
    (remote : QpAttr) :
    qp.connectRtr remote = some { qp with
      state := .rtr
      values :=
        { dlid := remote.ahAttr.dlid
          destQpn := remote.qpn
          rqPsn := remote.psn.toUInt32
          sqPsn := qp.values.sqPsn } } := by
  simp [connectRtr, modify, uc, init, QpType.required]

theorem connectRts_of_rtr (uc : qp.type = .uc) (rtr : qp.state = .rtr)
    (own : QpAttr) :
    qp.connectRts own = some { qp with
      state := .rts
      values := { qp.values with sqPsn := own.psn.toUInt32 } } := by
  simp [connectRts, modify, uc, rtr, QpType.required]

end QueuePair

def QpAttr.address (attrs : QpAttr) : UInt16 × UInt32 :=
  (attrs.ahAttr.dlid, attrs.qpn)

def QueuePair.target (qp : QueuePair) : UInt16 × UInt32 :=
  (qp.values.dlid, qp.values.destQpn)

theorem QueuePair.Targets.target_eq {qp : QueuePair} {remote : QpAttr}
    (targets : qp.Targets remote) : qp.target = remote.address :=
  Prod.ext targets.dlid targets.destQpn

/-- Where a client is: before `uc_client_prepare_connection`; at `connect`,
`write` and `read` of `uc_client_connect_to_server` and at the two calls of
`connect_qp`; connected, or back with a failed connection. -/
inductive UcClientPhase
  | prepare
  | connect
  | write
  | read
  | rtr
  | rts
  | connected
  | failed
  deriving DecidableEq

/-- Where the server is with a connection in `uc_accept_new_connection`: at
`accept`, `read`, `write` and the two calls of `connect_qp`.  A connection that
has been accepted is served, the others are abandoned. -/
inductive UcSessionPhase
  | accept
  | read
  | write
  | rtr
  | rts
  | serving
  | abandoned
  deriving DecidableEq

/-- The connection of a client, with the sessions that it has had responses
from. -/
structure UcClient where
  phase : UcClientPhase
  attrs : QpAttr
  remote : QpAttr
  qp : QueuePair
  answers : List Nat

/-- A connection of the server, with the clients that it has had requests from
and the number of those that it has answered. -/
structure UcSession where
  phase : UcSessionPhase
  attrs : QpAttr
  peer : Option Nat
  remote : QpAttr
  qp : QueuePair
  requests : List Nat
  answered : Nat

/-- Whose queue pair an address belongs to. -/
inductive UcOwner
  | client (number : Nat)
  | session (number : Nat)
  deriving DecidableEq

/-- The clients, the connections that the server has prepared, the clients that
wait to be accepted, what has been written to the sockets and not been read,
the owners of the addresses, the messages on their way, and of those lost the
connection that they arrived at. -/
structure UcState where
  clients : Nat → UcClient
  sessions : Nat → UcSession
  count : Nat
  backlog : List Nat
  toServer : Nat → List QpAttr
  toClient : Nat → List QpAttr
  owner : UInt16 × UInt32 → Option UcOwner
  requests : List (Nat × (UInt16 × UInt32))
  responses : List (Nat × (UInt16 × UInt32))
  lostRequests : List (Option UcSession)
  lostResponses : List (Option UcOwner)

/-- What the calls of a step report: whether the socket accepts and takes its
option, whether `write` succeeds, what a `read` that fails or falls short
leaves in the structure, the result of `ibv_modify_qp`, and the value that the
caller of `connect_qp` finds, which ends without a return statement. -/
structure UcCalls where
  accepted : Bool
  nodelay : Bool
  written : Bool
  short : Option QpAttr
  modify : Int
  value : Int

def UcCalls.success : UcCalls where
  accepted := true
  nodelay := true
  written := true
  short := none
  modify := 0
  value := 0

namespace UcState

def initial : UcState where
  clients _ :=
    { phase := .prepare
      attrs := .zero
      remote := .zero
      qp := .create .uc
      answers := [] }
  sessions _ :=
    { phase := .abandoned
      attrs := .zero
      peer := none
      remote := .zero
      qp := .create .uc
      requests := []
      answered := 0 }
  count := 0
  backlog := []
  toServer _ := []
  toClient _ := []
  owner _ := none
  requests := []
  responses := []
  lostRequests := []
  lostResponses := []

variable (state : UcState)

def setClient (number : Nat) (client : UcClient) : UcState :=
  { state with clients := Function.update state.clients number client }

def setSession (number : Nat) (session : UcSession) : UcState :=
  { state with sessions := Function.update state.sessions number session }

/-- `uc_client_prepare_connection`: the device hands out an address that nobody
has. -/
def prepareClient (number : Nat) (attrs : QpAttr) : Option UcState :=
  if (state.clients number).phase = .prepare ∧
      state.owner attrs.address = none then
    (QueuePair.create .uc).ucSetInitQp.map fun qp =>
      { state.setClient number { state.clients number with
          phase := .connect
          attrs := attrs
          qp := qp } with
        owner := Function.update state.owner attrs.address
          (some (.client number)) }
  else none

/-- The next step of `uc_client_connect_to_server`; `none` while it waits. -/
def stepClient (number : Nat) (calls : UcCalls) : Option UcState :=
  let client := state.clients number
  match client.phase with
  | .prepare | .connected | .failed => none
  | .connect =>
      some { state.setClient number { client with phase := .write } with
        backlog := state.backlog ++ [number] }
  | .write =>
      some { state.setClient number { client with phase := .read } with
        toServer :=
          if calls.written then
            Function.update state.toServer number
              (state.toServer number ++ [client.attrs])
          else state.toServer }
  | .read =>
      match calls.short with
      | some attrs =>
          some (state.setClient number
            { client with phase := .rtr, remote := attrs })
      | none =>
          match state.toClient number with
          | [] => none
          | attrs :: rest =>
              some { state.setClient number
                  { client with phase := .rtr, remote := attrs } with
                toClient := Function.update state.toClient number rest }
  | .rtr =>
      if calls.modify = 0 then
        (client.qp.connectRtr client.remote).map fun qp =>
          state.setClient number { client with phase := .rts, qp := qp }
      else some (state.setClient number { client with phase := .failed })
  | .rts =>
      if calls.modify = 0 then
        (client.qp.connectRts client.attrs).map fun qp =>
          state.setClient number { client with
            phase := if calls.value = 0 then .connected else .failed
            qp := qp }
      else some (state.setClient number { client with phase := .failed })

/-- `accept_new_connection` takes only a negative result for a failure. -/
def accepted (result : Int) : UcSessionPhase :=
  if result < 0 then .abandoned else .serving

/-- The main thread is at `accept_new_connection`. -/
def Idle : Prop :=
  match state.count with
  | 0 => True
  | number + 1 => (state.sessions number).phase = .serving ∨
      (state.sessions number).phase = .abandoned

instance : Decidable state.Idle := by
  unfold Idle
  split <;> infer_instance

/-- The server begins with the next connection: it prepares a queue pair, and
the device hands out an address that nobody has. -/
def prepareSession (attrs : QpAttr) : Option UcState :=
  if state.Idle ∧ state.owner attrs.address = none then
    (QueuePair.create .uc).ucSetInitQp.map fun qp =>
      { state.setSession state.count
          { phase := .accept
            attrs := attrs
            peer := none
            remote := .zero
            qp := qp
            requests := []
            answered := 0 } with
        count := state.count + 1
        owner := Function.update state.owner attrs.address
          (some (.session state.count)) }
  else none

/-- The next step of `uc_accept_new_connection` after the queue pair is
prepared; `none` while it waits. -/
def stepSession (number : Nat) (calls : UcCalls) : Option UcState :=
  let session := state.sessions number
  match session.phase, session.peer with
  | .accept, _ =>
      if calls.accepted then
        match state.backlog with
        | [] => none
        | client :: rest =>
            some { state.setSession number { session with
                phase := if calls.nodelay then .read else .abandoned
                peer := some client } with
              backlog := rest }
      else some (state.setSession number { session with phase := .abandoned })
  | .read, some client =>
      match calls.short with
      | some attrs =>
          some (state.setSession number
            { session with phase := .write, remote := attrs })
      | none =>
          match state.toServer client with
          | [] => none
          | attrs :: rest =>
              some { state.setSession number
                  { session with phase := .write, remote := attrs } with
                toServer := Function.update state.toServer client rest }
  | .write, some client =>
      some { state.setSession number { session with phase := .rtr } with
        toClient :=
          if calls.written then
            Function.update state.toClient client
              (state.toClient client ++ [session.attrs])
          else state.toClient }
  | .rtr, _ =>
      if calls.modify = 0 then
        (session.qp.connectRtr session.remote).map fun qp =>
          state.setSession number { session with phase := .rts, qp := qp }
      else some (state.setSession number
        { session with phase := accepted calls.modify })
  | .rts, _ =>
      if calls.modify = 0 then
        (session.qp.connectRts session.attrs).map fun qp =>
          state.setSession number
            { session with phase := accepted calls.value, qp := qp }
      else some (state.setSession number
        { session with phase := accepted calls.modify })
  | .read, none | .write, none | .serving, _ | .abandoned, _ => none

/-- The main thread works on the connection that it has prepared last. -/
def stepServer (calls : UcCalls) : Option UcState :=
  match state.count with
  | 0 => none
  | number + 1 => state.stepSession number calls

def sendRequest (number : Nat) : Option UcState :=
  if (state.clients number).phase = .connected then
    some { state with
      requests :=
        state.requests ++ [(number, (state.clients number).qp.target)] }
  else none

/-- A request arrives at the queue pair that it is addressed to, and is lost
unless that is ready to receive. -/
def arriveRequest (index : Nat) : Option UcState :=
  state.requests[index]?.map fun (client, address) =>
    let state := { state with requests := state.requests.eraseIdx index }
    match state.owner address with
    | some (.session number) =>
        let session := state.sessions number
        if session.qp.Receives then
          state.setSession number
            { session with requests := session.requests ++ [client] }
        else { state with lostRequests := some session :: state.lostRequests }
    | _ => { state with lostRequests := none :: state.lostRequests }

/-- A worker answers a request that it has received. -/
def sendResponse (number : Nat) : Option UcState :=
  let session := state.sessions number
  if session.phase = .serving ∧ session.qp.state = .rts ∧
      session.answered < session.requests.length then
    some { state.setSession number
        { session with answered := session.answered + 1 } with
      responses := state.responses ++ [(number, session.qp.target)] }
  else none

/-- A response arrives at the queue pair that it is addressed to. -/
def arriveResponse (index : Nat) : Option UcState :=
  state.responses[index]?.map fun (session, address) =>
    let state := { state with responses := state.responses.eraseIdx index }
    match state.owner address with
    | some (.client number) =>
        let client := state.clients number
        if client.qp.Receives then
          state.setClient number
            { client with answers := client.answers ++ [session] }
        else
          { state with
            lostResponses := some (.client number) :: state.lostResponses }
    | other =>
        { state with lostResponses := other :: state.lostResponses }

/-- UC does not promise that a request arrives, nor does one that finds no
receive posted. -/
def dropRequest (index : Nat) : Option UcState :=
  state.requests[index]?.map fun _ =>
    { state with requests := state.requests.eraseIdx index }

/-- Nor does it promise that a response arrives. -/
def dropResponse (index : Nat) : Option UcState :=
  state.responses[index]?.map fun _ =>
    { state with responses := state.responses.eraseIdx index }

end UcState

/-- A client or the server prepares a connection or takes a step with it, a
client or a worker sends a message, or a message arrives or is dropped. -/
inductive UcLabel
  | prepareClient (number : Nat) (attrs : QpAttr)
  | client (number : Nat) (calls : UcCalls)
  | prepareSession (attrs : QpAttr)
  | server (calls : UcCalls)
  | sendRequest (number : Nat)
  | arriveRequest (index : Nat)
  | sendResponse (number : Nat)
  | arriveResponse (index : Nat)
  | dropRequest (index : Nat)
  | dropResponse (index : Nat)

/-- A UC server and its clients. -/
def ucConnections : TransitionSystem UcState UcLabel where
  initial state := state = .initial
  step state
    | .prepareClient number attrs => state.prepareClient number attrs
    | .client number calls => state.stepClient number calls
    | .prepareSession attrs => state.prepareSession attrs
    | .server calls => state.stepServer calls
    | .sendRequest number => state.sendRequest number
    | .arriveRequest index => state.arriveRequest index
    | .sendResponse number => state.sendResponse number
    | .arriveResponse index => state.arriveResponse index
    | .dropRequest index => state.dropRequest index
    | .dropResponse index => state.dropResponse index

/-- A `read` of attributes gets all of them. -/
def WholeReads (_ : UcState) : UcLabel → Prop
  | .client _ calls | .server calls => calls.short = none
  | _ => True

instance (state : UcState) (label : UcLabel) :
    Decidable (WholeReads state label) :=
  match label with
  | .client _ calls | .server calls =>
      inferInstanceAs (Decidable (calls.short = none))
  | .prepareClient _ _ | .prepareSession _ | .sendRequest _ | .arriveRequest _
  | .sendResponse _ | .arriveResponse _ | .dropRequest _ | .dropResponse _ =>
      isTrue trivial

/-- The server has sent its attributes on this connection, if to anybody. -/
def UcSessionPhase.Replied : UcSessionPhase → Prop
  | .rtr | .rts | .serving | .abandoned => True
  | .accept | .read | .write => False

/-- Clients and connections belong together one by one, a queue pair that is
ready to receive is connected to the one of the other side and agrees with it
on where the packet numbers start, messages come from the other side of their
connection, a response always finds a queue pair that is ready to receive, and
a request finds one that is not only after the server has sent its attributes
and before its `connect_qp`, or when that has failed. -/
structure UcPaired (state : UcState) : Prop where
  alone : ∀ first second client,
    (state.sessions first).peer = some client →
      (state.sessions second).peer = some client → first = second
  server : ∀ number, (state.sessions number).qp.Receives →
    ∃ client, (state.sessions number).peer = some client ∧
      (state.sessions number).qp.Targets (state.clients client).attrs
  client : ∀ number, (state.clients number).qp.Receives →
    ∃ session, (state.sessions session).peer = some number ∧
      (state.clients number).qp.Targets (state.sessions session).attrs
  serverPsn : ∀ number, (state.sessions number).qp.state = .rts →
    (state.sessions number).qp.values.sqPsn =
      (state.sessions number).attrs.psn.toUInt32
  clientPsn : ∀ number, (state.clients number).qp.state = .rts →
    (state.clients number).qp.values.sqPsn =
      (state.clients number).attrs.psn.toUInt32
  requests : ∀ number, ∀ client ∈ (state.sessions number).requests,
    (state.sessions number).peer = some client
  answers : ∀ number, ∀ session ∈ (state.clients number).answers,
    (state.sessions session).peer = some number
  lostRequests : ∀ entry ∈ state.lostRequests, ∃ session,
    entry = some session ∧ session.qp.state = .init ∧ session.phase.Replied
  lostResponses : state.lostResponses = []

inductive UcSteps (before : UcState) : UcState → Prop
  | prepareClient {number : Nat} {attrs : QpAttr}
      (fresh : (before.clients number).phase = .prepare)
      (free : before.owner attrs.address = none) :
      UcSteps before
        { before.setClient number { before.clients number with
            phase := .connect
            attrs := attrs
            qp := .ucInit } with
          owner := Function.update before.owner attrs.address
            (some (.client number)) }
  | connect {number : Nat}
      (place : (before.clients number).phase = .connect) :
      UcSteps before
        { before.setClient number
            { before.clients number with phase := .write } with
          backlog := before.backlog ++ [number] }
  | clientWrite {number : Nat} {toServer : Nat → List QpAttr}
      (place : (before.clients number).phase = .write)
      (sent : ∀ other, ∀ attrs ∈ toServer other,
        attrs ∈ before.toServer other ∨
          other = number ∧ attrs = (before.clients number).attrs) :
      UcSteps before
        { before.setClient number
            { before.clients number with phase := .read } with
          toServer := toServer }
  | clientRead {number : Nat} {attrs : QpAttr} {rest : List QpAttr}
      (place : (before.clients number).phase = .read)
      (sent : before.toClient number = attrs :: rest) :
      UcSteps before
        { before.setClient number
            { before.clients number with phase := .rtr, remote := attrs } with
          toClient := Function.update before.toClient number rest }
  | clientRtr {number : Nat} {qp : QueuePair}
      (place : (before.clients number).phase = .rtr)
      (moved : (before.clients number).qp.connectRtr
        (before.clients number).remote = some qp) :
      UcSteps before (before.setClient number
        { before.clients number with phase := .rts, qp := qp })
  | clientRts {number : Nat} {qp : QueuePair} {phase : UcClientPhase}
      (place : (before.clients number).phase = .rts)
      (moved : (before.clients number).qp.connectRts
        (before.clients number).attrs = some qp)
      (ends : phase = .connected ∨ phase = .failed) :
      UcSteps before (before.setClient number
        { before.clients number with phase := phase, qp := qp })
  | clientFails {number : Nat}
      (place : (before.clients number).phase = .rtr ∨
        (before.clients number).phase = .rts) :
      UcSteps before (before.setClient number
        { before.clients number with phase := .failed })
  | prepareSession {attrs : QpAttr}
      (free : before.owner attrs.address = none) :
      UcSteps before
        { before.setSession before.count
            { phase := .accept
              attrs := attrs
              peer := none
              remote := .zero
              qp := .ucInit
              requests := []
              answered := 0 } with
          count := before.count + 1
          owner := Function.update before.owner attrs.address
            (some (.session before.count)) }
  | accept {number client : Nat} {rest : List Nat} {phase : UcSessionPhase}
      (created : number < before.count)
      (place : (before.sessions number).phase = .accept)
      (next : before.backlog = client :: rest)
      (ends : phase = .read ∨ phase = .abandoned) :
      UcSteps before
        { before.setSession number { before.sessions number with
            phase := phase
            peer := some client } with
          backlog := rest }
  | sessionRead {number client : Nat} {attrs : QpAttr} {rest : List QpAttr}
      (created : number < before.count)
      (place : (before.sessions number).phase = .read)
      (peer : (before.sessions number).peer = some client)
      (sent : before.toServer client = attrs :: rest) :
      UcSteps before
        { before.setSession number { before.sessions number with
            phase := .write
            remote := attrs } with
          toServer := Function.update before.toServer client rest }
  | sessionWrite {number client : Nat} {toClient : Nat → List QpAttr}
      (created : number < before.count)
      (place : (before.sessions number).phase = .write)
      (peer : (before.sessions number).peer = some client)
      (sent : ∀ other, ∀ attrs ∈ toClient other,
        attrs ∈ before.toClient other ∨
          other = client ∧ attrs = (before.sessions number).attrs) :
      UcSteps before
        { before.setSession number
            { before.sessions number with phase := .rtr } with
          toClient := toClient }
  | sessionRtr {number : Nat} {qp : QueuePair}
      (created : number < before.count)
      (place : (before.sessions number).phase = .rtr)
      (moved : (before.sessions number).qp.connectRtr
        (before.sessions number).remote = some qp) :
      UcSteps before (before.setSession number
        { before.sessions number with phase := .rts, qp := qp })
  | sessionRts {number : Nat} {qp : QueuePair} {phase : UcSessionPhase}
      (created : number < before.count)
      (place : (before.sessions number).phase = .rts)
      (moved : (before.sessions number).qp.connectRts
        (before.sessions number).attrs = some qp)
      (ends : phase = .serving ∨ phase = .abandoned) :
      UcSteps before (before.setSession number
        { before.sessions number with phase := phase, qp := qp })
  | sessionFails {number : Nat} {phase : UcSessionPhase}
      (created : number < before.count)
      (place : (before.sessions number).phase = .accept ∧
          phase = .abandoned ∨
        (before.sessions number).phase = .rtr ∨
        (before.sessions number).phase = .rts)
      (ends : phase = .serving ∨ phase = .abandoned) :
      UcSteps before (before.setSession number
        { before.sessions number with phase := phase })
  | sendRequest {number : Nat}
      (place : (before.clients number).phase = .connected) :
      UcSteps before { before with
        requests :=
          before.requests ++ [(number, (before.clients number).qp.target)] }
  | receiveRequest {client number : Nat} {address : UInt16 × UInt32}
      {requests : List (Nat × (UInt16 × UInt32))}
      (arrives : (client, address) ∈ before.requests)
      (rest : requests ⊆ before.requests)
      (owned : before.owner address = some (.session number)) :
      UcSteps before ({ before with requests := requests }.setSession number
        { before.sessions number with
          requests := (before.sessions number).requests ++ [client] })
  | loseRequest {client : Nat} {address : UInt16 × UInt32}
      {requests : List (Nat × (UInt16 × UInt32))} {entry : Option UcSession}
      (arrives : (client, address) ∈ before.requests)
      (rest : requests ⊆ before.requests)
      (lost : ∀ number, before.owner address = some (.session number) →
        entry = some (before.sessions number) ∧
          ¬ (before.sessions number).qp.Receives) :
      UcSteps before { before with
        requests := requests
        lostRequests := entry :: before.lostRequests }
  | sendResponse {number : Nat}
      (place : (before.sessions number).phase = .serving)
      (ready : (before.sessions number).qp.state = .rts)
      (more : (before.sessions number).answered <
        (before.sessions number).requests.length) :
      UcSteps before
        { before.setSession number { before.sessions number with
            answered := (before.sessions number).answered + 1 } with
          responses := before.responses ++
            [(number, (before.sessions number).qp.target)] }
  | receiveResponse {session number : Nat} {address : UInt16 × UInt32}
      {responses : List (Nat × (UInt16 × UInt32))}
      (arrives : (session, address) ∈ before.responses)
      (rest : responses ⊆ before.responses)
      (owned : before.owner address = some (.client number)) :
      UcSteps before ({ before with responses := responses }.setClient number
        { before.clients number with
          answers := (before.clients number).answers ++ [session] })
  | loseResponse {session : Nat} {address : UInt16 × UInt32}
      {responses : List (Nat × (UInt16 × UInt32))} {entry : Option UcOwner}
      (arrives : (session, address) ∈ before.responses)
      (lost : ∀ number, before.owner address = some (.client number) →
        ¬ (before.clients number).qp.Receives) :
      UcSteps before { before with
        responses := responses
        lostResponses := entry :: before.lostResponses }
  | drop {requests responses : List (Nat × (UInt16 × UInt32))}
      (fewer : requests ⊆ before.requests)
      (rest : responses ⊆ before.responses) :
      UcSteps before { before with
        requests := requests
        responses := responses }

namespace UcState

variable {before after : UcState} {number : Nat} {calls : UcCalls}

theorem stepClient_steps (whole : calls.short = none)
    (stepTo : before.stepClient number calls = some after) :
    UcSteps before after := by
  unfold stepClient at stepTo
  simp only [whole] at stepTo
  split at stepTo
  · cases stepTo
  · cases stepTo
  · cases stepTo
  · rename_i place
    cases stepTo
    exact .connect place
  · rename_i place
    cases stepTo
    refine .clientWrite place fun other attrs member => ?_
    split at member
    · by_cases same : other = number
      · subst same
        rw [Function.update_self, List.mem_append, List.mem_singleton]
          at member
        exact member.imp_right (And.intro rfl)
      · rw [Function.update_of_ne same] at member
        exact .inl member
    · exact .inl member
  · rename_i place
    split at stepTo
    · cases stepTo
    · rename_i sent
      cases stepTo
      exact .clientRead place sent
  · rename_i place
    split at stepTo
    · obtain ⟨qp, moved, rfl⟩ := Option.map_eq_some_iff.mp stepTo
      exact .clientRtr place moved
    · cases stepTo
      exact .clientFails (.inl place)
  · rename_i place
    split at stepTo
    · obtain ⟨qp, moved, rfl⟩ := Option.map_eq_some_iff.mp stepTo
      exact .clientRts place moved (by split <;> simp)
    · cases stepTo
      exact .clientFails (.inr place)

theorem accepted_cases (result : Int) :
    accepted result = .serving ∨ accepted result = .abandoned := by
  unfold accepted
  split
  · exact .inr rfl
  · exact .inl rfl

theorem stepSession_steps (created : number < before.count)
    (whole : calls.short = none)
    (stepTo : before.stepSession number calls = some after) :
    UcSteps before after := by
  unfold stepSession at stepTo
  simp only [whole] at stepTo
  split at stepTo
  · rename_i place
    split at stepTo
    · split at stepTo
      · cases stepTo
      · rename_i next
        cases stepTo
        exact .accept created place next (by split <;> simp)
    · cases stepTo
      exact .sessionFails created (.inl ⟨place, rfl⟩) (.inr rfl)
  · rename_i place peer
    split at stepTo
    · cases stepTo
    · rename_i sent
      cases stepTo
      exact .sessionRead created place peer sent
  · rename_i client place peer
    cases stepTo
    refine .sessionWrite created place peer fun other attrs member => ?_
    split at member
    · by_cases same : other = client
      · subst same
        rw [Function.update_self, List.mem_append, List.mem_singleton]
          at member
        exact member.imp_right (And.intro rfl)
      · rw [Function.update_of_ne same] at member
        exact .inl member
    · exact .inl member
  · rename_i place
    split at stepTo
    · obtain ⟨qp, moved, rfl⟩ := Option.map_eq_some_iff.mp stepTo
      exact .sessionRtr created place moved
    · cases stepTo
      exact .sessionFails created (.inr (.inl place)) (accepted_cases _)
  · rename_i place
    split at stepTo
    · obtain ⟨qp, moved, rfl⟩ := Option.map_eq_some_iff.mp stepTo
      exact .sessionRts created place moved (accepted_cases _)
    · cases stepTo
      exact .sessionFails created (.inr (.inr place)) (accepted_cases _)
  all_goals cases stepTo

theorem arriveRequest_steps {index : Nat}
    (stepTo : before.arriveRequest index = some after) :
    UcSteps before after := by
  obtain ⟨⟨client, address⟩, arrives, rfl⟩ := Option.map_eq_some_iff.mp stepTo
  have member := List.mem_of_getElem? arrives
  have rest : before.requests.eraseIdx index ⊆ before.requests :=
    (List.eraseIdx_sublist _ _).subset
  simp only
  split
  · rename_i session owned
    split
    · exact .receiveRequest member rest owned
    · rename_i idle
      refine .loseRequest member rest fun other theirs => ?_
      cases owned.symm.trans theirs
      exact ⟨rfl, idle⟩
  · rename_i other
    exact .loseRequest member rest fun session theirs =>
      absurd theirs (other session)

theorem arriveResponse_steps {index : Nat}
    (stepTo : before.arriveResponse index = some after) :
    UcSteps before after := by
  obtain ⟨⟨session, address⟩, arrives, rfl⟩ :=
    Option.map_eq_some_iff.mp stepTo
  have member := List.mem_of_getElem? arrives
  have rest : before.responses.eraseIdx index ⊆ before.responses :=
    (List.eraseIdx_sublist _ _).subset
  simp only
  split
  · rename_i client owned
    split
    · exact .receiveResponse member rest owned
    · rename_i idle
      refine .loseResponse member fun other theirs => ?_
      cases owned.symm.trans theirs
      exact idle
  · rename_i other
    exact .loseResponse member fun client theirs =>
      absurd theirs (other client)

end UcState

theorem ucConnections_steps {before after : UcState} {label : UcLabel}
    (whole : WholeReads before label)
    (stepTo : ucConnections.step before label = some after) :
    UcSteps before after := by
  cases label with
  | prepareClient number attrs =>
      obtain ⟨⟨fresh, free⟩, prepared⟩ :=
        Option.ite_none_right_eq_some.mp stepTo
      rw [QueuePair.ucSetInitQp_create] at prepared
      cases prepared
      exact .prepareClient fresh free
  | client number calls => exact UcState.stepClient_steps whole stepTo
  | prepareSession attrs =>
      obtain ⟨⟨-, free⟩, prepared⟩ := Option.ite_none_right_eq_some.mp stepTo
      rw [QueuePair.ucSetInitQp_create] at prepared
      cases prepared
      exact .prepareSession free
  | server calls =>
      simp only [ucConnections, UcState.stepServer] at stepTo
      split at stepTo
      · cases stepTo
      · rename_i number count
        exact UcState.stepSession_steps (by omega) whole stepTo
  | sendRequest number =>
      obtain ⟨place, same⟩ := Option.ite_none_right_eq_some.mp stepTo
      cases same
      exact .sendRequest place
  | arriveRequest index => exact UcState.arriveRequest_steps stepTo
  | sendResponse number =>
      obtain ⟨⟨place, ready, more⟩, same⟩ :=
        Option.ite_none_right_eq_some.mp stepTo
      cases same
      exact .sendResponse place ready more
  | arriveResponse index => exact UcState.arriveResponse_steps stepTo
  | dropRequest index =>
      obtain ⟨_, -, rfl⟩ := Option.map_eq_some_iff.mp stepTo
      exact .drop (List.eraseIdx_sublist _ _).subset (List.Subset.refl _)
  | dropResponse index =>
      obtain ⟨_, -, rfl⟩ := Option.map_eq_some_iff.mp stepTo
      exact .drop (List.Subset.refl _) (List.eraseIdx_sublist _ _).subset

end RdmaKVStore
