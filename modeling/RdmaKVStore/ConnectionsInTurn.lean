import RdmaKVStore.RcConnections
import RdmaKVStore.TerminatingRuns
import Mathlib.Data.List.Nodup

/-!
# Clients that connect in turn

The benchmark starts its clients one after another, with a pause so that their
connections do not interfere.  If each client calls `rdma_connect` only when
the server has dealt with the one before, and no call fails, then every client
gets its connection and its worker, and no event of a connection is thrown
away.
-/

namespace RdmaKVStore

variable {state : CmState}

def CmCalls.Succeeds (calls : CmCalls) : Prop :=
  calls.got = true ∧ calls.acked = true ∧ calls.linked = true ∧
    calls.prepared = none

instance (calls : CmCalls) : Decidable calls.Succeeds :=
  inferInstanceAs (Decidable (_ ∧ _ ∧ _ ∧ _))

/-- An event that has nothing to do with a connection that is being made. -/
def CmEvent.Notice (event : CmEvent) : Prop :=
  event.type ≠ .connectRequest ∧ event.type ≠ .established ∧ 0 ≤ event.status

namespace CmState

variable (state : CmState)

/-- The server waits for a connect request, and there is none on its way. -/
def Idle : Prop :=
  state.phase = .request ∧ state.flight = [] ∧
    ∀ event ∈ state.channel.events, event.type ≠ .connectRequest

instance : Decidable state.Idle :=
  inferInstanceAs (Decidable (_ ∧ _ ∧ _))

def Quiet : Prop :=
  state.phase = .request ∧ state.flight = [] ∧ state.channel.events = []

/-- Nothing fails, clients connect in turn, and nothing else happens on the
server's channel, or on that of a client, while a connection is being made. -/
def InTurn : CmLabel → Prop
  | .client number calls =>
      calls.Succeeds ∧ ((state.clients number).phase = .connect → state.Idle)
  | .server calls => calls.Succeeds
  | .deliver _ => True
  | .notice event => 0 ≤ event.status ∧ state.Idle
  | .clientNotice number _ => (state.clients number).phase = .connected

instance : DecidablePred state.InTurn
  | .client _ _ => inferInstanceAs (Decidable (_ ∧ (_ → _)))
  | .server calls => inferInstanceAs (Decidable calls.Succeeds)
  | .deliver _ => inferInstanceAs (Decidable True)
  | .notice _ => inferInstanceAs (Decidable (_ ∧ _))
  | .clientNotice _ _ => inferInstanceAs (Decidable (_ = _))

/-- The steps that a connection needs once the client has asked for it. -/
def Serves : CmLabel → Prop
  | .client number calls =>
      calls.Succeeds ∧ (state.clients number).phase = .wait
  | .server calls => calls.Succeeds
  | .deliver _ => True
  | .notice _ | .clientNotice _ _ => False

end CmState

/-- How far the connection of a client is: the client has asked for it; the
connect request is among the events of the server, and is taken; the server has
accepted it; the client may take the event that says so, and is ready; the
event that says this is there for the server. -/
inductive CmStage
  | idle
  | asked (client : Nat)
  | queued (client : Nat)
  | taken (client : Nat)
  | answered (client : Nat)
  | offered (client : Nat)
  | ready (client : Nat)
  | reported (client : Nat)

namespace CmStage

def client : CmStage → Option Nat
  | .idle => none
  | .asked client | .queued client | .taken client | .answered client
  | .offered client | .ready client | .reported client => some client

def phase : CmStage → CmServerPhase
  | .idle | .asked _ | .queued _ => .request
  | .taken client => .prepare client
  | .answered client | .offered client | .ready client | .reported client =>
      .establish client

def flight : CmStage → List CmMessage
  | .asked client => [.request client]
  | .answered client => [.reply client]
  | .ready client => [.ready client]
  | .idle | .queued _ | .taken _ | .offered _ | .reported _ => []

def events : CmStage → List CmEvent
  | .queued client => [.connectRequest client]
  | .reported client => [.established client]
  | .idle | .asked _ | .taken _ | .answered _ | .offered _ | .ready _ => []

def clientPhase : CmStage → CmClientPhase
  | .ready _ | .reported _ => .connected
  | .idle | .asked _ | .queued _ | .taken _ | .answered _ | .offered _ => .wait

def clientEvents : CmStage → List CmEvent
  | .offered client => [.established client]
  | .idle | .asked _ | .queued _ | .taken _ | .answered _ | .ready _
  | .reported _ => []

def unacked : CmStage → Nat
  | .taken _ => 1
  | .idle | .asked _ | .queued _ | .answered _ | .offered _ | .ready _
  | .reported _ => 0

def cost : CmStage → Nat
  | .idle => 0
  | .reported _ => 1
  | .ready _ => 2
  | .offered _ => 3
  | .answered _ => 4
  | .taken _ => 5
  | .queued _ => 6
  | .asked _ => 7

end CmStage

namespace CmState

variable {before after state : CmState} {stage : CmStage}
variable {notices : List CmEvent}

/-- At most one connection is being made, and the clients before have theirs;
there are further events in the server's channel only before a connect
request. -/
structure InStage (state : CmState) (stage : CmStage)
    (notices : List CmEvent) : Prop where
  phase : state.phase = stage.phase
  flight : state.flight = stage.flight
  events : state.channel.events = notices ++ stage.events
  notice : ∀ event ∈ notices, event.Notice
  waits : stage.phase = .request ∨ notices = []
  acked : state.channel.taken = state.channel.acked + stage.unacked
  client : ∀ client, stage.client = some client →
    (state.clients client).phase = stage.clientPhase ∧
      (stage.clientPhase = .wait →
        (state.clients client).channel.events = stage.clientEvents)
  others : ∀ number, stage.client ≠ some number →
    number ∈ state.asked ∧ (state.clients number).phase = .connected ∨
      number ∉ state.asked ∧ (state.clients number).channel.events = [] ∧
        ((state.clients number).phase = .prepare ∨
          (state.clients number).phase = .connect)
  workers : state.workers ++ stage.client.toList.map some =
    state.asked.reverse.map some
  once : state.asked.Nodup
  kept : state.givenUp = [] ∧ ∀ event ∈ state.thrownAway, event.Notice

end CmState

namespace CmChannel

variable {channel : CmChannel} {event : CmEvent} {rest : List CmEvent}

theorem processRdmaCmEvent_nil (events : channel.events = [])
    (expected : CmEventType) (fault : Nat) :
    channel.processRdmaCmEvent expected true fault = none := by
  rw [processRdmaCmEvent, if_pos rfl, events]

theorem processRdmaCmEvent_expected (events : channel.events = event :: rest)
    (status : event.status = 0) (fault : Nat) :
    channel.processRdmaCmEvent event.type true fault =
      some (0, some event,
        { channel with events := rest, taken := channel.taken + 1 }) := by
  rw [processRdmaCmEvent, if_pos rfl, events]
  simp only [status, ne_eq, not_true_eq_false, if_false]

theorem processRdmaCmEvent_notice (events : channel.events = event :: rest)
    (notice : event.Notice) (fault : Nat) :
    ∃ ret < 0, channel.processRdmaCmEvent .connectRequest true fault =
      some (ret, some event,
        CmChannel.ack
          { channel with events := rest, taken := channel.taken + 1 }) := by
  obtain ⟨type, -, status⟩ := notice
  rw [processRdmaCmEvent, if_pos rfl, events]
  simp only
  split
  · exact ⟨-event.status, by omega, rfl⟩
  · exact ⟨-1, by decide, rfl⟩

end CmChannel

namespace CmState.InStage

variable {before after : CmState} {stage : CmStage} {notices : List CmEvent}

theorem initial : InStage .initial .idle [] where
  phase := rfl
  flight := rfl
  events := rfl
  notice _ member := by cases member
  waits := .inl rfl
  acked := rfl
  client _ same := by cases same
  others _ _ := .inr ⟨List.not_mem_nil, rfl, .inl rfl⟩
  workers := rfl
  once := List.nodup_nil
  kept := ⟨rfl, fun _ member => by cases member⟩

theorem eq_idle (inStage : InStage before stage notices)
    (idle : before.Idle) : stage = .idle := by
  obtain ⟨phase, flight, none_⟩ := idle
  rw [inStage.phase] at phase
  rw [inStage.flight] at flight
  cases stage with
  | idle => rfl
  | queued client =>
      refine absurd rfl (none_ (.connectRequest client) ?_)
      rw [inStage.events]
      exact List.mem_append_right _ List.mem_cons_self
  | asked | answered | ready => cases flight
  | taken | offered | reported => cases phase

/-- A step of a client whose connection is not being made. -/
theorem elsewhere (inStage : InStage before stage notices) {number : Nat}
    {record : CmClient} (other : stage.client ≠ some number)
    (fits : number ∈ before.asked ∧ record.phase = .connected ∨
      number ∉ before.asked ∧ record.channel.events = [] ∧
        (record.phase = .prepare ∨ record.phase = .connect)) :
    InStage (before.setClient number record) stage notices := by
  refine { inStage with client := ?_, others := ?_ }
  · intro client same
    have different : client ≠ number := by
      rintro rfl
      exact other same
    simpa only [setClient, Function.update_of_ne different] using
      inStage.client client same
  · intro client away
    by_cases same : client = number
    · subst same
      simpa only [setClient, Function.update_self] using fits
    · simpa only [setClient, Function.update_of_ne same] using
        inStage.others client away

/-- The connection that is being made gets on. -/
theorem onward (inStage : InStage before stage notices) (next : CmStage)
    {client : Nat} {rest : List CmEvent} (mine : stage.client = some client)
    (still : next.client = some client)
    (same : after.workers = before.workers ∧ after.asked = before.asked ∧
      after.givenUp = before.givenUp ∧ after.thrownAway = before.thrownAway ∧
      ∀ number, number ≠ client →
        after.clients number = before.clients number)
    (place : after.phase = next.phase)
    (flight : after.flight = next.flight)
    (events : after.channel.events = rest ++ next.events)
    (notice : ∀ event ∈ rest, event.Notice)
    (waits : next.phase = .request ∨ rest = [])
    (acked : after.channel.taken = after.channel.acked + next.unacked)
    (fits : (after.clients client).phase = next.clientPhase ∧
      (next.clientPhase = .wait →
        (after.clients client).channel.events = next.clientEvents)) :
    InStage after next rest := by
  obtain ⟨workers, asked, givenUp, thrownAway, clients⟩ := same
  constructor
  · exact place
  · exact flight
  · exact events
  · exact notice
  · exact waits
  · exact acked
  · intro other names
    rw [still, Option.some.injEq] at names
    exact names ▸ fits
  · intro number away
    have different : number ≠ client := by
      rintro rfl
      exact away still
    have other : stage.client ≠ some number := by
      rw [mine]
      exact fun equal => different (Option.some.inj equal).symm
    rw [asked, clients number different]
    exact inStage.others number other
  · rw [still, ← mine, workers, asked]
    exact inStage.workers
  · rw [asked]
    exact inStage.once
  · rw [givenUp, thrownAway]
    exact inStage.kept

/-- A client asks for a connection. -/
theorem connect (inStage : InStage before .idle notices) {number : Nat}
    (place : (before.clients number).phase = .connect) :
    InStage
      { before.setClient number
          { before.clients number with phase := .wait } with
        flight := before.flight ++ [.request number]
        asked := number :: before.asked } (.asked number) notices := by
  have mine := inStage.others number nofun
  obtain ⟨fresh, none_, -⟩ := mine.resolve_left fun connected => by
    rw [place] at connected
    cases connected.2
  constructor
  · exact inStage.phase
  · rw [inStage.flight]
    rfl
  · exact inStage.events
  · exact inStage.notice
  · exact .inl rfl
  · exact inStage.acked
  · intro client same
    obtain rfl : number = client := Option.some.inj same
    simpa [setClient, CmStage.clientPhase, CmStage.clientEvents] using none_
  · intro client away
    have different : client ≠ number := by
      rintro rfl
      exact away rfl
    simpa [setClient, different] using inStage.others client nofun
  · simpa [CmStage.client, setClient] using inStage.workers
  · exact List.nodup_cons.mpr ⟨fresh, inStage.once⟩
  · exact inStage.kept

/-- The server throws an event away that has nothing to do with connections. -/
theorem throwAway {event : CmEvent}
    (inStage : InStage before stage (event :: notices))
    (place : stage.phase = .request) {ret : Int} (negative : ret < 0) :
    InStage
      ((before.throwsAway
        { before.channel with
          events := notices ++ stage.events
          taken := before.channel.taken + 1
          acked := before.channel.acked + 1 } (some event)).accepts none ret)
      stage notices := by
  refine { inStage with
    phase := place.symm
    events := rfl
    notice := fun other member =>
      inStage.notice other (List.mem_cons_of_mem _ member)
    waits := .inl place
    acked := ?_
    workers := ?_
    kept := ⟨inStage.kept.1, fun other member => ?_⟩ }
  · have acked := inStage.acked
    simp only [accepts, throwsAway]
    omega
  · rw [accepts, if_pos negative]
    exact inStage.workers
  · rcases List.mem_cons.mp member with rfl | member
    · exact inStage.notice other List.mem_cons_self
    · exact inStage.kept.2 other member

/-- The connection is established. -/
theorem establish {client : Nat}
    (inStage : InStage before (.reported client) []) :
    InStage
      ({ before with
        channel := { before.channel with
          events := []
          taken := before.channel.taken + 1
          acked := before.channel.acked + 1 } }.accepts (some client) 0)
      .idle [] := by
  have listed : before.workers ++ [some client] =
    before.asked.reverse.map some := inStage.workers
  constructor
  · rfl
  · exact inStage.flight
  · rfl
  · exact inStage.notice
  · exact .inl rfl
  · have acked := inStage.acked
    simp only [accepts, CmStage.unacked] at acked ⊢
    omega
  · nofun
  · intro number _
    by_cases same : number = client
    · subst same
      have member : some number ∈ before.asked.reverse.map some := by
        rw [← listed]
        exact List.mem_append_right _ List.mem_cons_self
      have asked : number ∈ before.asked := by simpa using member
      exact .inl ⟨asked, (inStage.client number rfl).1⟩
    · exact inStage.others number fun named =>
        same (Option.some.inj named).symm
  · simpa [accepts, CmStage.client] using listed
  · exact inStage.once
  · exact inStage.kept

theorem stepServer_notice {event : CmEvent}
    (inStage : InStage before stage (event :: notices)) {calls : CmCalls}
    (succeeds : calls.Succeeds)
    (stepTo : before.stepServer calls = some after) :
    InStage after stage notices := by
  obtain ⟨got, -⟩ := succeeds
  have place := inStage.waits.resolve_right (List.cons_ne_nil _ _)
  obtain ⟨ret, negative, processed⟩ :=
    CmChannel.processRdmaCmEvent_notice inStage.events
      (inStage.notice event List.mem_cons_self) calls.fault
  rw [CmState.stepServer, inStage.phase, place] at stepTo
  simp only [got, processed, Option.bind_some, Int.ne_of_lt negative, ne_eq,
    not_false_eq_true, if_true, Option.some.injEq] at stepTo
  subst stepTo
  exact inStage.throwAway place negative

theorem stepServer_advances (inStage : InStage before stage [])
    {calls : CmCalls} (succeeds : calls.Succeeds)
    (stepTo : before.stepServer calls = some after) :
    ∃ next, InStage after next [] ∧ next.cost < stage.cost := by
  obtain ⟨got, acks, links, prepared⟩ := succeeds
  have events := inStage.events
  rw [CmState.stepServer, inStage.phase] at stepTo
  cases stage with
  | idle | asked client | answered client | offered client | ready client =>
      simp only [CmStage.phase, got, CmChannel.processRdmaCmEvent_nil events,
        Option.bind_none, Option.map_none, reduceCtorEq] at stepTo
  | queued client =>
      have processed := CmChannel.processRdmaCmEvent_expected events rfl
        calls.fault
      simp only [CmEvent.connectRequest] at processed
      simp only [CmStage.phase, got, processed, Option.bind_some, ne_eq,
        not_true_eq_false, if_false, Option.map_some,
        Option.some.injEq] at stepTo
      subst stepTo
      have acked : before.channel.taken = before.channel.acked :=
        inStage.acked
      exact ⟨_, inStage.onward (.taken client) rfl rfl
        ⟨rfl, rfl, rfl, rfl, fun _ _ => rfl⟩ rfl inStage.flight rfl
        inStage.notice (.inr rfl) (congrArg (· + 1) acked)
        (inStage.client client rfl), Nat.lt_add_one 5⟩
  | taken client =>
      simp only [CmStage.phase, acks, prepared, links, if_true,
        Option.some.injEq] at stepTo
      subst stepTo
      have sent : before.flight ++ [.reply client] = [.reply client] := by
        rw [inStage.flight]
        rfl
      exact ⟨_, inStage.onward (.answered client) rfl rfl
        ⟨rfl, rfl, rfl, rfl, fun _ _ => rfl⟩ rfl sent events inStage.notice
        (.inr rfl) inStage.acked (inStage.client client rfl),
        Nat.lt_add_one 4⟩
  | reported client =>
      have processed := CmChannel.processRdmaCmEvent_expected events rfl
        calls.fault
      simp only [CmEvent.established] at processed
      simp only [CmStage.phase, got, processed, acks, ne_eq,
        not_true_eq_false, if_false, if_true, Option.map_some,
        Option.some.injEq] at stepTo
      subst stepTo
      exact ⟨.idle, inStage.establish, Nat.lt_add_one 0⟩

theorem deliver (inStage : InStage before stage notices) {index : Nat}
    (stepTo : before.deliver index = some after) :
    ∃ next, InStage after next notices ∧ next.cost < stage.cost := by
  obtain ⟨message, arrives, rfl⟩ := Option.map_eq_some_iff.mp stepTo
  rw [inStage.flight] at arrives
  cases stage with
  | idle | queued client | taken client | offered client | reported client =>
      cases arrives
  | asked client =>
      rw [CmStage.flight, List.getElem?_singleton,
        Option.ite_none_right_eq_some] at arrives
      obtain ⟨rfl, same⟩ := arrives
      cases same
      refine ⟨_, inStage.onward (.queued client) rfl rfl
        ⟨rfl, rfl, rfl, rfl, fun _ _ => rfl⟩ inStage.phase ?_ ?_
        inStage.notice (.inl rfl) inStage.acked (inStage.client client rfl),
        Nat.lt_add_one 6⟩
      · simp only [inStage.flight]
        rfl
      · simp only [CmChannel.report, inStage.events, CmStage.events,
          List.append_nil]
  | answered client =>
      rw [CmStage.flight, List.getElem?_singleton,
        Option.ite_none_right_eq_some] at arrives
      obtain ⟨rfl, same⟩ := arrives
      cases same
      obtain ⟨waits, none_⟩ := inStage.client client rfl
      refine ⟨_, inStage.onward (.offered client) rfl rfl
        ⟨rfl, rfl, rfl, rfl, fun number different => ?_⟩ inStage.phase ?_
        inStage.events inStage.notice inStage.waits inStage.acked ?_,
        Nat.lt_add_one 3⟩
      · exact Function.update_of_ne different _ _
      · simp only [setClient, inStage.flight]
        rfl
      · simp [setClient, CmChannel.report, waits, none_ rfl,
          CmStage.clientPhase, CmStage.clientEvents]
  | ready client =>
      rw [CmStage.flight, List.getElem?_singleton,
        Option.ite_none_right_eq_some] at arrives
      obtain ⟨rfl, same⟩ := arrives
      cases same
      refine ⟨_, inStage.onward (.reported client) rfl rfl
        ⟨rfl, rfl, rfl, rfl, fun _ _ => rfl⟩ inStage.phase ?_ ?_
        inStage.notice inStage.waits inStage.acked (inStage.client client rfl),
        Nat.lt_add_one 1⟩
      · simp only [inStage.flight]
        rfl
      · simp only [CmChannel.report, inStage.events, CmStage.events,
          List.append_nil]

theorem stepClient_own (inStage : InStage before stage notices)
    {number : Nat} {calls : CmCalls} (mine : stage.client = some number)
    (succeeds : calls.Succeeds)
    (stepTo : before.stepClient number calls = some after) :
    ∃ next, InStage after next notices ∧ next.cost < stage.cost := by
  obtain ⟨got, acks, -⟩ := succeeds
  obtain ⟨place, none_⟩ := inStage.client number mine
  rw [stepClient, place] at stepTo
  cases stage with
  | idle => cases mine
  | asked client | queued client | taken client | answered client =>
      simp only [CmStage.clientPhase, got,
        CmChannel.processRdmaCmEvent_nil (none_ rfl), Option.map_none,
        reduceCtorEq] at stepTo
  | offered client =>
      obtain rfl : client = number := Option.some.inj mine
      have processed := CmChannel.processRdmaCmEvent_expected (none_ rfl) rfl
        calls.fault
      simp only [CmEvent.established] at processed
      simp only [CmStage.clientPhase, got, acks, processed, Option.map_some,
        ne_eq, not_true_eq_false, if_false, if_true,
        Option.some.injEq] at stepTo
      subst stepTo
      refine ⟨_, inStage.onward (.ready client) rfl rfl
        ⟨rfl, rfl, rfl, rfl, fun number different => ?_⟩ inStage.phase ?_
        inStage.events inStage.notice inStage.waits inStage.acked ?_,
        Nat.lt_add_one 2⟩
      · exact Function.update_of_ne different _ _
      · simp only [inStage.flight]
        rfl
      · simp [setClient, CmStage.clientPhase]
  | ready client | reported client => cases stepTo

theorem stepClient_other (inStage : InStage before stage notices)
    {number : Nat} {calls : CmCalls} (other : stage.client ≠ some number)
    (inTurn : before.InTurn (.client number calls))
    (stepTo : before.stepClient number calls = some after) :
    (before.clients number).phase ≠ .wait ∧
      ∃ next, InStage after next notices := by
  obtain ⟨⟨-, -, links, prepared⟩, inTurn⟩ := inTurn
  rw [stepClient] at stepTo
  rcases inStage.others number other with
    ⟨-, connected⟩ | ⟨fresh, none_, place | place⟩
  · rw [connected] at stepTo
    cases stepTo
  · simp only [place, prepared, Option.getD_none, if_true,
      Option.some.injEq] at stepTo
    subst stepTo
    refine ⟨place ▸ nofun, stage, inStage.elsewhere other (.inr ?_)⟩
    exact ⟨fresh, none_, .inr rfl⟩
  · obtain rfl := inStage.eq_idle (inTurn place)
    simp only [place, links, if_true, Option.some.injEq] at stepTo
    subst stepTo
    exact ⟨place ▸ nofun, _, inStage.connect place⟩

theorem notices_add (inStage : InStage before stage notices)
    {event : CmEvent} (status : 0 ≤ event.status) (idle : before.Idle)
    (stepTo : before.notice event = some after) :
    InStage after stage (notices ++ [event]) := by
  obtain ⟨type, same⟩ := Option.ite_none_right_eq_some.mp stepTo
  cases same
  obtain rfl := inStage.eq_idle idle
  refine { inStage with events := ?_, notice := ?_, waits := .inl rfl }
  · simp [CmChannel.report, inStage.events, CmStage.events]
  · intro other member
    rcases List.mem_append.mp member with member | member
    · exact inStage.notice other member
    · rw [List.mem_singleton.mp member]
      exact ⟨type.1, type.2, status⟩

theorem clientNotice (inStage : InStage before stage notices)
    {number : Nat} {event : CmEvent}
    (connected : (before.clients number).phase = .connected)
    (stepTo : before.clientNotice number event = some after) :
    InStage after stage notices := by
  obtain ⟨-, same⟩ := Option.ite_none_right_eq_some.mp stepTo
  cases same
  by_cases mine : stage.client = some number
  · obtain ⟨place, -⟩ := inStage.client number mine
    refine inStage.onward stage mine mine
      ⟨rfl, rfl, rfl, rfl, fun other different => ?_⟩ inStage.phase
      inStage.flight inStage.events inStage.notice inStage.waits
      inStage.acked ?_
    · exact Function.update_of_ne different _ _
    · simp only [setClient, Function.update_self]
      refine ⟨place, fun waits => ?_⟩
      rw [connected, waits] at place
      cases place
  · refine inStage.elsewhere mine (.inl ⟨?_, connected⟩)
    rcases inStage.others number mine with ⟨asked, -⟩ | ⟨-, -, place | place⟩
    · exact asked
    · rw [connected] at place
      cases place
    · rw [connected] at place
      cases place

/-- Every step leads to a stage, and one that serves a connection leads closer
to an idle server. -/
theorem step (inStage : InStage before stage notices) {label : CmLabel}
    (inTurn : before.InTurn label)
    (stepTo : rcConnections.step before label = some after) :
    ∃ next rest, InStage after next rest ∧ (before.Serves label →
      rest.length + next.cost < notices.length + stage.cost) := by
  cases label with
  | client number calls =>
      by_cases mine : stage.client = some number
      · obtain ⟨next, nextStage, lower⟩ :=
          inStage.stepClient_own mine inTurn.1 stepTo
        exact ⟨next, notices, nextStage,
          fun _ => Nat.add_lt_add_left lower _⟩
      · obtain ⟨place, next, nextStage⟩ :=
          inStage.stepClient_other mine inTurn stepTo
        exact ⟨next, notices, nextStage, fun serves => absurd serves.2 place⟩
  | server calls =>
      cases notices with
      | cons event notices =>
          exact ⟨stage, notices, inStage.stepServer_notice inTurn stepTo,
            fun _ => Nat.add_lt_add_right (Nat.lt_add_one _) _⟩
      | nil =>
          obtain ⟨next, nextStage, lower⟩ :=
            inStage.stepServer_advances inTurn stepTo
          exact ⟨next, [], nextStage, fun _ => Nat.add_lt_add_left lower _⟩
  | deliver index =>
      obtain ⟨next, nextStage, lower⟩ := inStage.deliver stepTo
      exact ⟨next, notices, nextStage, fun _ => Nat.add_lt_add_left lower _⟩
  | notice event =>
      exact ⟨stage, _, inStage.notices_add inTurn.1 inTurn.2 stepTo,
        False.elim⟩
  | clientNotice number event =>
      exact ⟨stage, notices, inStage.clientNotice inTurn stepTo, False.elim⟩

end CmState.InStage

namespace CmState

variable {state : CmState} {stage : CmStage} {notices : List CmEvent}

theorem inStage_of_inTurn
    (reached : rcConnections.GuardedReach InTurn state) :
    ∃ stage notices, InStage state stage notices := by
  induction reached with
  | start initial =>
      cases initial
      exact ⟨.idle, [], InStage.initial⟩
  | next _ inTurn stepTo ih =>
      obtain ⟨stage, notices, inStage⟩ := ih
      obtain ⟨next, rest, nextStage, -⟩ := inStage.step inTurn stepTo
      exact ⟨next, rest, nextStage⟩

theorem Serves.inTurn {label : CmLabel} (serves : state.Serves label) :
    state.InTurn label := by
  cases label with
  | client number calls =>
      refine ⟨serves.1, fun place => ?_⟩
      rw [serves.2] at place
      cases place
  | server calls => exact serves
  | deliver index => trivial
  | notice | clientNotice => exact serves.elim

/-- The number of steps until the server has dealt with its events and with the
connection that is being made. -/
def cost (state : CmState) : Nat :=
  state.channel.events.length +
    (if .connectRequest ∈ state.channel.events.map CmEvent.type then 5 else 0) +
    (match state.flight with
      | [] => 0
      | .request _ :: _ => 7
      | .reply _ :: _ => 1
      | .ready _ :: _ => 2) +
    match state.phase with
    | .request => 0
    | .prepare _ => 5
    | .establish id => if (state.clients id).phase = .wait then 3 else 0

theorem InStage.cost_eq (inStage : InStage state stage notices) :
    state.cost = notices.length + stage.cost := by
  have none_ : .connectRequest ∉ notices.map CmEvent.type := by
    intro member
    obtain ⟨event, listed, type⟩ := List.mem_map.mp member
    exact (inStage.notice event listed).1 type
  have waits := inStage.client
  rw [cost, inStage.events, inStage.flight, inStage.phase]
  cases stage with
  | idle | asked | taken =>
      simp [CmStage.events, CmStage.flight, CmStage.phase, CmStage.cost, none_]
  | queued =>
      simp [CmStage.events, CmStage.flight, CmStage.phase, CmStage.cost,
        CmEvent.connectRequest, Nat.add_assoc]
  | answered client | offered client | ready client | reported client =>
      have place := (waits client rfl).1
      simp [CmStage.events, CmStage.flight, CmStage.phase, CmStage.cost,
        CmStage.clientPhase, CmEvent.established, none_, place]

theorem InStage.exists_serves (inStage : InStage state stage notices)
    (unquiet : ¬ state.Quiet) :
    ∃ label, state.Serves label ∧ (rcConnections.step state label).isSome := by
  have succeeds : CmCalls.success.Succeeds := by decide
  have events := inStage.events
  cases notices with
  | cons event notices =>
      have place := inStage.waits.resolve_right (List.cons_ne_nil _ _)
      obtain ⟨ret, negative, processed⟩ := CmChannel.processRdmaCmEvent_notice
        events (inStage.notice event List.mem_cons_self) 0
      refine ⟨.server .success, succeeds, ?_⟩
      simp [rcConnections, stepServer, inStage.phase, place,
        CmCalls.success, processed, Int.ne_of_lt negative]
  | nil =>
      cases stage with
      | idle => exact absurd ⟨inStage.phase, inStage.flight, events⟩ unquiet
      | asked | answered | ready =>
          refine ⟨.deliver 0, trivial, ?_⟩
          simp [rcConnections, CmState.deliver, inStage.flight, CmStage.flight]
      | queued client | reported client =>
          have processed :=
            CmChannel.processRdmaCmEvent_expected events rfl 0
          simp only [CmEvent.connectRequest, CmEvent.established] at processed
          refine ⟨.server .success, succeeds, ?_⟩
          simp [rcConnections, stepServer, inStage.phase, CmStage.phase,
            CmCalls.success, processed]
      | taken client =>
          refine ⟨.server .success, succeeds, ?_⟩
          simp [rcConnections, stepServer, inStage.phase, CmStage.phase]
      | offered client =>
          obtain ⟨place, offers⟩ := inStage.client client rfl
          have processed :=
            CmChannel.processRdmaCmEvent_expected (offers rfl) rfl 0
          simp only [CmEvent.established] at processed
          refine ⟨.client client .success, ⟨succeeds, place⟩, ?_⟩
          simp [rcConnections, stepClient, place, CmStage.clientPhase,
            CmCalls.success, processed]

theorem serves_progress :
    rcConnections.Progress Serves
      (fun state => ∃ stage notices, InStage state stage notices) Quiet
      cost where
  preserved before label after known serves stepTo := by
    obtain ⟨stage, notices, inStage⟩ := known
    obtain ⟨next, rest, nextStage, -⟩ := inStage.step serves.inTurn stepTo
    exact ⟨next, rest, nextStage⟩
  lowers before label after known serves stepTo := by
    obtain ⟨stage, notices, inStage⟩ := known
    obtain ⟨next, rest, nextStage, lower⟩ :=
      inStage.step serves.inTurn stepTo
    rw [inStage.cost_eq, nextStage.cost_eq]
    exact lower serves
  enabled state known unquiet := by
    obtain ⟨stage, notices, inStage⟩ := known
    exact inStage.exists_serves unquiet

theorem InStage.cost_le (inStage : InStage state stage notices) :
    state.cost ≤ state.channel.events.length + 7 := by
  rw [inStage.cost_eq, inStage.events, List.length_append]
  cases stage <;> simp [CmStage.cost, CmStage.events]

theorem InStage.eq_idle_of_quiet (inStage : InStage state stage notices)
    (quiet : state.Quiet) : stage = .idle := by
  obtain ⟨phase, flight, events⟩ := quiet
  refine inStage.eq_idle ⟨phase, flight, fun event member => ?_⟩
  rw [events] at member
  cases member

end CmState

/-- If clients connect in turn and no call fails, the server gets to the end of
every connection within a number of steps.  When it is there, exactly those
clients are connected that have called `rdma_connect`, each has one worker, in
the order of the calls, all events have been acknowledged, and no connect
request has been given up or thrown away. -/
theorem connections_made_in_turn
    (reached : rcConnections.GuardedReach CmState.InTurn state) :
    rcConnections.Settles CmState.Serves CmState.Quiet
        (state.channel.events.length + 7) state ∧
      (state.Quiet →
        state.workers = state.asked.reverse.map some ∧ state.asked.Nodup ∧
          (∀ number, (state.clients number).phase = .connected ↔
            number ∈ state.asked) ∧
          state.channel.taken = state.channel.acked ∧ state.givenUp = [] ∧
          ∀ client, .connectRequest client ∉ state.thrownAway) := by
  obtain ⟨stage, notices, inStage⟩ := CmState.inStage_of_inTurn reached
  constructor
  · exact (CmState.serves_progress.settles ⟨stage, notices, inStage⟩).mono
      inStage.cost_le
  · intro quiet
    obtain rfl := inStage.eq_idle_of_quiet quiet
    refine ⟨?_, inStage.once, fun number => ?_, inStage.acked,
      inStage.kept.1, fun client member =>
        (inStage.kept.2 _ member).1 rfl⟩
    · simpa [CmStage.client] using inStage.workers
    · constructor
      · intro connected
        rcases inStage.others number nofun with
          ⟨asked, -⟩ | ⟨-, -, place | place⟩
        · exact asked
        · cases connected.symm.trans place
        · cases connected.symm.trans place
      · intro asked
        rcases inStage.others number nofun with ⟨-, connected⟩ | ⟨fresh, -⟩
        · exact connected
        · exact absurd asked fresh

/-- A client connects, another connection ends, and a second client asks for a
connection. -/
def secondConnection : List CmLabel :=
  let server : CmLabel := .server .success
  let client (number : Nat) : CmLabel := .client number .success
  [client 0, client 0, .deliver 0, server, server, .deliver 0, client 0,
    .deliver 0, server, client 1, .notice ⟨.disconnected, 0, 0⟩, client 1]

theorem secondConnection_made : ∃ state,
    rcConnections.run .initial secondConnection = some state ∧
      state.workers = [some 0] ∧ (state.clients 1).phase = .wait ∧
      rcConnections.Settles CmState.Serves CmState.Quiet 8 state := by
  have runs : (rcConnections.run .initial secondConnection).any
      (fun state => state.workers = [some 0] ∧
        (state.clients 1).phase = .wait ∧
        state.channel.events.length = 1) = true := by decide +kernel
  have inTurn : rcConnections.RunGuarded CmState.InTurn .initial
      secondConnection := by decide +kernel
  obtain ⟨state, runTo, facts⟩ := (Option.any_eq_true _ _).mp runs
  obtain ⟨workers, waits, length⟩ := of_decide_eq_true facts
  have made := connections_made_in_turn
    (TransitionSystem.guardedReach_of_run (.start rfl) inTurn runTo)
  rw [length] at made
  exact ⟨state, runTo, workers, waits, made.1⟩

end RdmaKVStore
