import RdmaKVStore.RcConnections
import Mathlib.Data.List.Count
import Mathlib.Order.Basic

/-!
# What becomes of a connect request

However the calls of the server and its clients fail, and whatever else
happens, a connect request is in one place at a time.  Those that the server
has thrown away or given up are not answered any more, and their clients never
connect.
-/

namespace RdmaKVStore

variable {before after state : CmState} {client number : Nat}

namespace CmState

/-- The number of places where there is a connect request of the client: on its
way, in the server's channel, in the hands of the server, accepted, given up,
or thrown away. -/
def places (state : CmState) (client : Nat) : Nat :=
  state.flight.count (.request client) +
    state.channel.events.count (.connectRequest client) +
    (if state.phase = .prepare client then 1 else 0) +
    state.accepted.count client + state.givenUp.count client +
    state.thrownAway.count (.connectRequest client)

def answers (state : CmState) (client : Nat) : Nat :=
  state.flight.count (.reply client) +
    (state.clients client).channel.events.count (.established client) +
    if (state.clients client).phase = .connected then 1 else 0

/-- What is known of the connect request of a client and of the answer. -/
structure Accounted (state : CmState) (client : Nat) : Prop where
  placed : state.places client = state.asked.count client
  unasked : (state.clients client).phase = .prepare ∨
    (state.clients client).phase = .connect → state.asked.count client = 0
  asked : (state.clients client).phase = .wait ∨
    (state.clients client).phase = .connected → state.asked.count client = 1
  once : state.asked.count client ≤ 1
  answered : state.answers client ≤ state.accepted.count client
  own : ∀ event ∈ (state.clients client).channel.events,
    event.type = .established → event = .established client

namespace Accounted

theorem initial : Accounted .initial client where
  placed := rfl
  unasked _ := rfl
  asked waits := by rcases waits with waits | waits <;> cases waits
  once := Nat.zero_le _
  answered := Nat.le_refl _
  own _ member := by cases member

/-- A step in which the client's connect request stays where it is or is moved
on, and an answer is sent only when it is accepted. -/
theorem of_places (accounted : Accounted before client)
    (clients : after.clients client = before.clients client)
    (asked : after.asked = before.asked)
    (places : after.places client = before.places client)
    (replies : after.flight.count (.reply client) +
        before.accepted.count client ≤
      before.flight.count (.reply client) + after.accepted.count client) :
    Accounted after client where
  placed := by rw [places, asked]; exact accounted.placed
  unasked := by rw [clients, asked]; exact accounted.unasked
  asked := by rw [clients, asked]; exact accounted.asked
  once := by rw [asked]; exact accounted.once
  answered := by
    have answered := accounted.answered
    rw [answers] at answered ⊢
    rw [clients]
    omega
  own := by rw [clients]; exact accounted.own

/-- A step of the server, or an event on its channel. -/
theorem server (accounted : Accounted before client) {channel : CmChannel}
    {phase : CmServerPhase} {workers : List (Option Nat)}
    {givenUp : List Nat} {thrownAway : List CmEvent}
    (moved : channel.events.count (.connectRequest client) +
        (if phase = .prepare client then 1 else 0) + givenUp.count client +
        thrownAway.count (.connectRequest client) =
      before.channel.events.count (.connectRequest client) +
        (if before.phase = .prepare client then 1 else 0) +
        before.givenUp.count client +
        before.thrownAway.count (.connectRequest client)) :
    Accounted
      { before with
        phase := phase
        channel := channel
        workers := workers
        givenUp := givenUp
        thrownAway := thrownAway } client := by
  refine accounted.of_places rfl rfl ?_ (Nat.le_refl _)
  simp only [places]
  omega

/-- A step of another client. -/
theorem elsewhere (accounted : Accounted before client)
    {flight : List CmMessage} {asked : List Nat} {record : CmClient}
    (other : number ≠ client)
    (requests : flight.count (.request client) =
      before.flight.count (.request client))
    (replies : flight.count (.reply client) =
      before.flight.count (.reply client))
    (asks : asked.count client = before.asked.count client) :
    Accounted
      { before with
        clients := Function.update before.clients number record
        flight := flight
        asked := asked } client := by
  have same := Function.update_of_ne other.symm record before.clients
  constructor
  · simpa only [places, requests, asks] using accounted.placed
  · simpa only [same, asks] using accounted.unasked
  · simpa only [same, asks] using accounted.asked
  · simpa only [asks] using accounted.once
  · simpa only [answers, same, replies] using accounted.answered
  · simpa only [same] using accounted.own

/-- A step of the client. -/
theorem itself (accounted : Accounted before client)
    {flight : List CmMessage} {asked : List Nat} {record : CmClient}
    (requests : flight.count (.request client) +
        before.asked.count client =
      before.flight.count (.request client) + asked.count client)
    (unasked : record.phase = .prepare ∨ record.phase = .connect →
      asked.count client = 0)
    (waits : record.phase = .wait ∨ record.phase = .connected →
      asked.count client = 1)
    (once : asked.count client ≤ 1)
    (answered : flight.count (.reply client) +
        record.channel.events.count (.established client) +
        (if record.phase = .connected then 1 else 0) ≤
      before.answers client)
    (own : ∀ event ∈ record.channel.events,
      event.type = .established → event = .established client) :
    Accounted
      { before with
        clients := Function.update before.clients client record
        flight := flight
        asked := asked } client := by
  have same := Function.update_self client record before.clients
  constructor
  · have placed := accounted.placed
    simp only [places] at placed ⊢
    omega
  · simpa only [same] using unasked
  · simpa only [same] using waits
  · exact once
  · simp only [answers, same]
    exact Nat.le_trans answered accounted.answered
  · simpa only [same] using own

theorem ne_connectRequest {event : CmEvent}
    (other : event.type ≠ .connectRequest) (client : Nat) :
    event ≠ .connectRequest client := by
  rintro rfl
  exact other rfl

theorem count_report (channel : CmChannel) (event other : CmEvent) :
    (channel.report event).events.count other =
      channel.events.count other + if event = other then 1 else 0 := by
  simp [CmChannel.report, List.count_append, List.count_singleton]

theorem step (steps : CmSteps before after)
    (accounted : ∀ client, Accounted before client) (client : Nat) :
    Accounted after client := by
  have mine := accounted client
  cases steps with
  | @throwsAway id channel event ret place events =>
      refine mine.server ?_
      have elsewhere : before.phase ≠ .prepare client := by
        cases id <;> rw [place] <;> nofun
      simp only [throwsAway, events, List.count_append, if_neg elsewhere,
        reduceCtorEq, if_false]
      omega
  | @takesRequest channel id place events =>
      refine mine.server ?_
      rw [events, List.count_cons, place]
      by_cases same : id = client
      · subst same
        simp
      · simp [same, CmEvent.connectRequest]
  | @abandons id channel ret place events =>
      refine mine.server ?_
      rw [events, List.count_cons, place]
      by_cases same : id = client
      · subst same
        simp
        omega
      · simp [same]
  | @takesReady id channel event ret place events type =>
      refine mine.server ?_
      rw [events, List.count_cons, place]
      have other : event ≠ .connectRequest client :=
        ne_connectRequest (by rw [type]; decide) client
      simp [other]
  | @notice event other =>
      refine mine.server ?_
      rw [count_report, if_neg (ne_connectRequest other.1 client)]
      rfl
  | @accepts id channel place events =>
      refine mine.of_places rfl rfl ?_ ?_
      · simp only [places, List.count_append, List.count_cons, place, events]
        by_cases same : id = client
        · subst same
          simp
          omega
        · simp [same]
      · by_cases same : id = client
        · subst same
          simp [List.count_append]
          omega
        · simp [same, List.count_append]
  | @request number flight arrives =>
      refine mine.of_places rfl rfl ?_ ?_
      · simp only [places, count_report]
        rw [arrives.count_eq, List.count_cons]
        by_cases same : number = client
        · subst same
          simp
          omega
        · simp [same, CmEvent.connectRequest]
      · rw [arrives.count_eq, List.count_cons]
        simp
  | @ready number flight arrives =>
      refine mine.of_places rfl rfl ?_ ?_
      · simp only [places, count_report]
        rw [arrives.count_eq, List.count_cons]
        simp [CmEvent.connectRequest, CmEvent.established]
      · rw [arrives.count_eq, List.count_cons]
        simp
  | @client number phase moved =>
      by_cases same : number = client
      · subst same
        refine mine.itself rfl ?_ ?_ mine.once ?_ mine.own
        · rintro -
          rcases moved with ⟨place, -⟩ | ⟨place, -⟩
          · exact mine.unasked (.inl place)
          · exact mine.unasked (.inr place)
        · rintro (rfl | rfl) <;> simp at moved
        · have open_ : phase ≠ .connected := by
            rintro rfl
            simp at moved
          simp [answers, open_]
      · exact mine.elsewhere same rfl rfl rfl
  | @connect number place =>
      by_cases same : number = client
      · subst same
        have unasked := mine.unasked (.inr place)
        refine mine.itself ?_ nofun (fun _ => ?_) ?_ ?_ mine.own
        · simp [List.count_append, Nat.add_assoc, Nat.add_comm]
        · rw [List.count_cons_self, unasked]
        · exact Nat.le_of_eq (by rw [List.count_cons_self, unasked])
        · simp [answers, List.count_append]
      · refine mine.elsewhere same ?_ ?_ ?_
        · simp [List.count_append, same]
        · simp [List.count_append]
        · rw [List.count_cons_of_ne same]
  | @fails number channel event place events =>
      by_cases same : number = client
      · subst same
        refine mine.itself rfl nofun nofun mine.once ?_ ?_
        · simp [answers, events, List.count_append]
          omega
        · exact fun event member => mine.own event
            (events ▸ List.mem_append_right _ member)
      · exact mine.elsewhere same rfl rfl rfl
  | @takesReply number phase channel event place events type ends =>
      by_cases same : number = client
      · subst same
        have asked := mine.asked (.inl place)
        have known := mine.own event (events ▸ List.mem_cons_self) type
        refine mine.itself ?_ ?_ (fun _ => asked) mine.once ?_ ?_
        · rw [List.count_append]
          rfl
        · rintro (rfl | rfl) <;> simp at ends
        · simp only [answers, List.count_append, events, known,
            List.count_cons_self]
          split <;> simp <;> omega
        · exact fun event member => mine.own event
            (events ▸ List.mem_cons_of_mem _ member)
      · refine mine.elsewhere same ?_ ?_ rfl
        · simp [List.count_append]
        · simp [List.count_append]
  | @reply number flight arrives =>
      by_cases same : number = client
      · subst same
        refine mine.itself ?_ mine.unasked mine.asked mine.once ?_ ?_
        · rw [arrives.count_eq]
          simp
        · simp only [answers, count_report, arrives.count_eq]
          simp
          omega
        · intro event member type
          rcases List.mem_append.mp member with member | member
          · exact mine.own event member type
          · exact List.mem_singleton.mp member
      · refine mine.elsewhere same ?_ ?_ rfl
        · rw [arrives.count_eq]
          simp
        · rw [arrives.count_eq]
          simp [same]
  | @clientNotice number event other =>
      by_cases same : number = client
      · subst same
        refine mine.itself rfl mine.unasked mine.asked mine.once ?_ ?_
        · have different : event ≠ .established number := by
            rintro rfl
            exact other rfl
          simp [answers, count_report, different]
        · intro taken member type
          rcases List.mem_append.mp member with member | member
          · exact mine.own taken member type
          · rw [List.mem_singleton.mp member] at type
            exact absurd type other
      · exact mine.elsewhere same rfl rfl rfl

end Accounted

/-- Workers have been started only for connections that the server has accepted
or given up, and once for each. -/
def Served (state : CmState) (client : Nat) : Prop :=
  state.workers.count (some client) +
      (if state.phase = .establish client then 1 else 0) ≤
    state.accepted.count client + state.givenUp.count client

theorem count_accepts (state : CmState) (id : Option Nat) (ret : Int)
    (client : Nat) :
    (state.accepts id ret).workers.count (some client) ≤
      state.workers.count (some client) +
        if id = some client then 1 else 0 := by
  rw [accepts]
  split
  · exact Nat.le_add_right _ _
  · simp [List.count_append, List.count_singleton]

theorem Served.step (steps : CmSteps before after)
    (served : Served before client) : Served after client := by
  rw [Served] at served ⊢
  cases steps with
  | @throwsAway id channel event ret place events =>
      have count := count_accepts (before.throwsAway channel event) id ret
        client
      rw [if_neg CmServerPhase.noConfusion]
      rw [place] at served
      refine Nat.le_trans count (Nat.le_trans ?_ served)
      cases id <;> simp [CmServerPhase.waits, throwsAway]
  | @takesRequest channel id place events =>
      rw [if_neg CmServerPhase.noConfusion]
      exact Nat.le_trans (Nat.le_add_right _ _) served
  | @abandons id channel ret place events =>
      have count := count_accepts
        { before with channel := channel, givenUp := id :: before.givenUp }
        (some id) ret client
      rw [if_neg CmServerPhase.noConfusion]
      refine Nat.le_trans count ?_
      have started := Nat.le_trans (Nat.le_add_right _ _) served
      by_cases same : id = client
      · subst same
        simpa [accepts, abandons, ← Nat.add_assoc] using started
      · simpa [accepts, abandons, same] using started
  | @accepts id channel place events =>
      rw [place] at served
      by_cases same : id = client
      · subst same
        simp at served ⊢
        omega
      · simpa [same] using served
  | @takesReady id channel event ret place events type =>
      have count := count_accepts { before with channel := channel } (some id)
        ret client
      rw [if_neg CmServerPhase.noConfusion]
      rw [place] at served
      refine Nat.le_trans count (Nat.le_trans ?_ served)
      simp
  | client | connect | fails | takesReply | request | reply | ready | notice
  | clientNotice => exact served

/-- The server has given up the connect request of the client, or thrown it
away. -/
def Discarded (state : CmState) (client : Nat) : Prop :=
  client ∈ state.givenUp ∨ .connectRequest client ∈ state.thrownAway

theorem Discarded.step (steps : CmSteps before after)
    (discarded : Discarded before client) : Discarded after client := by
  cases steps with
  | throwsAway => exact discarded.imp_right (List.mem_append_right _)
  | abandons => exact discarded.imp_left (List.mem_cons_of_mem _)
  | client | connect | fails | takesReply | takesRequest | accepts
  | takesReady | request | reply | ready | notice | clientNotice =>
      exact discarded

theorem Accounted.not_connected (accounted : Accounted state client)
    (discarded : Discarded state client) :
    (state.clients client).phase ≠ .connected := by
  intro connected
  have answered := accounted.answered
  rw [answers, if_pos connected] at answered
  have placed := accounted.placed
  rw [places, accounted.asked (.inr connected)] at placed
  rcases discarded with givenUp | thrownAway
  · have := List.count_pos_iff.mpr givenUp
    omega
  · have := List.count_pos_iff.mpr thrownAway
    omega

theorem accounted_of_reachable (reached : rcConnections.Reachable state) :
    ∀ client, Accounted state client :=
  reached.invariant
    (fun _ initial _ => initial ▸ Accounted.initial)
    (fun _ _ _ accounted stepTo client =>
      Accounted.step (rcConnections_steps stepTo) accounted client)

theorem Served.initial : Served .initial client :=
  Nat.le_refl _

theorem served_of_reachable (reached : rcConnections.Reachable state) :
    Served state client :=
  reached.invariant (fun _ initial => initial ▸ Served.initial)
    (fun _ _ _ served stepTo => served.step (rcConnections_steps stepTo))

end CmState

/-- Whatever fails and whatever else happens, a client that has asked for a
connection has its connect request in one place, and there is at most one
worker for it.  It is connected only if the server has accepted the request,
and never again once the server has given the request up or has thrown it
away. -/
theorem connectRequest_in_one_place (reached : rcConnections.Reachable state)
    (client : Nat) :
    state.places client = (if client ∈ state.asked then 1 else 0) ∧
      state.workers.count (some client) ≤ 1 ∧
      ((state.clients client).phase = .connected → client ∈ state.accepted) ∧
      (state.Discarded client → ∀ labels after,
        rcConnections.run state labels = some after →
          (after.clients client).phase ≠ .connected) := by
  have accounted := CmState.accounted_of_reachable reached client
  have served : state.Served client := CmState.served_of_reachable reached
  refine ⟨?_, ?_, fun connected => ?_, fun discarded labels after runTo => ?_⟩
  · rw [accounted.placed]
    split
    · rename_i asked
      exact Nat.le_antisymm accounted.once (List.count_pos_iff.mpr asked)
    · rename_i unasked
      exact List.count_eq_zero.mpr unasked
  · have placed := accounted.placed
    have once := accounted.once
    rw [CmState.places] at placed
    rw [CmState.Served] at served
    omega
  · have answered := accounted.answered
    rw [CmState.answers, if_pos connected] at answered
    exact List.count_pos_iff.mp (by omega)
  · have onward := TransitionSystem.invariant_of_run
      (fun _ _ _ discarded _ stepTo =>
        CmState.Discarded.step (rcConnections_steps stepTo) discarded)
      discarded (TransitionSystem.runGuarded_true state labels) runTo
    exact (CmState.accounted_of_reachable
      (TransitionSystem.reachable_of_run reached runTo) client).not_connected
      onward

/-- The connect request of a second client overtakes the news that the
connection of the first is established: the server waits for the news, and
throws the request away. -/
def overtakingRequest : List CmLabel :=
  let server : CmLabel := .server { CmCalls.success with errno := 11 }
  let client (number : Nat) : CmLabel := .client number .success
  [client 0, client 1, client 0, client 1, .deliver 0, server, server,
    .deliver 1, client 0, .deliver 0, server, .deliver 0, server]

theorem overtakingRequest_discarded : ∃ state,
    rcConnections.run .initial overtakingRequest = some state ∧
      (state.clients 0).phase = .connected ∧
      (state.clients 1).phase = .wait ∧ state.workers = [] ∧
      state.Discarded 1 ∧
      ∀ labels after, rcConnections.run state labels = some after →
        (after.clients 1).phase ≠ .connected := by
  have runs : (rcConnections.run .initial overtakingRequest).any
      (fun state => (state.clients 0).phase = .connected ∧
        (state.clients 1).phase = .wait ∧ state.workers = [] ∧
        .connectRequest 1 ∈ state.thrownAway) = true := by decide +kernel
  obtain ⟨state, runTo, facts⟩ := (Option.any_eq_true _ _).mp runs
  obtain ⟨first, second, workers, thrownAway⟩ := of_decide_eq_true facts
  have reached := TransitionSystem.reachable_of_run
    (TransitionSystem.GuardedReach.start rfl) runTo
  exact ⟨state, runTo, first, second, workers, .inr thrownAway,
    (connectRequest_in_one_place reached 1).2.2.2 (.inr thrownAway)⟩

end RdmaKVStore
