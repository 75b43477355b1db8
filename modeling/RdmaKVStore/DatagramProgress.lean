import RdmaKVStore.DatagramDispatch
import RdmaKVStore.ResponseBuffers
import RdmaKVStore.TerminatingRuns

/-!
# The UD server answers what has arrived

The workers of a UD server wait for each other in three places: for a receive
completion, at `lock`, and for a send completion, which they take from one
queue without asking whose it is.  The waits poll: with `--blocking` they also
need an event.  As long as there is something to do, one of the workers or the
adapter can still take a step, and when there is nothing left every datagram
that has arrived has been answered.
-/

namespace RdmaKVStore

namespace SendQueue

variable {Owner Content : Type*} [DecidableEq Owner]
variable {queue after : SendQueue Owner Content} {owner : Owner}

theorem take_isSome (available : queue.waited.length < queue.done)
    (holds : (queue.ticket owner).isSome) : (queue.take owner).isSome := by
  rw [take, if_pos available, Option.isSome_map]
  exact holds

end SendQueue

variable {Worker Store : Type*} [DecidableEq Worker]
variable {messages : Nat → Request} {handlers : StoreHandlers Store}
variable {store : Store} {state : DatagramState Worker Store}
variable {server after : DatagramServer Worker Store}
variable {phase : Worker → DatagramPhase} {before next : DatagramPhase}
variable {worker : Worker} {calls : WorkerCalls}

namespace DatagramPhase

/-- The steps that a worker may still need until it waits for a datagram, and
those that the adapter needs for the responses that it still posts. -/
def untilReceive : DatagramPhase → Nat
  | .lock _ => 17
  | .current _ => 16
  | .dispatch _ => 15
  | .dispatchWait _ | .exitWait => 12
  | .check _ => 11
  | .repost _ => 10
  | .count _ => 9
  | .unlock _ => 8
  | .clear _ => 7
  | .switch _ => 6
  | .respond => 5
  | .respondWait => 2
  | .prepare => 1
  | .receive | .ended | .crashed => 0

theorem untilReceive_le (phase : DatagramPhase) : phase.untilReceive ≤ 17 := by
  cases phase <;> simp [untilReceive]

def Loops : DatagramPhase → Prop
  | .exitWait | .ended | .crashed => False
  | _ => True

end DatagramPhase

/-- A worker takes a datagram or comes closer to its next wait for one, also
if the two steps of the adapter for each response are counted. -/
theorem DatagramServes.polled_or_closer (loops : before.Loops)
    (serves : DatagramServes messages worker server calls before after next) :
    after.sends.wire = server.sends.wire ∧
      after.sends.done = server.sends.done ∧
      after.queue.arrived = server.queue.arrived ∧
      server.sends.posted.length ≤ after.sends.posted.length ∧
      ((after.polled = server.polled + 1 ∧ before.untilReceive = 0 ∧
          next.untilReceive = 17 ∧
          server.polled < server.statuses.length ∧
          after.sends.posted.length = server.sends.posted.length) ∨
        after.polled = server.polled ∧
          next.untilReceive + 2 * after.sends.posted.length <
            before.untilReceive + 2 * server.sends.posted.length) := by
  cases serves with
  | receive completed =>
      exact ⟨rfl, rfl, rfl, le_rfl, .inl ⟨rfl, rfl, rfl,
        (List.getElem?_eq_some_iff.mp completed).1, rfl⟩⟩
  | answer | exit | respond =>
      refine ⟨rfl, rfl, rfl, ?_, .inr ⟨rfl, ?_⟩⟩ <;>
        simp only [DatagramServer.postSend, DatagramServer.setResponse,
          SendQueue.post, List.length_append, List.length_singleton,
          DatagramPhase.untilReceive] <;>
        omega
  | exited => exact loops.elim
  | answered taken | close taken | again taken =>
      obtain ⟨posted, wire, done, -⟩ := SendQueue.take_eq_some taken
      exact ⟨wire, done, rfl, posted ▸ le_rfl,
        .inr ⟨rfl, by simp [posted, DatagramPhase.untilReceive,
          DatagramServer.returned]⟩⟩
  | _ => exact ⟨rfl, rfl, rfl, le_rfl, .inr ⟨rfl, Nat.add_lt_add_right
      (by simp [DatagramPhase.untilReceive]) _⟩⟩

theorem DatagramServes.not_sendWaits (loops : before.Loops)
    (waits : before.SendWaits)
    (serves : DatagramServes messages worker server calls before after next) :
    ¬ next.SendWaits := by
  cases serves with
  | answered | close | again => exact id
  | exited => exact loops.elim
  | _ => exact waits.elim

omit [DecidableEq Worker] in
theorem StaysOpen.datagram (stays : StaysOpen messages)
    (server : DatagramServer Worker Store) (slot : Nat) :
    (server.request messages slot).connectionClose = 0 := by
  unfold DatagramServer.request
  cases server.queue.slots slot with
  | none => rfl
  | some number => exact stays number

omit [DecidableEq Worker] in
theorem DatagramServer.not_kills_request
    (survived : ∀ number, ¬ (messages number).Kills .ud)
    (server : DatagramServer Worker Store) (slot : Nat) :
    ¬ (server.request messages slot).Kills .ud := by
  unfold DatagramServer.request
  cases server.queue.slots slot with
  | none =>
      rintro ⟨-, method, -⟩
      cases method
  | some number => exact survived number

omit [DecidableEq Worker] in
theorem dispatchesReturn_of_survived
    (survived : ∀ number, ¬ (messages number).Kills .ud)
    (label : DatagramLabel Worker) (succeeds : ReceivesSucceed state label) :
    DispatchesReturn messages state label := by
  refine ⟨succeeds, ?_⟩
  cases label with
  | work worker calls =>
      simp only [DispatchesSurvived]
      cases state.phase worker with
      | dispatch slot => exact DatagramServer.not_kills_request survived _ slot
      | _ => trivial
  | _ => trivial

/-- What is known of the server when nobody closes a connection or sends an
EXIT: all workers are in their loops, as many responses are waited for as have
been posted and not taken, and those that wait hold a posting. -/
structure Answering (state : DatagramState Worker Store) : Prop where
  loops : ∀ worker, (state.phase worker).Loops
  going : state.server.exited = false
  waiting : ∃ count, PhaseCount DatagramPhase.SendWaits state.phase count ∧
    state.server.sends.posted.length =
      state.server.sends.waited.length + count
  holds : ∀ worker, (state.phase worker).SendWaits →
    (state.server.sends.ticket worker).isSome
  taken : state.server.sends.waited.length ≤ state.server.sends.done
  done : state.server.sends.done ≤ state.server.sends.wire.length
  wire : state.server.sends.wire.length ≤ state.server.sends.posted.length

namespace Answering

omit [DecidableEq Worker] in
theorem initial :
    Answering (.initial store : DatagramState Worker Store) where
  loops _ := trivial
  going := rfl
  waiting := ⟨0, .zero fun _ => id, rfl⟩
  holds _ waits := waits.elim
  taken := le_rfl
  done := le_rfl
  wire := le_rfl

theorem loops_advance
    (known : ∀ number, (messages number).method ≠ .exit)
    (stays : StaysOpen messages)
    (survived : ∀ number, ¬ (messages number).Kills .ud)
    (inStep : RingInStep messages ⟨server, phase⟩)
    (loops : (phase worker).Loops)
    (advanced : server.advance messages handlers worker calls (phase worker) =
      some (after, next)) : next.Loops ∧ after.exited = server.exited := by
  have placed := inStep.placed worker
  have pending : (phase worker).Pending →
      server.returns.length < server.polled := inStep.lt_polled_of_pending
  have request : ∀ turn, server.At turn → turn < server.polled →
      server.request messages (turn % maxClients) = messages turn :=
    fun _ => inStep.request_of_at
  have serves := DatagramServer.advance_serves advanced
  simp only at placed
  generalize phase worker = before at serves placed pending loops advanced
  cases serves with
  | null =>
      obtain ⟨failed, -⟩ := placed
      cases failed
  | exit =>
      -- the slot holds the datagram of the turn, which is not an EXIT
      obtain ⟨-, level, rfl, -⟩ := placed
      simp only [DatagramServer.advance, request _ level (pending trivial),
        if_neg (survived _)] at advanced
      split at advanced
      · cases (Prod.mk.inj (Option.some.inj advanced)).2
      · rw [if_neg (known _)] at advanced
        cases (Prod.mk.inj (Option.some.inj advanced)).2
  | crash kills =>
      exact absurd kills (DatagramServer.not_kills_request survived server _)
  | exited => exact loops.elim
  | close =>
      obtain ⟨middle, waited, same⟩ := Option.map_eq_some_iff.mp advanced
      simp only [Prod.mk.injEq, DatagramServer.afterResponse] at same
      rw [if_neg (not_not.mpr (stays.datagram middle 0))] at same
      cases same.2
  | _ => exact ⟨trivial, rfl⟩

theorem serves
    (known : ∀ number, (messages number).method ≠ .exit)
    (stays : StaysOpen messages)
    (survived : ∀ number, ¬ (messages number).Kills .ud)
    (inStep : RingInStep messages ⟨server, phase⟩)
    (answering : Answering ⟨server, phase⟩)
    (advanced : server.advance messages handlers worker calls (phase worker) =
      some (after, next)) :
    Answering ⟨after, Function.update phase worker next⟩ := by
  have serves := DatagramServer.advance_serves advanced
  have loops := answering.loops worker
  obtain ⟨onward, exited⟩ :=
    loops_advance known stays survived inStep loops advanced
  obtain ⟨wire, done, -⟩ := serves.polled_or_closer loops
  obtain ⟨count, counted, posted⟩ := answering.waiting
  have taken := answering.taken
  have bounds := And.intro answering.done answering.wire
  simp only at counted posted taken bounds
  have inLoop : ∀ other, (Function.update phase worker next other).Loops :=
    (Function.forall_update_iff phase
      fun _ (phase : DatagramPhase) => phase.Loops).mpr
        ⟨onward, fun other _ => answering.loops other⟩
  have others : ∀ other, other ≠ worker → (phase other).SendWaits →
      (server.sends.ticket other).isSome := fun other _ => answering.holds other
  rcases serves.send_cases with
    ⟨idle, response, -, ⟨sends, rests⟩ | ⟨sends, waits⟩⟩ | ⟨waits, -, took⟩
  · refine ⟨inLoop, exited.trans answering.going,
      ⟨count, counted.stay (iff_of_false rests idle), ?_⟩, ?_, ?_, ?_, ?_⟩ <;>
      simp only [sends]
    · exact posted
    · exact (Function.forall_update_iff phase
        fun other (phase : DatagramPhase) => phase.SendWaits →
          (server.sends.ticket other).isSome).mpr
        ⟨fun waits => absurd waits rests, others⟩
    · exact taken
    · exact bounds.1
    · exact bounds.2
  · refine ⟨inLoop, exited.trans answering.going,
      ⟨count + 1, counted.enter waits idle, ?_⟩, ?_, ?_, ?_, ?_⟩ <;>
      simp only [sends, SendQueue.post, List.length_append,
        List.length_singleton]
    · omega
    · exact (Function.forall_update_iff phase
        fun other (phase : DatagramPhase) => phase.SendWaits →
          (Function.update server.sends.ticket worker
            (some server.sends.posted.length) other).isSome).mpr
        ⟨fun _ => by rw [Function.update_self]; rfl,
          fun other distinct waits => by
            rw [Function.update_of_ne distinct]
            exact others other distinct waits⟩
    · exact taken
    · exact bounds.1
    · omega
  · obtain ⟨same, -, -, available, length, ticket⟩ :=
      SendQueue.take_eq_some took
    obtain ⟨fewer, rfl⟩ := Nat.exists_eq_add_of_le' (counted.pos waits)
    have rests := serves.not_sendWaits loops waits
    refine ⟨inLoop, exited.trans answering.going,
      ⟨fewer, counted.leave rests waits, ?_⟩, ?_, ?_, ?_, ?_⟩ <;>
      simp only [same, wire, done, length]
    · omega
    · rw [ticket]
      exact (Function.forall_update_iff phase
        fun other (phase : DatagramPhase) => phase.SendWaits →
          (Function.update server.sends.ticket worker none other).isSome).mpr
        ⟨fun waits => absurd waits rests,
          fun other distinct waits => by
            rw [Function.update_of_ne distinct]
            exact others other distinct waits⟩
    · exact available
    · exact bounds.1
    · exact bounds.2

theorem of_reachable
    (known : ∀ number, (messages number).method ≠ .unk)
    (noExit : ∀ number, (messages number).method ≠ .exit)
    (stays : StaysOpen messages)
    (survived : ∀ number, ¬ (messages number).Kills .ud)
    (reached : (datagramServer messages handlers store).GuardedReach
      ReceivesSucceed state) : Answering state := by
  induction reached with
  | start initial =>
      obtain rfl := initial
      exact Answering.initial
  | @next before after label earlier guarded stepTo answering =>
      have inStep := RingInStep.of_reachable known
        (earlier.mono fun _ => dispatchesReturn_of_survived survived)
      cases label with
      | flush | failWait => exact guarded.elim
      | arrive =>
          cases datagramServer_steps stepTo
          exact { answering with }
      | transmit =>
          cases datagramServer_steps stepTo with
          | transmit sent =>
              obtain ⟨entry, next, rfl⟩ := Option.map_eq_some_iff.mp sent
              have room := (List.getElem?_eq_some_iff.mp next).1
              have done := answering.done
              refine { answering with done := ?_, wire := ?_ } <;>
                simp only [List.length_append, List.length_singleton] <;>
                omega
      | complete =>
          cases datagramServer_steps stepTo with
          | complete completed =>
              obtain ⟨room, same⟩ :=
                Option.ite_none_right_eq_some.mp completed
              cases same
              exact { answering with
                taken := answering.taken.trans (Nat.le_succ _), done := room }
      | work worker calls =>
          obtain ⟨-, moved⟩ := Option.ite_none_left_eq_some.mp stepTo
          obtain ⟨⟨server, next⟩, advanced, rfl⟩ :=
            Option.map_eq_some_iff.mp moved
          exact answering.serves noExit stays survived inStep advanced

end Answering

/-- Every datagram that has arrived has been dispatched, every response posted
has been sent and completed, and all workers wait for the next datagram. -/
structure Drained (state : DatagramState Worker Store) : Prop where
  waits : ∀ worker, state.phase worker = .receive
  dispatched : state.server.returns.length = state.server.queue.arrived
  sent : state.server.sends.done = state.server.sends.posted.length

/-- Steps of the workers, and of the adapter for their responses. -/
def NoNewDatagram (_ : DatagramState Worker Store) :
    DatagramLabel Worker → Prop
  | .transmit | .complete | .work _ _ => True
  | .arrive | .flush | .failWait _ => False

namespace DatagramState

/-- The steps that the workers and the adapter may still take for what has
arrived. -/
def remaining [Fintype Worker] (state : DatagramState Worker Store) : Nat :=
  18 * (state.server.queue.arrived - state.server.polled) +
    ∑ worker, (state.phase worker).untilReceive +
    (state.server.sends.posted.length - state.server.sends.wire.length) +
    (state.server.sends.posted.length - state.server.sends.done)

omit [DecidableEq Worker] in
/-- What the workers need follows from the datagrams that none of them has
taken. -/
theorem remaining_le [Fintype Worker] (answering : Answering state) :
    state.remaining ≤
      18 * (state.server.queue.arrived - state.server.polled) +
        19 * Fintype.card Worker := by
  obtain ⟨count, ⟨actors, -, rfl⟩, posted⟩ := answering.waiting
  have few := actors.card_le_univ
  have taken := answering.taken
  have done := answering.done
  have sum : ∑ worker, (state.phase worker).untilReceive ≤
      17 * Fintype.card Worker := by
    rw [Nat.mul_comm]
    exact Finset.sum_le_card_nsmul _ _ _ fun worker _ =>
      (state.phase worker).untilReceive_le
  unfold remaining
  omega

theorem remaining_lt [Fintype Worker]
    {before after : DatagramState Worker Store} {label : DatagramLabel Worker}
    (inStep : RingInStep messages before)
    (answering : Answering before) (known : NoNewDatagram before label)
    (stepTo : (datagramServer messages handlers store).step before label =
      some after) :
    after.remaining < before.remaining := by
  have done := answering.done
  have wire := answering.wire
  unfold remaining
  cases datagramServer_steps stepTo with
  | arrive | flush | failWait => exact known.elim
  | transmit sent =>
      obtain ⟨entry, next, rfl⟩ := Option.map_eq_some_iff.mp sent
      have room := (List.getElem?_eq_some_iff.mp next).1
      simp only [List.length_append, List.length_singleton]
      omega
  | complete completed =>
      obtain ⟨room, same⟩ := Option.ite_none_right_eq_some.mp completed
      cases same
      simp only
      omega
  | @work worker calls server next serves =>
      obtain ⟨sameWire, sameDone, arrived, posted, cost⟩ :=
        serves.polled_or_closer (answering.loops worker)
      have sum : ∑ other, (Function.update before.phase worker next
            other).untilReceive + (before.phase worker).untilReceive =
          ∑ other, (before.phase other).untilReceive + next.untilReceive :=
        sum_update_add (Finset.mem_univ worker)
      simp only [sameWire, sameDone, arrived]
      rcases cost with ⟨polled, waits, rank, room, same⟩ | ⟨polled, closer⟩
      · rw [inStep.statuses, List.length_replicate] at room
        omega
      · omega

end DatagramState

/-- What is known of a server on which no receive has failed and nobody has
closed a connection or sent an UNK or an EXIT. -/
structure Serviceable (messages : Nat → Request)
    (state : DatagramState Worker Store) : Prop where
  inStep : RingInStep messages state
  answering : Answering state

namespace Serviceable

variable (serviceable : Serviceable messages state)
include serviceable

theorem work_isSome (calls : WorkerCalls)
    (goes : (state.server.advance messages handlers worker calls
      (state.phase worker)).isSome) :
    ((datagramServer messages handlers store).step state
      (.work worker calls)).isSome := by
  simp only [datagramServer,
    if_neg (Bool.eq_false_iff.mp serviceable.answering.going),
    Option.isSome_map]
  exact goes

theorem advance_isSome
    (receives : state.phase worker = .receive →
      state.server.polled < state.server.queue.arrived)
    (locks : ∀ failed, state.phase worker = .lock failed →
      state.server.lock = none)
    (sends : (state.phase worker).SendWaits →
      state.server.sends.waited.length < state.server.sends.done) :
    (state.server.advance messages handlers worker calls
      (state.phase worker)).isSome := by
  have loops := serviceable.answering.loops worker
  have holds := serviceable.answering.holds worker
  have statuses := serviceable.inStep.statuses
  cases phase : state.phase worker with
  | exitWait | ended | crashed =>
      rw [phase] at loops
      exact loops.elim
  | receive =>
      have room := receives phase
      rw [DatagramServer.advance, Option.isSome_map, statuses,
        List.getElem?_replicate, if_pos room]
      rfl
  | lock failed => simp [DatagramServer.advance, locks failed phase]
  | dispatchWait | respondWait =>
      rw [phase] at holds sends
      rw [DatagramServer.advance, Option.isSome_map,
        DatagramServer.waitSend, Option.isSome_map]
      exact SendQueue.take_isSome (sends trivial) (holds trivial)
  | current =>
      rw [DatagramServer.advance]
      split <;> rfl
  | dispatch =>
      rw [DatagramServer.advance]
      split
      · rfl
      · split <;> rfl
  | _ => rfl

/-- As long as a response is waited for, the wait can return or the adapter
can send or complete a response. -/
theorem exists_step_of_sendWaits (waits : (state.phase worker).SendWaits) :
    ∃ label, NoNewDatagram state label ∧
      ((datagramServer messages handlers store).step state label).isSome := by
  obtain ⟨count, counted, posted⟩ := serviceable.answering.waiting
  have some := counted.pos waits
  by_cases available :
      state.server.sends.waited.length < state.server.sends.done
  · refine ⟨.work worker ⟨0⟩, trivial,
      serviceable.work_isSome _ (serviceable.advance_isSome ?_ ?_ ?_)⟩
    · intro receives
      rw [receives] at waits
      exact waits.elim
    · intro failed locks
      rw [locks] at waits
      exact waits.elim
    · exact fun _ => available
  by_cases sent :
      state.server.sends.done < state.server.sends.wire.length
  · refine ⟨.complete, trivial, ?_⟩
    simp only [datagramServer, Option.isSome_map, DatagramServer.complete,
      SendQueue.complete, if_pos sent, Option.isSome_some]
  · have room : state.server.sends.wire.length <
        state.server.sends.posted.length := by omega
    refine ⟨.transmit, trivial, ?_⟩
    simp only [datagramServer, Option.isSome_map, DatagramServer.transmit,
      SendQueue.transmit, List.getElem?_eq_getElem room, Option.isSome_some]

omit [DecidableEq Worker] in
/-- When all workers wait and no datagram is left, everything has been
answered. -/
theorem drained (waits : ∀ worker, state.phase worker = .receive)
    (none : state.server.queue.arrived ≤ state.server.polled) :
    Drained state := by
  have taken := serviceable.answering.taken
  have done := serviceable.answering.done
  have wire := serviceable.answering.wire
  have polled := serviceable.inStep.polled_le
  obtain ⟨pending, counted, account⟩ := serviceable.inStep.account
  obtain ⟨sending, waiting, posted⟩ := serviceable.answering.waiting
  obtain rfl : pending = 0 := counted.eq_zero fun worker => by
    rw [waits worker]
    exact id
  obtain rfl : sending = 0 := waiting.eq_zero fun worker => by
    rw [waits worker]
    exact id
  exact ⟨waits, by omega, by omega⟩

theorem exists_step [Nonempty Worker] (unmet : ¬ Drained state) :
    ∃ label, NoNewDatagram state label ∧
      ((datagramServer messages handlers store).step state label).isSome := by
  by_cases waiting : ∃ worker, (state.phase worker).SendWaits
  · obtain ⟨worker, waits⟩ := waiting
    exact serviceable.exists_step_of_sendWaits waits
  push Not at waiting
  have work : ∀ worker, (state.phase worker = .receive →
        state.server.polled < state.server.queue.arrived) →
      (∀ failed, state.phase worker = .lock failed →
        state.server.lock = none) →
      ∃ label, NoNewDatagram state label ∧
        ((datagramServer messages handlers store).step state label).isSome :=
    fun worker receives locks => ⟨.work worker ⟨0⟩, trivial,
      serviceable.work_isSome _ (serviceable.advance_isSome receives locks
        fun waits => absurd waits (waiting worker))⟩
  by_cases moving : ∃ worker, state.phase worker ≠ .receive ∧
      ∀ failed, state.phase worker ≠ .lock failed
  · obtain ⟨worker, elsewhere, unlocked⟩ := moving
    exact work worker (fun receives => absurd receives elsewhere)
      fun failed locks => absurd locks (unlocked failed)
  push Not at moving
  -- nobody is between taking `lock` and giving it back
  have free : state.server.lock = none := by
    refine Option.eq_none_iff_forall_ne_some.mpr fun holder held => ?_
    have inside := serviceable.inStep.held holder held
    by_cases receives : state.phase holder = .receive
    · rw [receives] at inside
      exact inside
    · obtain ⟨failed, locks⟩ := moving holder receives
      rw [locks] at inside
      exact inside
  by_cases taken : ∀ worker, state.phase worker = .receive
  · obtain ⟨worker⟩ := ‹Nonempty Worker›
    refine work worker (fun _ => by_contra fun none => unmet ?_) fun _ _ => free
    exact serviceable.drained taken (not_lt.mp none)
  · push Not at taken
    obtain ⟨worker, elsewhere⟩ := taken
    exact work worker (fun receives => absurd receives elsewhere)
      fun _ _ => free

end Serviceable

/-- The server works towards answering what has arrived. -/
theorem Drained.progress [Fintype Worker] [Nonempty Worker]
    (known : ∀ number, (messages number).method ≠ .unk)
    (noExit : ∀ number, (messages number).method ≠ .exit)
    (stays : StaysOpen messages)
    (survived : ∀ number, ¬ (messages number).Kills .ud) :
    (datagramServer messages handlers store).Progress
      (@NoNewDatagram Worker _)
      ((datagramServer messages handlers store).GuardedReach ReceivesSucceed)
      Drained DatagramState.remaining where
  preserved before label after reached own stepTo := by
    have succeeds : ReceivesSucceed before label := by
      cases label <;> first | exact own.elim | trivial
    exact .next reached succeeds stepTo
  lowers _ _ _ reached own stepTo :=
    DatagramState.remaining_lt (RingInStep.of_reachable known
        (reached.mono fun _ => dispatchesReturn_of_survived survived))
      (Answering.of_reachable known noExit stays survived reached) own stepTo
  enabled _ reached unmet :=
    (Serviceable.mk (RingInStep.of_reachable known
        (reached.mono fun _ => dispatchesReturn_of_survived survived))
      (Answering.of_reachable known noExit stays survived
        reached)).exists_step unmet

/-- A SET and two PINGs have arrived, and one of two workers has taken the
SET. -/
def waitingLabels : List (DatagramLabel (Fin 2)) :=
  [.arrive, .arrive, .arrive] ++ workerLabels (Fin.last 1) 2

end RdmaKVStore
