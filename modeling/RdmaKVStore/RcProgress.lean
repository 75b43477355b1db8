import RdmaKVStore.RcSession
import RdmaKVStore.TerminatingRuns

/-!
# Every operation over RC returns

A wait of an RC session takes any completion, also one that is meant for a
later wait, so it is not obvious that none of the two sides is left waiting
for a completion that has been taken already.  The counts show that they are
not: until the client has its response, some side or its adapter can take a
step, and there are only so many of them.
-/

namespace RdmaKVStore

/-- The steps that a worker may still need until it waits for a request. -/
def ServePhase.untilReceive : ServePhase → Nat
  | .current => 9
  | .dispatch _ _ => 8
  | .dispatchWait _ _ => 7
  | .check _ _ => 6
  | .switch _ _ => 5
  | .handle _ _ => 4
  | .respond => 3
  | .respondWait => 2
  | .prepare | .exitWait => 1
  | .receive | .ended => 0

def RcPhase.untilSend : RcPhase → Nat
  | .sendWait => 3
  | .post => 2
  | .receiveWait => 1
  | .send => 0

theorem RcPhase.untilSend_le (phase : RcPhase) : phase.untilSend ≤ 3 := by
  cases phase <;> simp [untilSend]

section Serving

variable {Worker : Type*} {type : ConnectionType} {messages : Nat → Request}
variable {ring after : ServeRing Worker} {worker : Worker}
variable {before next : ServePhase}

theorem Serves.received_or_closer
    (serves : Serves type messages worker ring before after next) :
    (after.received = ring.received + 1 ∧ before = .receive ∧
        next = .current) ∨
      (after.received = ring.received ∧
        next.untilReceive < before.untilReceive) := by
  cases serves with
  | receive => exact .inl ⟨rfl, rfl, rfl⟩
  | _ => exact .inr ⟨rfl, by simp only [ServePhase.untilReceive]; omega⟩

theorem Serves.exited_eq
    (serves : Serves type messages worker ring before after next)
    (loops : next ≠ .ended) : after.exited = ring.exited := by
  cases serves with
  | exited | crash => exact absurd rfl loops
  | _ => rfl

theorem StaysOpen.request (stays : StaysOpen messages)
    (ring : ServeRing Worker) (slot : Nat) :
    (ring.request messages slot).connectionClose = 0 := by
  unfold ServeRing.request
  cases ring.queue.slots slot with
  | none => rfl
  | some number => exact stays number

theorem ServeRing.not_kills_request {type : ConnectionType}
    (stored : ∀ number, (messages number).method.Stored)
    (ring : ServeRing Worker) (slot : Nat) :
    ¬ (ring.request messages slot).Kills type := by
  unfold ServeRing.request
  cases ring.queue.slots slot with
  | none =>
      rintro ⟨-, method, -⟩
      cases method
  | some number => exact (stored number).not_kills type

theorem StaysOpen.ne_ended (stays : StaysOpen messages)
    (stored : ∀ number, (messages number).method.Stored)
    (loops : before ≠ .exitWait)
    (advanced : ring.advance type messages worker before =
      some (after, next)) :
    next ≠ .ended := by
  rintro rfl
  have serves := ServeRing.advance_serves advanced
  cases serves with
  | exited => exact loops rfl
  | crash kills => exact ServeRing.not_kills_request stored ring _ kills
  | close =>
      obtain ⟨-, same⟩ := Option.ite_none_right_eq_some.mp advanced
      rw [if_neg (not_not.mpr (stays.request ring 0))] at same
      cases same

theorem ServeRing.advance_isSome (single : type ≠ .ud)
    (going : before ≠ .ended)
    (completed : ring.received + ring.sendsWaited <
        ring.queue.arrived + ring.sendsDone ∨
      before ≠ .receive ∧ before.pendingSend = 0) :
    (ring.advance type messages worker before).isSome := by
  cases before with
  | ended => exact (going rfl).elim
  | receive =>
      have more := completed.resolve_right fun waiting => waiting.1 rfl
      rw [advance, if_pos ((receiveCompleted_iff single).mpr more)]
      rfl
  | dispatchWait | exitWait | respondWait =>
      have more := completed.resolve_right fun waiting => by
        cases waiting.2
      rw [advance, if_pos ((sendCompleted_iff single).mpr more)]
      rfl
  | current => rw [advance, if_neg fun shared => single shared.1]; rfl
  | dispatch =>
      rw [advance]
      split
      · rfl
      · split <;> rfl
  | _ => rfl

theorem ReceiveQueue.deliver_isSome {Message : Type*}
    {queue : ReceiveQueue Message} (message : Message)
    (posted : queue.arrived < queue.postings.length) :
    (queue.deliver message).isSome := by
  rw [deliver, next, Option.isSome_map, List.getElem?_eq_getElem posted]
  rfl

end Serving

theorem RcClient.advance_closer {client after : RcClient}
    (inside : client.phase ≠ .send) (advanced : client.advance = some after) :
    after.sent = client.sent ∧ after.arrived = client.arrived ∧
      after.sendsDone = client.sendsDone ∧
      after.phase.untilSend < client.phase.untilSend := by
  cases phase : client.phase with
  | send => exact (inside phase).elim
  | post =>
      simp only [RcClient.advance, phase, Option.some.injEq] at advanced
      subst advanced
      exact ⟨rfl, rfl, rfl, Nat.lt_succ_self 1⟩
  | sendWait | receiveWait =>
      simp only [RcClient.advance, phase] at advanced
      obtain ⟨-, same⟩ := Option.ite_none_right_eq_some.mp advanced
      cases same
      exact ⟨rfl, rfl, rfl, Nat.lt_succ_self _⟩

variable {messages : Nat → Request} {session : RcSession}

namespace RcSession

structure Returned (session : RcSession) : Prop where
  phase : session.client.phase = .send
  received : session.client.received = session.client.sent
  answered : session.server.ring.sent = session.client.sent

/-- No new request: every step but the client's `post_send`. -/
def NoNewRequest (session : RcSession) (label : RcLabel) : Prop :=
  label = .client → session.client.phase ≠ .send

/-- The steps that both sides and their adapters may still take without a new
request. -/
def remaining (session : RcSession) : Nat :=
  10 * (session.client.sent - session.server.ring.received) +
    (session.server.phase (Fin.last 0)).untilReceive +
    (session.client.sent - session.server.ring.queue.arrived) +
    (session.client.sent - session.server.ring.sendsDone) +
    (session.client.sent - session.client.arrived) +
    (session.client.sent - session.client.sendsDone) +
    session.client.phase.untilSend

structure Loops (session : RcSession) : Prop where
  phase : session.server.phase 0 ≠ .ended
  running : session.server.ring.exited = false

theorem loops_of_reachable
    (stored : ∀ number, (messages number).method.Stored)
    (stays : StaysOpen messages)
    (reached : (rcSession messages).Reachable session) : session.Loops := by
  refine TransitionSystem.GuardedReach.invariant_with
    (fun _ => Balanced.of_reachable stored)
    (fun first initial => initial ▸ ⟨fun ended => (by cases ended), rfl⟩)
    (fun before label after balanced going _ stepTo => ?_) reached
  rcases rcSession_step_cases stepTo with
    ⟨served, server, -, -, served', rfl⟩ | ⟨-, -, rfl⟩ | ⟨-, -, rfl⟩ |
      ⟨client, -, -, rfl⟩
  · cases served with
    | arrive =>
        obtain ⟨queue, -, rfl⟩ := Option.map_eq_some_iff.mp served'
        exact ⟨going.phase, going.running⟩
    | sendDone =>
        obtain ⟨-, same⟩ := Option.ite_none_right_eq_some.mp served'
        cases same
        exact ⟨going.phase, going.running⟩
    | work worker =>
        obtain ⟨ring, next, advanced, rfl⟩ := serving_work served'
        obtain rfl := Subsingleton.elim 0 worker
        have inside : before.server.phase 0 ≠ .exitWait := fun exits => by
          have answered := balanced.one.answered 0
          rw [exits] at answered
          exact answered
        have loops := stays.ne_ended stored inside advanced
        refine ⟨?_, ?_⟩
        · simp only [Function.update_self]
          exact loops
        · rw [(ServeRing.advance_serves advanced).exited_eq loops]
          exact going.running
  all_goals exact ⟨going.phase, going.running⟩

end RcSession

namespace RcSession.Balanced

variable (balanced : session.Balanced)
include balanced

/-- Nothing is received, answered or completed that has not been sent. -/
theorem counts :
    session.server.ring.queue.arrived ≤ session.client.sent ∧
      session.server.ring.received ≤ session.server.ring.queue.arrived ∧
      session.server.ring.sent ≤ session.server.ring.received ∧
      session.server.ring.sendsDone ≤ session.server.ring.sent ∧
      session.client.arrived ≤ session.server.ring.sent ∧
      session.client.sendsDone ≤ session.client.sent ∧
      session.client.received ≤ session.client.arrived := by
  have begun := (balanced.one.answered 0).begun_bounds
  have received := balanced.counted.begun
  exact ⟨balanced.paired.requests, balanced.counted.received, by omega,
    balanced.counted.done, balanced.paired.responses,
    balanced.paired.client.done, balanced.paired.client.received⟩

theorem remaining_le : session.remaining ≤ 20 := by
  have counts := balanced.counts
  have bounds := balanced.paired.client.bounds
  have drawn := balanced.one.drawn
  have clientDrawn := balanced.paired.client.drawn
  have untilSend := session.client.phase.untilSend_le
  have waited := balanced.counted.waited (by decide) 0
  have answered := balanced.one.answered 0
  have begun := balanced.counted.begun
  rw [Fintype.sum_subsingleton _ (0 : Fin 1)] at begun
  simp only [ServeRing.Drawn] at drawn
  cases phase : session.server.phase 0 <;>
    rw [phase] at waited begun answered <;>
    simp only [remaining, Fin.last_zero, phase, Answered,
      ServePhase.untilReceive, ServePhase.pendingSend,
      ServePhase.pendingTurn] at * <;>
    omega

/-- Back at the head of `rc_send_request` the client has its response. -/
theorem returned (phase : session.client.phase = .send) : session.Returned := by
  have counts := balanced.counts
  have inStep := balanced.paired.client.inStep
  simp only [RcClient.InStep, phase] at inStep
  exact ⟨phase, inStep.1.symm, by omega⟩

/-- A client that waits in vain has taken no completion too many: if all its
requests have been sent, its response has not arrived, and a receive is posted
for it. -/
theorem client_waits (waits : ¬ session.client.advance.isSome)
    (sent : ¬ session.client.sendsDone < session.client.sent) :
    session.client.arrived < session.client.sent ∧
      session.client.arrived < session.client.posted := by
  have received := balanced.paired.client.received
  have inStep := balanced.paired.client.inStep
  cases phase : session.client.phase with
  | send | post => simp [RcClient.advance, phase] at waits
  | sendWait | receiveWait =>
      have idle : ¬ session.client.Completed := fun completed =>
        waits (by simp [RcClient.advance, phase, completed])
      simp only [RcClient.InStep, phase] at inStep
      unfold RcClient.Completed at idle
      omega

/-- A worker that waits in vain has a response whose sending completes, or it
waits for a request and has answered all that have arrived. -/
theorem server_waits (going : session.server.phase 0 ≠ .ended)
    (waits : ¬ (session.server.ring.advance .rc messages 0
      (session.server.phase 0)).isSome) :
    session.server.ring.sendsDone < session.server.ring.sent ∨
      session.server.ring.queue.arrived = session.server.ring.sent ∧
        session.server.ring.queue.arrived <
          session.server.ring.queue.postings.length := by
  have stuck : ¬ (session.server.ring.received +
        session.server.ring.sendsWaited <
          session.server.ring.queue.arrived + session.server.ring.sendsDone ∨
      session.server.phase 0 ≠ .receive ∧
        (session.server.phase 0).pendingSend = 0) :=
    fun can => waits (ServeRing.advance_isSome (by decide) going can)
  obtain ⟨taken, elsewhere⟩ := not_or.mp stuck
  have counts := balanced.counts
  have waited := balanced.counted.waited (by decide) 0
  by_cases receiving : session.server.phase 0 = .receive
  · have answered := balanced.one.answered 0
    have posted := balanced.preposted.posted 0
    have begun := balanced.counted.begun
    rw [Fintype.sum_subsingleton _ (0 : Fin 1)] at begun
    rw [receiving] at waited answered begun
    simp only [ServePhase.pendingSend, ServePhase.pendingTurn, Answered,
      ringSize, requestBacklog] at waited answered begun posted
    omega
  · have sending : (session.server.phase 0).pendingSend ≠ 0 :=
      fun none => elsewhere ⟨receiving, none⟩
    omega

end RcSession.Balanced

namespace RcSession

theorem remaining_lt {before after : RcSession} {label : RcLabel}
    (balancedBefore : before.Balanced) (balancedAfter : after.Balanced)
    (known : before.NoNewRequest label)
    (stepTo : (rcSession messages).step before label = some after) :
    after.remaining < before.remaining := by
  have countsBefore := balancedBefore.counts
  have countsAfter := balancedAfter.counts
  simp only [remaining, Fin.last_zero]
  rcases rcSession_step_cases stepTo with
    ⟨served, server, -, -, served', rfl⟩ | ⟨-, -, rfl⟩ | ⟨-, -, rfl⟩ |
      ⟨client, rfl, advanced, rfl⟩
  · rcases serving_step_cases served' with
      ⟨queue, -, delivered, rfl⟩ | ⟨-, -, rfl⟩ |
        ⟨worker, ring, next, -, serves, rfl⟩
    · obtain ⟨slot, -, rfl⟩ := ReceiveQueue.deliver_eq_some delivered
      simp only at countsAfter ⊢
      omega
    · simp only at countsAfter ⊢
      omega
    · obtain rfl := Subsingleton.elim 0 worker
      have arrived := serves.arrived
      have done := serves.sendsDone.1
      simp only [Function.update_self] at countsAfter ⊢
      rcases serves.received_or_closer with
        ⟨received, from_, to_⟩ | ⟨received, closer⟩
      · rw [from_, to_]
        simp only [ServePhase.untilReceive]
        omega
      · omega
  · simp only at countsAfter ⊢
    omega
  · simp only at countsAfter ⊢
    omega
  · obtain ⟨sent, arrived, done, closer⟩ :=
      RcClient.advance_closer (known rfl) advanced
    simp only
    omega

theorem exists_step (stored : ∀ number, (messages number).method.Stored)
    (stays : StaysOpen messages)
    (reached : (rcSession messages).Reachable session)
    (unmet : ¬ session.Returned) :
    ∃ label, session.NoNewRequest label ∧
      ((rcSession messages).step session label).isSome := by
  have balanced := Balanced.of_reachable stored reached
  have loops := loops_of_reachable stored stays reached
  have inside : session.client.phase ≠ .send :=
    fun phase => unmet (balanced.returned phase)
  by_cases clientGoes : session.client.advance.isSome
  · refine ⟨.client, fun _ => inside, ?_⟩
    rw [rcSession, Option.isSome_map]
    exact clientGoes
  by_cases requestSent : session.client.sendsDone < session.client.sent
  · refine ⟨.sendDone, nofun, ?_⟩
    simp only [rcSession, if_pos requestSent, Option.isSome_some]
  obtain ⟨late, posted⟩ := balanced.client_waits clientGoes requestSent
  by_cases responded : session.client.arrived < session.server.ring.sent
  · refine ⟨.responseArrives, nofun, ?_⟩
    simp only [rcSession, if_pos (And.intro responded posted),
      Option.isSome_some]
  by_cases serverGoes : (session.server.ring.advance .rc messages 0
      (session.server.phase 0)).isSome
  · refine ⟨.server (.work 0), nofun, ?_⟩
    have sent : session.Sent (.work 0) := trivial
    simp only [rcSession, if_pos sent, serving,
      if_neg (Bool.eq_false_iff.mp loops.running), Option.isSome_map]
    exact serverGoes
  rcases balanced.server_waits loops.phase serverGoes with
    done | ⟨answered, free⟩
  · refine ⟨.server .sendDone, nofun, ?_⟩
    have sent : session.Sent .sendDone := trivial
    simp only [rcSession, if_pos sent, serving, if_pos done, Option.map_some,
      Option.isSome_some]
  · -- the request itself has not arrived
    have sent : session.Sent .arrive :=
      show session.server.ring.queue.arrived < session.client.sent by omega
    refine ⟨.server .arrive, nofun, ?_⟩
    simp only [rcSession, if_pos sent, serving, Option.isSome_map]
    exact ReceiveQueue.deliver_isSome _ free

/-- A session works towards the client's response. -/
theorem progress (stored : ∀ number, (messages number).method.Stored)
    (stays : StaysOpen messages) :
    (rcSession messages).Progress NoNewRequest
      (rcSession messages).Reachable Returned remaining where
  preserved _ _ _ reached _ stepTo := .next reached trivial stepTo
  lowers _ _ _ reached known stepTo :=
    remaining_lt (Balanced.of_reachable stored reached)
      (Balanced.of_reachable stored (.next reached trivial stepTo)) known
      stepTo
  enabled _ reached := exists_step stored stays reached

end RcSession

/-- Over RC, with all waits in polling mode, every operation of a client
returns: in every state that a session can reach, the two sides and their
adapters take at most 20 further steps before the client sends its next request,
and whichever of the possible steps they take, they do not stop before the
client has its response. -/
theorem rcSession_operation_returns (messages : Nat → Request)
    (stored : ∀ number, (messages number).method.Stored)
    (stays : StaysOpen messages)
    (reached : (rcSession messages).Reachable session) :
    (rcSession messages).Settles RcSession.NoNewRequest RcSession.Returned 20
      session := by
  have settles := (RcSession.progress stored stays).settles reached
  have bound :=
    (RcSession.Balanced.of_reachable stored reached).remaining_le
  exact ⟨fun labels last guarded runTo =>
    (settles.ends labels last guarded runTo).trans bound, settles.unstuck,
    settles.reached⟩

/-- The next operation after one in which each wait took the completion meant
for the other. -/
theorem swapped_operation_returns :
    ∃ session, (rcSession fun _ => .make .set [97] [1]).run .initial
        (swappedLabels ++ [.client]) = some session ∧
      (rcSession fun _ => .make .set [97] [1]).Settles
        RcSession.NoNewRequest RcSession.Returned 20 session := by
  obtain ⟨session, runTo⟩ := Option.isSome_iff_exists.mp
    (show ((rcSession fun _ => .make .set [97] [1]).run .initial
        (swappedLabels ++ [.client])).isSome by decide)
  exact ⟨session, runTo, rcSession_operation_returns
    (fun _ => .make .set [97] [1]) (fun _ => by decide) (fun _ => rfl)
    (TransitionSystem.reachable_of_run (.start rfl) runTo)⟩

end RdmaKVStore
