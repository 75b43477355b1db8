import RdmaKVStore.ClientRetries

/-!
# Balance of the client's receives

Every attempt of the retry loop posts a receive, but only a response uses one
up, and one more is posted in advance.  Along with the client this file counts
its timeouts and the responses that have arrived in posted receives, and it
logs the calls of `post_recieve`.
-/

namespace RdmaKVStore

/-- A call of `post_recieve`: how many receives are outstanding with the new
one, and whether the call is refused. -/
structure PostCall where
  outstanding : Nat
  refused : Bool
  deriving DecidableEq

/-- The queue pair has an entry for the receive, which is posted. -/
def PostCall.Accepted (call : PostCall) : Prop :=
  call.outstanding ≤ maxWr ∧ call.refused = false

instance (call : PostCall) : Decidable call.Accepted :=
  inferInstanceAs (Decidable (_ ∧ _))

/-- The client, its timeouts, the responses that have arrived in a posted
receive, and the calls of `post_recieve`. -/
structure BalanceState where
  client : ClientState
  timeouts : Nat
  arrived : Nat
  calls : List PostCall

namespace BalanceState

def initial : BalanceState where
  client := .initial
  timeouts := 0
  arrived := 0
  calls := []

def record (state : BalanceState) (after : ClientState) :
    ClientLabel → BalanceState
  | .advance _ =>
      { state with
        client := after
        calls :=
          if state.client.phase = .post then
            state.calls ++
              [⟨state.client.posted + 1, after.phase ≠ .receiveWait⟩]
          else state.calls }
  | .timeout =>
      { state with client := after, timeouts := state.timeouts + 1 }
  | .deliverResponse _ =>
      { state with
        client := after
        arrived :=
          if state.client.posted = 0 then state.arrived
          else state.arrived + 1 }
  | .transmit | .complete | .loseRequest _ | .loseResponse _
  | .deliverRequest _ => { state with client := after }

end BalanceState

/-- A client that performs `numOps` operations, with the account of its
receives. -/
def balancedClient (numOps : Nat) :
    TransitionSystem BalanceState ClientLabel where
  initial state := state = .initial
  step state label :=
    ((client numOps).step state.client label).map fun after =>
      state.record after label

/-- When a receive is posted, the timeouts so far and the operations done
exceed the responses that have arrived by at most `MAX_WR - 2`. -/
def TimeoutsCovered (state : BalanceState) : ClientLabel → Prop
  | .advance _ =>
      state.client.phase = .post →
        state.timeouts + state.client.count ≤ state.arrived + (maxWr - 2)
  | _ => True

instance (state : BalanceState) (label : ClientLabel) :
    Decidable (TimeoutsCovered state label) :=
  match label with
  | .advance _ => inferInstanceAs (Decidable (_ → _))
  | .timeout | .transmit | .complete | .loseRequest _ | .loseResponse _
  | .deliverRequest _ | .deliverResponse _ => isTrue trivial

namespace ClientState

def pendingReceive (state : ClientState) : Nat :=
  if state.phase = .receiveWait then 1 else 0

variable {state after : ClientState} {numOps errno : Nat}

theorem advance_balance
    (advanced : state.advance numOps errno = some after) :
    after.posted + state.count + state.pendingReceive =
      state.posted + after.count + after.pendingReceive := by
  unfold pendingReceive
  cases phase : state.phase with
  | make =>
      simp only [advance, phase, Option.some.injEq] at advanced
      subst advanced
      rfl
  | send =>
      simp only [advance, phase] at advanced
      split at advanced
      · cases advanced; rfl
      · split at advanced <;> cases advanced <;> rfl
  | sendWait =>
      simp only [advance, phase] at advanced
      split at advanced <;> cases advanced
      rfl
  | post =>
      simp only [advance, phase] at advanced
      split at advanced
      · cases advanced
        simp only [reduceCtorEq, if_false, if_true]
        omega
      · split at advanced <;> cases advanced <;> rfl
  | receiveWait =>
      simp only [advance, phase] at advanced
      split at advanced <;> cases advanced
      have moved : (if state.count + 1 < numOps then ClientPhase.make
          else .finished) ≠ .receiveWait := by split <;> decide
      simp only [if_neg moved, if_true]
      omega
  | failed | finished => simp [advance, phase] at advanced

theorem advance_post (phase : state.phase = .post)
    (advanced : state.advance numOps errno = some after) :
    after.phase = .receiveWait ↔ state.posted < maxWr := by
  simp only [advance, phase] at advanced
  split at advanced
  · next room =>
      cases advanced
      exact iff_of_true rfl room
  · next full =>
      refine iff_of_false ?_ full
      split at advanced <;> cases advanced <;> simp

end ClientState

namespace BalanceState

variable {numOps : Nat} {before after : BalanceState} {label : ClientLabel}

/-- Receives are posted in advance, for timeouts and for operations, and used
up by responses. -/
def Balanced (state : BalanceState) : Prop :=
  state.client.posted + state.arrived =
    1 + state.timeouts + state.client.count + state.client.pendingReceive

theorem Balanced.step (balanced : Balanced before)
    (stepTo : (balancedClient numOps).step before label = some after) :
    Balanced after := by
  obtain ⟨client, stepped, rfl⟩ := Option.map_eq_some_iff.mp stepTo
  unfold Balanced at balanced ⊢
  cases label with
  | advance errno =>
      have account := ClientState.advance_balance stepped
      simp only [record]
      omega
  | timeout =>
      obtain ⟨⟨phase, -⟩, same⟩ := Option.ite_none_right_eq_some.mp stepped
      cases same
      simp only [record, ClientState.pendingReceive, phase, reduceCtorEq,
        if_true, if_false] at balanced ⊢
      omega
  | transmit | complete =>
      obtain ⟨-, same⟩ := Option.ite_none_right_eq_some.mp stepped
      cases same
      exact balanced
  | loseRequest | loseResponse => cases stepped; exact balanced
  | deliverRequest =>
      obtain ⟨op, -, rfl⟩ := Option.map_eq_some_iff.mp stepped
      exact balanced
  | deliverResponse =>
      obtain ⟨op, -, same⟩ := Option.map_eq_some_iff.mp stepped
      by_cases none : before.client.posted = 0
      · rw [if_pos none] at same
        subst same
        simp only [record, if_pos none]
        exact balanced
      · rw [if_neg none] at same
        subst same
        simp only [record, if_neg none, ClientState.pendingReceive]
          at balanced ⊢
        omega

def stepCalls (state : BalanceState) : ClientLabel → List PostCall
  | .advance _ =>
      if state.client.phase = .post then
        [⟨state.client.posted + 1, decide (maxWr ≤ state.client.posted)⟩]
      else []
  | _ => []

theorem calls_step
    (stepTo : (balancedClient numOps).step before label = some after) :
    after.calls = before.calls ++ before.stepCalls label := by
  obtain ⟨client, stepped, rfl⟩ := Option.map_eq_some_iff.mp stepTo
  cases label with
  | advance errno =>
      simp only [record, stepCalls]
      by_cases phase : before.client.phase = .post
      · have refused : decide (client.phase ≠ .receiveWait) =
            decide (maxWr ≤ before.client.posted) :=
          decide_eq_decide.mpr
            ((ClientState.advance_post phase stepped).not.trans Nat.not_lt)
        rw [if_pos phase, if_pos phase, refused]
      · rw [if_neg phase, if_neg phase, List.append_nil]
  | _ => exact (List.append_nil _).symm

theorem Balanced.accepted_iff (balanced : Balanced before) :
    (∀ call ∈ before.stepCalls label, call.Accepted) ↔
      TimeoutsCovered before label := by
  cases label with
  | advance errno =>
      simp only [stepCalls, TimeoutsCovered]
      by_cases phase : before.client.phase = .post
      · rw [if_pos phase, List.forall_mem_singleton, forall_prop_of_true phase,
          PostCall.Accepted, decide_eq_false_iff_not]
        simp only [Balanced, ClientState.pendingReceive, phase, reduceCtorEq,
          if_false] at balanced
        simp only [maxWr]
        omega
      · simp [phase]
  | _ => simp [stepCalls, TimeoutsCovered]

end BalanceState

/-- In every run of the client, each call of `post_recieve` finds an entry of
the queue pair exactly if at each of them the timeouts so far and the
operations done exceed the responses that have arrived by at most
`MAX_WR - 2`. -/
theorem postsAccepted_iff (numOps : Nat) (labels : List ClientLabel)
    (state : BalanceState)
    (runTo : (balancedClient numOps).run .initial labels = some state) :
    (∀ call ∈ state.calls, call.Accepted) ↔
      (balancedClient numOps).RunGuarded TimeoutsCovered .initial labels := by
  have start : BalanceState.initial.Balanced := rfl
  rw [TransitionSystem.log_good_iff_runGuarded
    (fun _ _ _ => BalanceState.calls_step)
    (fun _ _ => BalanceState.Balanced.accepted_iff)
    (fun _ _ _ balanced _ => balanced.step) start runTo]
  exact and_iff_right fun call member => by cases member

theorem postsAccepted_after_retriedLabels :
    ∃ state, (balancedClient 2).run .initial retriedLabels = some state ∧
      ∀ call ∈ state.calls, call.Accepted := by
  obtain ⟨state, runTo⟩ := Option.isSome_iff_exists.mp
    (show ((balancedClient 2).run .initial retriedLabels).isSome = true
      by decide)
  exact ⟨state, runTo,
    (postsAccepted_iff 2 retriedLabels state runTo).mpr (by decide)⟩

/-- Seven attempts whose requests are lost, and an eighth. -/
def lostLabels : List ClientLabel :=
  .advance 12 ::
    (List.replicate 7 [.advance 12, .transmit, .complete, .advance 12,
      .advance 12, .loseRequest 0, .timeout]).flatten ++
    [.advance 12, .transmit, .complete, .advance 12, .advance 12]

/-- After seven timeouts the queue pair is full, and the receive of the eighth
attempt is refused. -/
theorem lostRequests_refuse_post :
    ∃ state, (balancedClient 1).run .initial lostLabels = some state ∧
      state.timeouts = 7 ∧ state.client.phase = .failed ∧
      ¬ ∀ call ∈ state.calls, call.Accepted := by
  obtain ⟨state, runTo, checked⟩ := Option.map_eq_some_iff.mp
    (show ((balancedClient 1).run .initial lostLabels).map
        (fun state => (state.timeouts, state.client.phase,
          decide (∀ call ∈ state.calls, call.Accepted))) =
      some (7, .failed, false) by decide)
  simp only [Prod.mk.injEq, decide_eq_false_iff_not] at checked
  exact ⟨state, runTo, checked.1, checked.2.1, checked.2.2⟩

end RdmaKVStore
