import Mathlib.Data.List.Basic
import RdmaKVStore.TransitionRuns

/-!
# Client retries

The operation loop of `start_instance` over UC and UD.  The send and receive
functions of the two transports differ only in the call that posts a request.
Sends and receives complete into one queue, in which nothing says what a
completion is for, and neither requests nor responses are numbered; the numbers
below are those of the operations, for the record.  The server answers each
request that reaches it once, and the network loses or delays what it likes.
-/

namespace RdmaKVStore

/-- `MAX_WR` -/
def maxWr : Nat := 8

/-- A work completion: of a send, or of a receive with the response to a
request of an operation. -/
inductive Completion
  | sendDone
  | response (op : Nat)
  deriving DecidableEq

/-- Where the client is: at the call that fills in the request, at `post_send`
and the wait after it, at `post_recieve` and the wait with timeout after it, or
out of the loop because a call failed or all operations are done. -/
inductive ClientPhase
  | make
  | send
  | sendWait
  | post
  | receiveWait
  | failed
  | finished
  deriving DecidableEq

/-- The client, its adapter and the network.  `count` is the operation and
`buffer` the one whose request is in the send buffer; `posted` receives are
unused, `unsent` requests are posted but not read from the buffer yet, and
`undone` ones are sent but not completed.  `taken` records the operations left
with success and the completions taken for them. -/
structure ClientState where
  count : Nat
  phase : ClientPhase
  buffer : Nat
  posted : Nat
  unsent : Nat
  undone : Nat
  completions : List Completion
  requests : List Nat
  responses : List Nat
  taken : List (Nat × Completion)

namespace ClientState

/-- A connected client: one receive is posted in advance. -/
def initial : ClientState where
  count := 0
  phase := .make
  buffer := 0
  posted := 1
  unsent := 0
  undone := 0
  completions := []
  requests := []
  responses := []
  taken := []

variable (state : ClientState)

/-- The client's next step; `errno` is what a failing call leaves behind, whose
negation the caller sees.  A result of 0 passes for success in `send_request`
and for a timeout in `receive_response`. -/
def advance (numOps errno : Nat) : Option ClientState :=
  match state.phase with
  | .make => some { state with buffer := state.count, phase := .send }
  | .send =>
      if state.unsent + state.undone < maxWr then
        some { state with unsent := state.unsent + 1, phase := .sendWait }
      else if errno = 0 then some { state with phase := .post }
      else some { state with phase := .failed }
  | .sendWait =>
      match state.completions with
      | [] => none
      | _ :: completions =>
          some { state with completions := completions, phase := .post }
  | .post =>
      if state.posted < maxWr then
        some { state with posted := state.posted + 1, phase := .receiveWait }
      else if errno = 0 then some { state with phase := .send }
      else some { state with phase := .failed }
  | .receiveWait =>
      match state.completions with
      | [] => none
      | completion :: completions =>
          some { state with
            completions := completions
            taken := (state.count, completion) :: state.taken
            count := state.count + 1
            phase := if state.count + 1 < numOps then .make else .finished }
  | .failed | .finished => none

/-- The wait for a response runs out of time with an empty queue. -/
def timeout : Option ClientState :=
  if state.phase = .receiveWait ∧ state.completions = [] then
    some { state with phase := .send }
  else none

def transmit : Option ClientState :=
  if 0 < state.unsent then
    some { state with
      unsent := state.unsent - 1
      undone := state.undone + 1
      requests := state.requests ++ [state.buffer] }
  else none

def complete : Option ClientState :=
  if 0 < state.undone then
    some { state with
      undone := state.undone - 1
      completions := state.completions ++ [.sendDone] }
  else none

/-- A request reaches the server, which answers it. -/
def deliverRequest (index : Nat) : Option ClientState :=
  state.requests[index]?.map fun op =>
    { state with
      requests := state.requests.eraseIdx index
      responses := state.responses ++ [op] }

/-- A response reaches the client; without a posted receive it is dropped. -/
def deliverResponse (index : Nat) : Option ClientState :=
  state.responses[index]?.map fun op =>
    if state.posted = 0 then
      { state with responses := state.responses.eraseIdx index }
    else
      { state with
        responses := state.responses.eraseIdx index
        posted := state.posted - 1
        completions := state.completions ++ [.response op] }

end ClientState

/-- The steps of the client, of its adapter and of the network. -/
inductive ClientLabel
  | advance (errno : Nat)
  | timeout
  | transmit
  | complete
  | loseRequest (index : Nat)
  | loseResponse (index : Nat)
  | deliverRequest (index : Nat)
  | deliverResponse (index : Nat)

/-- A client that performs `numOps` operations. -/
def client (numOps : Nat) : TransitionSystem ClientState ClientLabel where
  initial state := state = .initial
  step state
    | .advance errno => state.advance numOps errno
    | .timeout => state.timeout
    | .transmit => state.transmit
    | .complete => state.complete
    | .loseRequest index =>
        some { state with requests := state.requests.eraseIdx index }
    | .loseResponse index =>
        some { state with responses := state.responses.eraseIdx index }
    | .deliverRequest index => state.deliverRequest index
    | .deliverResponse index => state.deliverResponse index

/-- What was taken for an operation is a response to one of its requests. -/
def Matched (state : ClientState) : Prop :=
  ∀ entry ∈ state.taken, entry.2 = .response entry.1

/-- The client is past the posting of a request and has had the completions of
all its sends, or they are all it has in its queue. -/
def ClientState.Awaiting (state : ClientState) : Prop :=
  (state.phase = .sendWait ∨ state.phase = .post ∨
      state.phase = .receiveWait) ∧
    state.unsent = 0 ∧ state.undone = 0 ∧
    ∀ completion ∈ state.completions, completion = .sendDone

instance (state : ClientState) : Decidable state.Awaiting :=
  inferInstanceAs (Decidable (_ ∧ _ ∧ _ ∧ _))

/-- A response that arrives in a posted receive is the first to the current
operation, and comes after the completion of the send. -/
def ResponsesInStep (state : ClientState) : ClientLabel → Prop
  | .deliverResponse index =>
      state.posted = 0 ∨ state.phase = .failed ∨ state.phase = .finished ∨
        state.responses[index]? = some state.count ∧ state.Awaiting
  | _ => True

instance (state : ClientState) (label : ClientLabel) :
    Decidable (ResponsesInStep state label) :=
  match label with
  | .deliverResponse index => inferInstanceAs (Decidable
      (state.posted = 0 ∨ state.phase = .failed ∨ state.phase = .finished ∨
        state.responses[index]? = some state.count ∧ state.Awaiting))
  | .advance _ | .timeout | .transmit | .complete | .loseRequest _
  | .loseResponse _ | .deliverRequest _ => isTrue trivial

namespace ClientState

variable {state after : ClientState} {numOps : Nat}

/-- The completions that a wait for a response may find: nothing, or the
response to the current operation, whose receive was posted earlier. -/
def Expected (state : ClientState) (completions : List Completion) : Prop :=
  completions = [] ∨
    completions = [.response state.count] ∧ state.posted < maxWr

/-- How the outstanding sends and the queue look at each place of the loop. -/
def InStep (state : ClientState) : Prop :=
  match state.phase with
  | .make | .send =>
      state.unsent = 0 ∧ state.undone = 0 ∧ state.completions = []
  | .sendWait =>
      state.unsent + state.undone = 1 ∧ state.completions = [] ∨
        state.unsent = 0 ∧ state.undone = 0 ∧
          ∃ rest, state.completions = .sendDone :: rest ∧ state.Expected rest
  | .post =>
      state.unsent = 0 ∧ state.undone = 0 ∧ state.Expected state.completions
  | .receiveWait =>
      state.unsent = 0 ∧ state.undone = 0 ∧
        (state.completions = [] ∨
          state.completions = [.response state.count])
  | .failed | .finished => True

/-- The invariant of runs in which responses come in step. -/
structure Orderly (state : ClientState) : Prop where
  bounded : state.posted ≤ maxWr
  inStep : state.InStep
  matched : Matched state

theorem Orderly.initial : Orderly .initial where
  bounded := by decide
  inStep := ⟨rfl, rfl, rfl⟩
  matched _ member := by cases member

theorem Orderly.advance {errno : Nat} (orderly : state.Orderly)
    (advanced : state.advance numOps errno = some after) :
    after.Orderly := by
  obtain ⟨bounded, inStep, matched⟩ := orderly
  cases phase : state.phase with
  | make =>
      simp only [ClientState.advance, phase, Option.some.injEq] at advanced
      simp only [InStep, phase] at inStep
      subst advanced
      exact ⟨bounded, inStep, matched⟩
  | send =>
      simp only [ClientState.advance, phase] at advanced
      simp only [InStep, phase] at inStep
      obtain ⟨unsent, undone, empty⟩ := inStep
      rw [if_pos (by rw [unsent, undone]; decide)] at advanced
      cases advanced
      exact ⟨bounded, .inl ⟨by rw [unsent, undone], empty⟩, matched⟩
  | sendWait =>
      simp only [ClientState.advance, phase] at advanced
      simp only [InStep, phase] at inStep
      split at advanced
      case h_1 => cases advanced
      case h_2 completion rest found =>
        cases advanced
        rcases inStep with ⟨-, empty⟩ |
          ⟨unsent, undone, rest', found', expected⟩
        · simp [empty] at found
        · obtain ⟨-, rfl⟩ := List.cons.inj (found.symm.trans found')
          exact ⟨bounded, ⟨unsent, undone, expected⟩, matched⟩
  | post =>
      simp only [ClientState.advance, phase] at advanced
      simp only [InStep, phase] at inStep
      obtain ⟨unsent, undone, expected⟩ := inStep
      by_cases room : state.posted < maxWr
      · rw [if_pos room] at advanced
        cases advanced
        exact ⟨room, ⟨unsent, undone, expected.imp_right And.left⟩, matched⟩
      · -- without room no receive was used, so no response has arrived
        rw [if_neg room] at advanced
        have empty := expected.resolve_right fun waiting => room waiting.2
        split at advanced <;> cases advanced
        · exact ⟨bounded, ⟨unsent, undone, empty⟩, matched⟩
        · exact ⟨bounded, trivial, matched⟩
  | receiveWait =>
      simp only [ClientState.advance, phase] at advanced
      simp only [InStep, phase] at inStep
      obtain ⟨unsent, undone, expected⟩ := inStep
      split at advanced
      case h_1 => cases advanced
      case h_2 completion rest found =>
        cases advanced
        rw [found] at expected
        obtain ⟨rfl, rfl⟩ := List.cons.inj
          (expected.resolve_left (List.cons_ne_nil _ _))
        refine ⟨bounded, ?_, ?_⟩
        · by_cases more : state.count + 1 < numOps
          · simp only [InStep, if_pos more]
            exact ⟨unsent, undone, trivial⟩
          · simp only [InStep, if_neg more]
        · exact List.forall_mem_cons.mpr ⟨rfl, matched⟩
  | failed | finished => simp [ClientState.advance, phase] at advanced

theorem Orderly.timeout (orderly : state.Orderly)
    (timedOut : state.timeout = some after) : after.Orderly := by
  obtain ⟨bounded, inStep, matched⟩ := orderly
  obtain ⟨⟨phase, empty⟩, same⟩ := Option.ite_none_right_eq_some.mp timedOut
  cases same
  simp only [InStep, phase] at inStep
  exact ⟨bounded, ⟨inStep.1, inStep.2.1, empty⟩, matched⟩

theorem InStep.of_outstanding (inStep : state.InStep)
    (outstanding : 0 < state.unsent + state.undone) :
    (state.phase = .failed ∨ state.phase = .finished) ∨
      state.phase = .sendWait ∧ state.unsent + state.undone = 1 ∧
        state.completions = [] := by
  cases phase : state.phase with
  | make | send | post | receiveWait =>
      simp only [InStep, phase] at inStep
      omega
  | sendWait =>
      simp only [InStep, phase] at inStep
      rcases inStep with ⟨one, empty⟩ | ⟨unsent, undone, -⟩
      · exact .inr ⟨rfl, one, empty⟩
      · omega
  | failed => exact .inl (.inl rfl)
  | finished => exact .inl (.inr rfl)

theorem inStep_of_stopped
    (stopped : state.phase = .failed ∨ state.phase = .finished) :
    state.InStep := by
  rcases stopped with phase | phase <;> simp only [InStep, phase]

theorem Orderly.transmit (orderly : state.Orderly)
    (sent : state.transmit = some after) : after.Orderly := by
  obtain ⟨bounded, inStep, matched⟩ := orderly
  obtain ⟨pending, same⟩ := Option.ite_none_right_eq_some.mp sent
  cases same
  refine ⟨bounded, ?_, matched⟩
  rcases inStep.of_outstanding (by omega) with stopped | ⟨phase, one, empty⟩
  · exact inStep_of_stopped stopped
  · simp only [InStep, phase]
    exact .inl ⟨by omega, empty⟩

theorem Orderly.complete (orderly : state.Orderly)
    (completed : state.complete = some after) : after.Orderly := by
  obtain ⟨bounded, inStep, matched⟩ := orderly
  obtain ⟨pending, same⟩ := Option.ite_none_right_eq_some.mp completed
  cases same
  refine ⟨bounded, ?_, matched⟩
  rcases inStep.of_outstanding (by omega) with stopped | ⟨phase, one, empty⟩
  · exact inStep_of_stopped stopped
  · simp only [InStep, phase, empty]
    exact .inr ⟨by omega, by omega, [], rfl, .inl rfl⟩

theorem Orderly.network (orderly : state.Orderly)
    (requests responses : List Nat) :
    { state with requests := requests, responses := responses }.Orderly :=
  ⟨orderly.bounded, orderly.inStep, orderly.matched⟩

theorem Orderly.deliverResponse {index : Nat} (orderly : state.Orderly)
    (guarded : ResponsesInStep state (.deliverResponse index))
    (delivered : state.deliverResponse index = some after) :
    after.Orderly := by
  obtain ⟨op, found, same⟩ := Option.map_eq_some_iff.mp delivered
  obtain ⟨bounded, inStep, matched⟩ := orderly
  by_cases dropped : state.posted = 0
  · rw [if_pos dropped] at same
    subst same
    exact ⟨bounded, inStep, matched⟩
  · rw [if_neg dropped] at same
    subst same
    refine ⟨Nat.le_trans (Nat.sub_le _ _) bounded, ?_, matched⟩
    rcases guarded with none | failed | finished |
      ⟨current, place, unsent, undone, sends⟩
    · exact absurd none dropped
    · exact inStep_of_stopped (.inl failed)
    · exact inStep_of_stopped (.inr finished)
    · obtain rfl : op = state.count :=
        Option.some.inj (found.symm.trans current)
      have room : state.posted - 1 < maxWr := by omega
      -- no other response is in the queue
      have alone {completions : List Completion}
          (expected : state.Expected completions)
          (part : ∀ completion ∈ completions, completion = .sendDone) :
          completions = [] := by
        refine expected.resolve_right fun waiting => ?_
        have response := part (.response state.count) (by simp [waiting.1])
        cases response
      rcases place with phase | phase | phase
      · simp only [InStep, phase] at inStep ⊢
        rcases inStep with ⟨one, -⟩ | ⟨-, -, rest, queue, expected⟩
        · omega
        · rw [queue] at sends
          have none := alone expected fun completion member =>
            sends completion (List.mem_cons_of_mem _ member)
          subst none
          exact .inr ⟨unsent, undone, [.response state.count],
            by rw [queue]; rfl, .inr ⟨rfl, room⟩⟩
      · simp only [InStep, phase] at inStep ⊢
        rw [alone inStep.2.2 sends]
        exact ⟨unsent, undone, .inr ⟨rfl, room⟩⟩
      · simp only [InStep, phase] at inStep ⊢
        have empty : state.completions = [] := by
          refine inStep.2.2.resolve_right fun waiting => ?_
          have response := sends (.response state.count) (by simp [waiting])
          cases response
        rw [empty]
        exact ⟨unsent, undone, .inr rfl⟩

theorem Orderly.step {label : ClientLabel} (orderly : state.Orderly)
    (guarded : ResponsesInStep state label)
    (stepTo : (client numOps).step state label = some after) :
    after.Orderly := by
  cases label with
  | advance => exact orderly.advance stepTo
  | timeout => exact orderly.timeout stepTo
  | transmit => exact orderly.transmit stepTo
  | complete => exact orderly.complete stepTo
  | loseRequest | loseResponse => cases stepTo; exact orderly.network _ _
  | deliverRequest =>
      obtain ⟨op, -, rfl⟩ := Option.map_eq_some_iff.mp stepTo
      exact orderly.network _ _
  | deliverResponse => exact orderly.deliverResponse guarded stepTo

end ClientState

/-- In every run in which each response that arrives is the first to the
current operation and comes after the completion of the send, what is taken for
an operation is a response to one of its requests. -/
theorem matched_of_responsesInStep {numOps : Nat} {state : ClientState}
    (reached : (client numOps).GuardedReach ResponsesInStep state) :
    Matched state := by
  have orderly : state.Orderly := reached.invariant
    (fun _ initial => initial ▸ ClientState.Orderly.initial)
    fun _ _ _ orderly guarded stepTo => orderly.step guarded stepTo
  exact orderly.matched

/-- One attempt: a request is posted, sent and completed, and the client waits
for the response. -/
def attemptLabels : List ClientLabel :=
  [.advance 0, .transmit, .complete, .advance 0, .advance 0]

def retriedLabels : List ClientLabel :=
  .advance 0 :: attemptLabels ++ [.loseRequest 0, .timeout] ++
    attemptLabels ++ [.deliverRequest 0, .deliverResponse 0, .advance 0]

theorem matched_after_retriedLabels :
    ∃ state, (client 2).run .initial retriedLabels = some state ∧
      state.taken = [(0, .response 0)] ∧ Matched state := by
  obtain ⟨state, runTo, taken⟩ := Option.map_eq_some_iff.mp
    (show ((client 2).run .initial retriedLabels).map ClientState.taken =
      some [(0, .response 0)] by decide)
  have guarded : (client 2).RunGuarded ResponsesInStep .initial
      retriedLabels := by decide
  exact ⟨state, runTo, taken, matched_of_responsesInStep
    (TransitionSystem.guardedReach_of_run (.start rfl) guarded runTo)⟩

/-- A first attempt that is answered after its timeout: the second answer to
the first operation arrives during the second. -/
def lateLabels : List ClientLabel :=
  .advance 0 :: attemptLabels ++ [.timeout] ++ attemptLabels ++
    [.deliverRequest 0, .deliverRequest 0, .deliverResponse 0, .advance 0] ++
    [.advance 0, .advance 0, .deliverResponse 0, .transmit, .complete,
      .advance 0, .advance 0, .advance 0]

/-- The second operation succeeds with the completion of its send; no response
to it has been produced. -/
theorem lateResponse_not_matched :
    ∃ state, (client 2).Reachable state ∧
      state.taken = [(1, .sendDone), (0, .response 0)] ∧
      state.responses = [] ∧ state.requests = [1] ∧ ¬ Matched state := by
  obtain ⟨state, runTo, checked⟩ := Option.map_eq_some_iff.mp
    (show ((client 2).run .initial lateLabels).map (fun state =>
        (state.taken, state.responses, state.requests)) =
      some ([(1, .sendDone), (0, .response 0)], [], [1]) by decide)
  simp only [Prod.mk.injEq] at checked
  obtain ⟨taken, responses, requests⟩ := checked
  refine ⟨state, TransitionSystem.reachable_of_run (.start rfl) runTo, taken,
    responses, requests, fun matched => ?_⟩
  have wrong := matched (1, .sendDone) (by simp [taken])
  cases wrong

end RdmaKVStore
