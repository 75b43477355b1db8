import RdmaKVStore.ClientRetries
import RdmaKVStore.RetriedRequests

/-!
# Operations over UC and UD

Any number of clients retry their operations over a network that loses and
delays what it likes, and a server executes one request after the other.  As
long as nothing comes late, no client can tell that requests and responses were
lost, that its requests were executed several times, or that there are others.
-/

namespace RdmaKVStore

open HashTable

/-- The operations whose requests a step brings to the server. -/
def ClientState.arriving (state : ClientState) : ClientLabel → List Nat
  | .deliverRequest index => state.requests[index]?.toList
  | .advance _ | .timeout | .transmit | .complete | .loseRequest _
  | .loseResponse _ | .deliverResponse _ => []

/-- A worker has executed the request of a client's operation. -/
structure Execution (Client : Type*) where
  client : Client
  worker : WorkerId
  op : Nat

structure RetriedStore (Client : Type*) where
  client : Client → ClientState
  executions : List (Execution Client)

/-- A step of a client, its adapter or its network; `worker` executes the
request that it may bring to the server. -/
structure RetriedLabel (Client : Type*) where
  client : Client
  label : ClientLabel
  worker : WorkerId

/-- The turns of the workers, with the requests that the clients' operations
make. -/
def Execution.turn {Client : Type*} (messages : Client → Nat → Request)
    (execution : Execution Client) : WorkerId × Request :=
  (execution.worker, messages execution.client execution.op)

namespace RetriedStore

variable {Client : Type*} [DecidableEq Client]

def initial : RetriedStore Client where
  client _ := .initial
  executions := []

def executed (state : RetriedStore Client) (one : Client) : List Nat :=
  (state.executions.filter fun execution => execution.client = one).map
    Execution.op

/-- Nothing comes late: the requests of a client reach the server in the order
of its operations, and each response comes in step. -/
def NothingLate (state : RetriedStore Client) (label : RetriedLabel Client) :
    Prop :=
  ResponsesInStep (state.client label.client) label.label ∧
    ∀ op ∈ (state.client label.client).arriving label.label,
      ∀ earlier ∈ state.executed label.client, earlier ≤ op

instance (state : RetriedStore Client) (label : RetriedLabel Client) :
    Decidable (state.NothingLate label) :=
  inferInstanceAs (Decidable (_ ∧ _))

end RetriedStore

/-- Clients that perform `numOps` operations each. -/
def retriedStore {Client : Type*} [DecidableEq Client]
    (numOps : Client → Nat) :
    TransitionSystem (RetriedStore Client) (RetriedLabel Client) where
  initial state := state = .initial
  step state label :=
    ((client (numOps label.client)).step (state.client label.client)
      label.label).map fun next =>
        { client := Function.update state.client label.client next
          executions := state.executions ++
            ((state.client label.client).arriving label.label).map
              fun op =>
                { client := label.client
                  worker := label.worker
                  op := op } }

/-! ### One client -/

namespace ClientState

variable {state after : ClientState} {numOps ops : Nat} {executed : List Nat}

/-- The invariant of runs in which nothing comes late: of the first `ops`
operations, which are all that are done and perhaps the current one, requests
have been executed, each operation's requests before those of the next, and
only these operations have responses. -/
structure Serial (state : ClientState) (executed : List Nat) (ops : Nat) :
    Prop where
  orderly : state.Orderly
  buffered : state.buffer ≤ state.count
  requested : ∀ op ∈ state.requests, op ≤ state.count
  taken : state.taken = ((List.range state.count).map fun op =>
    (op, Completion.response op)).reverse
  retried : Repeats (List.range ops) executed
  least : state.count ≤ ops
  most : ops ≤ state.count + 1
  responded : ∀ op ∈ state.responses, op < ops
  completed : ∀ op, .response op ∈ state.completions → op < ops

theorem Serial.initial : Serial .initial [] 0 where
  orderly := .initial
  buffered := le_rfl
  requested _ member := by cases member
  taken := rfl
  retried := .nil
  least := le_rfl
  most := Nat.zero_le _
  responded _ member := by cases member
  completed _ member := by cases member

theorem Serial.of_same (serial : Serial state executed ops)
    (orderly : after.Orderly) (count : after.count = state.count)
    (taken : after.taken = state.taken) (buffered : after.buffer ≤ state.count)
    (requested : ∀ op ∈ after.requests, op ≤ state.count)
    (responded : ∀ op ∈ after.responses, op ∈ state.responses)
    (completed : ∀ op, .response op ∈ after.completions →
      .response op ∈ state.completions ∨ op ∈ state.responses) :
    Serial after executed ops where
  orderly := orderly
  buffered := count ▸ buffered
  requested := count ▸ requested
  taken := by rw [taken, count, serial.taken]
  retried := serial.retried
  least := count ▸ serial.least
  most := count ▸ serial.most
  responded op member := serial.responded op (responded op member)
  completed op member :=
    (completed op member).elim (serial.completed op) (serial.responded op)

/-- The client goes on in its loop, or leaves an operation with the completion
at the head of the queue. -/
theorem advance_cases {errno : Nat}
    (advanced : state.advance numOps errno = some after) :
    after.requests = state.requests ∧ after.responses = state.responses ∧
      ((after.count = state.count ∧ after.taken = state.taken ∧
          (after.buffer = state.buffer ∨ after.buffer = state.count) ∧
          after.completions ⊆ state.completions) ∨
        ∃ completion, state.completions = completion :: after.completions ∧
          after.count = state.count + 1 ∧ after.buffer = state.buffer ∧
          after.taken = (state.count, completion) :: state.taken) := by
  cases phase : state.phase with
  | make =>
      simp only [ClientState.advance, phase, Option.some.injEq] at advanced
      subst advanced
      exact ⟨rfl, rfl, .inl ⟨rfl, rfl, .inr rfl, List.Subset.refl _⟩⟩
  | send | post =>
      simp only [ClientState.advance, phase] at advanced
      split at advanced
      · cases advanced
        exact ⟨rfl, rfl, .inl ⟨rfl, rfl, .inl rfl, List.Subset.refl _⟩⟩
      · split at advanced <;> cases advanced <;>
          exact ⟨rfl, rfl, .inl ⟨rfl, rfl, .inl rfl, List.Subset.refl _⟩⟩
  | sendWait =>
      simp only [ClientState.advance, phase] at advanced
      split at advanced
      case h_1 => cases advanced
      case h_2 completion rest found =>
        cases advanced
        exact ⟨rfl, rfl, .inl ⟨rfl, rfl, .inl rfl,
          found ▸ List.subset_cons_self _ _⟩⟩
  | receiveWait =>
      simp only [ClientState.advance, phase] at advanced
      split at advanced
      case h_1 => cases advanced
      case h_2 completion rest found =>
        cases advanced
        exact ⟨rfl, rfl, .inr ⟨completion, found, rfl, rfl, rfl⟩⟩
  | failed | finished => simp [ClientState.advance, phase] at advanced

theorem Serial.advance {errno : Nat} (serial : Serial state executed ops)
    (advanced : state.advance numOps errno = some after) :
    Serial after executed ops := by
  have orderly := serial.orderly.advance advanced
  obtain ⟨requests, responses, same | ⟨completion, found, count, buffer,
    taken⟩⟩ := advance_cases advanced
  · obtain ⟨count, taken, buffer, completions⟩ := same
    refine serial.of_same orderly count taken ?_ (requests ▸ serial.requested)
      (fun op => responses ▸ id) fun op member => .inl (completions member)
    have buffered := serial.buffered
    omega
  · -- the completion is the response to the operation that ends
    have matched : completion = .response state.count :=
      orderly.matched (state.count, completion) (by rw [taken]; simp)
    subst matched
    have answered := serial.completed state.count (by rw [found]; simp)
    have buffered := serial.buffered
    have most := serial.most
    refine ⟨orderly, by omega, fun op member => ?_, ?_, serial.retried,
      by omega, by omega, responses ▸ serial.responded, fun op member => ?_⟩
    · have requested := serial.requested op (requests ▸ member)
      omega
    · rw [taken, count, List.range_succ, List.map_append, List.reverse_append,
        serial.taken]
      rfl
    · exact serial.completed op (found ▸ List.mem_cons_of_mem _ member)

/-- The requests that reach the server are for the current operation, or for the
one before it while the current one has not been executed. -/
theorem Serial.arrives {op : Nat} (serial : Serial state executed ops)
    (requested : op ∈ state.requests)
    (inOrder : ∀ earlier ∈ executed, earlier ≤ op) :
    op = ops ∧ op = state.count ∨ op + 1 = ops := by
  have atMost := serial.requested op requested
  have least := serial.least
  have most := serial.most
  cases ops with
  | zero => omega
  | succ last =>
      have done := inOrder last (serial.retried.mem_iff.mpr (by simp))
      omega

theorem Serial.deliverRequest {index : Nat} (serial : Serial state executed ops)
    (inOrder : ∀ op ∈ state.arriving (.deliverRequest index),
      ∀ earlier ∈ executed, earlier ≤ op)
    (delivered : state.deliverRequest index = some after) :
    ∃ ops, Serial after (executed ++ state.arriving (.deliverRequest index))
      ops := by
  obtain ⟨op, found, rfl⟩ := Option.map_eq_some_iff.mp delivered
  have orderly := serial.orderly.network (state.requests.eraseIdx index)
    (state.responses ++ [op])
  have requested : ∀ op ∈ state.requests.eraseIdx index, op ≤ state.count :=
    fun op member => serial.requested op (List.mem_of_mem_eraseIdx member)
  simp only [arriving, found, Option.toList_some] at inOrder ⊢
  rcases serial.arrives (List.mem_of_getElem? found)
      (inOrder op (List.mem_singleton_self op)) with ⟨rfl, same⟩ | rfl
  · refine ⟨op + 1, orderly, serial.buffered, requested, serial.taken,
      List.range_succ ▸ serial.retried.concat op, same ▸ Nat.le_succ _,
      same ▸ le_rfl, fun other member => ?_, fun other member =>
        (serial.completed other member).trans (Nat.lt_succ_self op)⟩
    rcases List.mem_append.mp member with earlier | new
    · exact (serial.responded other earlier).trans (Nat.lt_succ_self op)
    · exact List.mem_singleton.mp new ▸ Nat.lt_succ_self op
  · have retried := serial.retried
    rw [List.range_succ] at retried
    refine ⟨op + 1, orderly, serial.buffered, requested, serial.taken,
      List.range_succ ▸ retried.concat_again, serial.least, serial.most,
      fun other member => ?_, serial.completed⟩
    rcases List.mem_append.mp member with earlier | new
    · exact serial.responded other earlier
    · exact List.mem_singleton.mp new ▸ Nat.lt_succ_self op

theorem Serial.deliverResponse {index : Nat}
    (serial : Serial state executed ops)
    (guarded : ResponsesInStep state (.deliverResponse index))
    (delivered : state.deliverResponse index = some after) :
    Serial after executed ops := by
  have orderly := serial.orderly.deliverResponse guarded delivered
  obtain ⟨op, found, same⟩ := Option.map_eq_some_iff.mp delivered
  have responded : ∀ other ∈ state.responses.eraseIdx index,
      other ∈ state.responses := fun _ => List.mem_of_mem_eraseIdx
  split at same <;> subst same
  · exact serial.of_same orderly rfl rfl serial.buffered serial.requested
      responded fun _ => .inl
  · refine serial.of_same orderly rfl rfl serial.buffered serial.requested
      responded fun other member => ?_
    rcases List.mem_append.mp member with earlier | new
    · exact .inl earlier
    · obtain rfl := Completion.response.inj (List.mem_singleton.mp new)
      exact .inr (List.mem_of_getElem? found)

theorem Serial.step {label : ClientLabel} (serial : Serial state executed ops)
    (guarded : ResponsesInStep state label)
    (inOrder : ∀ op ∈ state.arriving label,
      ∀ earlier ∈ executed, earlier ≤ op)
    (stepTo : (client numOps).step state label = some after) :
    ∃ ops, Serial after (executed ++ state.arriving label) ops := by
  have orderly := serial.orderly.step guarded stepTo
  cases label with
  | deliverRequest index => exact serial.deliverRequest inOrder stepTo
  | advance => exact ⟨ops, (List.append_nil _).symm ▸ serial.advance stepTo⟩
  | deliverResponse =>
      exact ⟨ops, (List.append_nil _).symm ▸
        serial.deliverResponse guarded stepTo⟩
  | timeout =>
      obtain ⟨-, same⟩ := Option.ite_none_right_eq_some.mp stepTo
      cases same
      exact ⟨ops, (List.append_nil _).symm ▸ serial.of_same orderly rfl rfl
        serial.buffered serial.requested (fun _ => id) fun _ => .inl⟩
  | transmit =>
      obtain ⟨-, same⟩ := Option.ite_none_right_eq_some.mp stepTo
      cases same
      refine ⟨ops, (List.append_nil _).symm ▸ serial.of_same orderly rfl rfl
        serial.buffered (fun op member => ?_) (fun _ => id) fun _ => .inl⟩
      rcases List.mem_append.mp member with earlier | new
      · exact serial.requested op earlier
      · exact List.mem_singleton.mp new ▸ serial.buffered
  | complete =>
      obtain ⟨-, same⟩ := Option.ite_none_right_eq_some.mp stepTo
      cases same
      refine ⟨ops, (List.append_nil _).symm ▸ serial.of_same orderly rfl rfl
        serial.buffered serial.requested (fun _ => id) fun op member => ?_⟩
      rcases List.mem_append.mp member with earlier | new
      · exact .inl earlier
      · cases List.mem_singleton.mp new
  | loseRequest =>
      cases stepTo
      exact ⟨ops, (List.append_nil _).symm ▸ serial.of_same orderly rfl rfl
        serial.buffered
        (fun op member => serial.requested op (List.mem_of_mem_eraseIdx member))
        (fun _ => id) fun _ => .inl⟩
  | loseResponse =>
      cases stepTo
      exact ⟨ops, (List.append_nil _).symm ▸ serial.of_same orderly rfl rfl
        serial.buffered serial.requested
        (fun _ => List.mem_of_mem_eraseIdx) fun _ => .inl⟩

end ClientState

/-! ### All clients -/

namespace RetriedStore

variable {Client : Type*} {messages : Client → Nat → Request}

structure KeysApart (messages : Client → Nat → Request) : Prop where
  wellFormed : ∀ client op, (messages client op).KeyWellFormed
  noReset : ∀ client op, (messages client op).method ≠ .rst
  unrelated : ∀ client other, client ≠ other → ∀ op op',
    ¬ (messages client op).Related (messages other op')

theorem KeysApart.own_iff (apart : KeysApart messages) {client one : Client}
    {op : Nat} :
    (∃ op', messages client op = messages one op') ↔ client = one := by
  constructor
  · rintro ⟨op', same⟩
    by_contra distinct
    refine apart.unrelated client one distinct op op' ?_
    rw [same]
    exact ⟨rfl, .inl List.prefix_rfl⟩
  · rintro rfl
    exact ⟨op, rfl⟩

open Classical in
theorem KeysApart.separateSource (apart : KeysApart messages) (one : Client)
    (executions : List (Execution Client)) :
    SeparateSource
      (executions.map fun execution => (execution.turn messages).2)
      fun request => ∃ op, request = messages one op where
  wellFormed := List.forall_mem_map.mpr fun _ _ => apart.wellFormed _ _
  noReset := List.forall_mem_map.mpr fun _ _ => apart.noReset _ _
  apart := by
    refine List.forall_mem_map.mpr fun first _ =>
      List.forall_mem_map.mpr fun second _ own foreign => ?_
    obtain ⟨op, same⟩ := of_decide_eq_true own
    rw [same]
    refine apart.unrelated one second.client ?_ op second.op
    rintro rfl
    exact foreign (decide_eq_true ⟨second.op, rfl⟩)

variable [DecidableEq Client] {numOps : Client → Nat}
variable {state : RetriedStore Client}

theorem serial_of_reached
    (reached : (retriedStore numOps).GuardedReach NothingLate state)
    (one : Client) :
    ∃ ops, (state.client one).Serial (state.executed one) ops := by
  induction reached with
  | start initial =>
      obtain rfl := initial
      exact ⟨0, .initial⟩
  | @next before after label _ guarded stepTo ih =>
      obtain ⟨ops, serial⟩ := ih
      obtain ⟨next, moved, rfl⟩ := Option.map_eq_some_iff.mp stepTo
      by_cases own : label.client = one
      · obtain rfl := own
        have grown := serial.step guarded.1 guarded.2 moved
        simpa [executed, List.filter_append, List.filter_map,
          Function.comp_def] using grown
      · have other : one ≠ label.client := Ne.symm own
        exact ⟨ops, by simpa [executed, List.filter_append, List.filter_map,
          Function.comp_def, own, other] using serial⟩

end RetriedStore

open Classical in
/-- Clients with keys of their own, which send no DEL, retry their operations
over a network that loses, repeats and delays messages.  As long as nothing
comes late, each operation that a client has ended has taken a response of its
own, and every execution of it has been answered as it would be if the client
were alone and had sent each request once. -/
theorem retriedOperations_answered_alike {Client : Type*} [DecidableEq Client]
    {numOps : Client → Nat} {messages : Client → Nat → Request}
    (apart : RetriedStore.KeysApart messages)
    (kept : ∀ client op, (messages client op).method ≠ .del)
    {state : RetriedStore Client}
    (reached : (retriedStore numOps).GuardedReach RetriedStore.NothingLate
      state) (one : Client) (worker : WorkerId) :
    ∃ ops ht responses alone answers, (state.client one).count ≤ ops ∧
      (state.client one).taken =
        ((List.range (state.client one).count).map fun op =>
          (op, Completion.response op)).reverse ∧
      executeAll empty (state.executions.map (Execution.turn messages)) =
        some (ht, responses) ∧
      executeAll empty ((List.range ops).map fun op =>
        (worker, messages one op)) = some (alone, answers) ∧
      Repeats ((List.range ops).zip answers)
        (((state.executions.zip responses).filter fun answered =>
          answered.1.client = one).map (Prod.map Execution.op id)) := by
  obtain ⟨ops, serial⟩ := RetriedStore.serial_of_reached reached one
  have own (execution : Execution Client) :
      decide (∃ op, (execution.turn messages).2 = messages one op) =
        decide (execution.client = one) :=
    decide_eq_decide.mpr apart.own_iff
  have retried : Repeats (List.range ops)
      ((state.executions.filter fun execution =>
        decide (∃ op, (execution.turn messages).2 = messages one op)).map
          Execution.op) := by
    simp only [own]
    exact serial.retried
  obtain ⟨ht, responses, alone, answers, executed, executedAlone, alike, -⟩ :=
    (apart.separateSource one state.executions).executeAll_retried
      (Execution.turn messages) Execution.op (messages one)
      (fun execution _ mine => by
        obtain rfl := of_decide_eq_true ((own execution).symm.trans mine)
        rfl) retried (fun op _ => kept one op) worker
  simp only [own] at alike
  exact ⟨ops, ht, responses, alone, answers, serial.least, serial.taken,
    executed, executedAlone, alike⟩

/-- Both sendings of a request are executed, and the second response is lost. -/
def twiceExecutedLabels : List ClientLabel :=
  .advance 0 :: attemptLabels ++ [.timeout] ++ attemptLabels ++
    [.deliverRequest 0, .deliverRequest 0, .loseResponse 1, .deliverResponse 0,
      .advance 0]

example :
    let labels := twiceExecutedLabels.map fun label =>
      ({ client := (), label := label, worker := 0 } : RetriedLabel Unit)
    ((retriedStore fun _ : Unit => 1).run .initial labels).map
        (fun state => state.executed ()) = some [0, 0] ∧
      (retriedStore fun _ : Unit => 1).RunGuarded RetriedStore.NothingLate
        .initial labels := by
  decide

end RdmaKVStore
