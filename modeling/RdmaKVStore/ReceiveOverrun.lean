import Mathlib.Data.Fintype.BigOperators
import RdmaKVStore.ServeSteps

/-!
# Overrun of received requests

A slot is posted again before the request in it has been executed: at the head
of its own turn over RC and UC, in `ready_for_next_request` over UD.  While a
handler reads a request, the adapter may therefore write the slot, once as many
further messages have arrived as the ring has slots.
-/

namespace RdmaKVStore

open Finset

variable {Worker : Type*} {type : ConnectionType} {messages : Nat → Request}

namespace ServePhase

def pointer : ServePhase → Option (Nat × Nat)
  | .dispatch slot turn | .dispatchWait slot turn | .check slot turn
  | .switch slot turn | .handle slot turn => some (slot, turn)
  | .prepare | .receive | .current | .exitWait | .respond | .respondWait
  | .ended => none

/-- The worker has taken a receive completion for a turn that has not begun. -/
def pendingTurn : ServePhase → Nat
  | .current => 1
  | _ => 0

def pendingSend : ServePhase → Nat
  | .dispatchWait _ _ | .exitWait | .respondWait => 1
  | _ => 0

def pendingPost : ServePhase → Nat
  | .receive | .current => 1
  | _ => 0

/-- Changing the phase of one worker changes a sum over all workers by the
difference of its weights. -/
theorem sum_update [Fintype Worker] [DecidableEq Worker]
    (weight : ServePhase → Nat) (phase : Worker → ServePhase)
    (worker : Worker) (next : ServePhase) :
    ∑ other, weight (Function.update phase worker next other) +
        weight (phase worker) =
      ∑ other, weight (phase other) + weight next := by
  have rest : ∑ other ∈ univ.erase worker,
      weight (Function.update phase worker next other) =
        ∑ other ∈ univ.erase worker, weight (phase other) :=
    sum_congr rfl fun other member => by
      rw [Function.update_of_ne (ne_of_mem_erase member)]
  rw [← add_sum_erase univ _ (mem_univ worker),
    ← add_sum_erase univ (fun other => weight (phase other))
      (mem_univ worker), rest, Function.update_self]
  omega

end ServePhase

namespace Serves

variable {worker : Worker} {ring after : ServeRing Worker}
variable {before next : ServePhase}

theorem account_turns
    (serves : Serves type messages worker ring before after next) :
    after.begun + next.pendingTurn + ring.received =
      ring.begun + before.pendingTurn + after.received := by
  cases serves <;> simp only [ServeRing.postReceive, ServeRing.postSend,
    ServeRing.takeReceive, ServeRing.takeSend, ServeRing.beginTurn,
    ServeRing.readyForNextRequest, ServePhase.pendingTurn]
  all_goals omega

theorem account_sends
    (serves : Serves type messages worker ring before after next) :
    after.sent + ring.sendsWaited + before.pendingSend =
      ring.sent + after.sendsWaited + next.pendingSend := by
  cases serves <;> simp only [ServeRing.postReceive, ServeRing.postSend,
    ServeRing.takeReceive, ServeRing.takeSend, ServeRing.beginTurn,
    ServeRing.readyForNextRequest, ServePhase.pendingSend] <;> omega

theorem sendsDone
    (serves : Serves type messages worker ring before after next) :
    after.sendsDone = ring.sendsDone ∧ ring.sent ≤ after.sent := by
  cases serves with
  | answer | exit | respond => exact ⟨rfl, Nat.le_succ _⟩
  | _ => exact ⟨rfl, le_rfl⟩

theorem received
    (serves : Serves type messages worker ring before after next) :
    after.received = ring.received ∨
      before = .receive ∧ ring.ReceiveCompleted type ∧
        after.received = ring.received + 1 := by
  cases serves with
  | receive completed => exact .inr ⟨rfl, completed, rfl⟩
  | _ => exact .inl rfl

theorem pointer_cases
    (serves : Serves type messages worker ring before after next) :
    ring.begun ≤ after.begun ∧
      ∀ slot (turn : Nat), next.pointer = some (slot, turn) →
        before.pointer = some (slot, turn) ∨
          slot = ring.requestCount ∧ turn = ring.begun ∧
            after.begun = ring.begun + 1 := by
  cases serves with
  | current =>
      refine ⟨Nat.le_succ _, fun slot turn points => .inr ?_⟩
      cases points
      exact ⟨rfl, rfl, rfl⟩
  | answer | pass | answered | ready | skip | handler =>
      exact ⟨le_rfl, fun slot turn points => .inl points⟩
  | _ => exact ⟨le_rfl, fun slot turn points => by cases points⟩

theorem queue_cases
    (serves : Serves type messages worker ring before after next) :
    after.queue = ring.queue ∨
      after.queue = ring.queue.post ring.requestCount := by
  cases serves with
  | prepare => exact .inr rfl
  | ready =>
      simp only [ServeRing.readyForNextRequest]
      split
      · exact .inr rfl
      · exact .inl rfl
  | _ => exact .inl rfl

theorem arrived
    (serves : Serves type messages worker ring before after next) :
    after.queue.arrived = ring.queue.arrived := by
  rcases serves.queue_cases with same | same <;> rw [same]
  rfl

end Serves

/-- The account of messages, completions and turns. -/
structure Counted [Fintype Worker] (type : ConnectionType)
    (state : ServeState Worker) : Prop where
  traced : state.ring.queue.Traced some
  received : state.ring.received ≤ state.ring.queue.arrived
  done : state.ring.sendsDone ≤ state.ring.sent
  waited : type ≠ .ud → ∀ worker, state.ring.sent =
    state.ring.sendsWaited + (state.phase worker).pendingSend
  begun : state.ring.received =
    state.ring.begun + ∑ worker, (state.phase worker).pendingTurn
  turns : ∀ worker slot (turn : Nat),
    (state.phase worker).pointer = some (slot, turn) →
      turn < state.ring.begun

namespace Counted

variable [Fintype Worker] {state after : ServeState Worker}

theorem turn_lt_arrived (counted : Counted type state) {worker : Worker}
    {slot turn : Nat}
    (points : (state.phase worker).pointer = some (slot, turn)) :
    turn < state.ring.queue.arrived := by
  have turns := counted.turns worker slot turn points
  have begun := counted.begun
  have received := counted.received
  omega

theorem initial : Counted type (.initial type : ServeState Worker) where
  traced := ⟨Nat.zero_le _, fun index slot used => absurd used (by
    simp [ServeState.initial, ServeRing.initial])⟩
  received := le_rfl
  done := le_rfl
  waited _ _ := rfl
  begun := by simp [ServeState.initial, ServeRing.initial,
    ServePhase.pendingTurn]
  turns _ _ _ points := by cases points

theorem serves [DecidableEq Worker] {ring afterRing : ServeRing Worker}
    {phase : Worker → ServePhase} {worker : Worker} {next : ServePhase}
    (single : type ≠ .ud → Subsingleton Worker)
    (counted : Counted type ⟨ring, phase⟩)
    (serves : Serves type messages worker ring (phase worker) afterRing
      next) :
    Counted type ⟨afterRing, Function.update phase worker next⟩ := by
  have arrived := serves.arrived
  obtain ⟨done, sent⟩ := serves.sendsDone
  obtain ⟨begun, pointer⟩ := serves.pointer_cases
  refine ⟨?_, ?_, ?_, ?_, ?_, ?_⟩
  · rcases serves.queue_cases with same | same <;> simp only [same]
    · exact counted.traced
    · exact counted.traced.post _
  · simp only [arrived]
    have before := counted.received
    rcases serves.received with same | ⟨receiving, completed, same⟩ <;>
      simp only [same]
    · exact before
    · by_cases shared : type = .ud
      · subst shared
        exact completed
      · have waited := counted.waited shared worker
        have bound := counted.done
        have more := (ServeRing.receiveCompleted_iff shared).mp completed
        simp only [receiving, ServePhase.pendingSend] at waited bound more
        omega
  · simp only [done]
    exact counted.done.trans sent
  · intro ring' other
    obtain rfl := (single ring').elim worker other
    simp only [Function.update_self]
    have waited := counted.waited ring' worker
    have account := serves.account_sends
    simp only at waited
    omega
  · have sum := ServePhase.sum_update ServePhase.pendingTurn phase worker next
    have account := serves.account_turns
    have before := counted.begun
    simp only at before ⊢
    omega
  · refine (Function.forall_update_iff _ fun other (phase : ServePhase) =>
      ∀ slot (turn : Nat), phase.pointer = some (slot, turn) →
        turn < afterRing.begun).mpr ⟨fun slot turn points => ?_,
          fun other _ slot turn points =>
            (counted.turns other slot turn points).trans_le begun⟩
    rcases pointer slot turn points with old | ⟨-, rfl, more⟩
    · exact (counted.turns worker slot turn old).trans_le begun
    · omega

theorem step [DecidableEq Worker] {label : ServeLabel Worker}
    (single : type ≠ .ud → Subsingleton Worker)
    (counted : Counted type state)
    (stepTo : (serving type messages).step state label = some after) :
    Counted type after := by
  rcases serving_step_cases stepTo with
    ⟨queue, -, delivered, rfl⟩ | ⟨-, pending, rfl⟩ |
      ⟨worker, ring, next, -, serves, rfl⟩
  · obtain ⟨slot, -, same⟩ := ReceiveQueue.deliver_eq_some delivered
    refine ⟨counted.traced.deliver delivered, ?_, counted.done,
      counted.waited, counted.begun, counted.turns⟩
    simp only [same]
    exact counted.received.trans (Nat.le_succ _)
  · exact ⟨counted.traced, counted.received, pending, counted.waited,
      counted.begun, counted.turns⟩
  · exact counted.serves single serves

theorem of_reachable [DecidableEq Worker]
    (single : type ≠ .ud → Subsingleton Worker)
    (reached : (serving type messages).Reachable state) :
    Counted type state :=
  reached.invariant (fun _ initial => initial ▸ Counted.initial)
    fun _ _ _ counted stepTo => counted.step single stepTo

end Counted

/-- Over RC and UC the worker posts the slot of its turn before it waits, one
round after the posting that the message of the turn uses up. -/
structure Preposted (type : ConnectionType) (state : ServeState Worker) :
    Prop where
  posted : ∀ worker, state.ring.queue.postings.length =
    ringSize type + state.ring.begun + (state.phase worker).pendingPost
  awaited : ∀ worker, (state.phase worker).pendingPost = 1 →
    state.ring.queue.postings[ringSize type + state.ring.begun]? =
      some state.ring.requestCount
  pointed : ∀ worker slot (turn : Nat),
    (state.phase worker).pointer = some (slot, turn) →
      state.ring.queue.postings[ringSize type + turn]? = some slot

namespace Preposted

variable {state after : ServeState Worker}

theorem serves [DecidableEq Worker] [Subsingleton Worker]
    {ring afterRing : ServeRing Worker} {phase : Worker → ServePhase}
    {worker : Worker} {next : ServePhase} (single : type ≠ .ud)
    (preposted : Preposted type ⟨ring, phase⟩)
    (serves : Serves type messages worker ring (phase worker) afterRing
      next) :
    Preposted type ⟨afterRing, Function.update phase worker next⟩ := by
  have posted := preposted.posted worker
  have awaited := preposted.awaited worker
  have pointed := preposted.pointed worker
  suffices kept : afterRing.queue.postings.length =
        ringSize type + afterRing.begun + next.pendingPost ∧
      (next.pendingPost = 1 →
        afterRing.queue.postings[ringSize type + afterRing.begun]? =
          some afterRing.requestCount) ∧
      ∀ slot (turn : Nat), next.pointer = some (slot, turn) →
        afterRing.queue.postings[ringSize type + turn]? = some slot by
    refine ⟨fun other => ?_, fun other => ?_, fun other => ?_⟩ <;>
      obtain rfl := Subsingleton.elim worker other <;>
      simp only [Function.update_self]
    · exact kept.1
    · exact kept.2.1
    · exact kept.2.2
  simp only at posted awaited pointed
  generalize phase worker = before at serves posted awaited pointed
  have idle {pending : Nat} (none : pending = 0) {claim : Prop} :
      pending = 1 → claim := fun one => absurd (none.symm.trans one) (by decide)
  cases serves with
  | prepare =>
      have last : ringSize type + ring.begun = ring.queue.postings.length :=
        posted.symm
      refine ⟨?_, fun _ => ?_, fun _ _ points => by cases points⟩
      · simp [ServeRing.postReceive, ReceiveQueue.post, ← last,
          ServePhase.pendingPost]
      · simp [ServeRing.postReceive, ReceiveQueue.post, last]
  | prepareUd shared => exact absurd shared single
  | receive => exact ⟨posted, awaited, fun _ _ points => by cases points⟩
  | current =>
      refine ⟨posted, idle rfl, fun slot turn points => ?_⟩
      cases points
      exact awaited rfl
  | ready =>
      have queue : (ring.readyForNextRequest type).queue = ring.queue :=
        if_neg single
      rw [queue]
      exact ⟨posted, idle rfl, pointed⟩
  | answer | pass | answered | skip | handler =>
      exact ⟨posted, idle rfl, pointed⟩
  | exit | crash | exited | other | handled | respond | close | again =>
      exact ⟨posted, idle rfl, fun _ _ points => by cases points⟩

theorem initial : Preposted type (.initial type : ServeState Worker) where
  posted _ := by simp [ServeState.initial, ServeRing.initial,
    ServePhase.pendingPost]
  awaited _ pending := by cases pending
  pointed _ _ _ points := by cases points

theorem of_reachable [DecidableEq Worker] [Subsingleton Worker]
    (single : type ≠ .ud)
    (reached : (serving type messages).Reachable state) :
    Preposted type state := by
  refine reached.invariant (fun _ initial => initial ▸ Preposted.initial)
    fun before label after preposted stepTo => ?_
  rcases serving_step_cases stepTo with
    ⟨queue, -, delivered, rfl⟩ | ⟨-, pending, rfl⟩ |
      ⟨worker, ring, next, -, serves, rfl⟩
  · obtain ⟨slot, -, rfl⟩ := ReceiveQueue.deliver_eq_some delivered
    exact ⟨preposted.posted, preposted.awaited, preposted.pointed⟩
  · exact ⟨preposted.posted, preposted.awaited, preposted.pointed⟩
  · exact preposted.serves single serves

end Preposted

/-- What is known over UD of a worker with a pointer: before
`ready_for_next_request` it holds `lock`, and afterwards its slot has been
posted again, unless the method is UNK. -/
def Reposted (messages : Nat → Request) (ring : ServeRing Worker)
    (worker : Worker) : ServePhase → Prop
  | .dispatch slot turn | .dispatchWait slot turn | .check slot turn =>
      ring.lock = some worker ∧ ring.begun = turn + 1 ∧
        ring.requestCount = slot
  | .switch slot turn =>
      ring.queue.postings[maxClients + turn]? = some slot ∨
        (messages turn).method = .unk ∧ ring.lock = some worker ∧
          ring.begun = turn + 1 ∧ ring.requestCount = slot
  | .handle slot turn => ring.queue.postings[maxClients + turn]? = some slot
  | .prepare | .receive | .current | .exitWait | .respond | .respondWait
  | .ended => True

/-- The ring of a UD server is posted round after round, except for the slot
that the holder of `lock` is at. -/
structure SharedRing (messages : Nat → Request) (state : ServeState Worker) :
    Prop where
  posted : state.ring.queue.postings.length +
      (if state.ring.lock.isSome then 1 else 0) =
    maxClients + state.ring.begun
  cyclic : state.ring.queue.Cyclic maxClients
  count : state.ring.requestCount =
    state.ring.queue.postings.length % maxClients
  reposted : ∀ worker,
    Reposted messages state.ring worker (state.phase worker)

namespace SharedRing

variable {state after : ServeState Worker}

theorem length_of_held (shared : SharedRing messages state) {worker : Worker}
    {turn : Nat} (held : state.ring.lock = some worker)
    (begun : state.ring.begun = turn + 1) :
    state.ring.queue.postings.length = maxClients + turn := by
  have posted := shared.posted
  rw [held, begun] at posted
  simp only [Option.isSome_some, if_true] at posted
  omega

theorem request_of_held [Fintype Worker] (shared : SharedRing messages state)
    (counted : Counted .ud state) {worker : Worker} {turn : Nat}
    (held : state.ring.lock = some worker)
    (begun : state.ring.begun = turn + 1) :
    state.ring.request messages state.ring.requestCount = messages turn := by
  have length := shared.length_of_held held begun
  have arrived := counted.traced.arrived_le
  have received := counted.received
  have begunLe := counted.begun
  have slot : state.ring.requestCount = turn % maxClients := by
    rw [shared.count, length, Nat.add_mod_left]
  rw [ServeRing.request, slot, counted.traced.slots_of_cyclic shared.cyclic
    (show turn < _ by omega) (by omega)]
  rfl

theorem initial :
    SharedRing messages (.initial .ud : ServeState Worker) where
  posted := by simp [ServeState.initial, ServeRing.initial, ringSize]
  cyclic := by
    intro index inside
    simp only [ServeState.initial, ServeRing.initial, ringSize,
      List.length_range] at inside ⊢
    rw [List.getElem?_range inside, Nat.mod_eq_of_lt inside]
  count := by simp [ServeState.initial, ServeRing.initial, ringSize]
  reposted _ := trivial

end SharedRing

/-- A worker keeps what it has while others post slots and `lock` stays. -/
theorem Reposted.mono {worker : Worker} {ring after : ServeRing Worker}
    {phase : ServePhase} (reposted : Reposted messages ring worker phase)
    (postings : ∀ (index : Nat) slot,
      ring.queue.postings[index]? = some slot →
        after.queue.postings[index]? = some slot)
    (kept : ring.lock = some worker → after.lock = ring.lock ∧
      after.begun = ring.begun ∧ after.requestCount = ring.requestCount) :
    Reposted messages after worker phase := by
  have holds {slot turn : Nat} (held : ring.lock = some worker ∧
      ring.begun = turn + 1 ∧ ring.requestCount = slot) :
      after.lock = some worker ∧ after.begun = turn + 1 ∧
        after.requestCount = slot := by
    obtain ⟨lock, begun, count⟩ := kept held.1
    exact ⟨lock.trans held.1, begun.trans held.2.1, count.trans held.2.2⟩
  cases phase with
  | dispatch | dispatchWait | check => exact holds reposted
  | switch => exact reposted.imp (postings _ _) (And.imp_right holds)
  | handle => exact postings _ _ reposted
  | _ => trivial

namespace SharedRing

variable {worker : Worker} {ring after : ServeRing Worker}
variable {phase : Worker → ServePhase} {next : ServePhase}

theorem reposted_self [Fintype Worker]
    (shared : SharedRing messages ⟨ring, phase⟩)
    (counted : Counted .ud ⟨ring, phase⟩)
    (serves : Serves .ud messages worker ring (phase worker) after next) :
    Reposted messages after worker next := by
  have reposted : Reposted messages ring worker (phase worker) :=
    shared.reposted worker
  have requestOf {turn : Nat} (held : ring.lock = some worker)
      (begun : ring.begun = turn + 1) :
      ring.request messages ring.requestCount = messages turn :=
    shared.request_of_held counted held begun
  have lengthOf {turn : Nat} (held : ring.lock = some worker)
      (begun : ring.begun = turn + 1) :
      ring.queue.postings.length = maxClients + turn :=
    shared.length_of_held held begun
  generalize phase worker = before at serves reposted
  cases serves with
  | prepare single => exact absurd rfl single
  | current => exact ⟨rfl, rfl, rfl⟩
  | answer | pass | answered => exact reposted
  | ready =>
      obtain ⟨held, begun, rfl⟩ := reposted
      refine .inl ?_
      simp [ServeRing.readyForNextRequest, ReceiveQueue.post,
        ← lengthOf held begun]
  | skip unknown =>
      obtain ⟨held, begun, rfl⟩ := reposted
      rw [requestOf held begun] at unknown
      exact .inr ⟨unknown, held, begun, rfl⟩
  | handler handled =>
      rcases reposted with posted | ⟨unknown, held, begun, rfl⟩
      · exact posted
      · rw [requestOf held begun] at handled
        simp [Method.Handled, unknown] at handled
  | _ => trivial

theorem serves [DecidableEq Worker] [Fintype Worker]
    (shared : SharedRing messages ⟨ring, phase⟩)
    (counted : Counted .ud ⟨ring, phase⟩)
    (serves : Serves .ud messages worker ring (phase worker) after next) :
    SharedRing messages ⟨after, Function.update phase worker next⟩ := by
  have reposted (kept : ∀ other, other ≠ worker → ring.lock = some other →
      after.lock = ring.lock ∧ after.begun = ring.begun ∧
        after.requestCount = ring.requestCount) :
      ∀ other, Reposted messages after other
        (Function.update phase worker next other) := by
    refine (Function.forall_update_iff _ fun other (phase : ServePhase) =>
      Reposted messages after other phase).mpr
        ⟨shared.reposted_self counted serves, fun other distinct =>
          (shared.reposted other).mono (fun index slot posted => ?_)
            (kept other distinct)⟩
    rcases serves.queue_cases with same | same <;> rw [same]
    · exact posted
    · exact (List.getElem?_append_left
        (List.getElem?_eq_some_iff.mp posted).1).trans posted
  have posted := shared.posted
  have cyclic := shared.cyclic
  have count := shared.count
  have holder := shared.reposted worker
  simp only at posted cyclic count holder
  generalize phase worker = before at serves holder
  cases serves with
  | prepare single => exact absurd rfl single
  | current free =>
      refine ⟨?_, cyclic, count, reposted fun other _ held => ?_⟩
      · simp only [free rfl, ServeRing.beginTurn, if_true,
          Option.isSome_some, Option.isSome_none] at posted ⊢
        simp only [Bool.false_eq_true, if_false] at posted
        omega
      · simp [free rfl] at held
  | ready =>
      obtain ⟨held, begun, -⟩ := holder
      simp only [ServeRing.readyForNextRequest, if_true] at reposted ⊢
      refine ⟨?_, ?_, ?_, reposted fun other distinct locked => ?_⟩
      · simp only [held, Option.isSome_some, if_true] at posted
        simp [ReceiveQueue.post, posted]
      · rw [count]
        exact cyclic.post
      · simp only [ReceiveQueue.post, List.length_append,
          List.length_singleton, count, ringSize, Nat.mod_add_mod]
      · exact absurd (Option.some.inj (locked.symm.trans held)) distinct
  | _ =>
      exact ⟨posted, cyclic, count, reposted fun _ _ _ => ⟨rfl, rfl, rfl⟩⟩

theorem of_reachable [DecidableEq Worker] [Fintype Worker]
    {state : ServeState Worker}
    (reached : (serving .ud messages).Reachable state) :
    SharedRing messages state := by
  refine TransitionSystem.GuardedReach.invariant_with
    (fun _ reached => Counted.of_reachable (fun single => absurd rfl single)
      reached)
    (fun _ initial => initial ▸ SharedRing.initial)
    (fun before label after counted shared _ stepTo => ?_) reached
  rcases serving_step_cases stepTo with
    ⟨queue, -, delivered, rfl⟩ | ⟨-, pending, rfl⟩ |
      ⟨worker, ring, next, -, serves, rfl⟩
  · obtain ⟨slot, -, rfl⟩ := ReceiveQueue.deliver_eq_some delivered
    exact ⟨shared.posted, shared.cyclic, shared.count, fun worker =>
      (shared.reposted worker).mono (fun _ _ => id)
        fun _ => ⟨rfl, rfl, rfl⟩⟩
  · exact ⟨shared.posted, shared.cyclic, shared.count, fun worker =>
      (shared.reposted worker).mono (fun _ _ => id)
        fun _ => ⟨rfl, rfl, rfl⟩⟩
  · exact shared.serves counted serves

end SharedRing

/-- The worker's count of slots, for the turn it is in or the next one. -/
def InRound (type : ConnectionType) (ring : ServeRing Worker) :
    ServePhase → Prop
  | .dispatch _ turn | .dispatchWait _ turn | .check _ turn =>
      ring.begun = turn + 1 ∧ ring.requestCount = turn % ringSize type
  | .prepare | .receive | .current | .switch _ _ | .handle _ _ | .respond
  | .respondWait => ring.requestCount = ring.begun % ringSize type
  | .exitWait | .ended => True

/-- Over RC and UC without UNK requests, the slots are posted round after round
and the worker goes round with them. -/
structure RoundRing (type : ConnectionType) (state : ServeState Worker) :
    Prop where
  cyclic : state.ring.queue.Cyclic (ringSize type)
  inRound : ∀ worker, InRound type state.ring (state.phase worker)

namespace RoundRing

variable {ring after : ServeRing Worker} {phase : Worker → ServePhase}
variable {worker : Worker} {next : ServePhase} {state : ServeState Worker}

theorem initial : RoundRing type (.initial type : ServeState Worker) where
  cyclic := by
    intro index inside
    simp only [ServeState.initial, ServeRing.initial, List.length_range]
      at inside ⊢
    rw [List.getElem?_range inside, Nat.mod_eq_of_lt inside]
  inRound _ := (Nat.zero_mod _).symm

theorem request_of_pointer [Fintype Worker] (round : RoundRing type state)
    (preposted : Preposted type state) (counted : Counted type state)
    {slot turn : Nat}
    (points : (state.phase worker).pointer = some (slot, turn)) :
    ∃ later, state.ring.request messages slot = messages later := by
  have posted := preposted.pointed worker slot turn points
  have used := counted.turn_lt_arrived points
  obtain rfl : (ringSize type + turn) % ringSize type = slot :=
    Option.some.inj ((round.cyclic _
      (List.getElem?_eq_some_iff.mp posted).1).symm.trans posted)
  rw [Nat.add_mod_left]
  obtain ⟨later, -, -, -, content⟩ := counted.traced.filled turn _ used
    (round.cyclic turn (used.trans_le counted.traced.arrived_le))
  exact ⟨later, by rw [ServeRing.request, content]; rfl⟩

theorem serves [DecidableEq Worker] [Fintype Worker] [Subsingleton Worker]
    (single : type ≠ .ud) (known : ∀ number, (messages number).method ≠ .unk)
    (round : RoundRing type ⟨ring, phase⟩)
    (preposted : Preposted type ⟨ring, phase⟩)
    (counted : Counted type ⟨ring, phase⟩)
    (serves : Serves type messages worker ring (phase worker) after next) :
    RoundRing type ⟨after, Function.update phase worker next⟩ := by
  have written : ∀ slot (turn : Nat),
      (phase worker).pointer = some (slot, turn) →
        ∃ later, ring.request messages slot = messages later :=
    fun _ _ => round.request_of_pointer preposted counted
  have posted := preposted.posted worker
  have inRound : InRound type ring (phase worker) := round.inRound worker
  have cyclic : ring.queue.Cyclic (ringSize type) := round.cyclic
  suffices kept : after.queue.Cyclic (ringSize type) ∧
      InRound type after next by
    refine ⟨kept.1, fun other => ?_⟩
    obtain rfl := Subsingleton.elim worker other
    simpa only [Function.update_self] using kept.2
  simp only at posted
  generalize phase worker = before at serves posted inRound written
  cases serves with
  | prepare =>
      have post := cyclic.post
      rw [show ring.queue.postings.length = ringSize type + ring.begun
        from posted, Nat.add_mod_left, ← inRound] at post
      exact ⟨post, inRound⟩
  | prepareUd shared => exact absurd shared single
  | current => exact ⟨cyclic, rfl, inRound⟩
  | ready =>
      obtain ⟨begun, count⟩ := inRound
      refine ⟨?_, ?_⟩
      · simpa only [ServeRing.readyForNextRequest, if_neg single] using cyclic
      · simp only [InRound, ServeRing.readyForNextRequest, count, begun,
          Nat.mod_add_mod]
  | @skip slot turn unknown =>
      obtain ⟨later, request⟩ := written slot turn rfl
      rw [request] at unknown
      exact absurd unknown (known later)
  | exit | crash | exited | close => exact ⟨cyclic, trivial⟩
  | _ => exact ⟨cyclic, inRound⟩

theorem of_reachable [DecidableEq Worker] [Fintype Worker]
    [Subsingleton Worker] (single : type ≠ .ud)
    (known : ∀ number, (messages number).method ≠ .unk)
    (reached : (serving type messages).Reachable state) :
    RoundRing type state := by
  refine TransitionSystem.GuardedReach.invariant_with
    (fun _ reached => And.intro
      (Counted.of_reachable (fun _ => inferInstance) reached)
      (Preposted.of_reachable single reached))
    (fun _ initial => initial ▸ RoundRing.initial)
    (fun before label after base round _ stepTo => ?_) reached
  rcases serving_step_cases stepTo with
    ⟨queue, -, delivered, rfl⟩ | ⟨-, pending, rfl⟩ |
      ⟨worker, ring, next, -, serves, rfl⟩
  · obtain ⟨slot, -, rfl⟩ := ReceiveQueue.deliver_eq_some delivered
    exact ⟨round.cyclic, round.inRound⟩
  · exact ⟨round.cyclic, round.inRound⟩
  · exact round.serves single known base.2 base.1 serves

end RoundRing

section Content

variable {state : ServeState Worker} {slot turn : Nat} {worker : Worker}

theorem RoundRing.slot_of_pointer (round : RoundRing type state)
    (preposted : Preposted type state)
    (points : (state.phase worker).pointer = some (slot, turn)) :
    slot = turn % ringSize type := by
  have posted := preposted.pointed worker slot turn points
  have place := Option.some.inj ((round.cyclic _
    (List.getElem?_eq_some_iff.mp posted).1).symm.trans posted)
  rwa [Nat.add_mod_left, eq_comm] at place

theorem SharedRing.slot_of_pointer (shared : SharedRing messages state)
    (points : (state.phase worker).pointer = some (slot, turn)) :
    slot = turn % maxClients := by
  have held (locked : state.ring.lock = some worker)
      (begun : state.ring.begun = turn + 1)
      (count : state.ring.requestCount = slot) : slot = turn % maxClients := by
    rw [← count, shared.count, shared.length_of_held locked begun,
      Nat.add_mod_left]
  have posted (queued : state.ring.queue.postings[maxClients + turn]? =
      some slot) : slot = turn % maxClients := by
    have place := Option.some.inj ((shared.cyclic _
      (List.getElem?_eq_some_iff.mp queued).1).symm.trans queued)
    rwa [Nat.add_mod_left, eq_comm] at place
  have reposted := shared.reposted worker
  generalize state.phase worker = phase at points reposted
  cases phase with
  | dispatch | dispatchWait | check =>
      cases points
      exact held reposted.1 reposted.2.1 reposted.2.2
  | switch =>
      cases points
      rcases reposted with queued | ⟨-, locked, begun, count⟩
      · exact posted queued
      · exact held locked begun count
  | handle =>
      cases points
      exact posted reposted
  | _ => cases points

/-- A worker that points to a request is at the message of its turn, as long
as not more further messages have arrived than the ring has slots. -/
theorem content_of_pointer [Fintype Worker] [DecidableEq Worker]
    (single : type ≠ .ud → Subsingleton Worker)
    (known : type = .ud ∨ ∀ number, (messages number).method ≠ .unk)
    (reached : (serving type messages).Reachable state)
    (points : (state.phase worker).pointer = some (slot, turn))
    (few : state.ring.queue.arrived ≤ turn + ringSize type) :
    slot = turn % ringSize type ∧ turn < state.ring.queue.arrived ∧
      state.ring.queue.slots slot = some turn := by
  have counted := Counted.of_reachable single reached
  have used := counted.turn_lt_arrived points
  suffices ring : state.ring.queue.Cyclic (ringSize type) ∧
      slot = turn % ringSize type by
    refine ⟨ring.2, used, ?_⟩
    rw [ring.2]
    exact counted.traced.slots_of_cyclic ring.1 used few
  by_cases shared : type = .ud
  · subst shared
    have shared := SharedRing.of_reachable reached
    exact ⟨shared.cyclic, shared.slot_of_pointer points⟩
  · have := single shared
    have round := RoundRing.of_reachable shared
      (known.resolve_left shared) reached
    exact ⟨round.cyclic, round.slot_of_pointer
      (Preposted.of_reachable shared reached) points⟩

end Content

/-- The slot of a worker is not posted, and it holds the message received for
the worker's turn. -/
def Undisturbed (state : ServeState Worker) (slot turn : Nat) : Prop :=
  ¬ state.ring.queue.Queued slot ∧ state.ring.queue.slots slot = some turn

section Handling

variable [Fintype Worker] {state : ServeState Worker} {slot turn : Nat}

theorem not_undisturbed_of_posted (counted : Counted type state)
    (positive : 0 < ringSize type)
    (posted : state.ring.queue.postings[ringSize type + turn]? = some slot) :
    ¬ Undisturbed state slot turn := by
  rintro ⟨unposted, content⟩
  rcases counted.traced.queued_or_filled posted with queued |
    ⟨later, after, overwritten⟩
  · exact unposted queued
  · have same := Option.some.inj (content.symm.trans overwritten)
    omega

theorem content_iff_of_cyclic (counted : Counted type state)
    (positive : 0 < ringSize type)
    (cyclic : state.ring.queue.Cyclic (ringSize type))
    (posted : state.ring.queue.postings[ringSize type + turn]? = some slot)
    (used : turn < state.ring.queue.arrived) :
    state.ring.queue.slots slot = some turn ↔
      state.ring.queue.arrived ≤ turn + ringSize type := by
  obtain rfl : (ringSize type + turn) % ringSize type = slot :=
    Option.some.inj ((cyclic _
      (List.getElem?_eq_some_iff.mp posted).1).symm.trans posted)
  rw [Nat.add_mod_left]
  exact counted.traced.slots_eq_iff_of_cyclic cyclic
    (Option.some_injective _) positive used

theorem handledSlot_single [DecidableEq Worker] [Subsingleton Worker]
    (single : type ≠ .ud) (positive : 0 < ringSize type)
    (reached : (serving type messages).Reachable state) {worker : Worker}
    (handling : state.phase worker = .handle slot turn) :
    ¬ Undisturbed state slot turn ∧
      ((∀ number, (messages number).method ≠ .unk) →
        (state.ring.queue.slots slot = some turn ↔
          state.ring.queue.arrived ≤ turn + ringSize type)) := by
  have points : (state.phase worker).pointer = some (slot, turn) := by
    rw [handling]
    rfl
  have counted := Counted.of_reachable (fun _ => inferInstance) reached
  have posted := (Preposted.of_reachable single reached).pointed worker slot
    turn points
  refine ⟨not_undisturbed_of_posted counted positive posted, fun known => ?_⟩
  have round := RoundRing.of_reachable single known reached
  exact content_iff_of_cyclic counted positive round.cyclic posted
    (counted.turn_lt_arrived points)

theorem handledSlot_shared [DecidableEq Worker]
    (reached : (serving .ud messages).Reachable state) {worker : Worker}
    (handling : state.phase worker = .handle slot turn) :
    ¬ Undisturbed state slot turn ∧
      (state.ring.queue.slots slot = some turn ↔
        state.ring.queue.arrived ≤ turn + ringSize .ud) := by
  have points : (state.phase worker).pointer = some (slot, turn) := by
    rw [handling]
    rfl
  have counted := Counted.of_reachable (fun single => absurd rfl single)
    reached
  have shared := SharedRing.of_reachable reached
  have posted : state.ring.queue.postings[maxClients + turn]? = some slot := by
    have reposted := shared.reposted worker
    rwa [handling] at reposted
  exact ⟨not_undisturbed_of_posted counted (by decide) posted,
    content_iff_of_cyclic counted (by decide) shared.cyclic posted
      (counted.turn_lt_arrived points)⟩

end Handling

/-- The workers that share a ring: one over RC and UC, one for each client
over UD. -/
def workerCount (type : ConnectionType) (clients : Nat) : Nat :=
  match type with
  | .ud => clients
  | .rc | .uc | .tcp => 1

/-- Whenever a handler runs, its slot is posted again or has been overwritten.
Without UNK on RC and UC, what the handler reads is the message of its turn
exactly as long as no more further messages have arrived than the ring has
slots. -/
theorem handledSlot_disturbed (type : ConnectionType)
    (transport : type = .rc ∨ type = .uc ∨ type = .ud) (clients : Nat)
    (messages : Nat → Request)
    {state : ServeState (Fin (workerCount type clients))}
    (reached : (serving type messages).Reachable state)
    {worker : Fin (workerCount type clients)} {slot turn : Nat}
    (handling : state.phase worker = .handle slot turn) :
    ¬ Undisturbed state slot turn ∧
      (type = .ud ∨ (∀ number, (messages number).method ≠ .unk) →
        (state.ring.queue.slots slot = some turn ↔
          state.ring.queue.arrived ≤ turn + ringSize type)) := by
  rcases transport with rfl | rfl | rfl
  · have : Subsingleton (Fin (workerCount .rc clients)) :=
      inferInstanceAs (Subsingleton (Fin 1))
    obtain ⟨disturbed, content⟩ :=
      handledSlot_single (by decide) (by decide) reached handling
    exact ⟨disturbed, fun known => content (known.resolve_left (by decide))⟩
  · have : Subsingleton (Fin (workerCount .uc clients)) :=
      inferInstanceAs (Subsingleton (Fin 1))
    obtain ⟨disturbed, content⟩ :=
      handledSlot_single (by decide) (by decide) reached handling
    exact ⟨disturbed, fun known => content (known.resolve_left (by decide))⟩
  · obtain ⟨disturbed, content⟩ := handledSlot_shared reached handling
    exact ⟨disturbed, fun _ => content⟩

def handlingLabels : List (ServeLabel (Fin 1)) :=
  [.work 0, .arrive, .work 0, .work 0, .work 0, .work 0, .work 0]

theorem handlingLabels_reads_its_message :
    ∃ state : ServeState (Fin 1), state.phase 0 = .handle 0 0 ∧
      state.ring.queue.slots 0 = some 0 ∧ ¬ Undisturbed state 0 0 := by
  obtain ⟨state, runTo, checked⟩ := Option.map_eq_some_iff.mp
    (show ((serving .rc fun _ => .make .set [97] [1]).run (.initial .rc)
        handlingLabels).map (fun state =>
          (state.phase 0, state.ring.queue.arrived)) =
      some (.handle 0 0, 1) by decide)
  obtain ⟨at_, arrived⟩ := Prod.mk.inj checked
  obtain ⟨disturbed, content⟩ := handledSlot_disturbed .rc (.inl rfl) 0
    (fun _ => .make .set [97] [1])
    (TransitionSystem.reachable_of_run (.start rfl) runTo) at_
  refine ⟨state, at_, (content (.inr fun _ => by decide)).mpr ?_, disturbed⟩
  rw [arrived]
  decide

/-- When five further messages have arrived, the handler of the first reads
the last. -/
theorem fiveFurtherMessages_overwrite :
    ∃ state : ServeState (Fin 1),
      (serving .rc fun _ => .make .set [97] [1]).Reachable state ∧
        state.phase 0 = .handle 0 0 ∧
        state.ring.queue.slots 0 = some 5 ∧ ¬ Undisturbed state 0 0 := by
  obtain ⟨state, runTo, checked⟩ := Option.map_eq_some_iff.mp
    (show ((serving .rc fun _ => .make .set [97] [1]).run (.initial .rc)
        (handlingLabels ++ List.replicate 5 .arrive)).map (fun state =>
          (state.phase 0, state.ring.queue.slots 0)) =
      some (.handle 0 0, some 5) by decide)
  obtain ⟨at_, overwritten⟩ := Prod.mk.inj checked
  refine ⟨state, TransitionSystem.reachable_of_run (.start rfl) runTo, at_,
    overwritten, fun undisturbed => ?_⟩
  cases undisturbed.2.symm.trans overwritten

end RdmaKVStore
