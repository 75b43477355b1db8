import RdmaKVStore.PhaseCount
import RdmaKVStore.ServerLock

/-!
# Dispatch of datagrams

The workers of a UD server take receive completions in any order and then go
through `lock` one by one, each with the slot that `request_count` names.  The
worker that has taken a completion need not be the one that reads its slot, but
as many slots have been read as completions taken, less those of the workers
that have not returned yet.
-/

namespace RdmaKVStore

variable {Worker Store : Type*} [DecidableEq Worker]
variable {messages : Nat → Request} {handlers : StoreHandlers Store}
variable {store : Store}

/-- The worker has taken a receive completion, and `recv_request` has not
returned yet. -/
def DatagramPhase.Pending : DatagramPhase → Prop
  | .lock _ | .current _ | .dispatch _ | .dispatchWait _ | .exitWait => True
  | .prepare | .receive | .check _ | .repost _ | .count _ | .unlock _
  | .clear _ | .switch _ | .respond | .respondWait | .ended | .crashed => False

def ReceivesSucceed (_ : DatagramState Worker Store) :
    DatagramLabel Worker → Prop
  | .flush | .failWait _ => False
  | .arrive | .transmit | .complete | .work _ _ => True

instance (state : DatagramState Worker Store)
    (label : DatagramLabel Worker) : Decidable (ReceivesSucceed state label) :=
  match label with
  | .flush | .failWait _ => isFalse id
  | .arrive | .transmit | .complete | .work _ _ => isTrue trivial

def DatagramPhase.Survives (messages : Nat → Request)
    (server : DatagramServer Worker Store) : DatagramPhase → Prop
  | .dispatch slot => ¬ (server.request messages slot).Kills .ud
  | _ => True

instance (messages : Nat → Request) (server : DatagramServer Worker Store)
    (phase : DatagramPhase) : Decidable (phase.Survives messages server) :=
  match phase with
  | .dispatch slot => inferInstanceAs
      (Decidable (¬ (server.request messages slot).Kills .ud))
  | .prepare | .receive | .lock _ | .current _ | .dispatchWait _ | .exitWait
  | .check _ | .repost _ | .count _ | .unlock _ | .clear _ | .switch _
  | .respond | .respondWait | .ended | .crashed => isTrue trivial

/-- No worker dispatches a SETOPT of SNDBUF, which the process does not
survive. -/
def DispatchesSurvived (messages : Nat → Request)
    (state : DatagramState Worker Store) : DatagramLabel Worker → Prop
  | .work worker _ => (state.phase worker).Survives messages state.server
  | _ => True

instance (messages : Nat → Request) (state : DatagramState Worker Store)
    (label : DatagramLabel Worker) :
    Decidable (DispatchesSurvived messages state label) :=
  match label with
  | .work worker _ => inferInstanceAs (Decidable
      ((state.phase worker).Survives messages state.server))
  | .arrive | .flush | .transmit | .complete | .failWait _ => isTrue trivial

/-- No receive fails, and the process survives what is dispatched. -/
def DispatchesReturn (messages : Nat → Request)
    (state : DatagramState Worker Store) (label : DatagramLabel Worker) :
    Prop :=
  ReceivesSucceed state label ∧ DispatchesSurvived messages state label

instance (messages : Nat → Request) (state : DatagramState Worker Store)
    (label : DatagramLabel Worker) :
    Decidable (DispatchesReturn messages state label) :=
  inferInstanceAs (Decidable (_ ∧ _))

/-- The datagrams that `recv_request` has returned are the first ones, each
once and intact, with their clients remembered; all completions taken have been
returned but for those of the pending workers; and no more receives are posted
than there are slots. -/
structure DispatchedInOrder (messages : Nat → Request)
    (state : DatagramState Worker Store) : Prop where
  inOrder : ∀ (number : Nat) entry,
    state.server.returns[number]? = some entry →
      entry.datagram = some number ∧
        entry.clientHandling = (messages number).clientId
  once : ∀ number, number < state.server.returns.length ↔
    ∃! index : Nat, ∃ entry, state.server.returns[index]? = some entry ∧
      entry.datagram = some number
  account : ∃ pending : Finset Worker,
    (∀ worker, worker ∈ pending ↔ (state.phase worker).Pending) ∧
      state.server.polled = state.server.returns.length + pending.card
  polled_le : state.server.polled ≤ state.server.queue.arrived
  posted_le : state.server.queue.postings.length ≤
    state.server.queue.arrived + maxClients

namespace DatagramServer

/-- The ring and its counter stand where turn `turn` begins. -/
def At (server : DatagramServer Worker Store) (turn : Nat) : Prop :=
  server.requestCount = turn % maxClients ∧
    server.queue.postings.length = maxClients + turn

/-- What is known of a worker in each phase: of the holder of `lock`, where the
ring stands. -/
def Placed (messages : Nat → Request) (server : DatagramServer Worker Store)
    (worker : Worker) : DatagramPhase → Prop
  | .lock failed => failed = false
  | .current failed =>
      failed = false ∧ server.lock = some worker ∧
        server.At server.returns.length
  | .dispatch slot | .dispatchWait slot =>
      server.lock = some worker ∧ server.At server.returns.length ∧
        slot = server.returns.length % maxClients ∧
        server.clientHandling worker =
          (messages server.returns.length).clientId
  | .check slot | .repost slot =>
      server.lock = some worker ∧ ∃ turn, server.returns.length = turn + 1 ∧
        server.At turn ∧ slot = turn % maxClients
  | .count _ =>
      server.lock = some worker ∧ ∃ turn, server.returns.length = turn + 1 ∧
        server.requestCount = turn % maxClients ∧
        server.queue.postings.length = maxClients + turn + 1
  | .unlock _ | .exitWait =>
      server.lock = some worker ∧ server.At server.returns.length
  | .prepare | .receive | .clear _ | .switch _ | .respond | .respondWait
  | .ended => True
  | .crashed => False

variable {server after : DatagramServer Worker Store} {worker : Worker}

omit [DecidableEq Worker] in
/-- A worker's place stays what it is while another one works. -/
theorem Placed.mono {phase : DatagramPhase}
    (placed : server.Placed messages worker phase)
    (kept : server.lock = some worker →
      after.lock = server.lock ∧ after.requestCount = server.requestCount ∧
        after.queue.postings = server.queue.postings ∧
        after.returns = server.returns ∧
        after.clientHandling worker = server.clientHandling worker) :
    after.Placed messages worker phase := by
  cases phase with
  | current failed =>
      obtain ⟨rfl, held, level⟩ := placed
      obtain ⟨lock, count, postings, returns, -⟩ := kept held
      simp only [Placed, At, lock, count, postings, returns]
      exact ⟨trivial, held, level⟩
  | dispatch | dispatchWait | exitWait | check | repost | count | unlock =>
      obtain ⟨lock, count, postings, returns, handling⟩ := kept placed.1
      simpa only [Placed, At, lock, count, postings, returns, handling]
        using placed
  | _ => exact placed

end DatagramServer

/-- The invariant of runs in which no receive fails. -/
structure RingInStep (messages : Nat → Request)
    (state : DatagramState Worker Store) : Prop where
  traced : state.server.queue.Traced some
  cyclic : state.server.queue.Cyclic maxClients
  statuses : state.server.statuses =
    List.replicate state.server.queue.arrived true
  polled_le : state.server.polled ≤ state.server.queue.arrived
  account : ∃ pending,
    PhaseCount DatagramPhase.Pending state.phase pending ∧
      state.server.polled = state.server.returns.length + pending
  held : LockHeld state
  free : state.server.lock = none →
    state.server.At state.server.returns.length
  placed : ∀ worker,
    state.server.Placed messages worker (state.phase worker)
  returned : ∀ (number : Nat) entry,
    state.server.returns[number]? = some entry →
      entry.datagram = some number ∧
        entry.clientHandling = (messages number).clientId

namespace RingInStep

variable {state after : DatagramState Worker Store} {worker : Worker}

omit [DecidableEq Worker] in
theorem initial :
    RingInStep messages (.initial store : DatagramState Worker Store) where
  traced := ⟨Nat.zero_le _, fun index slot used => absurd used (by
    simp [DatagramState.initial, DatagramServer.initial])⟩
  cyclic := by
    intro index inside
    simp only [DatagramState.initial, DatagramServer.initial,
      List.length_range] at inside ⊢
    rw [List.getElem?_range inside, Nat.mod_eq_of_lt inside]
  statuses := rfl
  polled_le := le_rfl
  account := ⟨0, .zero fun _ => id, rfl⟩
  held worker locked := by cases locked
  free _ := ⟨rfl, by
    simp [DatagramState.initial, DatagramServer.initial]⟩
  placed _ := trivial
  returned _ _ found := by
    simp [DatagramState.initial, DatagramServer.initial] at found

variable (inStep : RingInStep messages state)
include inStep

omit [DecidableEq Worker] in
theorem returns_le_polled :
    state.server.returns.length ≤ state.server.polled := by
  obtain ⟨pending, -, account⟩ := inStep.account
  omega

omit [DecidableEq Worker] in
theorem lt_polled_of_pending (pending : (state.phase worker).Pending) :
    state.server.returns.length < state.server.polled := by
  obtain ⟨count, counted, account⟩ := inStep.account
  have some := counted.pos pending
  omega

omit [DecidableEq Worker] in
theorem slot_of_at {turn : Nat} (level : state.server.At turn)
    (taken : turn < state.server.polled) :
    state.server.queue.slots (turn % maxClients) = some turn := by
  refine inStep.traced.slots_of_cyclic inStep.cyclic
    (taken.trans_le inStep.polled_le) ?_
  have bound := inStep.traced.arrived_le
  have posted := level.2
  omega

omit [DecidableEq Worker] in
theorem request_of_at {turn : Nat} (level : state.server.At turn)
    (taken : turn < state.server.polled) :
    state.server.request messages (turn % maxClients) = messages turn := by
  rw [DatagramServer.request, inStep.slot_of_at level taken]
  rfl

omit [DecidableEq Worker] in
theorem posted_le :
    state.server.queue.postings.length ≤
      maxClients + state.server.returns.length := by
  cases lock : state.server.lock with
  | none => exact (inStep.free lock).2.le
  | some worker =>
      have locked := inStep.held worker lock
      have placed := inStep.placed worker
      generalize state.phase worker = phase at locked placed
      cases phase with
      | current => exact placed.2.2.2.le
      | dispatch | dispatchWait => exact placed.2.1.2.le
      | exitWait | unlock => exact placed.2.2.le
      | check | repost =>
          obtain ⟨-, turn, length, level, -⟩ := placed
          rw [level.2]
          omega
      | count =>
          obtain ⟨-, turn, length, -, posted⟩ := placed
          omega
      | crashed => exact placed.elim
      | _ => exact locked.elim

end RingInStep

namespace DatagramServes

variable {worker other : Worker} {calls : WorkerCalls}
variable {server after : DatagramServer Worker Store}
variable {before next : DatagramPhase}

theorem queue_cases
    (serves : DatagramServes messages worker server calls before after next) :
    after.statuses = server.statuses ∧
      (after.queue = server.queue ∨
        (∃ slot, before = .repost slot) ∧
          after.queue = server.queue.post server.requestCount) := by
  cases serves with
  | repost => exact ⟨rfl, .inr ⟨⟨_, rfl⟩, rfl⟩⟩
  | _ => exact ⟨rfl, .inl rfl⟩

/-- How many completions have been taken and returned, and whether the worker
is pending. -/
theorem account_cases (survives : before.Survives messages server)
    (serves : DatagramServes messages worker server calls before after next) :
    (after.polled = server.polled ∧
        after.returns = server.returns ∧ (next.Pending ↔ before.Pending)) ∨
      (∃ status, server.statuses[server.polled]? = some status ∧
        after.polled = server.polled + 1 ∧ after.returns = server.returns ∧
          next.Pending ∧ ¬ before.Pending) ∨
      (∃ slot, (before = .dispatch slot ∨ before = .dispatchWait slot) ∧
        after.polled = server.polled ∧
        after.returns = server.returns ++
          [⟨worker, server.queue.slots slot, server.clientHandling worker⟩] ∧
        ¬ next.Pending ∧ before.Pending) ∨
      before = .current true := by
  cases serves with
  | receive completed =>
      exact .inr (.inl ⟨_, completed, rfl, rfl, trivial, id⟩)
  | pass => exact .inr (.inr (.inl ⟨_, .inl rfl, rfl, rfl, id, trivial⟩))
  | answered =>
      exact .inr (.inr (.inl ⟨_, .inr rfl, rfl, rfl, id, trivial⟩))
  | null => exact .inr (.inr (.inr rfl))
  | crash kills => exact absurd kills survives
  | _ => exact .inl ⟨rfl, rfl, Iff.rfl⟩

/-- While another worker holds `lock`, a step leaves alone what is behind
it. -/
theorem behind_lock
    (serves : DatagramServes messages worker server calls before after next)
    (placed : server.Placed messages worker before)
    (distinct : other ≠ worker) (theirs : server.lock = some other) :
    after.lock = server.lock ∧ after.requestCount = server.requestCount ∧
      after.queue.postings = server.queue.postings ∧
      after.returns = server.returns ∧
      after.clientHandling other = server.clientHandling other := by
  have notMine {claim : Prop} (mine : server.lock = some worker) : claim :=
    absurd (Option.some.inj (theirs.symm.trans mine)) distinct
  cases serves with
  | lock free => rw [free] at theirs; cases theirs
  | current =>
      exact ⟨rfl, rfl, rfl, rfl, Function.update_of_ne distinct _ _⟩
  | pass | answered | repost | count | unlock => exact notMine placed.1
  | _ => exact ⟨rfl, rfl, rfl, rfl, rfl⟩

end DatagramServes

namespace RingInStep

variable {worker : Worker} {calls : WorkerCalls}
variable {server after : DatagramServer Worker Store}
variable {phase : Worker → DatagramPhase} {next : DatagramPhase}

omit [DecidableEq Worker] in
/-- No worker is on a way past `ready_for_next_request`. -/
theorem leavesNoLock (known : ∀ number, (messages number).method ≠ .unk)
    (inStep : RingInStep messages ⟨server, phase⟩) :
    (phase worker).LeavesNoLock messages server calls := by
  have placed := inStep.placed worker
  have polled := inStep.returns_le_polled
  have request : ∀ turn, server.At turn → turn < server.polled →
      server.request messages (turn % maxClients) = messages turn :=
    fun _ => inStep.request_of_at
  simp only at placed polled
  generalize phase worker = before at placed
  cases before with
  | current failed =>
      obtain ⟨rfl, -⟩ := placed
      exact fun failed => absurd failed (by decide)
  | check slot =>
      obtain ⟨-, turn, length, level, rfl⟩ := placed
      rw [DatagramPhase.LeavesNoLock, request turn level (by omega)]
      exact known turn
  | _ => trivial

theorem placed_self (inStep : RingInStep messages ⟨server, phase⟩)
    (survives : (phase worker).Survives messages server)
    (serves : DatagramServes messages worker server calls (phase worker) after
      next) : after.Placed messages worker next := by
  have placed := inStep.placed worker
  have pending : (phase worker).Pending →
      server.returns.length < server.polled := inStep.lt_polled_of_pending
  have request : ∀ turn, server.At turn → turn < server.polled →
      server.request messages (turn % maxClients) = messages turn :=
    fun _ => inStep.request_of_at
  have free := inStep.free
  have statuses := inStep.statuses
  simp only at placed free statuses
  generalize phase worker = before at serves placed pending survives
  cases serves with
  | crash kills => exact absurd kills survives
  | receive completed =>
      rw [statuses] at completed
      have good := (List.getElem?_eq_some_iff.mp completed).2
      rw [List.getElem_replicate] at good
      simp [DatagramServer.Placed, ← good]
  | lock unlocked => exact ⟨placed, rfl, free unlocked⟩
  | current =>
      obtain ⟨-, held, level⟩ := placed
      refine ⟨held, level, level.1, ?_⟩
      simp only [DatagramServer.rememberClient, Function.update_self]
      rw [level.1, request _ level (pending trivial)]
  | pass | answered =>
      obtain ⟨held, level, slot, -⟩ := placed
      exact ⟨held, _, List.length_append, level, slot⟩
  | answer => exact placed
  | exit => exact ⟨placed.1, placed.2.1⟩
  | exited => exact placed
  | known => exact placed
  | repost =>
      obtain ⟨held, turn, length, level, -⟩ := placed
      refine ⟨held, turn, length, level.1, ?_⟩
      simp [DatagramServer.postReceive, ReceiveQueue.post, level.2]
  | count =>
      obtain ⟨held, turn, length, count, posted⟩ := placed
      refine ⟨held, ?_, ?_⟩
      · simp only [DatagramServer.advanceCount, count, length,
          Nat.mod_add_mod]
      · simp only [DatagramServer.advanceCount, length, posted]
        omega
  | _ => trivial

theorem queue_serves (inStep : RingInStep messages ⟨server, phase⟩)
    (serves : DatagramServes messages worker server calls (phase worker) after
      next) :
    after.queue.Traced some ∧ after.queue.Cyclic maxClients ∧
      after.queue.arrived = server.queue.arrived := by
  rcases serves.queue_cases.2 with same | ⟨⟨slot, place⟩, same⟩ <;>
    rw [same]
  · exact ⟨inStep.traced, inStep.cyclic, rfl⟩
  · have placed := inStep.placed worker
    simp only [place] at placed
    obtain ⟨-, turn, -, level, -⟩ := placed
    have posted := inStep.cyclic.post
    rw [level.2, Nat.add_mod_left, ← level.1] at posted
    exact ⟨inStep.traced.post _, posted, rfl⟩

omit [DecidableEq Worker] in
theorem returned_concat (inStep : RingInStep messages ⟨server, phase⟩)
    {slot : Nat} (place : phase worker = .dispatch slot ∨
      phase worker = .dispatchWait slot) :
    ∀ (number : Nat) entry, (server.returns ++ [⟨worker,
        server.queue.slots slot, server.clientHandling worker⟩])[number]? =
          some entry →
      entry.datagram = some number ∧
        entry.clientHandling = (messages number).clientId := by
  intro number entry found
  by_cases old : number < server.returns.length
  · rw [List.getElem?_append_left old] at found
    exact inStep.returned number entry found
  · have inside := (List.getElem?_eq_some_iff.mp found).1
    rw [List.length_append, List.length_singleton] at inside
    obtain rfl : number = server.returns.length := by omega
    rw [List.getElem?_concat_length, Option.some.injEq] at found
    subst found
    have placed := inStep.placed worker
    have pending : (phase worker).Pending →
        server.returns.length < server.polled := inStep.lt_polled_of_pending
    simp only at placed
    rcases place with place | place <;> rw [place] at placed pending <;>
      obtain ⟨-, level, rfl, handling⟩ := placed <;>
      exact ⟨inStep.slot_of_at level (pending trivial), handling⟩

theorem account_serves (inStep : RingInStep messages ⟨server, phase⟩)
    (survives : (phase worker).Survives messages server)
    (serves : DatagramServes messages worker server calls (phase worker) after
      next) :
    after.polled ≤ server.queue.arrived ∧
      (∃ pending, PhaseCount DatagramPhase.Pending
        (Function.update phase worker next) pending ∧
          after.polled = after.returns.length + pending) ∧
      ∀ (number : Nat) entry, after.returns[number]? = some entry →
        entry.datagram = some number ∧
          entry.clientHandling = (messages number).clientId := by
  obtain ⟨pending, counted, account⟩ := inStep.account
  have bound := inStep.polled_le
  simp only at counted account bound
  rcases serves.account_cases survives with ⟨polled, returns, iff⟩ |
    ⟨status, completed, polled, returns, now, before⟩ |
    ⟨slot, place, polled, returns, now, before⟩ | null
  · rw [polled, returns]
    exact ⟨bound, ⟨pending, counted.stay iff, account⟩, inStep.returned⟩
  · rw [polled, returns]
    have room := (List.getElem?_eq_some_iff.mp completed).1
    rw [inStep.statuses, List.length_replicate] at room
    exact ⟨room, ⟨pending + 1, counted.enter now before, by omega⟩,
      inStep.returned⟩
  · obtain ⟨others, rfl⟩ := Nat.exists_eq_add_of_le' (counted.pos before)
    rw [polled, returns]
    refine ⟨bound, ⟨others, counted.leave now before, ?_⟩,
      inStep.returned_concat place⟩
    rw [List.length_append, List.length_singleton]
    omega
  · have placed := inStep.placed worker
    simp only [null] at placed
    exact absurd placed.1 (by decide)

theorem serves (known : ∀ number, (messages number).method ≠ .unk)
    (inStep : RingInStep messages ⟨server, phase⟩)
    (survives : (phase worker).Survives messages server)
    (serves : DatagramServes messages worker server calls (phase worker) after
      next) :
    RingInStep messages ⟨after, Function.update phase worker next⟩ := by
  obtain ⟨traced, cyclic, arrived⟩ := inStep.queue_serves serves
  obtain ⟨polledLe, account, returned⟩ := inStep.account_serves survives serves
  have placedSelf := inStep.placed_self survives serves
  refine ⟨traced, cyclic, ?_, ?_, account,
    inStep.held.serves (inStep.leavesNoLock known) serves, ?_, ?_, returned⟩
  · simp only [serves.queue_cases.1, arrived]
    exact inStep.statuses
  · simp only [arrived]
    exact polledLe
  · intro unlocked
    simp only at unlocked ⊢
    have placed := inStep.placed worker
    have free := inStep.free
    simp only at placed free
    generalize phase worker = before at serves placed
    cases serves with
    | lock => cases unlocked
    | current => exact absurd (placed.2.1.symm.trans unlocked) (by simp)
    | pass | answered | repost | count =>
        exact absurd (placed.1.symm.trans unlocked) (by simp)
    | unlock => exact placed.2
    | _ => exact free unlocked
  · exact (Function.forall_update_iff _ fun other (phase : DatagramPhase) =>
      after.Placed messages other phase).mpr ⟨placedSelf,
        fun other distinct => (inStep.placed other).mono fun theirs =>
          serves.behind_lock (inStep.placed worker) distinct theirs⟩

theorem of_reachable (known : ∀ number, (messages number).method ≠ .unk)
    {state : DatagramState Worker Store}
    (reached : (datagramServer messages handlers store).GuardedReach
      (DispatchesReturn messages) state) : RingInStep messages state := by
  refine reached.invariant (fun _ initial => initial ▸ RingInStep.initial)
    fun before label after inStep guarded stepTo => ?_
  cases datagramServer_steps stepTo with
  | @arrive queue delivered =>
      have traced := inStep.traced.deliver delivered
      obtain ⟨slot, -, rfl⟩ := ReceiveQueue.deliver_eq_some delivered
      refine { inStep with
        traced := traced
        statuses := ?_
        polled_le := inStep.polled_le.trans (Nat.le_succ _)
        placed := fun worker => (inStep.placed worker).mono
          fun _ => ⟨rfl, rfl, rfl, rfl, rfl⟩ }
      rw [inStep.statuses]
      exact List.replicate_succ'.symm
  | flush | failWait => exact guarded.1.elim
  | transmit | complete =>
      exact { inStep with
        placed := fun worker => (inStep.placed worker).mono
          fun _ => ⟨rfl, rfl, rfl, rfl, rfl⟩ }
  | work serves => exact inStep.serves known guarded.2 serves

end RingInStep

/-- Worker 0 takes the first completion and worker 1 the second, but worker 1
is the first at `lock`. -/
def crossingLabels : List (DatagramLabel Nat) :=
  [[.arrive, .arrive], workerLabels 0 2, workerLabels 1 9,
    workerLabels 0 3].flatten

end RdmaKVStore
