import RdmaKVStore.DatagramDispatch
import RdmaKVStore.ResponseBuffers
import RdmaKVStore.ServedTurns

/-!
# Steps of the UD workers in a ring

The workers of `DatagramSteps` go through `ready_for_next_request` in three
steps, take `lock` before they look at their slot, and have their responses in a
send queue; those of `ServeSteps` do each of this at once and count the
responses.  As long as no receive and no wait fails, every step of the former is
a run of the latter: the ring changes there when the test for UNK has been
passed, and `lock` is taken when the slot is read.
-/

namespace RdmaKVStore

variable {Worker Store : Type*}

/-- The ring with its counter, and who holds `lock`. -/
structure LockedRing (Worker : Type*) where
  queue : ReceiveQueue (Option Nat)
  requestCount : Nat
  lock : Option Worker

def DatagramServer.lockedRing (server : DatagramServer Worker Store) :
    LockedRing Worker :=
  ⟨server.queue, server.requestCount, server.lock⟩

def ServeRing.lockedRing (ring : ServeRing Worker) : LockedRing Worker :=
  ⟨ring.queue, ring.requestCount, ring.lock⟩

/-- `ready_for_next_request` as a whole. -/
def LockedRing.ready (ring : LockedRing Worker) : LockedRing Worker where
  queue := ring.queue.post ring.requestCount
  requestCount := (ring.requestCount + 1) % maxClients
  lock := none

/-- The ring as the workers of `ServeSteps` have it while the holder of `lock`
is in the given phase. -/
def LockedRing.served (ring : LockedRing Worker) :
    DatagramPhase → LockedRing Worker
  | .current _ | .unlock _ => { ring with lock := none }
  | .repost _ => ring.ready
  | .count _ => { ring.ready with queue := ring.queue }
  | _ => ring

theorem LockedRing.served_deliver {ring : LockedRing Worker}
    {message : Option Nat} {queue : ReceiveQueue (Option Nat)}
    (delivered : ring.queue.deliver message = some queue)
    (phase : DatagramPhase) :
    ∃ after, (ring.served phase).queue.deliver message = some after ∧
      { ring with queue := queue }.served phase =
        { ring.served phase with queue := after } := by
  cases phase with
  | repost => exact ⟨_, ReceiveQueue.deliver_post delivered _, rfl⟩
  | _ => exact ⟨_, delivered, rfl⟩

def DatagramState.lockedRing (state : DatagramState Worker Store) :
    LockedRing Worker :=
  match state.server.lock with
  | none => state.server.lockedRing
  | some holder => state.server.lockedRing.served (state.phase holder)

/-- Whether the process has exited, and the numbers of completions taken, of
responses posted, of their completions and of those taken. -/
def DatagramServer.account (server : DatagramServer Worker Store) :
    Bool × Nat × Nat × Nat × Nat :=
  (server.exited, server.polled, server.sends.posted.length,
    server.sends.done, server.sends.waited.length)

def ServeRing.account (ring : ServeRing Worker) :
    Bool × Nat × Nat × Nat × Nat :=
  (ring.exited, ring.received, ring.sent, ring.sendsDone, ring.sendsWaited)

/-- Where a worker is in `ServeSteps`, when no receive has failed. -/
inductive DatagramPhase.StandsAt : DatagramPhase → ServePhase → Prop
  | prepare : StandsAt .prepare .prepare
  | receive : StandsAt .receive .receive
  | lock : StandsAt (.lock false) .current
  | current : StandsAt (.current false) .current
  | dispatch {slot turn : Nat} :
      StandsAt (.dispatch slot) (.dispatch slot turn)
  | dispatchWait {slot turn : Nat} :
      StandsAt (.dispatchWait slot) (.dispatchWait slot turn)
  | exitWait : StandsAt .exitWait .exitWait
  | check {slot turn : Nat} : StandsAt (.check slot) (.check slot turn)
  | repost {slot turn : Nat} : StandsAt (.repost slot) (.switch slot turn)
  | count {slot turn : Nat} : StandsAt (.count slot) (.switch slot turn)
  | unlock {slot turn : Nat} : StandsAt (.unlock slot) (.switch slot turn)
  | clear {slot turn : Nat} : StandsAt (.clear slot) (.switch slot turn)
  | switch {slot turn : Nat} : StandsAt (.switch slot) (.switch slot turn)
  | respond : StandsAt .respond .respond
  | respondWait : StandsAt .respondWait .respondWait
  | ended : StandsAt .ended .ended

/-- The workers of `ServeSteps` are where those of a UD server are. -/
structure DatagramState.Served (state : DatagramState Worker Store)
    (serve : ServeState Worker) : Prop where
  ring : serve.ring.lockedRing = state.lockedRing
  account : serve.ring.account = state.server.account
  completed : state.server.statuses.length = state.server.queue.arrived
  succeeded : ∀ successful ∈ state.server.statuses, successful = true
  holder : ∀ worker, (state.phase worker).Locked →
    state.server.lock = some worker
  stands : state.server.exited = false → ∀ worker,
    (state.phase worker).StandsAt (serve.phase worker)

namespace DatagramState

variable {state : DatagramState Worker Store} {serve : ServeState Worker}
variable {server : DatagramServer Worker Store} {worker : Worker}
variable {next : DatagramPhase} {messages : Nat → Request}

theorem lockedRing_of_holder (holds : state.server.lock = some worker) :
    state.lockedRing = state.server.lockedRing.served (state.phase worker) := by
  simp only [lockedRing, holds]

/-- Of the slots `ServeSteps` sees what is in them. -/
theorem lockedRing_slots (state : DatagramState Worker Store) :
    state.lockedRing.queue.slots = state.server.queue.slots ∧
      state.lockedRing.queue.arrived = state.server.queue.arrived := by
  unfold lockedRing
  split
  · exact ⟨rfl, rfl⟩
  · unfold LockedRing.served
    split <;> exact ⟨rfl, rfl⟩

theorem Served.request (served : state.Served serve) (slot : Nat) :
    serve.ring.request messages slot = state.server.request messages slot := by
  have queue : serve.ring.queue = state.lockedRing.queue :=
    congrArg LockedRing.queue served.ring
  rw [ServeRing.request, queue, state.lockedRing_slots.1]
  rfl

variable [DecidableEq Worker]

theorem lockedRing_update_of_holder (holds : server.lock = some worker) :
    lockedRing ⟨server, Function.update state.phase worker next⟩ =
      server.lockedRing.served next := by
  simp only [lockedRing, holds, Function.update_self]

/-- What a worker does outside of the locked part is not seen in the ring. -/
theorem lockedRing_update_of_outside
    (outside : ∀ ring : LockedRing Worker,
      ring.served next = ring.served (state.phase worker))
    (same : server.lockedRing = state.server.lockedRing) :
    lockedRing ⟨server, Function.update state.phase worker next⟩ =
      state.lockedRing := by
  have lock : server.lock = state.server.lock := congrArg LockedRing.lock same
  simp only [lockedRing, lock, same]
  split
  · rfl
  · next holder _ =>
      by_cases mine : holder = worker
      · subst mine
        rw [Function.update_self, outside]
      · rw [Function.update_of_ne mine]

/-- A run of the workers in the ring leads to where those of the UD server
are. -/
def ServedFrom (messages : Nat → Request) (serve : ServeState Worker)
    (state : DatagramState Worker Store) : Prop :=
  ∃ after, (serving .ud messages).Leads serve after ∧ state.Served after

section Work

variable {handlers : StoreHandlers Store} {calls : WorkerCalls}
variable {phase : DatagramPhase} {ring : ServeRing Worker}
variable {here place : ServePhase} {slot turn : Nat}

omit [DecidableEq Worker] in
theorem Served.running_iff (served : state.Served serve) :
    serve.ring.exited = false ↔ state.server.exited = false := by
  rw [show serve.ring.exited = state.server.exited from
    congrArg Prod.fst served.account]

omit [DecidableEq Worker] in
theorem Served.ring_of_locked (served : state.Served serve)
    (stood : state.phase worker = phase) (locked : phase.Locked) :
    serve.ring.lockedRing = state.server.lockedRing.served phase := by
  rw [served.ring, lockedRing_of_holder
    (served.holder worker (stood ▸ locked)), stood]

/-- A worker that can take the completion of a send can do so in the ring. -/
theorem Served.takes (served : state.Served serve)
    {sends : SendQueue Worker Response}
    (taken : state.server.sends.take worker = some sends) :
    serve.ring.SendCompleted .ud ∧ serve.ring.takeSend.account =
      DatagramServer.account { state.server with sends := sends } := by
  have account := served.account
  simp only [ServeRing.account, DatagramServer.account, Prod.mk.injEq]
    at account
  obtain ⟨exited, received, sent, sendsDone, sendsWaited⟩ := account
  obtain ⟨posted, -, done, available, taking, -⟩ :=
    SendQueue.take_eq_some taken
  constructor
  · rw [ServeRing.SendCompleted, sendsDone, sendsWaited]
    exact available
  · simp only [ServeRing.account, DatagramServer.account, ServeRing.takeSend,
      exited, received, sent, sendsDone, sendsWaited, posted, done, taking]

theorem Served.posts (served : state.Served serve) (worker : Worker)
    (response : Response) :
    serve.ring.postSend.account =
      DatagramServer.account
        { state.server with
          sends := state.server.sends.post worker response } := by
  have account := served.account
  simp only [ServeRing.account, DatagramServer.account, Prod.mk.injEq]
    at account
  simp only [ServeRing.account, DatagramServer.account, ServeRing.postSend,
    SendQueue.post, List.length_append, List.length_singleton, account]

/-- The state after a step of one worker. -/
theorem Served.moved (served : state.Served serve)
    (running : state.server.exited = false) (placed : serve.phase worker = here)
    (leads : (serving .ud messages).Leads
      (standing serve.phase worker serve.ring here)
      (standing serve.phase worker ring place))
    (sameRing : ring.lockedRing =
      lockedRing ⟨server, Function.update state.phase worker next⟩)
    (account : ring.account = server.account)
    (statuses : server.statuses = state.server.statuses)
    (arrived : server.queue.arrived = state.server.queue.arrived)
    (holds : next.Locked → server.lock = some worker)
    (kept : ∀ other, other ≠ worker → state.server.lock = some other →
      server.lock = some other)
    (stands : server.exited = false → next.StandsAt place) :
    ServedFrom messages serve
      ⟨server, Function.update state.phase worker next⟩ := by
  rw [← placed, standing, Function.update_eq_self] at leads
  refine ⟨_, leads,
    { ring := sameRing
      account := account
      completed := by rw [statuses, arrived, served.completed]
      succeeded := by rw [statuses]; exact served.succeeded
      holder := fun other locked => ?_
      stands := fun goesOn other => ?_ }⟩
  · by_cases same : other = worker
    · subst same
      simp only [Function.update_self] at locked
      exact holds locked
    · simp only [Function.update_of_ne same] at locked
      exact kept other same (served.holder other locked)
  · by_cases same : other = worker
    · subst same
      simp only [standing, Function.update_self]
      exact stands goesOn
    · simp only [standing, Function.update_of_ne same]
      exact served.stands running other

/-- A step outside of the locked part leaves the ring alone. -/
theorem Served.moved_outside (served : state.Served serve)
    (running : state.server.exited = false) (placed : serve.phase worker = here)
    (leads : (serving .ud messages).Leads
      (standing serve.phase worker serve.ring here)
      (standing serve.phase worker ring place))
    (account : ring.account = server.account)
    (stood : state.phase worker = phase)
    (plain : ∀ ring : LockedRing Worker, ring.served next = ring.served phase)
    (keeps : ring.lockedRing = serve.ring.lockedRing)
    (same : server.lockedRing = state.server.lockedRing)
    (statuses : server.statuses = state.server.statuses)
    (free : ¬ next.Locked)
    (stands : server.exited = false → next.StandsAt place) :
    ServedFrom messages serve
      ⟨server, Function.update state.phase worker next⟩ := by
  refine served.moved running placed leads ?_ account statuses
    (congrArg (fun ring => ring.queue.arrived) same)
    (fun locked => absurd locked free) (fun other _ held => ?_) stands
  · rw [keeps, served.ring, lockedRing_update_of_outside (stood ▸ plain) same]
  · exact (congrArg LockedRing.lock same).trans held

/-- A step inside of it is one of the holder, who keeps `lock`. -/
theorem Served.moved_inside (served : state.Served serve)
    (running : state.server.exited = false) (placed : serve.phase worker = here)
    (leads : (serving .ud messages).Leads
      (standing serve.phase worker serve.ring here)
      (standing serve.phase worker ring place))
    (account : ring.account = server.account)
    (stood : state.phase worker = phase) (locked : phase.Locked)
    (sameRing : ring.lockedRing = server.lockedRing.served next)
    (lock : server.lock = state.server.lock)
    (arrived : server.queue.arrived = state.server.queue.arrived)
    (statuses : server.statuses = state.server.statuses)
    (stands : server.exited = false → next.StandsAt place) :
    ServedFrom messages serve
      ⟨server, Function.update state.phase worker next⟩ := by
  have holds : server.lock = some worker :=
    lock.trans (served.holder worker (stood ▸ locked))
  refine served.moved running placed leads ?_ account statuses arrived
    (fun _ => holds) (fun other _ held => lock.trans held) stands
  rw [sameRing, lockedRing_update_of_holder holds]

theorem Served.work_receive (served : state.Served serve)
    (running : state.server.exited = false)
    (placed : serve.phase worker = .receive)
    (stood : state.phase worker = .receive)
    (advanced : state.server.advance messages handlers worker calls .receive =
      some (server, next)) :
    ServedFrom messages serve
      ⟨server, Function.update state.phase worker next⟩ := by
  obtain ⟨successful, completed, same⟩ := Option.map_eq_some_iff.mp advanced
  cases same
  obtain rfl := served.succeeded successful (List.mem_of_getElem? completed)
  have account := served.account
  simp only [ServeRing.account, DatagramServer.account, Prod.mk.injEq]
    at account
  have available : serve.ring.received < serve.ring.queue.arrived := by
    have bound := (List.getElem?_eq_some_iff.mp completed).1
    have arrived := congrArg (fun ring => ring.queue.arrived) served.ring
    rw [state.lockedRing_slots.2] at arrived
    rw [account.2.1, show serve.ring.queue.arrived = _ from arrived,
      ← served.completed]
    exact bound
  have takes : serve.ring.advance .ud messages worker .receive =
      some (serve.ring.takeReceive, .current) := if_pos available
  refine served.moved_outside running placed
    (leads_work (served.running_iff.mpr running) takes) ?_ stood (fun _ => rfl)
    rfl rfl rfl id fun _ => .lock
  simp only [ServeRing.account, DatagramServer.account, ServeRing.takeReceive,
    DatagramServer.poll, account]

/-- In the ring a worker takes `lock` when it reads its slot. -/
theorem Served.work_lock (served : state.Served serve)
    (running : state.server.exited = false)
    (placed : serve.phase worker = .current)
    (advanced : state.server.advance messages handlers worker calls
      (.lock false) = some (server, next)) :
    ServedFrom messages serve
      ⟨server, Function.update state.phase worker next⟩ := by
  obtain ⟨free, same⟩ := Option.ite_none_left_eq_some.mp advanced
  cases same
  have free : state.server.lock = none := by simpa using free
  refine served.moved running placed (.refl _) ?_ served.account rfl rfl
    (fun _ => rfl) (fun other _ held => ?_) fun _ => .current
  · rw [lockedRing_update_of_holder rfl, served.ring, lockedRing, free]
    simp only [DatagramServer.lockedRing, LockedRing.served,
      DatagramServer.takeLock, free]
  · rw [free] at held
    cases held

theorem Served.work_current (served : state.Served serve)
    (running : state.server.exited = false)
    (placed : serve.phase worker = .current)
    (stood : state.phase worker = .current false)
    (advanced : state.server.advance messages handlers worker calls
      (.current false) = some (server, next)) :
    ServedFrom messages serve
      ⟨server, Function.update state.phase worker next⟩ := by
  simp only [DatagramServer.advance, Bool.false_eq_true, false_and, if_false]
    at advanced
  cases advanced
  have unlocked := served.ring_of_locked stood trivial
  have free : ¬ (ConnectionType.ud = .ud ∧ serve.ring.lock.isSome) := by
    rw [show serve.ring.lock = none from congrArg LockedRing.lock unlocked]
    simp
  have queue : serve.ring.queue = state.server.queue :=
    congrArg LockedRing.queue unlocked
  have count : serve.ring.requestCount = state.server.requestCount :=
    congrArg LockedRing.requestCount unlocked
  have begins : serve.ring.advance .ud messages worker .current =
      some (serve.ring.beginTurn .ud worker,
        .dispatch state.server.requestCount serve.ring.begun) := by
    rw [ServeRing.advance, if_neg free, count]
  have holds : state.server.lock = some worker :=
    served.holder worker (stood ▸ trivial)
  refine served.moved_inside running placed
    (leads_work (served.running_iff.mpr running) begins) served.account stood
    trivial ?_ rfl rfl rfl fun _ => .dispatch
  simp only [ServeRing.lockedRing, ServeRing.beginTurn, if_true, queue, count,
    DatagramServer.lockedRing, LockedRing.served,
    DatagramServer.rememberClient, holds]

theorem Served.work_dispatch (served : state.Served serve)
    (running : state.server.exited = false)
    (placed : serve.phase worker = .dispatch slot turn)
    (stood : state.phase worker = .dispatch slot)
    (advanced : state.server.advance messages handlers worker calls
      (.dispatch slot) = some (server, next)) :
    ServedFrom messages serve
      ⟨server, Function.update state.phase worker next⟩ := by
  have running' := served.running_iff.mpr running
  have sameRing : serve.ring.lockedRing = state.server.lockedRing :=
    served.ring_of_locked stood trivial
  have request : serve.ring.request messages slot =
      state.server.request messages slot := served.request slot
  simp only [DatagramServer.advance, ← request] at advanced
  split at advanced
  · next kills =>
      cases advanced
      have crashes : serve.ring.advance .ud messages worker
          (.dispatch slot turn) =
            some ({ serve.ring with exited := true }, .ended) := by
        rw [ServeRing.advance, if_pos kills]
      exact served.moved_inside running placed (leads_work running' crashes)
        (congrArg (fun account => (true, account.2)) served.account) stood
        trivial sameRing rfl rfl rfl (fun goesOn => by cases goesOn)
  · next survives =>
      split at advanced
      · next silent =>
          cases advanced
          exact served.moved_inside running placed
            (leads_work running' (ServeRing.advance_of_silent survives silent))
            served.account stood trivial sameRing rfl rfl rfl fun _ => .check
      · next reply answered =>
          cases advanced
          refine served.moved_inside running placed (leads_work running'
            (ServeRing.advance_of_answered survives answered))
            (served.posts worker _) stood trivial ?_ rfl rfl rfl fun _ => ?_
          · split <;> exact sameRing
          · split
            · exact .exitWait
            · exact .dispatchWait

/-- In the ring the slot is posted again as soon as the request is known. -/
theorem Served.work_check (served : state.Served serve)
    (running : state.server.exited = false)
    (placed : serve.phase worker = .check slot turn)
    (stood : state.phase worker = .check slot)
    (advanced : state.server.advance messages handlers worker calls
      (.check slot) = some (server, next)) :
    ServedFrom messages serve
      ⟨server, Function.update state.phase worker next⟩ := by
  cases advanced
  have sameRing : serve.ring.lockedRing = state.server.lockedRing :=
    served.ring_of_locked stood trivial
  have checked : serve.ring.advance .ud messages worker (.check slot turn) =
      some (if (state.server.request messages slot).method ≠ .unk then
        serve.ring.readyForNextRequest .ud else serve.ring,
        .switch slot turn) := by
    rw [ServeRing.advance, served.request]
  refine served.moved_inside running placed
    (leads_work (served.running_iff.mpr running) checked) ?_ stood trivial ?_
    rfl rfl rfl fun _ => ?_
  · rw [← served.account]
    split <;> rfl
  · split
    · exact congrArg LockedRing.ready sameRing
    · exact sameRing
  · split
    · exact .repost
    · exact .clear

theorem Served.work_respondWait (served : state.Served serve)
    (running : state.server.exited = false)
    (placed : serve.phase worker = .respondWait)
    (stood : state.phase worker = .respondWait)
    (advanced : state.server.advance messages handlers worker calls
      .respondWait = some (server, next)) :
    ServedFrom messages serve
      ⟨server, Function.update state.phase worker next⟩ := by
  obtain ⟨middle, waited, same⟩ := Option.map_eq_some_iff.mp advanced
  obtain ⟨sends, taken, rfl⟩ := Option.map_eq_some_iff.mp waited
  simp only [Prod.mk.injEq] at same
  obtain ⟨rfl, rfl⟩ := same
  obtain ⟨completed, account⟩ := served.takes taken
  have closes : serve.ring.advance .ud messages worker .respondWait =
      some (serve.ring.takeSend,
        if (state.server.request messages 0).connectionClose ≠ 0 then .ended
        else .prepare) := by
    rw [← served.request]
    exact if_pos completed
  have left : ({ state.server with sends := sends } :
      DatagramServer Worker Store).afterResponse messages =
        if (state.server.request messages 0).connectionClose ≠ 0 then .ended
        else .prepare := rfl
  rw [left]
  refine served.moved_outside running placed
    (leads_work (served.running_iff.mpr running) closes) account stood
    (fun ring => ?_) rfl rfl rfl ?_ fun _ => ?_
  · split <;> rfl
  · split <;> exact id
  · split
    · exact .ended
    · exact .prepare

/-- A step of a worker of the UD server is a run of its worker in the ring. -/
theorem Served.work (served : state.Served serve)
    (running : state.server.exited = false)
    (advanced : state.server.advance messages handlers worker calls
      (state.phase worker) = some (server, next)) :
    ServedFrom messages serve
      ⟨server, Function.update state.phase worker next⟩ := by
  have running' := served.running_iff.mpr running
  have stands := served.stands running worker
  have holder := served.holder worker
  have inside (locked : (state.phase worker).Locked) :=
    served.ring_of_locked rfl locked
  generalize stood : state.phase worker = phase at stands holder inside advanced
  generalize placed : serve.phase worker = place at stands
  cases stands with
  | prepare =>
      cases advanced
      exact served.moved_outside running placed (leads_work running' rfl)
        served.account stood (fun _ => rfl) rfl rfl rfl id fun _ => .receive
  | receive => exact served.work_receive running placed stood advanced
  | lock => exact served.work_lock running placed advanced
  | current => exact served.work_current running placed stood advanced
  | dispatch => exact served.work_dispatch running placed stood advanced
  | @dispatchWait slot turn =>
      obtain ⟨middle, waited, same⟩ := Option.map_eq_some_iff.mp advanced
      obtain ⟨sends, taken, rfl⟩ := Option.map_eq_some_iff.mp waited
      cases same
      obtain ⟨completed, account⟩ := served.takes taken
      have returns : serve.ring.advance .ud messages worker
          (.dispatchWait slot turn) =
            some (serve.ring.takeSend, .check slot turn) := if_pos completed
      exact served.moved_inside running placed (leads_work running' returns)
        account stood trivial (inside trivial) rfl rfl rfl fun _ => .check
  | exitWait =>
      obtain ⟨middle, waited, same⟩ := Option.map_eq_some_iff.mp advanced
      obtain ⟨sends, taken, rfl⟩ := Option.map_eq_some_iff.mp waited
      cases same
      obtain ⟨completed, account⟩ := served.takes taken
      have exits : serve.ring.advance .ud messages worker .exitWait =
          some ({ serve.ring.takeSend with exited := true }, .ended) :=
        if_pos completed
      exact served.moved_inside running placed (leads_work running' exits)
        (congrArg (fun account => (true, account.2)) account) stood trivial
        (inside trivial) rfl rfl rfl (fun goesOn => by cases goesOn)
  | check => exact served.work_check running placed stood advanced
  | repost =>
      -- the ring has changed with the test for UNK
      cases advanced
      exact served.moved_inside running placed (.refl _) served.account stood
        trivial (inside trivial) rfl rfl rfl fun _ => .count
  | count =>
      cases advanced
      exact served.moved_inside running placed (.refl _) served.account stood
        trivial (inside trivial) rfl rfl rfl fun _ => .unlock
  | unlock =>
      cases advanced
      refine served.moved running placed (.refl _) (inside trivial)
        served.account rfl rfl False.elim (fun other distinct held => ?_)
        fun _ => .clear
      exact absurd (Option.some.inj (held.symm.trans (holder trivial))) distinct
  | clear =>
      cases advanced
      exact served.moved_outside running placed (.refl _) served.account stood
        (fun _ => rfl) rfl rfl rfl id fun _ => .switch
  | @switch slot turn =>
      cases advanced
      have switched : serve.ring.advance .ud messages worker
          (.switch slot turn) = some (serve.ring,
            if (serve.ring.request messages slot).method.Handled then
              .handle slot turn else .respond) := rfl
      refine served.moved_outside running placed
        ((leads_work running' switched).trans ?_) served.account stood
        (fun _ => rfl) rfl rfl rfl id fun _ => .respond
      split
      · exact leads_work running' rfl
      · exact .refl _
  | respond =>
      cases advanced
      exact served.moved_outside running placed (leads_work running' rfl)
        (served.posts worker _) stood (fun _ => rfl) rfl rfl rfl id
        fun _ => .respondWait
  | respondWait => exact served.work_respondWait running placed stood advanced
  | ended => cases advanced

end Work

omit [DecidableEq Worker] in
theorem lockedRing_deliver {message : Option Nat}
    {queue : ReceiveQueue (Option Nat)} (statuses : List Bool)
    (delivered : state.server.queue.deliver message = some queue) :
    ∃ after, state.lockedRing.queue.deliver message = some after ∧
      lockedRing
        { state with server.queue := queue, server.statuses := statuses } =
          { state.lockedRing with queue := after } := by
  cases held : state.server.lock with
  | none =>
      simp only [lockedRing, held, DatagramServer.lockedRing]
      exact ⟨_, delivered, rfl⟩
  | some holder =>
      have delivered : state.server.lockedRing.queue.deliver message =
          some queue := delivered
      obtain ⟨after, lands, same⟩ :=
        LockedRing.served_deliver delivered (state.phase holder)
      rw [lockedRing_of_holder held]
      refine ⟨after, lands, Eq.trans ?_ same⟩
      exact lockedRing_of_holder held

theorem Served.arrive (served : state.Served serve)
    {queue : ReceiveQueue (Option Nat)}
    (delivered : state.server.queue.deliver
      (some state.server.queue.arrived) = some queue) :
    ServedFrom messages serve
      { state with
        server.queue := queue
        server.statuses := state.server.statuses ++ [true] } := by
  obtain ⟨after, lands, rings⟩ := lockedRing_deliver
    (state.server.statuses ++ [true]) delivered
  have same : serve.ring.queue = state.lockedRing.queue :=
    congrArg LockedRing.queue served.ring
  have arrives : (serving .ud messages).step serve .arrive =
      some { serve with ring.queue := after } := by
    simp only [serving, same, state.lockedRing_slots.2, lands, Option.map_some]
  obtain ⟨slot, -, rfl⟩ := ReceiveQueue.deliver_eq_some delivered
  refine ⟨_, .step .arrive arrives,
    { served with
      ring := ?_
      completed := ?_
      succeeded := fun successful member => ?_ }⟩
  · rw [rings, ← served.ring]
    rfl
  · rw [List.length_append, served.completed, List.length_singleton]
  · rcases List.mem_append.mp member with old | new
    · exact served.succeeded successful old
    · exact List.mem_singleton.mp new

theorem Served.complete (served : state.Served serve)
    (bounded : state.server.sends.wire.length ≤
      state.server.sends.posted.length) {sends : SendQueue Worker Response}
    (completed : state.server.sends.complete = some sends) :
    ServedFrom messages serve { state with server.sends := sends } := by
  obtain ⟨pending, same⟩ := Option.ite_none_right_eq_some.mp completed
  cases same
  have account := served.account
  simp only [ServeRing.account, DatagramServer.account, Prod.mk.injEq]
    at account
  obtain ⟨exited, received, sent, sendsDone, sendsWaited⟩ := account
  have before : serve.ring.sendsDone < serve.ring.sent := by omega
  refine ⟨_, .step .sendDone (if_pos before),
    { served with
      ring := served.ring
      account := ?_ }⟩
  simp only [ServeRing.account, DatagramServer.account, exited, received,
    sent, sendsDone, sendsWaited]

omit [DecidableEq Worker] in
theorem served_initial (store : Store) :
    (initial store : DatagramState Worker Store).Served (.initial .ud) where
  ring := rfl
  account := rfl
  completed := rfl
  succeeded _ member := by cases member
  holder _ locked := by cases locked
  stands _ _ := .prepare

/-- The adapter reads no more responses than there are. -/
theorem wire_le_posted {handlers : StoreHandlers Store} {store : Store}
    {guard : DatagramState Worker Store → DatagramLabel Worker → Prop}
    (reached : (datagramServer messages handlers store).GuardedReach guard
      state) :
    state.server.sends.wire.length ≤ state.server.sends.posted.length := by
  induction reached with
  | start initial =>
      obtain rfl : _ = _ := initial
      exact le_rfl
  | @next before _ _ _ _ stepTo bounded =>
      cases datagramServer_steps stepTo with
      | arrive | flush => exact bounded
      | transmit sent =>
          obtain ⟨posting, next, rfl⟩ := Option.map_eq_some_iff.mp sent
          have inside := (List.getElem?_eq_some_iff.mp next).1
          simp only [List.length_append, List.length_singleton]
          exact inside
      | complete completed =>
          obtain ⟨-, same⟩ := Option.ite_none_right_eq_some.mp completed
          cases same
          exact bounded
      | @failWait worker _ _ fails =>
          generalize before.phase worker = phase at fails
          cases fails <;> exact bounded
      | work serves =>
          rcases serves.send_cases with
            ⟨-, _, -, ⟨sends, -⟩ | ⟨sends, -⟩⟩ | ⟨-, -, taken⟩
          · rw [sends]
            exact bounded
          · rw [sends, SendQueue.post, List.length_append]
            exact Nat.le_add_right_of_le bounded
          · obtain ⟨posted, wire, -⟩ := SendQueue.take_eq_some taken
            rw [posted, wire]
            exact bounded

theorem Served.step {handlers : StoreHandlers Store} {store : Store}
    {label : DatagramLabel Worker} {next : DatagramState Worker Store}
    (served : state.Served serve)
    (bounded : state.server.sends.wire.length ≤
      state.server.sends.posted.length)
    (succeeds : ReceivesSucceed state label)
    (stepTo : (datagramServer messages handlers store).step state label =
      some next) :
    ServedFrom messages serve next := by
  cases label with
  | flush | failWait worker => exact succeeds.elim
  | arrive =>
      obtain ⟨server, arrived, rfl⟩ := Option.map_eq_some_iff.mp stepTo
      obtain ⟨queue, delivered, rfl⟩ := Option.map_eq_some_iff.mp arrived
      exact served.arrive delivered
  | transmit =>
      obtain ⟨server, moved, rfl⟩ := Option.map_eq_some_iff.mp stepTo
      obtain ⟨sends, sent, rfl⟩ := Option.map_eq_some_iff.mp moved
      obtain ⟨posting, -, rfl⟩ := Option.map_eq_some_iff.mp sent
      exact ⟨serve, .refl _, { served with
        ring := served.ring
        account := served.account }⟩
  | complete =>
      obtain ⟨server, moved, rfl⟩ := Option.map_eq_some_iff.mp stepTo
      obtain ⟨sends, completed, rfl⟩ := Option.map_eq_some_iff.mp moved
      exact served.complete bounded completed
  | work worker calls =>
      obtain ⟨running, moved⟩ := Option.ite_none_left_eq_some.mp stepTo
      obtain ⟨⟨server, phase⟩, advanced, rfl⟩ :=
        Option.map_eq_some_iff.mp moved
      exact served.work (by simpa using running) advanced

theorem datagramServer_serves {handlers : StoreHandlers Store} {store : Store}
    (reached : (datagramServer messages handlers store).GuardedReach
      ReceivesSucceed state) :
    ∃ serve, (serving .ud messages).Reachable serve ∧ state.Served serve := by
  induction reached with
  | start initial =>
      obtain rfl : _ = _ := initial
      exact ⟨_, .start rfl, served_initial store⟩
  | next earlier succeeds stepTo ih =>
      obtain ⟨serve, before, served⟩ := ih
      obtain ⟨later, leads, served'⟩ :=
        served.step (wire_le_posted earlier) succeeds stepTo
      exact ⟨later, leads.reachable before, served'⟩

end DatagramState

end RdmaKVStore
