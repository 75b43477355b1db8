import RdmaKVStore.ReceiveOverrun

/-!
# Failed receives

A failure of the receive step is a negative result on its way up, and the
RDMA transports replace it by the negated `errno`, which nobody has set for a
failed poll or completion.  `recv_request` recognizes only the value -1, so a
failed receive passes for a received request unless `errno` happens to be 1.
If it always is, what a turn executes has been received for that turn.
-/

namespace RdmaKVStore

variable {Store : Type*} {session : Session Store} {receipt : Receipt}

/-- The receive step fails: `select` or `read` over TCP, and over RDMA the wait
for an event, a poll, or the completion itself. -/
def Receipt.Fails (type : ConnectionType) (blocking : Bool)
    (receipt : Receipt) : Prop :=
  match type with
  | .tcp => receipt.select = -1 ∨ receipt.read ≠ requestSize
  | .rc | .uc | .ud =>
      receipt.wait.EventFails blocking ∨ receipt.wait.PollFails 1

/-- The value of `errno` makes the failure visible: it is 1 when the transport
reads it, and was positive when a failed wait for an event read it. -/
def Receipt.ErrnoReports (type : ConnectionType) (blocking : Bool)
    (receipt : Receipt) : Prop :=
  type = .tcp ∨ receipt.errno = 1 ∧
    (receipt.wait.EventFails blocking → 0 < receipt.wait.eventErrno)

/-- Over UD the worker gets the `lock` of the server. -/
def Receipt.LockHad (type : ConnectionType) (locked : Bool)
    (receipt : Receipt) : Prop :=
  type = .ud → locked = false ∧ receipt.lockObtained = true

/-- What `rc_receive_header`, `uc_receive_header` and `ud_receive_header`
return. -/
def Receipt.rdmaHeader (blocking : Bool) (receipt : Receipt) : Option Int :=
  (processWorkCompletionEvents blocking 1 receipt.wait).map fun ret =>
    if ret < 0 then -receipt.errno else ret

theorem Receipt.rdmaHeader_iff (receipt : Receipt) {blocking : Bool}
    (failed : receipt.wait.EventFails blocking ∨ receipt.wait.PollFails 1) :
    receipt.rdmaHeader blocking = some (-1) ↔
      receipt.errno = 1 ∧ (receipt.wait.EventFails blocking →
        0 < receipt.wait.eventErrno) := by
  by_cases eventFails : receipt.wait.EventFails blocking
  · rw [rdmaHeader, CompletionWait.process_of_eventFails eventFails,
      Option.map_some, Option.some.injEq]
    simp only [eventFails, forall_const]
    split <;> omega
  · obtain ⟨ret, negative, processed⟩ :=
      CompletionWait.process_of_pollFails eventFails
        (failed.resolve_left eventFails)
    rw [rdmaHeader, processed, Option.map_some, if_pos negative,
      Option.some.injEq]
    simp only [eventFails, false_implies, and_true]
    omega

namespace Session

theorem recvRequest_null_iff :
    (∃ after, session.recvRequest receipt = some (.null after)) ↔
      ∃ after, session.receiveHeader receipt = some (-1, after) := by
  constructor
  · rintro ⟨after, received⟩
    obtain ⟨⟨header, middle⟩, headerEq, same⟩ :=
      Option.map_eq_some_iff.mp received
    by_cases closed : header = -1
    · exact ⟨middle, closed ▸ headerEq⟩
    · simp only [closed, if_false] at same
      split at same <;> cases same
  · rintro ⟨after, headerEq⟩
    exact ⟨after, by simp [recvRequest, headerEq]⟩

theorem rdmaReceiveHeader_iff
    (failed : receipt.wait.EventFails session.blocking ∨
      receipt.wait.PollFails 1) :
    (∃ after, session.rdmaReceiveHeader receipt = some (-1, after)) ↔
      receipt.errno = 1 ∧ (receipt.wait.EventFails session.blocking →
        0 < receipt.wait.eventErrno) := by
  rw [← receipt.rdmaHeader_iff failed, Receipt.rdmaHeader]
  simp [rdmaReceiveHeader]

theorem receiveHeader_iff
    (failed : receipt.Fails session.type session.blocking) :
    (∃ after, session.receiveHeader receipt = some (-1, after)) ↔
      receipt.ErrnoReports session.type session.blocking ∧
        receipt.LockHad session.type session.locked := by
  cases type : session.type with
  | tcp =>
      simp only [Receipt.Fails, type] at failed
      simp only [receiveHeader, type, Receipt.ErrnoReports, Receipt.LockHad,
        true_or, reduceCtorEq, false_implies, and_self, iff_true]
      by_cases selectFails : receipt.select = -1
      · exact ⟨session, by rw [tcpReceiveHeader, if_pos selectFails]⟩
      · exact ⟨_, by rw [tcpReceiveHeader, if_neg selectFails,
          if_pos (failed.resolve_left selectFails)]⟩
  | rc | uc =>
      simp only [Receipt.Fails, type] at failed
      simp only [receiveHeader, type, Receipt.ErrnoReports, Receipt.LockHad,
        reduceCtorEq, false_or, false_implies, and_true]
      exact rdmaReceiveHeader_iff failed
  | ud =>
      simp only [Receipt.Fails, type] at failed
      simp only [receiveHeader, type, Receipt.ErrnoReports, Receipt.LockHad,
        reduceCtorEq, false_or, forall_const, udReceiveHeader]
      by_cases waits : session.locked = true ∨ receipt.lockObtained = false
      · rw [if_pos waits]
        constructor
        · rintro ⟨after, blocked⟩
          cases blocked
        · rintro ⟨-, unlocked, obtained⟩
          simp [unlocked, obtained] at waits
      · rw [if_neg waits]
        have inner : (∃ after,
            { session with type := .ud, locked := true }.rdmaReceiveHeader
              receipt = some (-1, after)) ↔ _ := rdmaReceiveHeader_iff failed
        apply inner.trans
        simp only [not_or, Bool.not_eq_true, Bool.not_eq_false] at waits
        simp [waits.1, waits.2]

theorem receiveHeader_of_errnoReports
    (failed : receipt.Fails session.type session.blocking)
    (reports : receipt.ErrnoReports session.type session.blocking) :
    session.receiveHeader receipt = none ∨
      ∃ after, session.receiveHeader receipt = some (-1, after) := by
  by_cases had : receipt.LockHad session.type session.locked
  · exact .inr ((receiveHeader_iff failed).mpr ⟨reports, had⟩)
  · simp only [Receipt.LockHad, Classical.not_imp] at had
    obtain ⟨type, waits⟩ := had
    refine .inl ?_
    rw [receiveHeader, type]
    apply if_pos
    by_cases unlocked : session.locked = false
    · exact .inr (by simpa [unlocked] using waits)
    · exact .inl (by simpa using unlocked)

variable (handlers : StoreHandlers Store)

theorem mainTurn_of_null {turn : Turn} {after : Session Store} {ended : Bool}
    (null : ∃ after,
      session.prepareForNextRequest.recvRequest receipt = some (.null after))
    (turned : session.mainTurn handlers receipt = some (turn, after, ended)) :
    turn.served = none := by
  obtain ⟨closed, received⟩ := null
  simp only [mainTurn, received, Option.map_some, Option.some.injEq,
    Prod.mk.injEq] at turned
  obtain ⟨rfl, -, -⟩ := turned
  rfl

theorem mainTurn_of_fails_iff
    (failed : receipt.Fails session.type session.blocking) :
    ((∃ after,
        session.prepareForNextRequest.recvRequest receipt =
          some (.null after)) ∧
      ∀ turn after ended,
        session.mainTurn handlers receipt = some (turn, after, ended) →
          turn.served = none) ↔
      receipt.ErrnoReports session.type session.blocking ∧
        receipt.LockHad session.type session.locked := by
  obtain ⟨type, blocking⟩ := Prod.mk.inj
    (config_prepareForNextRequest session)
  have reported := recvRequest_null_iff.trans (receiveHeader_iff
    (show receipt.Fails session.prepareForNextRequest.type
      session.prepareForNextRequest.blocking by rwa [type, blocking]))
  rw [type, blocking, locked_prepareForNextRequest] at reported
  rw [← reported]
  exact ⟨And.left, fun null => ⟨null, fun turn after ended turned =>
    mainTurn_of_null handlers null turned⟩⟩

theorem not_fails_of_served {turn : Turn} {after : Session Store}
    {ended : Bool} {request : Request}
    (reports : receipt.Fails session.type session.blocking →
      receipt.ErrnoReports session.type session.blocking)
    (turned : session.mainTurn handlers receipt = some (turn, after, ended))
    (served : turn.served = some request) :
    ¬ receipt.Fails session.type session.blocking := by
  intro failed
  obtain ⟨type, blocking⟩ := Prod.mk.inj
    (config_prepareForNextRequest session)
  rcases receiveHeader_of_errnoReports
    (show receipt.Fails session.prepareForNextRequest.type
      session.prepareForNextRequest.blocking by rwa [type, blocking])
    (by rw [type, blocking]; exact reports failed) with blocked | closed
  · simp [mainTurn, recvRequest, blocked] at turned
  · have null := recvRequest_null_iff.mpr closed
    rw [mainTurn_of_null handlers null turned] at served
    cases served

theorem mainTurn_serves_message (tcp : session.type = .tcp)
    (filled : receipt.read = requestSize → receipt.message.isSome)
    {turn : Turn} {after : Session Store} {ended : Bool} {request : Request}
    (turned : session.mainTurn handlers receipt = some (turn, after, ended))
    (served : turn.served = some request) :
    ¬ receipt.Fails .tcp session.blocking ∧
      receipt.message = some request := by
  have succeeds := not_fails_of_served handlers (fun _ => .inl tcp) turned
    served
  rw [tcp] at succeeds
  refine ⟨succeeds, ?_⟩
  obtain ⟨selected, whole⟩ := not_or.mp succeeds
  have whole : receipt.read = requestSize := not_not.mp whole
  obtain ⟨message, put⟩ := Option.isSome_iff_exists.mp (filled whole)
  have prepared : session.prepareForNextRequest = session := by
    simp only [prepareForNextRequest, tcp]
  have header : session.receiveHeader receipt =
      some (requestSize, session.readInto (some message)) := by
    simp only [receiveHeader, tcp, tcpReceiveHeader, if_neg selected, whole,
      put, ne_eq, not_true_eq_false, if_false]
  have current : (session.readInto (some message)).getCurrentRequest =
      message := Function.update_self _ _ _
  obtain ⟨received, recv, turned⟩ := Option.map_eq_some_iff.mp turned
  rw [prepared, recvRequest, header, Option.map_some, Option.some.injEq]
    at recv
  simp only [show requestSize ≠ -1 by decide, if_false, current] at recv
  split at recv <;> subst recv <;> cases turned
  · cases served
  · exact put.trans served

theorem mainLoop_serves_message (tcp : session.type = .tcp)
    {receipts : List Receipt}
    (filled : ∀ receipt ∈ receipts,
      receipt.read = requestSize → receipt.message.isSome)
    {index : Nat} {turn : Turn} {request : Request}
    (turned : (session.mainLoop handlers receipts)[index]? = some turn)
    (served : turn.served = some request) :
    ∃ receipt, receipts[index]? = some receipt ∧
      ¬ receipt.Fails .tcp session.blocking ∧
      receipt.message = some request := by
  induction receipts generalizing session index with
  | nil => simp [mainLoop] at turned
  | cons receipt receipts ih =>
      have first := filled receipt (by simp)
      simp only [mainLoop] at turned
      split at turned
      case h_1 => simp at turned
      case h_2 turn' after turnedFirst =>
        cases index with
        | zero =>
            obtain rfl : turn' = turn := by simpa using turned
            exact ⟨receipt, rfl, mainTurn_serves_message handlers tcp first
              turnedFirst served⟩
        | succ index => simp at turned
      case h_3 turn' after turnedFirst =>
        cases index with
        | zero =>
            obtain rfl : turn' = turn := by simpa using turned
            exact ⟨receipt, rfl, mainTurn_serves_message handlers tcp first
              turnedFirst served⟩
        | succ index =>
            obtain ⟨type, blocking⟩ := Prod.mk.inj
              (config_mainTurn handlers turnedFirst)
            rw [List.getElem?_cons_succ] at turned ⊢
            rw [← blocking]
            exact ih (type.trans tcp) (fun receipt member =>
              filled receipt (by simp [member])) turned

end Session

/-! ### Workers of a ring -/

/-- A step of the workers of a ring and its adapter, or a receive step of a
worker that fails. -/
inductive ReceiveLabel (type : ConnectionType) (blocking : Bool)
    (Worker : Type*)
  | serve (label : ServeLabel Worker)
  | fail (worker : Worker) (receipt : Receipt)
      (failed : receipt.Fails type blocking)

namespace ServeState

variable {Worker : Type*} [DecidableEq Worker]

def goTo (state : ServeState Worker) (worker : Worker) (phase : ServePhase) :
    ServeState Worker :=
  { state with phase := Function.update state.phase worker phase }

/-- `main_job` returns for NULL; `ud_receive_header` has taken `lock`. -/
def returnNull (state : ServeState Worker) (type : ConnectionType)
    (worker : Worker) : ServeState Worker :=
  { state with
    ring.lock := if type = .ud then some worker else state.ring.lock
    phase := Function.update state.phase worker .ended }

end ServeState

/-- The workers of a ring with failing receive steps.  `recv_request` returns
NULL for the header -1, and any other one passes for a request. -/
def failing {Worker : Type*} [DecidableEq Worker] (type : ConnectionType)
    (blocking : Bool) (messages : Nat → Request) :
    TransitionSystem (ServeState Worker)
      (ReceiveLabel type blocking Worker) where
  initial state := state = .initial type
  step state
    | .serve label => (serving type messages).step state label
    | .fail worker receipt _ =>
        if state.phase worker = .receive ∧ state.ring.exited = false then
          (receipt.rdmaHeader blocking).bind fun header =>
            if header = -1 then
              if type = .ud ∧ state.ring.lock.isSome then none
              else some (state.returnNull type worker)
            else some (state.goTo worker .current)
        else none

/-- `errno` reports the failure of a receive step. -/
def FailureReported {Worker : Type*} (type : ConnectionType) (blocking : Bool)
    (_ : ServeState Worker) : ReceiveLabel type blocking Worker → Prop
  | .serve _ => True
  | .fail _ receipt _ => receipt.ErrnoReports type blocking

/-- Unless more further messages have arrived than the ring has slots, what a
worker executes is the message of its turn, and its completion has been
taken. -/
def ExecutesReceived {Worker : Type*} (type : ConnectionType)
    (state : ServeState Worker) : Prop :=
  ∀ worker slot turn,
    state.phase worker = .switch slot turn ∨
        state.phase worker = .handle slot turn →
      state.ring.queue.arrived ≤ turn + ringSize type →
        turn < state.ring.received ∧
          state.ring.queue.slots slot = some turn

/-- The runs with reported failures, followed by the workers without failures:
a worker that has returned NULL corresponds to one that waits for good, and
over UD it keeps `lock`. -/
inductive Follows {Worker : Type*} [DecidableEq Worker]
    (type : ConnectionType) (free : ServeState Worker) :
    ServeState Worker → Prop
  | same : Follows type free free
  | lost {worker : Worker} (waits : free.phase worker = .receive)
      (unlocked : type = .ud → free.ring.lock = none) :
      Follows type free (free.returnNull type worker)

section Runs

variable {Worker : Type*} [DecidableEq Worker] {type : ConnectionType}
variable {blocking : Bool} {messages : Nat → Request}

/-- Without `lock`, a worker only goes on outside of the locked part, where
nothing depends on it. -/
theorem advance_of_unlocked [Fintype Worker] {state : ServeState Worker}
    (reached : (serving .ud messages).Reachable state)
    (unlocked : state.ring.lock = none) {worker holder : Worker}
    {ring : ServeRing Worker} {next : ServePhase}
    (advanced : { state.ring with lock := some holder }.advance .ud messages
      worker (state.phase worker) = some (ring, next)) :
    ∃ ring', state.ring.advance .ud messages worker (state.phase worker) =
        some (ring', next) ∧
      ring = { ring' with lock := some holder } ∧ ring'.lock = none := by
  have reposted := (SharedRing.of_reachable reached).reposted worker
  have inside {claim : Prop} (held : state.ring.lock = some worker) : claim :=
    absurd (held.symm.trans unlocked) (by simp)
  generalize state.phase worker = phase at advanced reposted
  cases phase with
  | dispatch | dispatchWait | check => exact inside reposted.1
  | current => simp [ServeRing.advance] at advanced
  | ended => cases advanced
  | receive | exitWait | respondWait =>
      obtain ⟨completed, same⟩ := Option.ite_none_right_eq_some.mp advanced
      cases same
      exact ⟨_, if_pos completed, rfl, unlocked⟩
  | prepare | switch | handle | respond =>
      cases advanced
      exact ⟨_, rfl, rfl, unlocked⟩

variable {free state after : ServeState Worker}
variable {label : ReceiveLabel type blocking Worker}

theorem phase_returnNull (worker : Worker) :
    (free.returnNull type worker).phase worker = .ended :=
  Function.update_self _ _ _

theorem phase_returnNull_of_ne {worker other : Worker}
    (distinct : other ≠ worker) :
    (free.returnNull type worker).phase other = free.phase other :=
  Function.update_of_ne distinct _ _

/-- The others go on as if the lost worker waited. -/
theorem Follows.serve [Fintype Worker]
    (single : type ≠ .ud → Subsingleton Worker)
    (reached : (serving type messages).Reachable free) {worker : Worker}
    (waits : free.phase worker = .receive)
    (unlocked : type = .ud → free.ring.lock = none)
    {label : ServeLabel Worker}
    (stepTo : (serving type messages).step (free.returnNull type worker)
      label = some after) :
    ∃ free', (serving type messages).Reachable free' ∧
      Follows type free' after := by
  cases label with
  | arrive =>
      obtain ⟨queue, delivered, rfl⟩ := Option.map_eq_some_iff.mp stepTo
      have stepped : (serving type messages).step free .arrive =
          some { free with ring.queue := queue } := by
        simp only [serving]
        rw [show free.ring.queue.deliver (some free.ring.queue.arrived) =
          some queue from delivered]
        rfl
      exact ⟨_, .next reached trivial stepped, .lost waits unlocked⟩
  | sendDone =>
      obtain ⟨pending, same⟩ := Option.ite_none_right_eq_some.mp stepTo
      cases same
      have stepped : (serving type messages).step free .sendDone =
          some { free with ring.sendsDone := free.ring.sendsDone + 1 } :=
        if_pos pending
      exact ⟨_, .next reached trivial stepped, .lost waits unlocked⟩
  | work other =>
      obtain ⟨going, moved⟩ := Option.ite_none_left_eq_some.mp stepTo
      obtain ⟨⟨ring, next⟩, advanced, rfl⟩ := Option.map_eq_some_iff.mp moved
      have distinct : other ≠ worker := by
        rintro rfl
        rw [phase_returnNull] at advanced
        cases advanced
      have shared : type = .ud := by
        by_contra alone
        exact distinct ((single alone).elim other worker)
      subst shared
      rw [phase_returnNull_of_ne distinct] at advanced
      obtain ⟨ring, stepped, rfl, still⟩ :=
        advance_of_unlocked reached (unlocked rfl) advanced
      have stepped : (serving .ud messages).step free (.work other) =
          some (⟨ring, Function.update free.phase other next⟩) := by
        simp only [serving]
        rw [if_neg (show ¬ free.ring.exited = true from going), stepped]
        rfl
      have waiting : (Function.update free.phase other next) worker =
          .receive := by
        rw [Function.update_of_ne distinct.symm, waits]
      let free' : ServeState Worker :=
        ⟨ring, Function.update free.phase other next⟩
      have lost : Follows .ud free' (free'.returnNull .ud worker) :=
        .lost waiting fun _ => still
      refine ⟨free', .next reached trivial stepped, ?_⟩
      have phase : Function.update free'.phase worker .ended =
          Function.update (Function.update free.phase worker .ended) other
            next := Function.update_comm distinct _ _ _
      rw [ServeState.returnNull, phase] at lost
      exact lost

theorem exists_follows [Fintype Worker] (rdma : type ≠ .tcp)
    (single : type ≠ .ud → Subsingleton Worker)
    (reached : (failing type blocking messages).GuardedReach
      (FailureReported type blocking) state) :
    ∃ free, (serving type messages).Reachable free ∧
      Follows type free state := by
  induction reached with
  | start initial => exact ⟨_, .start initial, .same⟩
  | @next before after label earlier guarded stepTo ih =>
      obtain ⟨free, reached, follows⟩ := ih
      cases label with
      | serve label =>
          cases follows with
          | same => exact ⟨after, .next reached trivial stepTo, .same⟩
          | lost waits unlocked =>
              exact Follows.serve single reached waits unlocked stepTo
      | fail worker receipt failed =>
          obtain ⟨⟨waits, -⟩, moved⟩ :=
            Option.ite_none_right_eq_some.mp stepTo
          have header : receipt.rdmaHeader blocking = some (-1) := by
            refine (receipt.rdmaHeader_iff ?_).mpr
              (guarded.resolve_left rdma)
            cases type with
            | tcp => exact absurd rfl rdma
            | rc | uc | ud => exact failed
          rw [header, Option.bind_some, if_pos rfl] at moved
          obtain ⟨unlocked, same⟩ := Option.ite_none_left_eq_some.mp moved
          cases same
          have unlocked : type = .ud → before.ring.lock = none :=
            fun shared => by simpa [shared] using unlocked
          cases follows with
          | same => exact ⟨before, reached, .lost waits unlocked⟩
          | @lost gone _ _ =>
              -- the first lost worker has `lock`, or is the only one
              by_cases shared : type = .ud
              · have held := unlocked shared
                simp [ServeState.returnNull, shared] at held
              · obtain rfl := (single shared).elim gone worker
                rw [phase_returnNull] at waits
                cases waits

/-- What a worker executes has been received for its turn, if all failures are
reported. -/
theorem executesReceived [Fintype Worker] (rdma : type ≠ .tcp)
    (single : type ≠ .ud → Subsingleton Worker)
    (known : type = .ud ∨ ∀ number, (messages number).method ≠ .unk)
    (reached : (failing type blocking messages).GuardedReach
      (FailureReported type blocking) state) :
    ExecutesReceived type state := by
  obtain ⟨free, reached, follows⟩ := exists_follows rdma single reached
  intro worker slot turn executes few
  have points : (state.phase worker).pointer = some (slot, turn) := by
    rcases executes with phase | phase <;> rw [phase] <;> rfl
  suffices ring : state.ring.queue = free.ring.queue ∧
      state.ring.received = free.ring.received ∧
      state.phase worker = free.phase worker by
    obtain ⟨queue, received, phase⟩ := ring
    rw [queue] at few ⊢
    rw [phase] at points
    have counted := Counted.of_reachable single reached
    have begun := counted.turns worker slot turn points
    have account := counted.begun
    exact ⟨by omega, (content_of_pointer single known reached points few).2.2⟩
  cases follows with
  | same => exact ⟨rfl, rfl, rfl⟩
  | @lost gone waits _ =>
      refine ⟨rfl, rfl, phase_returnNull_of_ne ?_⟩
      rintro rfl
      rw [phase_returnNull] at points
      cases points

end Runs

/-- A completion with an error status while `errno` is 0. -/
def silentFailure : Receipt where
  select := 0
  read := 0
  wait :=
    { getCqEvent := 0
      reqNotifyCq := 0
      eventErrno := 0
      polls := [.completed [5]] }
  errno := 0
  lockObtained := true
  message := none
  socket := ⟨0, 0, []⟩

theorem silentFailure_fails : silentFailure.Fails .rc false :=
  .inr (.inr ⟨[5], rfl, 5, by decide, by decide⟩)

/-- A turn on a SET, and a receive that fails in the next one. -/
def reportedLabels {Worker : Type*} (worker : Worker) :
    List (ReceiveLabel .rc false Worker) :=
  (([.work worker, .arrive] ++ List.replicate 7 (.work worker) ++
      [.sendDone, .work worker, .work worker] :
        List (ServeLabel Worker))).map .serve ++
    [.fail worker { silentFailure with errno := 1 } silentFailure_fails]

end RdmaKVStore
