import RdmaKVStore.RcAnswers
import RdmaKVStore.RcProgress
import RdmaKVStore.WorkerProgress

/-!
# Every operation on the store over RC returns

The clients share the adapters' completions with nobody, but their workers
share the table and its locks.  A worker whose request is in progress can
always go on, unless it waits for a mutex, whose holder then can; and a worker
that waits for anything else waits for its own client and adapter only.
-/

namespace RdmaKVStore

theorem Advances.ne_idle {ht after : HashTable} {worker : WorkerId}
    {stale : HashItem} {before next : Phase}
    (advances : Advances ht worker stale before after next) :
    next ≠ .idle := by
  cases advances <;> nofun

theorem Phase.first_isSome {request : Request}
    (handled : request.method.Handled) : (Phase.first request).isSome := by
  rcases handled with method | method | method <;> simp [Phase.first, method]

theorem Phase.finished_of_current {phase : Phase}
    (none_ : phase.current = none) : phase.Finished := by
  cases phase with
  | idle | finished => trivial
  | _ => cases none_

theorem Phase.Finished.outcome_isSome {phase : Phase}
    (finished : phase.Finished) (begun : phase ≠ .idle) :
    phase.outcome.isSome := by
  cases phase with
  | idle => exact absurd rfl begun
  | finished request response => rfl
  | _ => exact finished.elim

namespace RcStore

variable {messages : WorkerId → Nat → Request} {state before after : RcStore}
variable {worker : WorkerId} {clients : Finset WorkerId}

/-- These clients and their workers go on, and no client sends its next
request. -/
def NoNewRequest (clients : Finset WorkerId) (state : RcStore) :
    RcStoreLabel → Prop
  | .session worker label =>
      worker ∈ clients ∧ (state.session worker).NoNewRequest label
  | .handler worker _ => worker ∈ clients

/-- Every client has the response to every request it has sent. -/
def Returned (state : RcStore) : Prop :=
  ∀ worker, (state.session worker).Returned

/-- The steps that a connection and its worker may still need: a step of the
connection may begin a request, which takes six steps of the worker. -/
def remainingFor (state : RcStore) (worker : WorkerId) : Nat :=
  7 * (state.session worker).remaining +
    (state.store.work.phase worker).remaining

def remaining (clients : Finset WorkerId) (state : RcStore) : Nat :=
  ∑ worker ∈ clients, state.remainingFor worker

theorem NoNewRequest.present {label : RcStoreLabel}
    (known : state.NoNewRequest clients label) : label.worker ∈ clients := by
  cases label with
  | session worker label => exact known.1
  | handler worker stale => exact known

theorem handle_of_moved {label : RcLabel} {session : RcSession}
    {slot turn : Nat}
    (moved : (rcSession (messages worker)).step (before.session worker)
      label = some session)
    (server : ∀ thread, label = .server (.work thread) →
      ∀ slot turn, (before.session worker).server.phase 0 ≠ .switch slot turn)
    (place : session.server.phase 0 = .handle slot turn) :
    (before.session worker).server.phase 0 = .handle slot turn := by
  rcases rcSession_step_cases moved with
    ⟨served, next, rfl, -, worked, rfl⟩ | ⟨-, -, rfl⟩ | ⟨-, -, rfl⟩ |
      ⟨next, -, -, rfl⟩
  · rcases serving_step_cases worked with
      ⟨queue, -, -, rfl⟩ | ⟨-, -, rfl⟩ |
        ⟨thread, ring, phase, rfl, serves, rfl⟩
    · exact place
    · exact place
    · obtain rfl := Subsingleton.elim 0 thread
      simp only [Function.update_self] at place
      subst place
      generalize here : (before.session worker).server.phase 0 = from_ at serves
      cases serves with
      | handler handled => exact absurd here (server 0 rfl _ _)
  all_goals exact place

/-- While the loop of a worker is in the handler, the worker has taken up a
request. -/
theorem begun_of_reachable (reached : (rcStore messages).Reachable state)
    {slot turn : Nat}
    (place : (state.session worker).server.phase 0 = .handle slot turn) :
    state.store.work.phase worker ≠ .idle := by
  induction reached with
  | start initial =>
      obtain rfl := initial
      cases place
  | @next before after label _ _ stepTo ih =>
      have steps := rcStore_steps stepTo
      by_cases own : worker = label.worker
      · subst own
        cases steps with
        | handler at_ advanced =>
            obtain ⟨work, workStep, rfl⟩ := Option.map_eq_some_iff.mp advanced
            obtain ⟨⟨table, next⟩, moved, rfl⟩ :=
              Option.map_eq_some_iff.mp workStep
            simp only [RcStoreLabel.worker, Function.update_self]
            exact (advance_advances moved).ne_idle
        | start moved at_ started =>
            obtain ⟨work, workStep, rfl⟩ := Option.map_eq_some_iff.mp started
            obtain ⟨-, begun⟩ := Option.ite_none_right_eq_some.mp workStep
            obtain ⟨phase, first, rfl⟩ := Option.map_eq_some_iff.mp begun
            simp only [RcStoreLabel.worker, Function.update_self]
            rintro rfl
            cases Phase.current_of_first first
        | returned moved at_ outcome =>
            obtain ⟨ring, next, rfl, serves, -⟩ := work_cases moved
            simp only [RcStoreLabel.worker, Function.update_self] at place
            rw [at_, place] at serves
            cases serves
        | arrives moved | read moved at_ =>
            simp only [RcStoreLabel.worker, Function.update_self] at place
            exact ih (handle_of_moved moved (fun _ none => by cases none) place)
        | other moved arrives client server =>
            simp only [RcStoreLabel.worker, Function.update_self] at place
            exact ih (handle_of_moved moved
              (fun thread same slot turn => (server thread same slot turn).1)
              place)
      · have frame := steps.frame own
        rw [frame.session] at place
        rw [frame.work]
        exact ih place

theorem remainingFor_lt
    (handled : ∀ worker number, (messages worker number).method.Handled)
    (reached : (rcStore messages).Reachable before) {label : RcStoreLabel}
    (known : before.NoNewRequest clients label)
    (stepTo : (rcStore messages).step before label = some after) :
    after.remainingFor label.worker < before.remainingFor label.worker := by
  have balanced := session_balanced handled reached
  have balancedAfter :=
    session_balanced handled (.next reached trivial stepTo)
  cases rcStore_steps stepTo with
  | handler at_ advanced =>
      obtain ⟨work, workStep, rfl⟩ := Option.map_eq_some_iff.mp advanced
      obtain ⟨⟨table, next⟩, moved, rfl⟩ :=
        Option.map_eq_some_iff.mp workStep
      have closer := (advance_advances moved).remaining_lt
      simp only [remainingFor, RcStoreLabel.worker, Function.update_self]
      omega
  | @start worker thread session store slot turn moved at_ started =>
      obtain ⟨work, workStep, rfl⟩ := Option.map_eq_some_iff.mp started
      obtain ⟨-, begun⟩ := Option.ite_none_right_eq_some.mp workStep
      obtain ⟨phase, first, rfl⟩ := Option.map_eq_some_iff.mp begun
      have balancedAfter := balancedAfter worker
      simp only [Function.update_self] at balancedAfter
      have closer := RcSession.remaining_lt (balanced worker) balancedAfter
        known.2 moved
      have steps := phase.remaining_le
      simp only [remainingFor, RcStoreLabel.worker, Function.update_self]
      omega
  | @returned worker thread session slot turn request response moved
  | @arrives worker session moved | @read worker session moved
  | @other worker label session moved =>
      have balancedAfter := balancedAfter worker
      simp only [Function.update_self] at balancedAfter
      have closer := RcSession.remaining_lt (balanced worker) balancedAfter
        known.2 moved
      simp only [remainingFor, RcStoreLabel.worker, Function.update_self]
      omega

theorem remaining_lt
    (handled : ∀ worker number, (messages worker number).method.Handled)
    (reached : (rcStore messages).Reachable before) {label : RcStoreLabel}
    (known : before.NoNewRequest clients label)
    (stepTo : (rcStore messages).step before label = some after) :
    after.remaining clients < before.remaining clients := by
  have closer := remainingFor_lt handled reached known stepTo
  refine Finset.sum_lt_sum (fun worker _ => ?_)
    ⟨label.worker, known.present, closer⟩
  by_cases own : worker = label.worker
  · subst own
    exact closer.le
  · have frame := (rcStore_steps stepTo).frame own
    rw [remainingFor, frame.session, frame.work, remainingFor]

theorem remaining_le
    (handled : ∀ worker number, (messages worker number).method.Handled)
    (reached : (rcStore messages).Reachable state) :
    state.remaining clients ≤ 146 * clients.card := by
  rw [Nat.mul_comm]
  refine Finset.sum_le_card_nsmul _ _ _ fun worker _ => ?_
  have session := (session_balanced handled reached worker).remaining_le
  have work := (state.store.work.phase worker).remaining_le
  rw [remainingFor]
  omega

/-- The loop of a worker may go on when the worker has no request in
progress. -/
theorem carry_isSome
    (handled : ∀ worker number, (messages worker number).method.Handled)
    (reached : (rcStore messages).Reachable state)
    (finished : (state.store.work.phase worker).Finished) (label : RcLabel) :
    (state.carry messages worker label).isSome := by
  cases label with
  | responseArrives | client | sendDone => rfl
  | server served =>
      cases served with
      | arrive | sendDone => rfl
      | work thread =>
          obtain rfl : thread = 0 := Subsingleton.elim _ _
          rw [carry, serve]
          split
          case h_1 slot turn place =>
            have request : state.request messages worker slot =
                messages worker turn :=
              (session_balanced handled reached worker).request_of_pointer
                (by rw [place]; rfl)
            have first := Phase.first_isSome (handled worker turn)
            rw [Option.isSome_map, request]
            simp only [orderedWorkers, workers, if_pos finished,
              Option.isSome_map, first]
          case h_2 slot turn place =>
            have begun := begun_of_reachable reached place
            rw [Option.isSome_map]
            exact finished.outcome_isSome begun
          case h_3 => rfl

theorem exists_step
    (handled : ∀ worker number, (messages worker number).method.Handled)
    (stays : ∀ worker, StaysOpen (messages worker))
    (reached : (rcStore messages).GuardedReach (OnlyClients clients) state)
    (unmet : ¬ state.Returned) :
    ∃ label, state.NoNewRequest clients label ∧
      ((rcStore messages).step state label).isSome := by
  by_cases busy : state.store.work.Answered
  · -- no request is in progress, so a connection decides about its own steps
    rw [Returned, not_forall] at unmet
    obtain ⟨worker, unmet⟩ := unmet
    have present : worker ∈ clients := by
      by_contra absent
      rw [(initial_sameFor reached absent).session] at unmet
      exact unmet ⟨rfl, rfl, rfl⟩
    obtain ⟨label, own, possible⟩ := RcSession.exists_step
      (fun number => (handled worker number).stored) (stays worker)
      (session_reachable reached.reachable worker) unmet
    obtain ⟨session, moved⟩ := Option.isSome_iff_exists.mp possible
    refine ⟨.session worker label, ⟨present, own⟩, ?_⟩
    simp only [rcStore, moved, Option.bind_some, Option.isSome_map]
    exact carry_isSome handled reached.reachable (busy worker) label
  · obtain ⟨worker, possible⟩ := (sound_of_reachable
      (reachable_of_ordered (store_reachable reached.reachable))).exists_advance
        busy
    have possible := possible .zero
    obtain ⟨work, workStep⟩ := Option.isSome_iff_exists.mp possible
    obtain ⟨⟨table, next⟩, moved, -⟩ := Option.map_eq_some_iff.mp workStep
    have unfinished := (advance_advances moved).busy
    have present : worker ∈ clients := by
      by_contra absent
      rw [(initial_sameFor reached absent).work] at unfinished
      exact unfinished trivial
    have inside : ¬ ((state.session worker).server.phase 0).Outside :=
      fun outside => unfinished (Phase.finished_of_current
        ((Theirs.of_reachable handled reached.reachable worker).outside
          outside))
    simp only [ServePhase.Outside, ne_eq, not_forall, not_not] at inside
    obtain ⟨slot, turn, place⟩ := inside
    refine ⟨.handler worker .zero, present, ?_⟩
    simp only [rcStore, handlerStep, Fin.last_zero, place, orderedWorkers,
      Option.isSome_map]
    exact possible

/-- The clients and their workers work towards the responses. -/
theorem progress
    (handled : ∀ worker number, (messages worker number).method.Handled)
    (stays : ∀ worker, StaysOpen (messages worker))
    (clients : Finset WorkerId) :
    (rcStore messages).Progress (NoNewRequest clients)
      ((rcStore messages).GuardedReach (OnlyClients clients)) Returned
      (remaining clients) where
  preserved _ _ _ reached known stepTo := .next reached known.present stepTo
  lowers _ _ _ reached known stepTo :=
    remaining_lt handled reached.reachable known stepTo
  enabled _ reached := exists_step handled stays reached

/-- No client deletes from a bucket that another one sets or reads. -/
def DelsApart (messages : WorkerId → Nat → Request) : Prop :=
  ∀ worker other, worker ≠ other → ∀ number number',
    ¬ (messages worker number).MeetsRemoval (messages other number')

theorem store_removalsApart
    (handled : ∀ worker number, (messages worker number).method.Handled)
    (apart : DelsApart messages)
    (reached : (rcStore messages).Reachable state) :
    workers.GuardedReach RemovalsApart state.store.work := by
  induction reached with
  | start initial => exact .start (initial ▸ rfl)
  | @next before after label earlier _ moved ih =>
      cases rcStore_steps moved with
      | returned | arrives | read | other => exact ih
      | handler _ advanced =>
          obtain ⟨work, workStep, rfl⟩ := Option.map_eq_some_iff.mp advanced
          refine .next ih ?_ workStep
          trivial
      | @start worker thread session store slot turn moved place started =>
          obtain ⟨work, workStep, rfl⟩ := Option.map_eq_some_iff.mp started
          refine .next ih ?_ workStep
          intro other current inProgress
          have theirs := Theirs.of_reachable handled earlier
          have request : before.request messages worker slot =
              messages worker turn :=
            (session_balanced handled earlier worker).request_of_pointer
              (by rw [place]; rfl)
          obtain ⟨number, rfl⟩ := (theirs other).own current inProgress
          rw [request]
          refine apart worker other (fun same => ?_) turn number
          subst same
          have idle := (theirs worker).outside
            fun _ _ handling => by rw [place] at handling; cases handling
          rw [idle] at inProgress
          cases inProgress

end RcStore

/-- Two clients of one key: the SET of the one has taken the mutex when the SET
of the other waits for it. -/
def sameKeyMessages (worker : WorkerId) (_ : Nat) : Request :=
  .make .set [121] [worker.toUInt8]

def sameKeyLabels : List RcStoreLabel :=
  let served (worker : WorkerId) : RcStoreLabel :=
    .session worker (.server (.work (Fin.last 0)))
  let client (worker : WorkerId) : RcStoreLabel := .session worker .client
  [[client 0, client 1, .session 0 (.server .arrive),
      .session 1 (.server .arrive)],
    List.replicate 6 (served 0), List.replicate 2 (.handler 0 .zero),
    List.replicate 6 (served 1)].flatten

end RdmaKVStore
