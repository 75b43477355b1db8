import RdmaKVStore.DatagramSteps

/-!
# The lock of the UD server

`ud_receive_header` takes `lock` and `ready_for_next_request` gives it back,
two calls further up.  Two ways lead past that call: the test for UNK in
`main_job`, and a failed receive whose negated `errno` is taken for -1.
-/

namespace RdmaKVStore

variable {Worker Store : Type*} [DecidableEq Worker]
variable {messages : Nat → Request} {handlers : StoreHandlers Store}
variable {store : Store} {state : DatagramState Worker Store}

namespace DatagramPhase

/-- Between `pthread_mutex_lock` and `pthread_mutex_unlock`. -/
def Locked : DatagramPhase → Prop
  | .current _ | .dispatch _ | .dispatchWait _ | .exitWait | .check _
  | .repost _ | .count _ | .unlock _ | .crashed => True
  | .prepare | .receive | .lock _ | .clear _ | .switch _ | .respond
  | .respondWait | .ended => False

end DatagramPhase

/-- A worker at the head of its loop or out of it does not hold `lock`, and no
worker tries to take it while it holds it. -/
structure LockReturned (state : DatagramState Worker Store) : Prop where
  loop : ∀ worker,
    state.phase worker = .prepare ∨ state.phase worker = .ended →
      state.server.lock ≠ some worker
  retake : ∀ worker failed, state.phase worker = .lock failed →
    state.server.lock ≠ some worker

/-- The request that a worker tests is not an UNK, and `errno` is not 1 where
`ud_receive_header` reads it after a failed wait. -/
def DatagramPhase.LeavesNoLock (messages : Nat → Request)
    (server : DatagramServer Worker Store) (calls : WorkerCalls) :
    DatagramPhase → Prop
  | .check slot => (server.request messages slot).method ≠ .unk
  | .current failed => failed = true → calls.errno ≠ 1
  | _ => True

instance (messages : Nat → Request) (server : DatagramServer Worker Store)
    (calls : WorkerCalls) (phase : DatagramPhase) :
    Decidable (phase.LeavesNoLock messages server calls) :=
  match phase with
  | .check slot => inferInstanceAs
      (Decidable ((server.request messages slot).method ≠ .unk))
  | .current failed => inferInstanceAs
      (Decidable (failed = true → calls.errno ≠ 1))
  | .prepare | .receive | .lock _ | .dispatch _ | .dispatchWait _ | .exitWait
  | .repost _ | .count _ | .unlock _ | .clear _ | .switch _ | .respond
  | .respondWait | .ended | .crashed => isTrue trivial

/-- No worker takes one of the two ways past `ready_for_next_request`. -/
def LeavesNoLock (messages : Nat → Request)
    (state : DatagramState Worker Store) : DatagramLabel Worker → Prop
  | .work worker calls =>
      (state.phase worker).LeavesNoLock messages state.server calls
  | _ => True

instance (messages : Nat → Request) (state : DatagramState Worker Store)
    (label : DatagramLabel Worker) :
    Decidable (LeavesNoLock messages state label) :=
  match label with
  | .work worker calls => inferInstanceAs (Decidable
      ((state.phase worker).LeavesNoLock messages state.server calls))
  | .arrive | .flush | .transmit | .complete | .failWait _ => isTrue trivial

/-- The holder of `lock` is between taking it and giving it back. -/
def LockHeld (state : DatagramState Worker Store) : Prop :=
  ∀ worker, state.server.lock = some worker → (state.phase worker).Locked

/-- What a step of a worker does to `lock`: it takes it, gives it back, or
leaves it alone and, unless one of the two ways out is taken, stays where it
was inside or outside of the locked part. -/
theorem DatagramServes.lock_cases {worker : Worker} {calls : WorkerCalls}
    {server after : DatagramServer Worker Store}
    {before next : DatagramPhase}
    (serves : DatagramServes messages worker server calls before after next) :
    (after.lock = some worker ∧ next.Locked) ∨ after.lock = none ∨
      after.lock = server.lock ∧
        (before.Locked → next.Locked ∨
          before = .current true ∧ calls.errno = 1 ∨
          ∃ slot, before = .check slot ∧
            (server.request messages slot).method = .unk) := by
  cases serves with
  | lock => exact .inl ⟨rfl, trivial⟩
  | unlock => exact .inr (.inl rfl)
  | null one => exact .inr (.inr ⟨rfl, fun _ => .inr (.inl ⟨rfl, one⟩)⟩)
  | unknown method =>
      exact .inr (.inr ⟨rfl, fun _ => .inr (.inr ⟨_, rfl, method⟩)⟩)
  | current | crash | pass | answer | exit | answered | exited | known
  | repost | count => exact .inr (.inr ⟨rfl, fun _ => .inl trivial⟩)
  | prepare | receive | clear | switch | respond | close | again =>
      exact .inr (.inr ⟨rfl, False.elim⟩)

theorem DatagramFails.lock_kept {worker : Worker}
    {server after : DatagramServer Worker Store}
    {before next : DatagramPhase}
    (fails : DatagramFails messages worker server before after next) :
    after.lock = server.lock ∧ (before.Locked → next.Locked) := by
  cases fails with
  | answered | exited => exact ⟨rfl, fun _ => trivial⟩
  | receive | close | again => exact ⟨rfl, False.elim⟩

theorem LockHeld.serves {server after : DatagramServer Worker Store}
    {phase : Worker → DatagramPhase} {worker : Worker} {calls : WorkerCalls}
    {next : DatagramPhase} (held : LockHeld ⟨server, phase⟩)
    (guarded : (phase worker).LeavesNoLock messages server calls)
    (serves : DatagramServes messages worker server calls (phase worker) after
      next) :
    LockHeld ⟨after, Function.update phase worker next⟩ := by
  intro other locked
  simp only at locked ⊢
  rcases serves.lock_cases with ⟨mine, inside⟩ | none | ⟨kept, stays⟩
  · obtain rfl := Option.some.inj (mine.symm.trans locked)
    rwa [Function.update_self]
  · rw [none] at locked
    cases locked
  · have before := held other (kept ▸ locked)
    by_cases same : other = worker
    · subst same
      rw [Function.update_self]
      rcases stays before with inside | ⟨place, one⟩ | ⟨slot, place, unknown⟩
      · exact inside
      · rw [place] at guarded
        exact absurd one (guarded rfl)
      · rw [place] at guarded
        exact absurd unknown guarded
    · rwa [Function.update_of_ne same]

theorem LockHeld.fails {server after : DatagramServer Worker Store}
    {phase : Worker → DatagramPhase} {worker : Worker} {next : DatagramPhase}
    (held : LockHeld ⟨server, phase⟩)
    (fails : DatagramFails messages worker server (phase worker) after next) :
    LockHeld ⟨after, Function.update phase worker next⟩ := by
  obtain ⟨kept, stays⟩ := fails.lock_kept
  intro other locked
  have before : (phase other).Locked := held other (kept ▸ locked)
  by_cases same : other = worker
  · subst same
    simpa only [Function.update_self] using stays before
  · simpa only [Function.update_of_ne same] using before

theorem LockHeld.step {after : DatagramState Worker Store}
    {label : DatagramLabel Worker} (held : LockHeld state)
    (guarded : LeavesNoLock messages state label)
    (stepTo : (datagramServer messages handlers store).step state label =
      some after) : LockHeld after := by
  cases datagramServer_steps stepTo with
  | arrive | flush | transmit | complete => exact held
  | failWait fails => exact held.fails fails
  | work serves => exact held.serves guarded serves

omit [DecidableEq Worker] in
theorem LockHeld.lockReturned (held : LockHeld state) : LockReturned state where
  loop worker place locked := by
    have inside := held worker locked
    rcases place with phase | phase <;> rw [phase] at inside <;> exact inside
  retake worker failed place locked := by
    have inside := held worker locked
    rw [place] at inside
    exact inside

/-- In every run of any number of UD workers in which no UNK request reaches
the test in `main_job` and no failed receive finds `errno` at 1, `lock` is
given back in each turn. -/
theorem lockReturned_of_leavesNoLock
    (reached : (datagramServer messages handlers store).GuardedReach
      (LeavesNoLock messages) state) : LockReturned state := by
  have held : LockHeld state := reached.invariant
    (fun _ initial => by
      obtain rfl := initial
      intro worker locked
      cases locked)
    fun _ _ _ held guarded stepTo => held.step guarded stepTo
  exact held.lockReturned

/-- Steps of one worker in a row, with `errno` at 0. -/
def workerLabels (worker : Worker) (count : Nat) :
    List (DatagramLabel Worker) :=
  List.replicate count (.work worker ⟨0⟩)

def sendLabels : List (DatagramLabel Worker) :=
  [.transmit, .complete]

/-- A turn of worker 0 on a SET, and one of worker 1 on a PING that arrives
meanwhile. -/
def returningLabels : List (DatagramLabel Nat) :=
  [[.arrive], workerLabels 0 8, [.arrive], workerLabels 1 2,
    workerLabels 0 4, sendLabels, workerLabels 1 3, workerLabels 0 1,
    sendLabels, workerLabels 1 8, sendLabels, workerLabels 1 1].flatten

/-- Datagram 0 is a SET and all others are PINGs. -/
def setThenPings (number : Nat) : Request :=
  if number = 0 then .make .set [97] [1] else .make .ping [] []

theorem lockReturned_after_returningLabels :
    ∃ state : DatagramState Nat Unit,
      (datagramServer setThenPings .idle ()).run (.initial ())
        returningLabels = some state ∧ LockReturned state := by
  obtain ⟨state, runTo⟩ := Option.isSome_iff_exists.mp
    (show ((datagramServer setThenPings .idle ()).run
      (.initial () : DatagramState Nat Unit) returningLabels).isSome
        by decide +kernel)
  exact ⟨state, runTo, lockReturned_of_leavesNoLock
    (TransitionSystem.guardedReach_of_run (.start rfl)
      (show (datagramServer setThenPings .idle ()).RunGuarded
        (LeavesNoLock setThenPings) (.initial ()) returningLabels
          by decide +kernel) runTo)⟩

/-- A turn on an UNK request, and the next turn up to `lock`. -/
def keepingLabels : List (DatagramLabel Nat) :=
  [[.arrive], workerLabels 0 5, sendLabels, workerLabels 0 5, sendLabels,
    workerLabels 0 1, [.arrive], workerLabels 0 2].flatten

/-- After an UNK request the worker begins its next turn with `lock` in its
hands and then tries to take it again. -/
theorem unk_keeps_lock :
    ∃ state : DatagramState Nat Unit,
      (datagramServer (fun _ => .make .unk [] []) .idle ()).Reachable state ∧
        state.phase 0 = .lock false ∧ ¬ LockReturned state := by
  obtain ⟨state, runTo, checked⟩ := Option.map_eq_some_iff.mp
    (show ((datagramServer (fun _ => .make .unk [] []) .idle ()).run
        (.initial () : DatagramState Nat Unit) keepingLabels).map
          (fun state => (state.phase 0, state.server.lock)) =
      some (.lock false, some 0) by decide +kernel)
  obtain ⟨waits, held⟩ := Prod.mk.inj checked
  exact ⟨state, TransitionSystem.reachable_of_run (.start rfl) runTo, waits,
    fun returned => returned.retake 0 false waits held⟩

end RdmaKVStore
