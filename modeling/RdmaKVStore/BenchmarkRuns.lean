import Mathlib.Algebra.BigOperators.Group.Finset.Basic
import Mathlib.Data.Fintype.BigOperators
import Mathlib.Logic.Function.Iterate
import RdmaKVStore.TimeSpan

/-!
# Runs of the benchmark

The operation loop of `start_instance`, the record loop of `data_processing`,
and the division of the work among the client threads by `main`.  All
allocations succeed, and a thread has read its arguments before `main` reuses
them.  The throughput that is printed, a quotient of doubles, is left out.
-/

namespace RdmaKVStore

/-- `struct operation`: two pointers, each null or to a block that holds a time
or has not been written yet. -/
structure Operation where
  start : Option (Option TimeVal)
  finish : Option (Option TimeVal)
  deriving DecidableEq

/-- The `ops` array of a thread: the number of its entries, what lies at each
index, and the indices that were written. -/
structure OpsArray where
  length : Nat
  entries : Nat → Operation
  written : List Nat

namespace OpsArray

/-- `calloc(num_ops, sizeof(struct operation))` -/
def calloc (numOps : Nat) : OpsArray where
  length := numOps
  entries _ := ⟨none, none⟩
  written := []

def write (ops : OpsArray) (index : Nat) (operation : Operation) : OpsArray :=
  { ops with
    entries := Function.update ops.entries index operation
    written := index :: ops.written }

def WithinLength (ops : OpsArray) : Prop :=
  ∀ index ∈ ops.written, index < ops.length

instance (ops : OpsArray) : Decidable ops.WithinLength :=
  inferInstanceAs (Decidable (∀ index ∈ ops.written, _))

end OpsArray

/-- What `send_request` and `receive_response` return in one attempt. -/
structure ClientAttempt where
  sent : Int
  received : Int

/-- The loop until a response is received: whether one is, or a call fails;
`none` while the attempts go on. -/
def retryLoop : List ClientAttempt → Option Bool
  | [] => none
  | returned :: rest =>
      if returned.sent ≠ 0 then some false
      else if returned.received < 0 then some false
      else if returned.received = 0 then retryLoop rest
      else some true

def Responded (attempts : List ClientAttempt) : Prop :=
  retryLoop attempts = some true

def Fails (attempts : List ClientAttempt) : Prop :=
  retryLoop attempts = some false

instance (attempts : List ClientAttempt) : Decidable (Responded attempts) :=
  inferInstanceAs (Decidable (_ = _))

instance (attempts : List ClientAttempt) : Decidable (Fails attempts) :=
  inferInstanceAs (Decidable (_ = _))

/-- A thread: its array, `count`, and the number of its clock readings. -/
structure InstanceRun where
  ops : OpsArray
  count : Nat
  readings : Nat

namespace InstanceRun

def initial (numOps : Nat) : InstanceRun where
  ops := .calloc numOps
  count := 0
  readings := 0

variable (clock : Nat → TimeVal) (run : InstanceRun)

/-- Both blocks of the entry are allocated, and the start is written. -/
def startTimer : InstanceRun :=
  { run with
    ops := run.ops.write run.count
      ⟨some (some (clock run.readings)), some none⟩
    readings := run.readings + 1 }

/-- The end is written to its block, which leaves the array itself alone. -/
def stopTimer : InstanceRun where
  ops := { run.ops with
    entries := Function.update run.ops.entries run.count
      { run.ops.entries run.count with
        finish := some (some (clock run.readings)) } }
  count := run.count + 1
  readings := run.readings + 1

def answer : InstanceRun :=
  (run.startTimer clock).stopTimer clock

end InstanceRun

/-- The operation loop, whose condition is tested at its end.  The arguments are
the clock readings of the thread and the attempts of each operation. -/
def operationLoop (clock : Nat → TimeVal) (numOps : Nat)
    (outcomes : Nat → List ClientAttempt) :
    Nat → InstanceRun → Option InstanceRun
  | 0, _ => none
  | fuel + 1, run =>
      match retryLoop (outcomes run.count) with
      | none => none
      | some false => some (run.startTimer clock)
      | some true =>
          let next := (run.startTimer clock).stopTimer clock
          if next.count < numOps then
            operationLoop clock numOps outcomes fuel next
          else some next

def startInstance (clock : Nat → TimeVal) (numOps : Nat)
    (outcomes : Nat → List ClientAttempt) : Option InstanceRun :=
  operationLoop clock numOps outcomes (numOps + 1) (.initial numOps)

/-- A line of the result file; `none` where a block was never written. -/
structure Record where
  start : Option TimeVal
  finish : Option TimeVal
  latency : Option Int
  deriving DecidableEq

/-- The loop of `data_processing`, with the iterations that remain. -/
def recordLoop (ops : OpsArray) : Nat → Nat → List Record
  | 0, _ => []
  | remaining + 1, count =>
      match (ops.entries count).start, (ops.entries count).finish with
      | some start, some finish =>
          let latency := Option.map₂
            (fun last first => (last.timersub first).micros) finish start
          ⟨start, finish, latency⟩ :: recordLoop ops remaining (count + 1)
      | _, _ => []

/-- What `data_processing` counts, and what it writes if it saves. -/
structure Processed where
  count : Nat
  file : Option (List Record)

/-- `num_ops / clients`, which bounds the loop, is the number of operations of a
thread. -/
def dataProcessing (save : Bool) (ops : OpsArray) (numOps : Nat) : Processed :=
  let records := recordLoop ops numOps 0
  { count := records.length
    file := if save then some records else none }

/-- The threads that `main` creates. -/
def startThreads {clients : Nat} (clock : Fin clients → Nat → TimeVal)
    (numOps : Nat) (outcomes : Fin clients → Nat → List ClientAttempt)
    (thread : Fin clients) : Option InstanceRun :=
  startInstance (clock thread) (numOps / clients) (outcomes thread)

/-- The state after so many answered operations: the entry of each holds the two
clock readings it took, and those behind them are as `calloc` left them. -/
structure AfterOps (clock : Nat → TimeVal) (numOps answered : Nat)
    (run : InstanceRun) : Prop where
  count : run.count = answered
  readings : run.readings = 2 * answered
  length : run.ops.length = numOps
  done : ∀ index < answered, run.ops.entries index =
    ⟨some (some (clock (2 * index))), some (some (clock (2 * index + 1)))⟩
  fresh : ∀ index, answered ≤ index → run.ops.entries index = ⟨none, none⟩
  written : ∀ index, index ∈ run.ops.written ↔ index < answered

section Operations

variable {clock : Nat → TimeVal} {numOps answered : Nat} {run : InstanceRun}
variable {outcomes : Nat → List ClientAttempt}

namespace AfterOps

theorem initial : AfterOps clock numOps 0 (.initial numOps) where
  count := rfl
  readings := rfl
  length := rfl
  done _ before := absurd before (Nat.not_lt_zero _)
  fresh _ _ := rfl
  written _ := iff_of_false List.not_mem_nil (Nat.not_lt_zero _)

theorem answer (after : AfterOps clock numOps answered run) :
    AfterOps clock numOps (answered + 1) (run.answer clock) where
  count := congrArg (· + 1) after.count
  readings := by
    simp only [InstanceRun.answer, InstanceRun.startTimer,
      InstanceRun.stopTimer, after.readings]
    omega
  length := after.length
  done index before := by
    simp only [InstanceRun.answer, InstanceRun.startTimer,
      InstanceRun.stopTimer, OpsArray.write, after.count, after.readings,
      Function.update_self]
    by_cases last : index = answered
    · rw [last, Function.update_self]
    · rw [Function.update_of_ne last, Function.update_of_ne last]
      exact after.done index (by omega)
  fresh index behind := by
    have other : index ≠ answered := by omega
    simp only [InstanceRun.answer, InstanceRun.startTimer,
      InstanceRun.stopTimer, OpsArray.write, after.count,
      Function.update_of_ne other]
    exact after.fresh index (by omega)
  written index := by
    change index ∈ run.count :: run.ops.written ↔ index < answered + 1
    rw [List.mem_cons, after.written, after.count]
    omega

variable (clock numOps) in
theorem iterate (answered : Nat) :
    AfterOps clock numOps answered
      ((InstanceRun.answer clock)^[answered] (.initial numOps)) := by
  induction answered with
  | zero => exact initial
  | succ answered ih =>
      rw [Function.iterate_succ_apply']
      exact ih.answer

end AfterOps

theorem operationLoop_iterate (steps fuel : Nat)
    (answers : ∀ step < steps, Responded (outcomes (run.count + step)))
    (more : steps ≠ 0 → run.count + steps < numOps) :
    operationLoop clock numOps outcomes (fuel + steps) run =
      operationLoop clock numOps outcomes fuel
        ((InstanceRun.answer clock)^[steps] run) := by
  induction steps generalizing run with
  | zero => rfl
  | succ steps ih =>
      have first : retryLoop (outcomes run.count) = some true :=
        answers 0 steps.succ_pos
      have bound := more steps.succ_ne_zero
      have next : (run.answer clock).count = run.count + 1 := rfl
      rw [Function.iterate_succ_apply, ← ih]
      · rw [← Nat.add_assoc, operationLoop, first]
        exact if_pos (show (run.answer clock).count < numOps by omega)
      · intro step before
        rw [next, Nat.add_assoc, Nat.add_comm 1]
        exact answers (step + 1) (by omega)
      · intro _
        omega

/-- A run in which all operations are answered performs `num_ops` of them, or
one if `num_ops` is zero. -/
theorem startInstance_of_answered
    (answers : ∀ step < max 1 numOps, Responded (outcomes step)) :
    startInstance clock numOps outcomes =
      some ((InstanceRun.answer clock)^[max 1 numOps] (.initial numOps)) := by
  obtain ⟨steps, total⟩ : ∃ steps, max 1 numOps = steps + 1 :=
    ⟨max 1 numOps - 1, by omega⟩
  have fuel : numOps + 1 = numOps - steps + 1 + steps := by omega
  have before := AfterOps.iterate clock numOps steps
  rw [startInstance, fuel, operationLoop_iterate]
  · have last : retryLoop (outcomes ((InstanceRun.answer clock)^[steps]
        (.initial numOps)).count) = some true := by
      rw [before.count]
      exact answers steps (by omega)
    rw [operationLoop, last, total, Function.iterate_succ_apply']
    refine if_neg (not_lt.mpr ?_)
    rw [← InstanceRun.answer, before.answer.count]
    omega
  · intro step early
    exact answers _ (by simp only [InstanceRun.initial]; omega)
  · intro _
    simp only [InstanceRun.initial]
    omega

theorem startInstance_of_fails (few : answered < numOps)
    (answers : ∀ step < answered, Responded (outcomes step))
    (fails : Fails (outcomes answered)) :
    startInstance clock numOps outcomes =
      some (((InstanceRun.answer clock)^[answered]
        (.initial numOps)).startTimer clock) := by
  have before := AfterOps.iterate clock numOps answered
  have fuel : numOps + 1 = numOps - answered + 1 + answered := by omega
  rw [startInstance, fuel, operationLoop_iterate]
  · rw [operationLoop, before.count,
      show retryLoop (outcomes answered) = some false from fails]
  · intro step early
    exact answers _ (by simpa [InstanceRun.initial] using early)
  · intro _
    simpa [InstanceRun.initial] using few

end Operations

theorem length_recordLoop {ops : OpsArray} {taken remaining count : Nat}
    (within : taken ≤ remaining)
    (set : ∀ index < taken, (ops.entries (count + index)).start ≠ none ∧
      (ops.entries (count + index)).finish ≠ none)
    (stops : taken < remaining → (ops.entries (count + taken)).start = none) :
    (recordLoop ops remaining count).length = taken := by
  induction remaining generalizing taken count with
  | zero => exact (Nat.le_zero.mp within).symm
  | succ remaining ih =>
      cases taken with
      | zero =>
          have null : (ops.entries count).start = none :=
            stops remaining.succ_pos
          simp only [recordLoop, null, List.length_nil]
      | succ taken =>
          obtain ⟨start, startEq⟩ :=
            Option.ne_none_iff_exists'.mp (set 0 taken.succ_pos).1
          obtain ⟨finish, finishEq⟩ :=
            Option.ne_none_iff_exists'.mp (set 0 taken.succ_pos).2
          rw [Nat.add_zero] at startEq finishEq
          simp only [recordLoop, startEq, finishEq, List.length_cons]
          refine congrArg (· + 1) (ih (by omega) ?_ ?_)
          · intro index before
            rw [Nat.add_assoc, Nat.add_comm 1]
            exact set (index + 1) (by omega)
          · intro short
            rw [Nat.add_assoc, Nat.add_comm 1]
            exact stops (by omega)

theorem entry_of_mem_recordLoop {ops : OpsArray} {remaining count : Nat}
    {record : Record} (member : record ∈ recordLoop ops remaining count) :
    ∃ index < count + remaining,
      ops.entries index = ⟨some record.start, some record.finish⟩ := by
  induction remaining generalizing count with
  | zero => exact absurd member List.not_mem_nil
  | succ remaining ih =>
      rw [recordLoop] at member
      split at member
      · next start finish startEq finishEq =>
          rcases List.mem_cons.mp member with rfl | member
          · refine ⟨count, by omega, ?_⟩
            rw [← startEq, ← finishEq]
          · obtain ⟨index, before, entry⟩ := ih member
            exact ⟨index, by omega, entry⟩
      · exact absurd member List.not_mem_nil

def TakenDuring (clock : Nat → TimeVal) (run : InstanceRun)
    (time : Option TimeVal) : Prop :=
  ∃ reading < run.readings, time = some (clock reading)

/-- So many records are counted, as many are written if any are, and both times
of each were taken during the run. -/
def OnlyAnswered (clock : Nat → TimeVal) (run : InstanceRun) (answered : Nat)
    (processed : Processed) : Prop :=
  processed.count = answered ∧ ∀ records ∈ processed.file,
    records.length = answered ∧ ∀ record ∈ records,
      TakenDuring clock run record.start ∧ TakenDuring clock run record.finish

namespace AfterOps

variable {clock : Nat → TimeVal} {numOps answered : Nat} {run : InstanceRun}

theorem length_records (after : AfterOps clock answered answered run) :
    (recordLoop run.ops answered 0).length = answered := by
  refine length_recordLoop le_rfl ?_ (absurd · (lt_irrefl _))
  intro index before
  rw [Nat.zero_add, after.done index before]
  exact ⟨Option.some_ne_none _, Option.some_ne_none _⟩

theorem length_records_startTimer (after : AfterOps clock numOps answered run)
    (short : answered < numOps) :
    (recordLoop (run.startTimer clock).ops numOps 0).length = answered + 1 := by
  refine length_recordLoop short ?_ ?_
  · intro index before
    simp only [InstanceRun.startTimer, OpsArray.write, after.count,
      Nat.zero_add]
    rcases Nat.lt_succ_iff_lt_or_eq.mp before with earlier | rfl
    · rw [Function.update_of_ne earlier.ne, after.done index earlier]
      exact ⟨Option.some_ne_none _, Option.some_ne_none _⟩
    · rw [Function.update_self]
      exact ⟨Option.some_ne_none _, Option.some_ne_none _⟩
  · intro _
    simp only [InstanceRun.startTimer, OpsArray.write, after.count,
      Nat.zero_add]
    rw [Function.update_of_ne (Nat.succ_ne_self answered),
      after.fresh _ answered.le_succ]

theorem takenDuring (after : AfterOps clock answered answered run)
    {record : Record} (member : record ∈ recordLoop run.ops answered 0) :
    TakenDuring clock run record.start ∧
      TakenDuring clock run record.finish := by
  obtain ⟨index, before, entry⟩ := entry_of_mem_recordLoop member
  rw [Nat.zero_add] at before
  rw [after.done index before] at entry
  obtain ⟨start, finish⟩ := (Operation.mk.injEq ..).mp entry
  constructor
  · refine ⟨2 * index, ?_, (Option.some.inj start).symm⟩
    rw [after.readings]
    omega
  · refine ⟨2 * index + 1, ?_, (Option.some.inj finish).symm⟩
    rw [after.readings]
    omega

end AfterOps

section Measurement

variable (clock : Nat → TimeVal) (save : Bool)
variable {numOps answered : Nat} {outcomes : Nat → List ClientAttempt}

/-- For every run whose first operations are answered, and of which the next one
fails if there is one, only answered operations are measured exactly if all
operations are answered: the entry of the failing one has both pointers. -/
theorem recordsAnswered_iff (positive : 1 ≤ numOps) (few : answered ≤ numOps)
    (answers : ∀ step < answered, Responded (outcomes step))
    (fails : answered < numOps → Fails (outcomes answered)) :
    ∃ run, startInstance clock numOps outcomes = some run ∧
      (OnlyAnswered clock run answered
        (dataProcessing save run.ops numOps) ↔ answered = numOps) := by
  have after := AfterOps.iterate clock numOps answered
  rcases Nat.lt_or_eq_of_le few with short | rfl
  · refine ⟨_, startInstance_of_fails short answers (fails short), ?_⟩
    refine iff_of_false (fun only => ?_) short.ne
    exact Nat.succ_ne_self answered
      ((after.length_records_startTimer short).symm.trans only.1)
  · have total : max 1 answered = answered := max_eq_right positive
    refine ⟨_, startInstance_of_answered (by rwa [total]), ?_⟩
    rw [total]
    refine iff_of_true ⟨after.length_records, ?_⟩ rfl
    intro records written
    have saved : save = true ∧ recordLoop ((InstanceRun.answer clock)^[answered]
        (.initial answered)).ops answered 0 = records := by
      simpa [dataProcessing] using written
    rw [← saved.2]
    exact ⟨after.length_records, fun record => after.takenDuring⟩

end Measurement

def secondsClock (reading : Nat) : TimeVal where
  sec := reading
  usec := 0

/-- The first operation is answered in its second attempt, and the others in
their first one. -/
def answeringServer : Nat → List ClientAttempt
  | 0 => [⟨0, 0⟩, ⟨0, 40⟩]
  | _ + 1 => [⟨0, 40⟩]

def leavingServer : Nat → List ClientAttempt
  | 0 => [⟨0, 40⟩]
  | _ + 1 => [⟨0, 0⟩, ⟨-103, 0⟩]

theorem answeringServer_recordsAnswered :
    ∃ run, startInstance secondsClock 2 answeringServer = some run ∧
      OnlyAnswered secondsClock run 2 (dataProcessing true run.ops 2) :=
  (recordsAnswered_iff secondsClock true (by decide) le_rfl (by decide)
    (by decide)).imp fun _ ran => ran.imp_right fun only => only.mpr rfl

/-- The record of the failing operation is counted and written, with an end time
that was never taken. -/
theorem leavingServer_overcounted :
    Responded (leavingServer 0) ∧ Fails (leavingServer 1) ∧
      ∃ run, startInstance secondsClock 2 leavingServer = some run ∧
        (dataProcessing true run.ops 2).count = 2 ∧
        ((dataProcessing true run.ops 2).file.bind (·[1]?)).map
          Record.finish = some none ∧
        ¬ OnlyAnswered secondsClock run 1 (dataProcessing true run.ops 2) :=
  ⟨by decide, by decide, _, rfl, rfl, rfl,
    fun only => absurd only.1 (by decide)⟩

section Division

variable {clients : Nat} (clock : Fin clients → Nat → TimeVal) (numOps : Nat)
variable (outcomes : Fin clients → Nat → List ClientAttempt)

/-- If every operation is answered, the threads perform `num_ops` operations in
total and stay within their arrays exactly if the division by the number of
clients leaves no remainder and gives each something to do. -/
theorem workDivided_iff (positive : 1 ≤ clients)
    (answers : ∀ thread step, Responded (outcomes thread step)) :
    ∃ runs : Fin clients → InstanceRun,
      (∀ thread,
        startThreads clock numOps outcomes thread = some (runs thread)) ∧
      ((∑ thread, (runs thread).count = numOps ∧
          ∀ thread, (runs thread).ops.WithinLength) ↔
        0 < numOps ∧ clients ∣ numOps) := by
  let share := numOps / clients
  have after := fun thread => AfterOps.iterate (clock thread) share
    (max 1 share)
  refine ⟨fun thread => (InstanceRun.answer (clock thread))^[max 1 share]
    (.initial share), ?_, ?_⟩
  · exact fun thread =>
      startInstance_of_answered fun step _ => answers thread step
  · have total : ∑ thread, ((InstanceRun.answer (clock thread))^[max 1 share]
        (.initial share)).count = clients * max 1 share := by
      rw [Finset.sum_const_nat fun thread _ => (after thread).count,
        Finset.card_univ, Fintype.card_fin]
    rw [total]
    constructor
    · rintro ⟨sum, within⟩
      -- the last operation of a thread has an entry of its array
      have bound := within ⟨0, positive⟩ (max 1 share - 1)
        (((after _).written _).mpr (by omega))
      rw [(after _).length] at bound
      have work : max 1 share = share := by omega
      rw [work] at sum
      refine ⟨Nat.pos_of_ne_zero ?_, share, sum.symm⟩
      rintro rfl
      have idle : share = 0 := Nat.zero_div clients
      omega
    · rintro ⟨needed, quotient, rfl⟩
      have shareEq : share = quotient :=
        Nat.mul_div_cancel_left quotient positive
      have work : max 1 share = share :=
        max_eq_right (shareEq ▸ Nat.pos_of_mul_pos_left needed)
      refine ⟨by rw [work, shareEq], ?_⟩
      intro thread index written
      rw [(after thread).length]
      rw [work] at written
      exact (work ▸ (after thread).written index).mp written

end Division

/-- Two clients divide six operations. -/
theorem sixOps_divided :
    ∃ runs : Fin 2 → InstanceRun,
      (∀ thread, startThreads (fun _ => secondsClock) 6
        (fun _ _ => [⟨0, 40⟩]) thread = some (runs thread)) ∧
      ∑ thread, (runs thread).count = 6 ∧
        ∀ thread, (runs thread).ops.WithinLength :=
  (workDivided_iff (fun _ => secondsClock) 6 (fun _ _ => [⟨0, 40⟩])
    (by decide) fun _ _ => rfl).imp fun _ ran =>
      ran.imp_right fun divided => divided.mpr (by decide)

/-- Two clients perform two of three operations; and a client with none to
perform performs one, and writes an entry of an array without entries. -/
theorem threeOps_lost :
    (∃ runs : Fin 2 → InstanceRun,
      (∀ thread, startThreads (fun _ => secondsClock) 3
        (fun _ _ => [⟨0, 40⟩]) thread = some (runs thread)) ∧
      ∑ thread, (runs thread).count = 2 ∧ ∑ thread, (runs thread).count ≠ 3) ∧
    ∃ runs : Fin 1 → InstanceRun,
      (∀ thread, startThreads (fun _ => secondsClock) 0
        (fun _ _ => [⟨0, 40⟩]) thread = some (runs thread)) ∧
      ∑ thread, (runs thread).count = 1 ∧
      ¬ ∀ thread, (runs thread).ops.WithinLength :=
  ⟨⟨fun _ => (InstanceRun.initial 1).answer secondsClock, fun _ => rfl,
      by decide⟩,
    ⟨fun _ => (InstanceRun.initial 0).answer secondsClock, fun _ => rfl,
      by decide⟩⟩

end RdmaKVStore
