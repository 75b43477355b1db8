import Mathlib.Data.Prod.Lex
import Mathlib.Order.MinMax
import RdmaKVStore.Requests

/-!
# Time span of a benchmark

The loop of `throughput.py` over the result files of one transport and number
of clients, with `calc_time_difference` of `util.py`, and `timersub`, by which
`benchmark.c` subtracts.  Python's integers are unbounded.
-/

namespace RdmaKVStore

/-- `struct timeval`, and a pair of columns of a result file. -/
@[ext]
structure TimeVal where
  sec : Int
  usec : Int
  deriving DecidableEq

namespace TimeVal

def micros (time : TimeVal) : Int :=
  time.sec * 1000000 + time.usec

/-- A time as `gettimeofday` reads it. -/
def Normal (time : TimeVal) : Prop :=
  0 ≤ time.sec ∧ 0 ≤ time.usec ∧ time.usec < 1000000

instance (time : TimeVal) : Decidable time.Normal :=
  inferInstanceAs (Decidable (_ ∧ _ ∧ _))

/-- Times are compared by their seconds first. -/
def lex (time : TimeVal) : Int ×ₗ Int :=
  toLex (time.sec, time.usec)

theorem lex_injective : Function.Injective lex := by
  intro first second same
  obtain ⟨sec, usec⟩ := Prod.mk.inj (toLex.injective same)
  exact TimeVal.ext sec usec

instance : LinearOrder TimeVal :=
  LinearOrder.lift' lex lex_injective

theorem lt_iff {first second : TimeVal} :
    first < second ↔ first.sec < second.sec ∨
      first.sec = second.sec ∧ first.usec < second.usec :=
  Prod.Lex.toLex_lt_toLex

theorem le_iff_micros_le {first second : TimeVal} (firstNormal : first.Normal)
    (secondNormal : second.Normal) :
    first ≤ second ↔ first.micros ≤ second.micros := by
  rw [← not_lt, lt_iff]
  obtain ⟨-, _, _⟩ := firstNormal
  obtain ⟨-, _, _⟩ := secondNormal
  unfold micros
  omega

/-- `timersub` -/
def timersub (last first : TimeVal) : TimeVal :=
  let sec := last.sec - first.sec
  let usec := last.usec - first.usec
  if usec < 0 then ⟨sec - 1, usec + 1000000⟩ else ⟨sec, usec⟩

end TimeVal

/-- `calc_time_difference`.  The statement `--result_sec` of its borrow negates
twice and changes nothing. -/
def calcTimeDifference (startSec startUsec endSec endUsec : Int) : Int × Int :=
  let resultSec := endSec - startSec
  let resultUsec := endUsec - startUsec
  if resultUsec < 0 then (resultSec, resultUsec + 1000000)
  else (resultSec, resultUsec)

/-- What `throughput.py` takes from a result file: the parts of its name, the
start of its first record and the end of its last one. -/
structure ResultFile where
  type : ConnectionType
  numberClients : Nat
  numberOps : Nat
  first : TimeVal
  last : TimeVal

/-- `sys.maxsize` -/
def maxsize : Int := 9223372036854775807

structure SpanScan where
  start : TimeVal
  finish : TimeVal
  opCount : Nat
  deriving DecidableEq

namespace SpanScan

def initial : SpanScan where
  start := ⟨maxsize, maxsize⟩
  finish := ⟨0, 0⟩
  opCount := 0

/-- The update of `current_start_sec` and `current_start_usec`. -/
def updateStart (current first : TimeVal) : TimeVal :=
  if first.sec < current.sec then first
  else if first.sec = current.sec then
    if first.usec < current.usec then { current with usec := first.usec }
    else current
  else current

/-- The update of `current_end_sec` and `current_end_usec`. -/
def updateEnd (current last : TimeVal) : TimeVal :=
  if last.sec > current.sec then last
  else if last.sec = current.sec then
    if last.usec > current.usec then { current with usec := last.usec }
    else current
  else current

def scan (type : ConnectionType) (numberClients : Nat) (state : SpanScan)
    (file : ResultFile) : SpanScan :=
  if type ≠ file.type ∨ file.numberClients ≠ numberClients then state
  else
    { start := updateStart state.start file.first
      finish := updateEnd state.finish file.last
      opCount := state.opCount + file.numberOps }

end SpanScan

/-- The seconds and microseconds that `throughput.py` divides by. -/
def timeSpan (type : ConnectionType) (numberClients : Nat)
    (files : List ResultFile) : Int × Int :=
  let state := files.foldl (SpanScan.scan type numberClients) .initial
  calcTimeDifference state.start.sec state.start.usec state.finish.sec
    state.finish.usec

def ResultFile.Selected (type : ConnectionType) (numberClients : Nat)
    (file : ResultFile) : Prop :=
  file.type = type ∧ file.numberClients = numberClients

instance (type : ConnectionType) (numberClients : Nat) (file : ResultFile) :
    Decidable (file.Selected type numberClients) :=
  inferInstanceAs (Decidable (_ ∧ _))

def selectedFiles (type : ConnectionType) (numberClients : Nat)
    (files : List ResultFile) : List ResultFile :=
  files.filter fun file => decide (file.Selected type numberClients)

namespace SpanScan

theorem updateStart_eq_min (current first : TimeVal) :
    updateStart current first = min current first := by
  unfold updateStart
  split
  · next earlier =>
      exact (min_eq_right (TimeVal.lt_iff.mpr (.inl earlier)).le).symm
  · next later =>
      split
      · next same =>
          split
          · next earlier =>
              have before : first < current :=
                TimeVal.lt_iff.mpr (.inr ⟨same, earlier⟩)
              rw [min_eq_right before.le]
              exact TimeVal.ext same.symm rfl
          · next notEarlier =>
              refine (min_eq_left (not_lt.mp fun before => ?_)).symm
              rcases TimeVal.lt_iff.mp before with sec | ⟨-, usec⟩
              · exact later sec
              · exact notEarlier usec
      · next other =>
          refine (min_eq_left (not_lt.mp fun before => ?_)).symm
          rcases TimeVal.lt_iff.mp before with sec | ⟨same, -⟩
          · exact later sec
          · exact other same

theorem updateEnd_eq_max (current last : TimeVal) :
    updateEnd current last = max current last := by
  unfold updateEnd
  split
  · next later =>
      exact (max_eq_right (TimeVal.lt_iff.mpr (.inl later)).le).symm
  · next earlier =>
      split
      · next same =>
          split
          · next later =>
              have after : current < last :=
                TimeVal.lt_iff.mpr (.inr ⟨same.symm, later⟩)
              rw [max_eq_right after.le]
              exact TimeVal.ext same.symm rfl
          · next notLater =>
              refine (max_eq_left (not_lt.mp fun after => ?_)).symm
              rcases TimeVal.lt_iff.mp after with sec | ⟨-, usec⟩
              · exact earlier sec
              · exact notLater usec
      · next other =>
          refine (max_eq_left (not_lt.mp fun after => ?_)).symm
          rcases TimeVal.lt_iff.mp after with sec | ⟨same, -⟩
          · exact earlier sec
          · exact other same.symm

variable {type : ConnectionType} {numberClients : Nat}

theorem foldl_scan (files : List ResultFile) (state : SpanScan) :
    (files.foldl (scan type numberClients) state).start =
        ((selectedFiles type numberClients files).map
          ResultFile.first).foldl min state.start ∧
      (files.foldl (scan type numberClients) state).finish =
        ((selectedFiles type numberClients files).map
          ResultFile.last).foldl max state.finish := by
  induction files generalizing state with
  | nil => exact ⟨rfl, rfl⟩
  | cons file files ih =>
      obtain ⟨start, finish⟩ := ih (scan type numberClients state file)
      rw [List.foldl_cons, start, finish]
      by_cases selected : file.Selected type numberClients
      · have kept : scan type numberClients state file =
            { start := min state.start file.first
              finish := max state.finish file.last
              opCount := state.opCount + file.numberOps } := by
          rw [scan, if_neg, updateStart_eq_min, updateEnd_eq_max]
          simp [selected.1, selected.2]
        simp only [selectedFiles, List.filter_cons, decide_eq_true selected,
          if_true, List.map_cons, List.foldl_cons, kept]
        exact ⟨trivial, trivial⟩
      · have skipped : scan type numberClients state file = state := by
          rw [scan, if_pos]
          by_contra others
          exact selected (by
            simpa [ResultFile.Selected, not_or, eq_comm] using others)
        simp only [selectedFiles, List.filter_cons,
          decide_eq_false selected, skipped]
        exact ⟨rfl, rfl⟩

end SpanScan

/-- One of the times, and none of them is earlier. -/
def Earliest (times : List TimeVal) (time : TimeVal) : Prop :=
  time ∈ times ∧ ∀ other ∈ times, time.micros ≤ other.micros

/-- One of the times, and none of them is later. -/
def Latest (times : List TimeVal) (time : TimeVal) : Prop :=
  time ∈ times ∧ ∀ other ∈ times, other.micros ≤ time.micros

instance (times : List TimeVal) (time : TimeVal) :
    Decidable (Earliest times time) :=
  inferInstanceAs (Decidable (_ ∧ _))

instance (times : List TimeVal) (time : TimeVal) :
    Decidable (Latest times time) :=
  inferInstanceAs (Decidable (_ ∧ _))

/-- Seconds and microseconds are the time between two times, as `timersub`
computes it. -/
def SpanExact (result : Int × Int) (first last : TimeVal) : Prop :=
  (0 ≤ result.2 ∧ result.2 < 1000000) ∧
    result.1 * 1000000 + result.2 = last.micros - first.micros ∧
    result = ((last.timersub first).sec, (last.timersub first).usec)

instance (result : Int × Int) (first last : TimeVal) :
    Decidable (SpanExact result first last) :=
  inferInstanceAs (Decidable (_ ∧ _ ∧ _))

variable {first last : TimeVal} {times : List TimeVal}

theorem foldl_min_of_earliest (normal : ∀ time ∈ times, time.Normal)
    (earliest : Earliest times first) (start : TimeVal) :
    times.foldl min start = min start first := by
  have least : times.min? = some first :=
    List.min?_eq_some_iff.mpr ⟨earliest.1, fun other member =>
      (TimeVal.le_iff_micros_le (normal first earliest.1)
        (normal other member)).mpr (earliest.2 other member)⟩
  rw [List.foldl_min, least, Option.getD_some]

theorem foldl_max_of_latest (normal : ∀ time ∈ times, time.Normal)
    (latest : Latest times last) (start : TimeVal) :
    times.foldl max start = max start last := by
  have greatest : times.max? = some last :=
    List.max?_eq_some_iff.mpr ⟨latest.1, fun other member =>
      (TimeVal.le_iff_micros_le (normal other member)
        (normal last latest.1)).mpr (latest.2 other member)⟩
  rw [List.foldl_max, greatest, Option.getD_some]

theorem timersub_exact (firstNormal : first.Normal) (lastNormal : last.Normal) :
    (0 ≤ (last.timersub first).usec ∧
        (last.timersub first).usec < 1000000) ∧
      (last.timersub first).micros = last.micros - first.micros := by
  obtain ⟨-, _, _⟩ := firstNormal
  obtain ⟨-, _, _⟩ := lastNormal
  unfold TimeVal.timersub TimeVal.micros
  by_cases borrow : last.usec - first.usec < 0
  · simp only [if_pos borrow]
    omega
  · simp only [if_neg borrow]
    omega

/-- Without a borrow, `calc_time_difference` is `timersub`; with one it yields
a second too much. -/
theorem spanExact_iff (firstNormal : first.Normal) (lastNormal : last.Normal) :
    SpanExact (calcTimeDifference first.sec first.usec last.sec last.usec)
        first last ↔ first.usec ≤ last.usec := by
  obtain ⟨bounds, exactly⟩ := timersub_exact firstNormal lastNormal
  constructor
  · rintro ⟨-, span, -⟩
    by_contra borrow
    simp only [calcTimeDifference, if_pos (show last.usec - first.usec < 0 by
      omega), TimeVal.micros] at span
    omega
  · intro ordered
    have noBorrow : ¬ last.usec - first.usec < 0 := by omega
    have same : calcTimeDifference first.sec first.usec last.sec last.usec =
        ((last.timersub first).sec, (last.timersub first).usec) := by
      simp only [calcTimeDifference, TimeVal.timersub, if_neg noBorrow]
    rw [same]
    exact ⟨bounds, exactly, rfl⟩

section Span

variable {type : ConnectionType} {numberClients : Nat}
variable {files : List ResultFile}

theorem normal_first (normal : ∀ file ∈ selectedFiles type numberClients files,
    file.first.Normal ∧ file.last.Normal) :
    ∀ time ∈ (selectedFiles type numberClients files).map ResultFile.first,
      time.Normal := by
  intro time member
  obtain ⟨file, selected, rfl⟩ := List.mem_map.mp member
  exact (normal file selected).1

theorem normal_last (normal : ∀ file ∈ selectedFiles type numberClients files,
    file.first.Normal ∧ file.last.Normal) :
    ∀ time ∈ (selectedFiles type numberClients files).map ResultFile.last,
      time.Normal := by
  intro time member
  obtain ⟨file, selected, rfl⟩ := List.mem_map.mp member
  exact (normal file selected).2

/-- The loop ends with the latest end and with the earliest start, unless that
is later than the time it begins with. -/
theorem timeSpan_eq
    (normal : ∀ file ∈ selectedFiles type numberClients files,
      file.first.Normal ∧ file.last.Normal)
    (earliest : Earliest ((selectedFiles type numberClients files).map
      ResultFile.first) first)
    (latest : Latest ((selectedFiles type numberClients files).map
      ResultFile.last) last) :
    timeSpan type numberClients files =
      calcTimeDifference (min SpanScan.initial.start first).sec
        (min SpanScan.initial.start first).usec last.sec last.usec := by
  have lastNormal := normal_last normal last latest.1
  have start : (files.foldl (SpanScan.scan type numberClients)
      .initial).start = min SpanScan.initial.start first :=
    (SpanScan.foldl_scan files .initial).1.trans
      (foldl_min_of_earliest (normal_first normal) earliest _)
  have finish : (files.foldl (SpanScan.scan type numberClients)
      .initial).finish = max SpanScan.initial.finish last :=
    (SpanScan.foldl_scan files .initial).2.trans
      (foldl_max_of_latest (normal_last normal) latest _)
  have notBefore : ¬ last < SpanScan.initial.finish := by
    intro before
    rcases TimeVal.lt_iff.mp before with sec | ⟨-, usec⟩
    · exact absurd lastNormal.1 (not_le.mpr sec)
    · exact absurd lastNormal.2.1 (not_le.mpr usec)
  rw [timeSpan, start, finish, max_eq_right (not_lt.mp notBefore)]

end Span

theorem maxsize_not_exact (lastNormal : last.Normal) :
    ¬ SpanExact (calcTimeDifference maxsize maxsize last.sec last.usec) first
      last := by
  intro spans
  have usecSmall := lastNormal.2.2
  have borrow : last.usec - maxsize < 0 := by
    unfold maxsize
    omega
  have usec : (calcTimeDifference maxsize maxsize last.sec last.usec).2 =
      last.usec - maxsize + 1000000 := by
    rw [calcTimeDifference, if_pos borrow]
  have nonneg : 0 ≤ last.usec - maxsize + 1000000 := usec ▸ spans.1.1
  unfold maxsize at nonneg
  omega

/-- For every list of result files with normal times, the time span is exact
exactly if the earliest start has no more seconds than `sys.maxsize` and no more
microseconds than the latest end. -/
theorem timeSpan_exact_iff (type : ConnectionType) (numberClients : Nat)
    (files : List ResultFile)
    (normal : ∀ file ∈ selectedFiles type numberClients files,
      file.first.Normal ∧ file.last.Normal)
    (earliest : Earliest ((selectedFiles type numberClients files).map
      ResultFile.first) first)
    (latest : Latest ((selectedFiles type numberClients files).map
      ResultFile.last) last) :
    SpanExact (timeSpan type numberClients files) first last ↔
      first.sec ≤ maxsize ∧ first.usec ≤ last.usec := by
  have firstNormal := normal_first normal first earliest.1
  have lastNormal := normal_last normal last latest.1
  rw [timeSpan_eq normal earliest latest]
  by_cases small : first.sec ≤ maxsize
  · have before : first < SpanScan.initial.start := by
      refine TimeVal.lt_iff.mpr ((lt_or_eq_of_le small).imp id ?_)
      exact fun same => ⟨same, firstNormal.2.2.trans (by decide)⟩
    rw [min_eq_right before.le, spanExact_iff firstNormal lastNormal,
      and_iff_right small]
  · -- no start is before the one that the loop begins with
    have after : SpanScan.initial.start ≤ first :=
      (TimeVal.lt_iff.mpr (.inl (not_le.mp small))).le
    rw [min_eq_left after]
    exact iff_of_false (maxsize_not_exact lastNormal) fun holds =>
      small holds.1

def resultFile (first last : TimeVal) : ResultFile where
  type := .rc
  numberClients := 2
  numberOps := 1000
  first := first
  last := last

theorem twoClients_exact :
    SpanExact (timeSpan .rc 2 [resultFile ⟨5, 300⟩ ⟨8, 100⟩,
      resultFile ⟨5, 200⟩ ⟨9, 700⟩]) ⟨5, 200⟩ ⟨9, 700⟩ :=
  (timeSpan_exact_iff .rc 2 [resultFile ⟨5, 300⟩ ⟨8, 100⟩,
    resultFile ⟨5, 200⟩ ⟨9, 700⟩] (by decide) (by decide) (by decide)).mpr
      (by decide)

/-- A run of 1.2 seconds is taken for one of 2.2 seconds. -/
theorem borrow_not_exact :
    timeSpan .rc 2 [resultFile ⟨1, 900000⟩ ⟨3, 100000⟩] = (2, 200000) ∧
      ¬ SpanExact (timeSpan .rc 2 [resultFile ⟨1, 900000⟩ ⟨3, 100000⟩])
        ⟨1, 900000⟩ ⟨3, 100000⟩ := by
  decide

end RdmaKVStore
