import Mathlib.Data.List.Basic

/-!
# Work completions

`process_work_completion_events` of `rdma_common.c`, as a function of what the
verbs calls report while it waits.  The status 0 is `IBV_WC_SUCCESS`; all other
statuses are positive.
-/

namespace RdmaKVStore

/-- A result of `ibv_poll_cq`: a negative value, or the statuses of the
completions found, which may be none. -/
inductive PollResult
  | failed (code : Nat)
  | completed (statuses : List Nat)

/-- What the calls report during one wait for completions.  `eventErrno` is
the value of `errno` when a failed wait for an event reads it. -/
structure CompletionWait where
  getCqEvent : Int
  reqNotifyCq : Int
  eventErrno : Int
  polls : List PollResult

/-- The polling loop: it ends with the negative value of a failed poll or with
the statuses of `maxWc` completions, and goes on otherwise. -/
def pollLoop (maxWc : Nat) (found : List Nat) :
    List PollResult → Option (Except Int (List Nat))
  | [] => none
  | .failed code :: _ => some (.error (-(code + 1)))
  | .completed statuses :: polls =>
      if (found ++ statuses).length < maxWc then
        pollLoop maxWc (found ++ statuses) polls
      else some (.ok (found ++ statuses))

/-- `process_work_completion_events` -/
def processWorkCompletionEvents (blocking : Bool) (maxWc : Nat)
    (wait : CompletionWait) : Option Int :=
  if blocking ∧ wait.getCqEvent ≠ 0 then some (-wait.eventErrno)
  else if blocking ∧ wait.reqNotifyCq ≠ 0 then some (-wait.eventErrno)
  else
    (pollLoop maxWc [] wait.polls).map fun result =>
      match result with
      | .error ret => ret
      | .ok statuses =>
          match statuses.find? (· ≠ 0) with
          | some status => -status
          | none => statuses.length

namespace CompletionWait

variable {blocking : Bool} {maxWc : Nat} {wait : CompletionWait}

def EventFails (blocking : Bool) (wait : CompletionWait) : Prop :=
  blocking = true ∧ (wait.getCqEvent ≠ 0 ∨ wait.reqNotifyCq ≠ 0)

instance (blocking : Bool) (wait : CompletionWait) :
    Decidable (wait.EventFails blocking) :=
  inferInstanceAs (Decidable (_ ∧ (_ ∨ _)))

def PollFails (maxWc : Nat) (wait : CompletionWait) : Prop :=
  (∃ ret, pollLoop maxWc [] wait.polls = some (.error ret)) ∨
    ∃ statuses, pollLoop maxWc [] wait.polls = some (.ok statuses) ∧
      ∃ status ∈ statuses, status ≠ 0

theorem pollLoop_error {found : List Nat} {polls : List PollResult} {ret : Int}
    (failed : pollLoop maxWc found polls = some (.error ret)) : ret < 0 := by
  induction polls generalizing found with
  | nil => cases failed
  | cons poll polls ih =>
      cases poll with
      | failed code =>
          simp only [pollLoop, Option.some.injEq, Except.error.injEq] at failed
          omega
      | completed statuses =>
          simp only [pollLoop] at failed
          split at failed
          · exact ih failed
          · cases failed

theorem process_of_eventFails (failed : EventFails blocking wait) :
    processWorkCompletionEvents blocking maxWc wait =
      some (-wait.eventErrno) := by
  obtain ⟨rfl, waitFails | notifyFails⟩ := failed
  · simp [processWorkCompletionEvents, waitFails]
  · by_cases waitFails : wait.getCqEvent ≠ 0 <;>
      simp [processWorkCompletionEvents, notifyFails, waitFails]

theorem process_of_not_eventFails (waited : ¬ EventFails blocking wait) :
    processWorkCompletionEvents blocking maxWc wait =
      (pollLoop maxWc [] wait.polls).map fun result =>
        match result with
        | .error ret => ret
        | .ok statuses =>
            match statuses.find? (· ≠ 0) with
            | some status => -(status : Int)
            | none => statuses.length := by
  have calls : ¬ (blocking = true ∧ wait.getCqEvent ≠ 0) ∧
      ¬ (blocking = true ∧ wait.reqNotifyCq ≠ 0) :=
    ⟨fun ⟨blocks, fails⟩ => waited ⟨blocks, .inl fails⟩,
      fun ⟨blocks, fails⟩ => waited ⟨blocks, .inr fails⟩⟩
  rw [processWorkCompletionEvents, if_neg calls.1, if_neg calls.2]

theorem process_of_pollFails (waited : ¬ EventFails blocking wait)
    (failed : PollFails maxWc wait) :
    ∃ ret < 0,
      processWorkCompletionEvents blocking maxWc wait = some ret := by
  rw [process_of_not_eventFails waited]
  rcases failed with ⟨ret, polled⟩ | ⟨statuses, polled, status, member, bad⟩
  · exact ⟨ret, pollLoop_error polled, by rw [polled, Option.map_some]⟩
  · rw [polled, Option.map_some]
    cases first : statuses.find? (· ≠ 0) with
    | none =>
        rw [List.find?_eq_none] at first
        exact absurd bad (by simpa using first status member)
    | some status' =>
        have nonzero := List.find?_some first
        refine ⟨-status', ?_, by simp only [first]⟩
        have : status' ≠ 0 := by simpa using nonzero
        omega

end CompletionWait

end RdmaKVStore
