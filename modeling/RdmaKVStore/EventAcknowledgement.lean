import RdmaKVStore.CompletionCollection

/-!
# Acknowledgement of completion events

Both functions that wait for completions take an event in blocking mode and
acknowledge it at their end.  What they return in between leaves the event
unacknowledged, and the queue cannot be destroyed then.
-/

namespace RdmaKVStore

variable {Rest : Type*}

/-- A call: what it stores and returns, and the events that it takes and
acknowledges. -/
structure EventUse (Rest : Type*) where
  collection : Collection Rest
  taken : Nat
  acknowledged : Nat

/-- The body that the two variants share, with `ibv_ack_cq_events`. -/
def processEvents (goesOn : Nat → Nat → Bool) (blocking : Bool)
    (calls : VerbsCalls Rest) (memory : Nat → IbvWc Rest) : EventUse Rest :=
  if blocking ∧ calls.getCqEvent ≠ 0 then
    ⟨⟨.initial memory, some (-calls.eventErrno)⟩, 0, 0⟩
  else if blocking ∧ calls.reqNotifyCq ≠ 0 then
    ⟨⟨.initial memory, some (-calls.eventErrno)⟩, 1, 0⟩
  else
    let taken := if blocking then 1 else 0
    let looped := pollingLoop goesOn calls.polls (.initial memory)
    match looped.2 with
    | none => ⟨⟨looped.1, none⟩, taken, 0⟩
    | some (.error ret) => ⟨⟨looped.1, some ret⟩, taken, 0⟩
    | some (.ok totalWc) =>
        let entries := looped.1.array.entries
        match (List.range totalWc).find? fun i => (entries i).status ≠ 0 with
        | some i => ⟨⟨looped.1, some (-(entries i).status)⟩, taken, 0⟩
        | none =>
            ⟨⟨looped.1, some totalWc⟩, taken, if blocking then 1 else 0⟩

/-- A call of `process_work_completion_events`, or of the variant with a timeout
if it has a clock. -/
structure CompletionCall (Rest : Type*) where
  clock : Option (Nat → TimeVal)
  maxWc : Nat
  blocking : Bool
  calls : VerbsCalls Rest
  memory : Nat → IbvWc Rest

namespace CompletionCall

variable (call : CompletionCall Rest)

def goesOn (polls totalWc : Nat) : Bool :=
  match call.clock with
  | none => decide (totalWc < call.maxWc)
  | some clock => decide (totalWc < call.maxWc ∧
      Collection.msec (clock polls) - Collection.msec (clock 0) <
        Collection.maxPollCqTimeout)

def execute : EventUse Rest :=
  processEvents call.goesOn call.blocking call.calls call.memory

end CompletionCall

/-- No poll fails until the loop ends, and none finds a completion with another
status than success. -/
def PollsSucceed (goesOn : Nat → Nat → Bool) :
    Nat → Nat → List (BatchResult Rest) → Prop
  | _, _, [] => True
  | _, _, .failed _ :: _ => False
  | made, totalWc, .completed batch :: polls =>
      (∀ completion ∈ batch, completion.status = 0) ∧
        (goesOn (made + 1) (totalWc + batch.length) = true →
          PollsSucceed goesOn (made + 1) (totalWc + batch.length) polls)

instance PollsSucceed.decide (goesOn : Nat → Nat → Bool) :
    ∀ (made totalWc : Nat) (polls : List (BatchResult Rest)),
      Decidable (PollsSucceed goesOn made totalWc polls)
  | _, _, [] => isTrue trivial
  | _, _, .failed _ :: _ => isFalse id
  | made, totalWc, .completed batch :: polls =>
      have := PollsSucceed.decide goesOn (made + 1) (totalWc + batch.length)
        polls
      inferInstanceAs (Decidable (_ ∧ (_ → _)))

/-- No event is taken, or no call fails after that and all completions
succeed. -/
def CompletionCall.Acknowledges (call : CompletionCall Rest) : Prop :=
  call.blocking = true → call.calls.getCqEvent = 0 →
    call.calls.reqNotifyCq = 0 ∧
      PollsSucceed call.goesOn 0 0 call.calls.polls

instance (call : CompletionCall Rest) : Decidable call.Acknowledges :=
  inferInstanceAs (Decidable (_ → _ → _ ∧ _))

structure EventTotals where
  taken : Nat
  acknowledged : Nat
  deriving DecidableEq

namespace EventTotals

def after (totals : EventTotals) (call : CompletionCall Rest) :
    EventTotals where
  taken := totals.taken + call.execute.taken
  acknowledged := totals.acknowledged + call.execute.acknowledged

end EventTotals

def eventTotals (calls : List (CompletionCall Rest)) : EventTotals :=
  calls.foldl EventTotals.after ⟨0, 0⟩

/-! ### One call -/

section Call

variable {goesOn : Nat → Nat → Bool} {blocking : Bool}
variable {calls : VerbsCalls Rest} {memory : Nat → IbvWc Rest}

theorem processEvents_collection :
    (processEvents goesOn blocking calls memory).collection =
      Collection.process goesOn blocking calls memory := by
  unfold processEvents Collection.process
  split
  · rfl
  · split
    · rfl
    · generalize pollingLoop goesOn calls.polls (.initial memory) = looped
      obtain ⟨after, ended⟩ := looped
      cases ended with
      | none => rfl
      | some result =>
          cases result with
          | error ret => rfl
          | ok totalWc =>
              simp only [Option.map_some, WcArray.validate]
              cases (List.range totalWc).find? fun i =>
                decide ((after.array.entries i).status ≠ 0) with
              | none => rfl
              | some i => rfl

theorem polled_prefix_pollingLoop (polls : List (BatchResult Rest))
    (state : Polling Rest) :
    state.polled <+: (pollingLoop goesOn polls state).1.polled := by
  obtain ⟨done, -, made⟩ := made_pollingLoop goesOn polls state
  rw [Polling.polled, Polling.polled, made, List.flatMap_append]
  exact List.prefix_append _ _

theorem mem_polled_of_batch {batch : List (IbvWc Rest)}
    {polls : List (BatchResult Rest)} {state : Polling Rest}
    {completion : IbvWc Rest} (member : completion ∈ batch) :
    completion ∈
      (pollingLoop goesOn (.completed batch :: polls) state).1.polled := by
  have polled : completion ∈ (state.poll batch).polled := by
    rw [Polling.polled_poll]
    exact List.mem_append_right _ member
  rw [pollingLoop]
  split
  · exact (polled_prefix_pollingLoop _ _).subset polled
  · exact polled

theorem totalWc_of_pollingLoop {polls : List (BatchResult Rest)}
    {state after : Polling Rest} {totalWc : Nat}
    (looped : pollingLoop goesOn polls state = (after, some (.ok totalWc)))
    (fine : NoneFailed state.made) : totalWc = after.totalWc := by
  rcases pollingLoop_cases looped fine with going | failed | stopped
  · cases going.1
  · obtain ⟨code, ended, -⟩ := failed
    cases ended
  · exact Except.ok.inj (Option.some.inj stopped.1)

/-- The polls succeed exactly if the loop does not end with a failed one and has
polled no completion with an error status. -/
theorem pollsSucceed_iff {polls : List (BatchResult Rest)}
    {state after : Polling Rest} {ended : Option (Except Int Nat)}
    (looped : pollingLoop goesOn polls state = (after, ended))
    (fine : ∀ completion ∈ state.polled, completion.status = 0) :
    PollsSucceed goesOn state.made.length state.totalWc polls ↔
      (∀ ret, ended ≠ some (.error ret)) ∧
        ∀ completion ∈ after.polled, completion.status = 0 := by
  induction polls generalizing state with
  | nil =>
      cases looped
      exact iff_of_true trivial ⟨fun _ => (Option.some_ne_none _).symm, fine⟩
  | cons result polls ih =>
      cases result with
      | failed code =>
          cases looped
          apply iff_of_false id
          intro succeeds
          exact succeeds.1 _ rfl
      | completed batch =>
          have made : (state.poll batch).made.length =
              state.made.length + 1 := by
            simp [Polling.poll]
          rw [PollsSucceed]
          by_cases succeeded : ∀ completion ∈ batch, completion.status = 0
          · rw [pollingLoop] at looped
            have next : ∀ completion ∈ (state.poll batch).polled,
                completion.status = 0 := by
              rw [Polling.polled_poll]
              exact List.forall_mem_append.mpr ⟨fine, succeeded⟩
            rw [and_iff_right succeeded, ← made]
            split at looped
            · next more =>
                rw [← ih looped next]
                exact imp_iff_right more
            · next stopped =>
                cases looped
                apply iff_of_true
                · exact fun more => absurd more stopped
                · exact ⟨fun ret => by simp, next⟩
          · apply iff_of_false fun succeeds => succeeded succeeds.1
            rintro ⟨-, statuses⟩
            apply succeeded
            intro completion member
            apply statuses
            rw [← show _ = after from congrArg Prod.fst looped]
            exact mem_polled_of_batch member

/-- The check of the statuses finds nothing exactly if all completions polled
have succeeded. -/
theorem Polling.Stored.find_eq_none_iff {state : Polling Rest}
    (stored : state.Stored memory) :
    ((List.range state.totalWc).find? fun i =>
        (state.array.entries i).status ≠ 0) = none ↔
      ∀ completion ∈ state.polled, completion.status = 0 := by
  rw [← stored.map_entries, List.find?_eq_none, List.forall_mem_map]
  simp

end Call

section Balance

variable {goesOn : Nat → Nat → Bool} {calls : VerbsCalls Rest}
variable {memory : Nat → IbvWc Rest} {use : EventUse Rest}

theorem processEvents_polling
    (processed : processEvents goesOn false calls memory = use) :
    use.taken = 0 ∧ use.acknowledged = 0 := by
  unfold processEvents at processed
  simp only [Bool.false_eq_true, false_and, if_false] at processed
  split at processed
  · subst processed
    exact ⟨rfl, rfl⟩
  · subst processed
    exact ⟨rfl, rfl⟩
  · split at processed <;> subst processed <;> exact ⟨rfl, rfl⟩

/-- After the request for notifications, a call acknowledges its event if
neither a poll nor a completion fails. -/
theorem processEvents_notified (waited : calls.getCqEvent = 0)
    (notified : calls.reqNotifyCq = 0)
    (processed : processEvents goesOn true calls memory = use) :
    use.taken = 1 ∧
      ((use.collection.returned = none ∧ use.acknowledged = 0) ∨
        (use.acknowledged = 0 ∧ ¬ PollsSucceed goesOn 0 0 calls.polls) ∨
        use.acknowledged = 1 ∧ PollsSucceed goesOn 0 0 calls.polls) := by
  unfold processEvents at processed
  rw [if_neg fun fails => fails.2 waited,
    if_neg fun fails => fails.2 notified] at processed
  have stored : (pollingLoop goesOn calls.polls
      (.initial memory)).1.Stored memory := stored_pollingLoop _ .initial
  generalize looped : pollingLoop goesOn calls.polls (.initial memory) =
    pair at processed stored
  obtain ⟨after, ended⟩ := pair
  have succeed := pollsSucceed_iff looped
    (fun _ member => absurd member List.not_mem_nil)
  cases ended with
  | none =>
      subst processed
      exact ⟨rfl, .inl ⟨rfl, rfl⟩⟩
  | some result =>
      cases result with
      | error ret =>
          subst processed
          refine ⟨rfl, .inr (.inl ⟨rfl, fun succeeds => ?_⟩)⟩
          exact (succeed.mp succeeds).1 ret rfl
      | ok totalWc =>
          obtain rfl := totalWc_of_pollingLoop looped
            fun _ => List.not_mem_nil
          simp only at processed
          split at processed
          · next i found =>
              subst processed
              refine ⟨rfl, .inr (.inl ⟨rfl, fun succeeds => ?_⟩)⟩
              have none := stored.find_eq_none_iff.mpr
                (succeed.mp succeeds).2
              cases found.symm.trans none
          · next found =>
              subst processed
              have succeeded := stored.find_eq_none_iff.mp found
              refine ⟨rfl, .inr (.inr ⟨rfl, succeed.mpr ?_⟩)⟩
              exact ⟨fun _ => by simp, succeeded⟩

/-- In blocking mode a call takes an event unless the wait for it fails, and
acknowledges it if nothing fails after that. -/
theorem processEvents_blocking
    (processed : processEvents goesOn true calls memory = use) :
    (calls.getCqEvent ≠ 0 ∧ use.taken = 0 ∧ use.acknowledged = 0) ∨
      calls.getCqEvent = 0 ∧ use.taken = 1 ∧
        ((use.collection.returned = none ∧ use.acknowledged = 0) ∨
          (use.acknowledged = 0 ∧ ¬ (calls.reqNotifyCq = 0 ∧
            PollsSucceed goesOn 0 0 calls.polls)) ∨
          use.acknowledged = 1 ∧ calls.reqNotifyCq = 0 ∧
            PollsSucceed goesOn 0 0 calls.polls) := by
  by_cases waited : calls.getCqEvent = 0
  · refine .inr ⟨waited, ?_⟩
    by_cases notified : calls.reqNotifyCq = 0
    · simp only [notified, true_and]
      exact processEvents_notified waited notified processed
    · unfold processEvents at processed
      rw [if_neg fun fails => fails.2 waited,
        if_pos ⟨rfl, notified⟩] at processed
      subst processed
      exact ⟨rfl, .inr (.inl ⟨rfl, fun succeeds => notified succeeds.1⟩)⟩
  · unfold processEvents at processed
    rw [if_pos ⟨rfl, waited⟩] at processed
    subst processed
    exact .inl ⟨waited, rfl, rfl⟩

end Balance

namespace CompletionCall

variable (call : CompletionCall Rest)

theorem execute_collection :
    call.execute.collection =
      match call.clock with
      | none => Collection.processWorkCompletionEvents call.maxWc
          call.blocking call.calls call.memory
      | some clock => Collection.processWorkCompletionEventsWithTimeout clock
          call.maxWc call.blocking call.calls call.memory := by
  obtain ⟨clock, maxWc, blocking, calls, memory⟩ := call
  cases clock with
  | none => exact processEvents_collection
  | some clock => exact processEvents_collection

theorem acknowledged_le_taken :
    call.execute.acknowledged ≤ call.execute.taken := by
  obtain ⟨clock, maxWc, blocking, calls, memory⟩ := call
  cases blocking with
  | false =>
      obtain ⟨taken, acknowledged⟩ := processEvents_polling rfl
      exact (acknowledged.trans taken.symm).le
  | true =>
      rcases processEvents_blocking rfl with
        ⟨-, taken, acknowledged⟩ | ⟨-, taken, polls | fails | succeeds⟩
      · exact (acknowledged.trans taken.symm).le
      · exact polls.2.trans_le (Nat.zero_le _)
      · exact fails.1.trans_le (Nat.zero_le _)
      · exact (succeeds.1.trans taken.symm).le

/-- A call that returns has acknowledged its event exactly if it has not failed
in between. -/
theorem acknowledged_eq_taken_iff
    (returned : call.execute.collection.returned ≠ none) :
    call.execute.acknowledged = call.execute.taken ↔ call.Acknowledges := by
  obtain ⟨clock, maxWc, blocking, calls, memory⟩ := call
  cases blocking with
  | false =>
      obtain ⟨taken, acknowledged⟩ := processEvents_polling rfl
      exact iff_of_true (acknowledged.trans taken.symm)
        fun blocks => Bool.noConfusion blocks
  | true =>
      rcases processEvents_blocking rfl with
        ⟨waitFails, taken, acknowledged⟩ | ⟨waited, taken, rest⟩
      · apply iff_of_true (acknowledged.trans taken.symm)
        intro _ waited
        exact absurd waited waitFails
      · rcases rest with polls | fails | succeeds
        · exact absurd polls.1 returned
        · apply iff_of_false
          · intro balanced
            cases fails.1.symm.trans (balanced.trans taken)
          · intro acknowledges
            exact fails.2 (acknowledges rfl waited)
        · exact iff_of_true (succeeds.1.trans taken.symm)
            fun _ _ => succeeds.2

end CompletionCall

/-! ### Sequences of calls -/

theorem EventTotals.foldl_balanced_iff (calls : List (CompletionCall Rest))
    (returned : ∀ call ∈ calls, call.execute.collection.returned ≠ none)
    {totals : EventTotals} (within : totals.acknowledged ≤ totals.taken) :
    (calls.foldl after totals).acknowledged =
        (calls.foldl after totals).taken ↔
      totals.acknowledged = totals.taken ∧
        ∀ call ∈ calls, call.Acknowledges := by
  induction calls generalizing totals with
  | nil => simp
  | cons call calls ih =>
      obtain ⟨ends, others⟩ := List.forall_mem_cons.mp returned
      have atMost := call.acknowledged_le_taken
      have step : (totals.after call).acknowledged =
            (totals.after call).taken ↔
          totals.acknowledged = totals.taken ∧
            call.execute.acknowledged = call.execute.taken := by
        simp only [after]
        omega
      rw [List.foldl_cons, ih others (Nat.add_le_add within atMost), step,
        call.acknowledged_eq_taken_iff ends, List.forall_mem_cons, and_assoc]

/-- In every sequence of calls that return, a call acknowledges as many events
as it takes exactly if it takes none or does not fail after that, and no event
stays unacknowledged exactly if this holds of all calls. -/
theorem eventsAcknowledged_iff (calls : List (CompletionCall Rest))
    (returned : ∀ call ∈ calls, call.execute.collection.returned ≠ none) :
    (∀ call ∈ calls,
      (call.execute.acknowledged = call.execute.taken ↔
        call.Acknowledges)) ∧
    ((eventTotals calls).acknowledged = (eventTotals calls).taken ↔
      ∀ call ∈ calls, call.Acknowledges) := by
  constructor
  · intro call member
    exact call.acknowledged_eq_taken_iff (returned call member)
  · rw [eventTotals, EventTotals.foldl_balanced_iff calls returned le_rfl]
    exact and_iff_right rfl

def blockingCall (clock : Option (Nat → TimeVal)) (getCqEvent : Int)
    (statuses : List Nat) : CompletionCall Unit where
  clock := clock
  maxWc := statuses.length
  blocking := true
  calls :=
    { getCqEvent := getCqEvent
      reqNotifyCq := 0
      eventErrno := 4
      polls := statuses.map fun status => .completed [⟨status, ()⟩] }
  memory _ := ⟨0, ()⟩

/-- An interrupted wait, and one call of each variant that succeeds. -/
theorem threeCalls_acknowledged :
    (eventTotals [blockingCall none (-1) [0], blockingCall none 0 [0, 0],
        blockingCall (some tickingClock) 0 [0]]).acknowledged =
      (eventTotals [blockingCall none (-1) [0], blockingCall none 0 [0, 0],
        blockingCall (some tickingClock) 0 [0]]).taken :=
  (eventsAcknowledged_iff [blockingCall none (-1) [0],
    blockingCall none 0 [0, 0], blockingCall (some tickingClock) 0 [0]]
      (by decide)).2.mpr (by decide)

/-- The event of a completion with an error status stays unacknowledged. -/
theorem flushedCalls_unacknowledged :
    (∀ call ∈ [blockingCall none 0 [5], blockingCall (some tickingClock) 0 [5]],
      call.execute.collection.returned = some (-5) ∧
        call.execute.taken = 1 ∧ call.execute.acknowledged = 0) ∧
      eventTotals [blockingCall none 0 [5], blockingCall none 0 [0]] =
        ⟨2, 1⟩ := by
  decide

end RdmaKVStore
