import Mathlib.Logic.Function.Basic
import RdmaKVStore.TimeSpan
import RdmaKVStore.WorkCompletion

/-!
# Collection of completions

`process_work_completion_events` and its variant with a timeout, with the array
`wc` that they fill.  The two polling loops differ in their condition only.
-/

namespace RdmaKVStore

/-- `struct ibv_wc`: its status, and the fields that are stored along. -/
structure IbvWc (Rest : Type*) where
  status : Nat
  rest : Rest
  deriving DecidableEq

/-- A result of `ibv_poll_cq`: a negative value, or the completions found. -/
inductive BatchResult (Rest : Type*)
  | failed (code : Nat)
  | completed (batch : List (IbvWc Rest))
  deriving DecidableEq

variable {Rest : Type*}

namespace BatchResult

def batch : BatchResult Rest → List (IbvWc Rest)
  | .failed _ => []
  | .completed batch => batch

def statuses : BatchResult Rest → PollResult
  | .failed code => .failed code
  | .completed batch => .completed (batch.map IbvWc.status)

end BatchResult

structure VerbsCalls (Rest : Type*) where
  getCqEvent : Int
  reqNotifyCq : Int
  eventErrno : Int
  polls : List (BatchResult Rest)

def VerbsCalls.wait (calls : VerbsCalls Rest) : CompletionWait where
  getCqEvent := calls.getCqEvent
  reqNotifyCq := calls.reqNotifyCq
  eventErrno := calls.eventErrno
  polls := calls.polls.map BatchResult.statuses

/-- The array `wc`: what lies at each index, and what was stored at which index,
in this order. -/
structure WcArray (Rest : Type*) where
  entries : Nat → IbvWc Rest
  stores : List (IbvWc Rest × Nat)

namespace WcArray

def initial (memory : Nat → IbvWc Rest) : WcArray Rest where
  entries := memory
  stores := []

def store (array : WcArray Rest) (position : Nat) :
    List (IbvWc Rest) → WcArray Rest
  | [] => array
  | completion :: batch =>
      store
        { entries := Function.update array.entries position completion
          stores := array.stores ++ [(completion, position)] }
        (position + 1) batch

/-- The loop that checks the statuses. -/
def validate (array : WcArray Rest) (totalWc : Nat) : Int :=
  match (List.range totalWc).find? fun i => (array.entries i).status ≠ 0 with
  | some i => -(array.entries i).status
  | none => totalWc

end WcArray

/-- The array, `total_wc`, and the results of the polls made, for the record. -/
structure Polling (Rest : Type*) where
  array : WcArray Rest
  totalWc : Nat
  made : List (BatchResult Rest)

namespace Polling

def initial (memory : Nat → IbvWc Rest) : Polling Rest where
  array := .initial memory
  totalWc := 0
  made := []

def poll (state : Polling Rest) (batch : List (IbvWc Rest)) :
    Polling Rest where
  array := state.array.store state.totalWc batch
  totalWc := state.totalWc + batch.length
  made := state.made ++ [.completed batch]

def polled (state : Polling Rest) : List (IbvWc Rest) :=
  state.made.flatMap BatchResult.batch

end Polling

/-- The polling loop, which goes on while a condition on the number of polls and
of completions holds, and how it ends: with the value of a failed poll, or with
`total_wc`. -/
def pollingLoop (goesOn : Nat → Nat → Bool) :
    List (BatchResult Rest) → Polling Rest →
      Polling Rest × Option (Except Int Nat)
  | [], state => (state, none)
  | .failed code :: _, state =>
      ({ state with made := state.made ++ [.failed code] },
        some (.error (-(code + 1))))
  | .completed batch :: polls, state =>
      let next := state.poll batch
      if goesOn next.made.length next.totalWc then
        pollingLoop goesOn polls next
      else (next, some (.ok next.totalWc))

/-- The loop's last state, and the value returned once the loop has ended. -/
structure Collection (Rest : Type*) where
  polling : Polling Rest
  returned : Option Int

namespace Collection

def process (goesOn : Nat → Nat → Bool) (blocking : Bool)
    (calls : VerbsCalls Rest) (memory : Nat → IbvWc Rest) : Collection Rest :=
  if blocking ∧ calls.getCqEvent ≠ 0 then
    ⟨.initial memory, some (-calls.eventErrno)⟩
  else if blocking ∧ calls.reqNotifyCq ≠ 0 then
    ⟨.initial memory, some (-calls.eventErrno)⟩
  else
    let looped := pollingLoop goesOn calls.polls (.initial memory)
    { polling := looped.1
      returned := looped.2.map fun ended =>
        match ended with
        | .error ret => ret
        | .ok totalWc => looped.1.array.validate totalWc }

/-- `process_work_completion_events` -/
def processWorkCompletionEvents (maxWc : Nat) :
    Bool → VerbsCalls Rest → (Nat → IbvWc Rest) → Collection Rest :=
  process fun _ totalWc => decide (totalWc < maxWc)

/-- `MAX_POLL_CQ_TIMEOUT` -/
def maxPollCqTimeout : UInt64 := 100

/-- The milliseconds of a time, as an `unsigned long`. -/
def msec (time : TimeVal) : UInt64 :=
  .ofInt (time.sec * 1000 + time.usec.tdiv 1000)

/-- `process_work_completion_events_with_timeout`.  The first clock reading
starts the timer, and one follows each poll. -/
def processWorkCompletionEventsWithTimeout (clock : Nat → TimeVal)
    (maxWc : Nat) :
    Bool → VerbsCalls Rest → (Nat → IbvWc Rest) → Collection Rest :=
  process fun polls totalWc => decide (totalWc < maxWc ∧
    msec (clock polls) - msec (clock 0) < maxPollCqTimeout)

end Collection

namespace WcArray

theorem stores_store (array : WcArray Rest) (position : Nat)
    (batch : List (IbvWc Rest)) :
    (array.store position batch).stores =
      array.stores ++ batch.zipIdx position := by
  induction batch generalizing array position with
  | nil => exact (List.append_nil _).symm
  | cons completion batch ih =>
      rw [store, ih, List.zipIdx_cons, List.append_assoc,
        List.singleton_append]

theorem entries_store_of_lt (array : WcArray Rest) {position index : Nat}
    (batch : List (IbvWc Rest)) (before : index < position) :
    (array.store position batch).entries index = array.entries index := by
  induction batch generalizing array position with
  | nil => rfl
  | cons completion batch ih =>
      rw [store, ih _ (by omega)]
      exact Function.update_of_ne before.ne _ _

theorem entries_store_add (array : WcArray Rest) (position index : Nat)
    (batch : List (IbvWc Rest)) :
    (array.store position batch).entries (position + index) =
      batch[index]?.getD (array.entries (position + index)) := by
  induction batch generalizing array position index with
  | nil => rfl
  | cons completion batch ih =>
      cases index with
      | zero =>
          change (store _ (position + 1) batch).entries position = completion
          rw [entries_store_of_lt _ _ position.lt_add_one]
          exact Function.update_self ..
      | succ index =>
          have shift : position + (index + 1) = position + 1 + index := by omega
          have other : position + 1 + index ≠ position := by omega
          rw [store, shift, ih, List.getElem?_cons_succ]
          simp only [Function.update_of_ne other]

end WcArray

/-- The completions polled lie in the array in this order, from its beginning on
and without gaps, and nothing else was stored. -/
structure Polling.Stored (memory : Nat → IbvWc Rest)
    (state : Polling Rest) : Prop where
  totalWc : state.totalWc = state.polled.length
  stores : state.array.stores = state.polled.zipIdx
  entries : ∀ index,
    state.array.entries index = state.polled[index]?.getD (memory index)

namespace Polling

variable {memory : Nat → IbvWc Rest} {state : Polling Rest}

theorem polled_poll (state : Polling Rest) (batch : List (IbvWc Rest)) :
    (state.poll batch).polled = state.polled ++ batch := by
  simp [polled, poll, BatchResult.batch]

theorem Stored.initial : (Polling.initial memory).Stored memory where
  totalWc := rfl
  stores := rfl
  entries _ := rfl

theorem Stored.poll (stored : state.Stored memory)
    (batch : List (IbvWc Rest)) : (state.poll batch).Stored memory where
  totalWc := by
    rw [polled_poll, List.length_append, ← stored.totalWc]
    rfl
  stores := by
    rw [polled_poll, List.zipIdx_append, ← stored.stores, Nat.zero_add,
      ← stored.totalWc]
    exact WcArray.stores_store ..
  entries index := by
    rw [polled_poll]
    change (state.array.store state.totalWc batch).entries index = _
    rcases Nat.lt_or_ge index state.totalWc with before | behind
    · rw [WcArray.entries_store_of_lt _ _ before, stored.entries,
        List.getElem?_append_left (stored.totalWc ▸ before)]
    · obtain ⟨offset, rfl⟩ := Nat.exists_eq_add_of_le behind
      have fresh : state.polled[state.totalWc + offset]? = none :=
        List.getElem?_eq_none (stored.totalWc ▸ behind)
      rw [WcArray.entries_store_add, stored.entries, fresh,
        List.getElem?_append_right (stored.totalWc ▸ behind),
        ← stored.totalWc, Nat.add_sub_cancel_left, Option.getD_none]

end Polling

section Loop

variable {memory : Nat → IbvWc Rest} {goesOn : Nat → Nat → Bool}

theorem stored_pollingLoop (polls : List (BatchResult Rest))
    {state : Polling Rest} (stored : state.Stored memory) :
    (pollingLoop goesOn polls state).1.Stored memory := by
  induction polls generalizing state with
  | nil => exact stored
  | cons result polls ih =>
      cases result with
      | failed code =>
          have same : Polling.polled { state with
              made := state.made ++ [.failed code] } = state.polled := by
            simp [Polling.polled, BatchResult.batch]
          refine ⟨?_, ?_, ?_⟩ <;> simp only [pollingLoop, same]
          · exact stored.totalWc
          · exact stored.stores
          · exact stored.entries
      | completed batch =>
          rw [pollingLoop]
          split
          · exact ih (stored.poll batch)
          · exact stored.poll batch

def NoneFailed (made : List (BatchResult Rest)) : Prop :=
  ∀ code, .failed code ∉ made

theorem NoneFailed.poll {state : Polling Rest} (fine : NoneFailed state.made)
    (batch : List (IbvWc Rest)) : NoneFailed (state.poll batch).made := by
  intro code member
  rcases List.mem_append.mp member with earlier | last
  · exact fine code earlier
  · cases List.mem_singleton.mp last

/-- How the loop ends: not before the results are used up, with the value of a
failed poll, or because its condition fails. -/
theorem pollingLoop_cases {polls : List (BatchResult Rest)}
    {state after : Polling Rest} {ended : Option (Except Int Nat)}
    (looped : pollingLoop goesOn polls state = (after, ended))
    (fine : NoneFailed state.made) :
    (ended = none ∧ NoneFailed after.made ∧
        after.made = state.made ++ polls ∧
        (polls ≠ [] → goesOn after.made.length after.totalWc = true)) ∨
      (∃ code : Nat, ended = some (.error (-(code + 1))) ∧
        .failed code ∈ after.made) ∨
      (ended = some (.ok after.totalWc) ∧ NoneFailed after.made ∧
        goesOn after.made.length after.totalWc = false) := by
  induction polls generalizing state with
  | nil =>
      cases looped
      exact .inl ⟨rfl, fine, (List.append_nil _).symm,
        fun nonempty => absurd rfl nonempty⟩
  | cons result polls ih =>
      cases result with
      | failed code =>
          cases looped
          exact .inr (.inl ⟨code, rfl, by simp⟩)
      | completed batch =>
          rw [pollingLoop] at looped
          split at looped
          · next more =>
              rcases ih looped (fine.poll batch) with going | ended
              · obtain ⟨rfl, fine, made, condition⟩ := going
                refine .inl ⟨rfl, fine, ?_, fun _ => ?_⟩
                · rw [made]
                  simp [Polling.poll]
                · cases polls with
                  | nil =>
                      cases looped
                      exact more
                  | cons => exact condition (List.cons_ne_nil _ _)
              · exact .inr ended
          · next stopped =>
              cases looped
              exact .inr (.inr ⟨rfl, fine.poll batch, by simpa using stopped⟩)

variable (goesOn) in
theorem made_pollingLoop (polls : List (BatchResult Rest))
    (state : Polling Rest) :
    ∃ done, done <+: polls ∧
      (pollingLoop goesOn polls state).1.made = state.made ++ done := by
  induction polls generalizing state with
  | nil => exact ⟨[], List.prefix_rfl, (List.append_nil _).symm⟩
  | cons result polls ih =>
      cases result with
      | failed code => exact ⟨[.failed code], by simp, rfl⟩
      | completed batch =>
          rw [pollingLoop]
          split
          · obtain ⟨done, first, made⟩ := ih (state.poll batch)
            refine ⟨.completed batch :: done,
              List.cons_prefix_cons.mpr ⟨rfl, first⟩, ?_⟩
            rw [made]
            simp [Polling.poll]
          · exact ⟨[.completed batch], by simp, rfl⟩

/-- A further condition of the loop makes no difference if the loop stops with
as many completions as it is to wait for. -/
theorem pollingLoop_eq {maxWc : Nat} (earlier : ∀ polls totalWc,
      goesOn polls totalWc = true → totalWc < maxWc)
    (polls : List (BatchResult Rest)) (state : Polling Rest)
    (all : (pollingLoop goesOn polls state).1.totalWc = maxWc) :
    pollingLoop goesOn polls state =
      pollingLoop (fun _ totalWc => decide (totalWc < maxWc)) polls state := by
  induction polls generalizing state with
  | nil => rfl
  | cons result polls ih =>
      cases result with
      | failed code => rfl
      | completed batch =>
          rw [pollingLoop] at all ⊢
          rw [pollingLoop]
          split at all
          · next more =>
              rw [if_pos more, if_pos (decide_eq_true (earlier _ _ more))]
              exact ih _ all
          · next stopped =>
              rw [if_neg stopped, if_neg]
              simpa using all.ge

end Loop

/-- Every poll finds at most as many completions as it asks for. -/
def FitsRequests (maxWc : Nat) : Nat → List (BatchResult Rest) → Prop
  | _, [] => True
  | totalWc, result :: made =>
      result.batch.length ≤ maxWc - totalWc ∧
        FitsRequests maxWc (totalWc + result.batch.length) made

instance (maxWc : Nat) (totalWc : Nat) (made : List (BatchResult Rest)) :
    Decidable (FitsRequests maxWc totalWc made) :=
  match made with
  | [] => isTrue trivial
  | result :: made =>
      have := instDecidableFitsRequests maxWc
        (totalWc + result.batch.length) made
      inferInstanceAs (Decidable (_ ∧ _))

theorem FitsRequests.length_le {maxWc totalWc : Nat}
    {made : List (BatchResult Rest)} (fits : FitsRequests maxWc totalWc made)
    (within : totalWc ≤ maxWc) :
    totalWc + (made.flatMap BatchResult.batch).length ≤ maxWc := by
  induction made generalizing totalWc with
  | nil => exact within
  | cons result made ih =>
      obtain ⟨short, fits⟩ := fits
      have rest := ih fits (by omega)
      rw [List.flatMap_cons, List.length_append]
      omega

namespace Polling

variable {memory : Nat → IbvWc Rest} {state : Polling Rest}

theorem Stored.map_entries (stored : state.Stored memory) :
    (List.range state.totalWc).map state.array.entries = state.polled := by
  refine List.ext_getElem ?_ fun index _ inside => ?_
  · rw [List.length_map, List.length_range, stored.totalWc]
  · rw [List.getElem_map, List.getElem_range, stored.entries,
      List.getElem?_eq_getElem inside, Option.getD_some]

/-- The check finds the first completion polled whose status is not success. -/
theorem Stored.validate (stored : state.Stored memory) :
    state.array.validate state.polled.length =
      match state.polled.find? fun completion => completion.status ≠ 0 with
      | some completion => -(completion.status : Int)
      | none => state.polled.length := by
  have entry : (fun completion : IbvWc Rest =>
      decide (completion.status ≠ 0)) ∘ state.array.entries =
        fun i => decide ((state.array.entries i).status ≠ 0) := rfl
  rw [← stored.totalWc, ← stored.map_entries, List.find?_map, entry,
    WcArray.validate]
  cases (List.range state.totalWc).find? fun i =>
    decide ((state.array.entries i).status ≠ 0) <;> rfl

end Polling

namespace Collection

variable {memory : Nat → IbvWc Rest} {goesOn : Nat → Nat → Bool}
variable {blocking : Bool} {calls : VerbsCalls Rest} {maxWc : Nat}

theorem process_of_eventFails (failed : calls.wait.EventFails blocking) :
    process goesOn blocking calls memory =
      ⟨.initial memory, some (-calls.eventErrno)⟩ := by
  obtain ⟨blocks, waitFails | notifyFails⟩ := failed
  · exact if_pos ⟨blocks, waitFails⟩
  · have notify : blocking = true ∧ calls.reqNotifyCq ≠ 0 :=
      ⟨blocks, notifyFails⟩
    rw [process, if_pos notify, ite_self]

theorem process_of_not_eventFails (waited : ¬ calls.wait.EventFails blocking) :
    process goesOn blocking calls memory =
      { polling := (pollingLoop goesOn calls.polls (.initial memory)).1
        returned := (pollingLoop goesOn calls.polls (.initial memory)).2.map
          fun ended =>
            match ended with
            | .error ret => ret
            | .ok totalWc =>
                (pollingLoop goesOn calls.polls
                  (.initial memory)).1.array.validate totalWc } := by
  rw [process, if_neg fun fails => waited ⟨fails.1, .inl fails.2⟩,
    if_neg fun fails => waited ⟨fails.1, .inr fails.2⟩]

theorem stored_process :
    (process goesOn blocking calls memory).polling.Stored memory := by
  by_cases failed : calls.wait.EventFails blocking
  · rw [process_of_eventFails failed]
    exact .initial
  · rw [process_of_not_eventFails failed]
    exact stored_pollingLoop _ .initial

theorem made_process :
    (process goesOn blocking calls memory).polling.made <+: calls.polls := by
  by_cases failed : calls.wait.EventFails blocking
  · rw [process_of_eventFails failed]
    exact List.nil_prefix
  · rw [process_of_not_eventFails failed]
    obtain ⟨done, first, made⟩ :=
      made_pollingLoop goesOn calls.polls (.initial memory)
    exact (made.trans (List.nil_append done)) ▸ first

/-- What is returned: nothing while the results of polls do not end the loop, a
negative value if a call fails, or what the check of the statuses finds. -/
theorem process_cases {collection : Collection Rest}
    (processed : process goesOn blocking calls memory = collection)
    (reported : calls.wait.EventFails blocking → 0 < calls.eventErrno) :
    (collection.returned = none ∧ NoneFailed collection.polling.made ∧
        collection.polling.made = calls.polls ∧
        (calls.polls ≠ [] → goesOn calls.polls.length
          collection.polling.polled.length = true)) ∨
      (∃ ret < 0, collection.returned = some ret ∧
        (NoneFailed collection.polling.made →
          collection.polling.polled = [])) ∨
      (collection.returned = some (collection.polling.array.validate
          collection.polling.polled.length) ∧
        goesOn collection.polling.made.length
          collection.polling.polled.length = false) := by
  by_cases failed : calls.wait.EventFails blocking
  · rw [process_of_eventFails failed] at processed
    cases processed
    have positive := reported failed
    exact .inr (.inl ⟨_, by omega, rfl, fun _ => rfl⟩)
  · rw [process_of_not_eventFails failed] at processed
    have stored : (pollingLoop goesOn calls.polls
        (.initial memory)).1.Stored memory := stored_pollingLoop _ .initial
    generalize looped : pollingLoop goesOn calls.polls (.initial memory) =
      pair at processed stored
    obtain ⟨after, ended⟩ := pair
    cases processed
    have fresh : NoneFailed (Polling.initial memory).made :=
      fun _ => List.not_mem_nil
    rw [← stored.totalWc]
    rcases pollingLoop_cases looped fresh with going | failed | stopped
    · obtain ⟨rfl, fine, made, condition⟩ := going
      have all : after.made = calls.polls := made
      exact .inl ⟨rfl, fine, all, fun nonempty => all ▸ condition nonempty⟩
    · obtain ⟨code, rfl, member⟩ := failed
      exact .inr (.inl ⟨-(code + 1), by omega, rfl,
        fun fine => absurd member (fine code)⟩)
    · obtain ⟨rfl, -, condition⟩ := stopped
      exact .inr (.inr ⟨rfl, condition⟩)

/-- What the collection of at most so many completions is to achieve, at every
point of the loop and when it returns. -/
structure Complete (maxWc : Nat) (calls : VerbsCalls Rest)
    (memory : Nat → IbvWc Rest) (collection : Collection Rest) : Prop where
  /-- The polls made are the first ones, in their order. -/
  first : collection.polling.made <+: calls.polls
  /-- The completions are stored in polling order and without gaps. -/
  stores : collection.polling.array.stores = collection.polling.polled.zipIdx
  within : ∀ store ∈ collection.polling.array.stores, store.2 < maxWc
  entries : ∀ index, collection.polling.array.entries index =
    collection.polling.polled[index]?.getD (memory index)
  success : ∀ count : Nat, collection.returned = some (count : Int) →
    count ≤ maxWc ∧ ∀ index < count,
      collection.polling.polled[index]? =
          some (collection.polling.array.entries index) ∧
        (collection.polling.array.entries index).status = 0
  failure : NoneFailed collection.polling.made → ∀ completion,
    (collection.polling.polled.find? fun completion =>
        completion.status ≠ 0) = some completion →
      ∀ ret, collection.returned = some ret → ret = -completion.status
  /-- It returns once a poll fails or all completions are there. -/
  going : collection.returned = none →
    collection.polling.made = calls.polls ∧
      NoneFailed collection.polling.made ∧
      collection.polling.polled.length < maxWc

variable {collection : Collection Rest}

/-- A return value that is not negative counts the completions polled, all of
which succeeded. -/
theorem counted_of_returned {count : Nat}
    (processed : process goesOn blocking calls memory = collection)
    (reported : calls.wait.EventFails blocking → 0 < calls.eventErrno)
    (returned : collection.returned = some (count : Int)) :
    count = collection.polling.polled.length ∧
      (∀ completion ∈ collection.polling.polled, completion.status = 0) ∧
      goesOn collection.polling.made.length
        collection.polling.polled.length = false := by
  have stored : collection.polling.Stored memory :=
    processed ▸ stored_process
  rcases process_cases processed reported with going | failed | stopped
  · exact absurd (going.1.symm.trans returned) (Option.some_ne_none _).symm
  · obtain ⟨ret, negative, failed, -⟩ := failed
    have same := Option.some.inj (failed.symm.trans returned)
    omega
  · obtain ⟨validated, condition⟩ := stopped
    have same := Option.some.inj (validated.symm.trans returned)
    rw [stored.validate] at same
    cases found : collection.polling.polled.find? fun completion =>
        completion.status ≠ 0 with
    | none =>
        rw [found] at same
        refine ⟨(Int.ofNat.inj same).symm, fun completion member => ?_,
          condition⟩
        simpa using List.find?_eq_none.mp found completion member
    | some completion =>
        rw [found] at same
        have bad : completion.status ≠ 0 := by
          simpa using List.find?_some found
        have negated : -(completion.status : Int) = count := same
        omega

theorem complete (positive : 1 ≤ maxWc)
    (bounded : ∀ polls totalWc, goesOn polls totalWc = true → totalWc < maxWc)
    (processed : process goesOn blocking calls memory = collection)
    (reported : calls.wait.EventFails blocking → 0 < calls.eventErrno)
    (fits : FitsRequests maxWc 0 collection.polling.made) :
    collection.Complete maxWc calls memory := by
  have stored : collection.polling.Stored memory :=
    processed ▸ stored_process
  have room : collection.polling.polled.length ≤ maxWc :=
    (Nat.zero_add _).symm.trans_le (fits.length_le (Nat.zero_le maxWc))
  refine ⟨processed ▸ made_process, stored.stores, ?_, stored.entries, ?_, ?_,
    ?_⟩
  · intro store member
    rw [stored.stores] at member
    have inside := List.snd_lt_of_mem_zipIdx member
    omega
  · intro count returned
    obtain ⟨rfl, succeeded, -⟩ :=
      counted_of_returned processed reported returned
    refine ⟨room, fun index inside => ?_⟩
    have entry : collection.polling.polled[index]? =
        some (collection.polling.array.entries index) := by
      rw [stored.entries, List.getElem?_eq_getElem inside, Option.getD_some]
    exact ⟨entry, succeeded _ (List.mem_of_getElem? entry)⟩
  · intro fine completion found ret returned
    rcases process_cases processed reported with going | failed | stopped
    · exact absurd (going.1.symm.trans returned) (Option.some_ne_none _).symm
    · obtain ⟨-, -, -, none⟩ := failed
      rw [none fine] at found
      cases found
    · have same := Option.some.inj (stopped.1.symm.trans returned)
      rw [stored.validate, found] at same
      exact same.symm
  · intro unreturned
    rcases process_cases processed reported with going | failed | stopped
    · obtain ⟨-, fine, made, condition⟩ := going
      refine ⟨made, fine, ?_⟩
      by_cases nonempty : calls.polls = []
      · rw [Polling.polled, made, nonempty]
        exact positive
      · exact bounded _ _ (condition nonempty)
    · obtain ⟨ret, -, failed, -⟩ := failed
      exact absurd (failed.symm.trans unreturned) (Option.some_ne_none _)
    · exact absurd (stopped.1.symm.trans unreturned) (Option.some_ne_none _)

/-- A further condition of the loop makes no difference if all completions are
there when it stops. -/
theorem process_eq
    (bounded : ∀ polls totalWc, goesOn polls totalWc = true → totalWc < maxWc)
    (all : (process goesOn blocking calls memory).polling.polled.length =
      maxWc) :
    process goesOn blocking calls memory =
      processWorkCompletionEvents maxWc blocking calls memory := by
  rw [← stored_process.totalWc] at all
  rw [processWorkCompletionEvents]
  by_cases failed : calls.wait.EventFails blocking
  · rw [process_of_eventFails failed, process_of_eventFails failed]
  · rw [process_of_not_eventFails failed] at all ⊢
    rw [process_of_not_eventFails failed, pollingLoop_eq bounded _ _ all]

theorem returned_of_timeout {clock : Nat → TimeVal}
    (reported : calls.wait.EventFails blocking → 0 < calls.eventErrno)
    (nonempty : calls.polls ≠ [])
    (out : maxPollCqTimeout ≤
      msec (clock calls.polls.length) - msec (clock 0)) :
    (processWorkCompletionEventsWithTimeout clock maxWc blocking calls
      memory).returned ≠ none := by
  intro unreturned
  have processed : process (fun polls totalWc => decide (totalWc < maxWc ∧
      msec (clock polls) - msec (clock 0) < maxPollCqTimeout)) blocking calls
        memory =
      processWorkCompletionEventsWithTimeout clock maxWc blocking calls
        memory := rfl
  rcases process_cases processed reported with going | failed | stopped
  · obtain ⟨-, -, -, condition⟩ := going
    exact UInt64.not_lt.mpr out (of_decide_eq_true (condition nonempty)).2
  · obtain ⟨ret, -, failed, -⟩ := failed
    exact absurd (failed.symm.trans unreturned) (Option.some_ne_none _)
  · exact absurd (stopped.1.symm.trans unreturned) (Option.some_ne_none _)

theorem pollLoop_statuses (maxWc : Nat) (polls : List (BatchResult Rest))
    {state : Polling Rest} (stored : state.Stored memory) :
    pollLoop maxWc (state.polled.map IbvWc.status)
        (polls.map BatchResult.statuses) =
      (pollingLoop (fun _ totalWc => decide (totalWc < maxWc)) polls
        state).2.map fun ended =>
          match ended with
          | .error ret => .error ret
          | .ok _ => .ok ((pollingLoop (fun _ totalWc =>
              decide (totalWc < maxWc)) polls state).1.polled.map
                IbvWc.status) := by
  induction polls generalizing state with
  | nil => rfl
  | cons result polls ih =>
      cases result with
      | failed code => rfl
      | completed batch =>
          have next := stored.poll batch
          have length : (state.poll batch).totalWc =
              (state.polled.map IbvWc.status ++
                batch.map IbvWc.status).length := by
            rw [next.totalWc, Polling.polled_poll, ← List.map_append,
              List.length_map]
          rw [List.map_cons, BatchResult.statuses, pollLoop, pollingLoop,
            ← length]
          by_cases more : (state.poll batch).totalWc < maxWc
          · rw [if_pos more, if_pos (decide_eq_true more), ← ih next,
              Polling.polled_poll, List.map_append]
          · rw [if_neg more, if_neg (by simpa using more), Option.map_some,
              Polling.polled_poll, List.map_append]

theorem returned_processWorkCompletionEvents :
    (processWorkCompletionEvents maxWc blocking calls memory).returned =
      RdmaKVStore.processWorkCompletionEvents blocking maxWc calls.wait := by
  by_cases failed : calls.wait.EventFails blocking
  · rw [CompletionWait.process_of_eventFails failed,
      processWorkCompletionEvents, process_of_eventFails failed]
    rfl
  · have statuses : pollLoop maxWc [] calls.wait.polls = _ :=
      pollLoop_statuses maxWc calls.polls (.initial : Polling.Stored memory _)
    rw [CompletionWait.process_of_not_eventFails failed, statuses,
      processWorkCompletionEvents, process_of_not_eventFails failed]
    have stored : (pollingLoop (fun _ totalWc => decide (totalWc < maxWc))
        calls.polls (.initial memory)).1.Stored memory :=
      stored_pollingLoop _ .initial
    generalize looped : pollingLoop (fun _ totalWc => decide (totalWc < maxWc))
      calls.polls (.initial memory) = pair at stored
    obtain ⟨after, ended⟩ := pair
    have fresh : NoneFailed (Polling.initial memory).made :=
      fun _ => List.not_mem_nil
    rcases pollingLoop_cases looped fresh with going | failed | stopped
    · obtain ⟨rfl, -⟩ := going
      rfl
    · obtain ⟨code, rfl, -⟩ := failed
      rfl
    · obtain ⟨rfl, -⟩ := stopped
      have stored : after.Stored memory := stored
      have status : (fun status : Nat => decide (status ≠ 0)) ∘ IbvWc.status =
        fun completion : IbvWc Rest => decide (completion.status ≠ 0) := rfl
      simp only [Option.map_some]
      rw [stored.totalWc, stored.validate, List.find?_map, List.length_map,
        status]
      cases after.polled.find? fun completion =>
        decide (completion.status ≠ 0) <;> rfl

end Collection

/-- Three completions, polled one and then two, with a poll between that finds
none. -/
def threeCompletions : VerbsCalls Nat where
  getCqEvent := 0
  reqNotifyCq := 0
  eventErrno := 0
  polls := [.completed [⟨0, 1⟩], .completed [], .completed [⟨12, 2⟩, ⟨5, 3⟩]]

def tickingClock (reading : Nat) : TimeVal where
  sec := 7
  usec := reading * 10000

end RdmaKVStore
