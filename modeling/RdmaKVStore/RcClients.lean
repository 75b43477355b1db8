import RdmaKVStore.RcAnswers

/-!
# Clients with keys of their own

Clients of one server over RC whose keys have nothing to do with each other
read what each of them would read from a server of its own.
-/

namespace RdmaKVStore

open HashTable

variable {worker : WorkerId} {turns : List (WorkerId × Request)}
variable {responses : List Response}

theorem answersOf_fst (length : responses.length = turns.length) :
    (answersOf worker (turns.zip responses)).map Prod.fst =
      (turns.filter fun turn => turn.1 = worker).map Prod.snd := by
  have whole : (turns.zip responses).map Prod.fst = turns :=
    List.map_fst_zip length.ge
  conv_rhs => rw [← whole]
  rw [answersOf, List.map_map, List.filter_map, List.map_map]
  rfl

theorem turns_of_worker (turns : List (WorkerId × Request)) :
    (turns.filter fun turn => turn.1 = worker) =
      ((turns.filter fun turn => turn.1 = worker).map Prod.snd).map
        fun request => (worker, request) := by
  have own : ∀ turn ∈ turns.filter fun turn => turn.1 = worker,
      (worker, turn.2) = turn := by
    intro turn member
    have isOwn := (List.mem_filter.mp member).2
    exact Prod.ext (of_decide_eq_true isOwn).symm rfl
  rw [List.map_map]
  exact (List.map_id _).symm.trans
    (List.map_congr_left fun turn member => (own turn member).symm)

theorem executeAll_take {ht after : HashTable}
    (executed : executeAll ht turns = some (after, responses)) (count : Nat) :
    ∃ earlier, executeAll ht (turns.take count) =
      some (earlier, responses.take count) := by
  induction turns generalizing ht responses count with
  | nil =>
      cases executed
      exact ⟨after, by rw [List.take_nil, List.take_nil]; rfl⟩
  | cons turn turns ih =>
      obtain ⟨⟨middle, response⟩, one, rest⟩ :=
        Option.bind_eq_some_iff.mp executed
      obtain ⟨⟨last, more⟩, others, same⟩ := Option.map_eq_some_iff.mp rest
      cases same
      cases count with
      | zero => exact ⟨_, rfl⟩
      | succ count =>
          obtain ⟨earlier, part⟩ := ih others count
          refine ⟨earlier, ?_⟩
          simp only [List.take_succ_cons, executeAll, one, Option.bind_some,
            part, Option.map_some]

namespace RcStore

variable {messages : WorkerId → Nat → Request} {state : RcStore}
variable {clients : Finset WorkerId}

theorem turns_eq (delivers : Delivers messages state worker)
    {ht : HashTable} (sequential : state.store.Sequential ht responses) :
    (state.store.turns.filter fun turn => turn.1 = worker) =
      (List.range (state.store.answers worker).length).map
        fun number => (worker, messages worker number) := by
  have asked := delivers.asked
  rw [OrderedState.answers_eq sequential.executed,
    answersOf_fst sequential.length] at asked
  rw [turns_of_worker, asked, List.map_map,
    OrderedState.answers_eq sequential.executed]
  rfl

theorem of_mem_turns (apart : KeysApart messages clients)
    (reached : (rcStore messages).GuardedReach (OnlyClients clients) state)
    {turn : WorkerId × Request} (member : turn ∈ state.store.turns) :
    turn.1 ∈ clients ∧ ∃ number, turn.2 = messages turn.1 number := by
  have free := apart.conflictFree reached
  obtain ⟨ht, responses, sequential⟩ :=
    sequential_of_reached (store_conflictFree free)
  have delivers := Delivers.of_reached apart.handled free turn.1
  have own : turn ∈ state.store.turns.filter fun other => other.1 = turn.1 :=
    List.mem_filter.mpr ⟨member, decide_eq_true rfl⟩
  rw [turns_eq delivers sequential] at own
  obtain ⟨number, inside, same⟩ := List.mem_map.mp own
  refine ⟨?_, number, (congrArg Prod.snd same).symm⟩
  by_contra absent
  have bound := (delivers.bounds (session_balanced apart.handled
    reached.reachable turn.1)).2
  rw [(initial_sameFor reached absent).session] at bound
  exact Nat.not_lt_zero _ ((List.mem_range.mp inside).trans_le bound)

theorem own_iff (apart : KeysApart messages clients)
    (reached : (rcStore messages).GuardedReach (OnlyClients clients) state)
    (client : worker ∈ clients) {turn : WorkerId × Request}
    (member : turn ∈ state.store.turns) :
    (∃ number, turn.2 = messages worker number) ↔ turn.1 = worker := by
  obtain ⟨isClient, number, same⟩ := of_mem_turns apart reached member
  constructor
  · rintro ⟨number', same'⟩
    by_contra distinct
    refine apart.unrelated turn.1 isClient worker client distinct number
      number' ?_
    rw [← same, same']
    exact ⟨rfl, .inl List.prefix_rfl⟩
  · rintro rfl
    exact ⟨number, same⟩

open Classical in
/-- The requests of a client are a source of their own. -/
theorem separateSource (apart : KeysApart messages clients)
    (reached : (rcStore messages).GuardedReach (OnlyClients clients) state)
    (client : worker ∈ clients) :
    SeparateSource (state.store.turns.map Prod.snd)
      fun request => ∃ number, request = messages worker number where
  wellFormed := List.forall_mem_map.mpr fun turn member => by
    obtain ⟨isClient, number, same⟩ := of_mem_turns apart reached member
    exact same ▸ apart.wellFormed turn.1 isClient number
  noReset := List.forall_mem_map.mpr fun turn member => by
    obtain ⟨-, number, same⟩ := of_mem_turns apart reached member
    intro resets
    have handled := apart.handled turn.1 number
    rw [← same, resets] at handled
    exact absurd handled (by decide)
  apart := by
    refine List.forall_mem_map.mpr fun first inTurns =>
      List.forall_mem_map.mpr fun second inTurns' own foreign => ?_
    obtain ⟨number, same⟩ := of_decide_eq_true own
    obtain ⟨isClient, number', same'⟩ := of_mem_turns apart reached inTurns'
    rw [same, same']
    refine apart.unrelated worker client second.1 isClient ?_ number number'
    rintro rfl
    exact foreign (decide_eq_true ⟨number', same'⟩)

end RcStore

open Classical in
/-- Clients with keys of their own read over RC just the responses that each of
them would read, for its own requests in its own order, from a server that
nobody else uses. -/
theorem rcClient_answered_alone (messages : WorkerId → Nat → Request)
    (clients : Finset WorkerId) (apart : RcStore.KeysApart messages clients)
    {state : RcStore}
    (reached : (rcStore messages).GuardedReach (RcStore.OnlyClients clients)
      state) (worker : WorkerId) (client : worker ∈ clients) :
    ∃ alone, executeAll empty
        ((List.range (state.session worker).client.received).map
          fun number => (worker, messages worker number)) =
      some (alone, state.seen worker) := by
  have free := apart.conflictFree reached
  obtain ⟨ht, responses, sequential⟩ :=
    sequential_of_reached (RcStore.store_conflictFree free)
  have delivers := RcStore.Delivers.of_reached apart.handled free worker
  have bound := (delivers.bounds (RcStore.session_balanced apart.handled
    reached.reachable worker)).1
  obtain ⟨ht', responses', alone, executed, executedAlone, -⟩ :=
    (RcStore.separateSource apart reached client).executeAll_alone
  obtain ⟨-, rfl⟩ : ht' = ht ∧ responses' = responses := by
    simpa using executed.symm.trans sequential.executed
  have own : ∀ turn ∈ state.store.turns,
      decide (∃ number, turn.2 = messages worker number) =
        decide (turn.1 = worker) := fun turn member =>
    decide_eq_decide.mpr (RcStore.own_iff apart reached client member)
  have answered : executeAll empty
      (state.store.turns.filter fun turn => turn.1 = worker) =
        some (alone, (state.store.answers worker).map Prod.snd) := by
    rw [← List.filter_congr own, executedAlone, Option.some.injEq,
      Prod.mk.injEq, OrderedState.answers_eq sequential.executed, answersOf,
      List.map_map]
    refine ⟨rfl, congrArg (List.map Prod.snd) (List.filter_congr ?_)⟩
    exact fun turn member => own turn.1 (List.of_mem_zip member).1
  rw [RcStore.turns_eq delivers sequential] at answered
  obtain ⟨earlier, first⟩ := executeAll_take answered
    (state.session worker).client.received
  rw [← delivers.seen, ← List.map_take, List.take_range,
    min_eq_left bound] at first
  exact ⟨earlier, first⟩

theorem RcStore.KeysApart.of_instances
    {messages : WorkerId → Nat → Request} {clients : Finset WorkerId}
    (instanceNr : WorkerId → Int32)
    (made : ∀ worker number, ∃ count,
      (messages worker number).MadeBy (instanceNr worker) count)
    (distinct : ∀ worker ∈ clients, ∀ other ∈ clients, worker ≠ other →
      instanceNr worker ≠ instanceNr other) :
    RcStore.KeysApart messages clients where
  handled worker number := by
    obtain ⟨count, isMade⟩ := made worker number
    rcases isMade.cases.2.2 with ⟨gets, -⟩ | ⟨sets, -⟩
    · exact .inr (.inl gets)
    · exact .inl sets
  wellFormed worker _ number := by
    obtain ⟨count, isMade⟩ := made worker number
    exact isMade.wellFormed.key
  unrelated worker isClient other isClient' differ number number' := by
    obtain ⟨count, isMade⟩ := made worker number
    obtain ⟨count', isMade'⟩ := made other number'
    exact isMade.unrelated isMade'
      (distinct worker isClient other isClient' differ)
  unwalked worker isClient other isClient' differ number number' := by
    obtain ⟨count, isMade⟩ := made worker number
    obtain ⟨count', isMade'⟩ := made other number'
    rintro ⟨-, ⟨-, deletes⟩ | ⟨deletes, -⟩⟩
    · exact isMade'.not_del deletes
    · exact isMade.not_del deletes

def firstSets (worker : WorkerId) (_ : Nat) : Request :=
  firstSet (Int32.ofNat worker)

theorem firstSets_apart : RcStore.KeysApart firstSets {0, 1} :=
  .of_instances Int32.ofNat (fun _ _ => ⟨0, firstSet_madeBy _⟩) (by decide)

/-- One instance is served while the SET of the other one is in progress. -/
def firstSetsLabels : List RcStoreLabel :=
  let served (worker : WorkerId) : RcStoreLabel :=
    .session worker (.server (.work (Fin.last 0)))
  let client (worker : WorkerId) : RcStoreLabel := .session worker .client
  [[client 0, client 1, .session 0 (.server .arrive),
      .session 1 (.server .arrive)],
    List.replicate 6 (served 0), List.replicate 2 (.handler 0 .zero),
    List.replicate 6 (served 1), List.replicate 6 (.handler 1 .zero),
    List.replicate 2 (served 1), [.session 1 .responseArrives, client 1],
    List.replicate 4 (.handler 0 .zero), [client 1, .session 1 .sendDone,
      client 1]].flatten

theorem firstSets_answered_alone : ∃ state,
    (rcStore firstSets).run .initial firstSetsLabels = some state ∧
      (state.seen 1).length = 1 ∧ ∃ alone, executeAll empty
          ((List.range (state.session 1).client.received).map
            fun number => (1, firstSets 1 number)) =
        some (alone, state.seen 1) := by
  have runs : ((rcStore firstSets).run .initial firstSetsLabels).any
      (fun state => (state.seen 1).length = 1) = true := by decide +kernel
  have present : ∀ label ∈ firstSetsLabels,
      label.worker ∈ ({0, 1} : Finset WorkerId) := by decide
  obtain ⟨state, runTo, read⟩ := (Option.any_eq_true _ _).mp runs
  have reached := TransitionSystem.guardedReach_of_run (.start rfl)
    (TransitionSystem.runGuarded_of_forall
      (fun label member _ => present label member) _) runTo
  exact ⟨state, runTo, of_decide_eq_true read, rcClient_answered_alone firstSets
    {0, 1} firstSets_apart reached 1 (by decide)⟩

end RdmaKVStore
