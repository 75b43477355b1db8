import RdmaKVStore.ConflictFreeWorkers

/-!
# Workers in the order of their lookups

Without conflicts the interleaved workers refine the sequential store: each
lookup takes effect at once on the entries that the table is going to show, and
the steps that follow only bring the table up to them.
-/

namespace RdmaKVStore

open LinkedChain HashTable FirstMatch

variable {state : WorkerState} {buckets : Buckets}
variable {answers : WorkerId → Option (Request × Response)}
variable {ht after : HashTable} {answer : Option (Request × Response)}
variable {worker other : WorkerId} {request request' : Request} {p : Ptr}
variable {phase before next : Phase} {change : Entry → Option Entry}
variable {shown : Ptr → Option Entry} {stale : HashItem}

/-- A phase in which the worker has nothing in hand and nothing to change. -/
structure Phase.Outset (phase : Phase) : Prop where
  inHand : phase.inHand = none
  writing : phase.writing = none
  reading : phase.reading = none
  pendingChange : phase.pendingChange = none

theorem Phase.Finished.outset (finished : phase.Finished) : phase.Outset := by
  cases phase <;> first | exact ⟨rfl, rfl, rfl, rfl⟩ | exact finished.elim

theorem Phase.outset_of_first (first : Phase.first request = some phase) :
    phase.Outset := by
  rcases Phase.first_eq first with rfl | rfl | rfl <;>
    exact ⟨rfl, rfl, rfl, rfl⟩

theorem Phase.owes_of_first (first : Phase.first request = some phase) :
    phase.Owes ht answer := by
  unfold Phase.first at first
  split at first <;> cases first <;> assumption

theorem Request.WalksDuringRemoval.symm
    (walks : request.WalksDuringRemoval request') :
    request'.WalksDuringRemoval request :=
  ⟨walks.1.symm, walks.2.symm.imp And.symm And.symm⟩

theorem Request.Conflicts.symm (conflicts : request.Conflicts request') :
    request'.Conflicts request :=
  conflicts.imp (fun ⟨related, write⟩ =>
    ⟨related.symm, fun reads => write reads.symm⟩) (·.symm)

/-! ### What the table will show -/

def WorkerState.stepped (state : WorkerState) (worker : WorkerId)
    (after : HashTable) (next : Phase) (stores : List (Bytes × Bytes)) :
    WorkerState where
  table := after
  phase := Function.update state.phase worker next
  stores := stores

theorem WorkerState.stepped_self (state : WorkerState) (worker : WorkerId)
    (after : HashTable) (next : Phase) (stores : List (Bytes × Bytes)) :
    (state.stepped worker after next stores).phase worker = next :=
  Function.update_self _ _ _

theorem WorkerState.stepped_of_ne (state : WorkerState)
    (after : HashTable) (next : Phase) (stores : List (Bytes × Bytes))
    (distinct : other ≠ worker) :
    (state.stepped worker after next stores).phase other =
      state.phase other :=
  Function.update_of_ne distinct _ _

section Shows

variable {stores : List (Bytes × Bytes)} {shown' : Ptr → Option Entry}
variable {buckets' : Buckets}

theorem WorkerState.Shows.of_step
    (contents : ∀ bucket,
      buckets' bucket = (after.bucketItems bucket).filterMap shown')
    (own : ∀ p change, next.pendingChange = some (p, change) →
      shown' p = (after.entryAt p).bind change)
    (others : ∀ other p change, other ≠ worker →
      (state.phase other).pendingChange = some (p, change) →
        shown' p = (after.entryAt p).bind change)
    (settled : ∀ p, (∀ change, next.pendingChange ≠ some (p, change)) →
      (∀ other change, other ≠ worker →
        (state.phase other).pendingChange ≠ some (p, change)) →
        shown' p = after.entryAt p) :
    (state.stepped worker after next stores).Shows shown' buckets' where
  buckets := contents
  pending other p change isPending := by
    by_cases same : other = worker
    · subst same
      rw [stepped_self] at isPending
      exact own p change isPending
    · rw [stepped_of_ne _ _ _ _ same] at isPending
      exact others other p change same isPending
  settled p unchanged := by
    apply settled p
    · intro change isPending
      apply unchanged worker change
      rw [stepped_self]
      exact isPending
    · intro other change distinct isPending
      apply unchanged other change
      rw [stepped_of_ne _ _ _ _ distinct]
      exact isPending

variable (shows : state.Shows shown buckets)
include shows

/-- Steps that leave chains, entries and the worker's pending change alone. -/
theorem WorkerState.Shows.keeps (here : state.phase worker = before)
    (items : after.bucketItems = state.table.bucketItems)
    (entries : after.entryAt = state.table.entryAt)
    (pending : next.pendingChange = before.pendingChange) :
    (state.stepped worker after next stores).Shows shown buckets := by
  apply WorkerState.Shows.of_step
  · rw [items]
    exact shows.buckets
  · rw [pending, entries, ← here]
    exact shows.pending worker
  · rw [entries]
    exact fun other p change _ => shows.pending other p change
  · intro p own others
    rw [entries]
    refine shows.settled p fun other change => ?_
    by_cases same : other = worker
    · subst same
      rw [here, ← pending]
      exact own change
    · exact others other change same

/-- The lookup of a SET or DEL settles how its item is going to be changed. -/
theorem WorkerState.Shows.found {bucket : Nat}
    (linked : Linked state.table state.table.bucketItems)
    (here : state.phase worker = before) (idle : before.pendingChange = none)
    (isFirst : (state.table.bucketItems bucket).find? (fun p =>
      (shown p).any request.finds) = some p)
    (unchanged : ∀ other change,
      (state.phase other).pendingChange ≠ some (p, change))
    (pending : next.pendingChange = some (p, change)) :
    (state.stepped worker state.table next stores).Shows
      (Function.update shown p ((shown p).bind change))
      (Function.update buckets bucket
        (alterFirst request.finds change (buckets bucket))) := by
  apply WorkerState.Shows.of_step
  · intro other
    rw [shows.buckets]
    by_cases same : other = bucket
    · subst same
      rw [Function.update_self]
      exact (filterMap_update_find? (linked.nodup other) isFirst).symm
    · rw [Function.update_of_ne same, shows.buckets]
      apply List.filterMap_congr
      intro q member
      have away : q ≠ p := by
        rintro rfl
        exact same (linked.separate other bucket q member
          (List.mem_of_find?_eq_some isFirst))
      exact (Function.update_of_ne away _ _).symm
  · intro q change' isPending
    rw [pending, Option.some.injEq, Prod.mk.injEq] at isPending
    obtain ⟨rfl, rfl⟩ := isPending
    rw [Function.update_self, shows.settled p unchanged]
  · intro other q change' _ isPending
    have away : q ≠ p := by
      rintro rfl
      exact unchanged other change' isPending
    rw [Function.update_of_ne away]
    exact shows.pending other q change' isPending
  · intro q own others
    have away : q ≠ p := by
      rintro rfl
      exact own change pending
    rw [Function.update_of_ne away]
    refine shows.settled q fun other change' => ?_
    by_cases same : other = worker
    · subst same
      rw [here, idle]
      exact fun none => by cases none
    · exact others other change' same

/-- The lookup of a SET that finds nothing adds an item. -/
theorem WorkerState.Shows.inserts {bucket : Nat} {fresh : Ptr}
    (here : state.phase worker = before) (idle : before.pendingChange = none)
    (absent : (buckets bucket).find? request.finds = none)
    (unused : ∀ bucket, fresh ∉ state.table.bucketItems bucket)
    (unchanged : ∀ other change,
      (state.phase other).pendingChange ≠ some (fresh, change))
    (items : after.bucketItems = Function.update state.table.bucketItems
      bucket (fresh :: state.table.bucketItems bucket))
    (entries : after.entryAt = Function.update state.table.entryAt fresh
      (some (request.addedKey, none, 0)))
    (pending : next.pendingChange =
      some (fresh, fun entry => some (request.revise entry))) :
    (state.stepped worker after next stores).Shows
      (Function.update shown fresh
        (some (request.revise (request.addedKey, none, 0))))
      (Function.update buckets bucket
        (request.assigned (buckets bucket))) := by
  have kept (other : Nat) :
      (state.table.bucketItems other).filterMap (Function.update shown fresh
        (some (request.revise (request.addedKey, none, 0)))) =
      buckets other := by
    rw [shows.buckets]
    apply List.filterMap_congr
    intro q member
    exact Function.update_of_ne
      (ne_of_mem_of_not_mem member (unused other)) _ _
  apply WorkerState.Shows.of_step
  · intro other
    rw [items]
    by_cases same : other = bucket
    · subst same
      rw [Function.update_self, Function.update_self,
        List.filterMap_cons_some (Function.update_self _ _ _), kept,
        Request.assigned_of_absent absent]
    · rw [Function.update_of_ne same, Function.update_of_ne same, kept]
  · intro q change isPending
    rw [pending, Option.some.injEq, Prod.mk.injEq] at isPending
    obtain ⟨rfl, rfl⟩ := isPending
    rw [entries, Function.update_self, Function.update_self, Option.bind_some]
  · intro other q change _ isPending
    have away : q ≠ fresh := by
      rintro rfl
      exact unchanged other change isPending
    rw [entries, Function.update_of_ne away, Function.update_of_ne away]
    exact shows.pending other q change isPending
  · intro q own others
    have away : q ≠ fresh := by
      rintro rfl
      exact own _ pending
    rw [entries, Function.update_of_ne away, Function.update_of_ne away]
    refine shows.settled q fun other change => ?_
    by_cases same : other = worker
    · subst same
      rw [here, idle]
      exact fun none => by cases none
    · exact others other change same

/-- The worker makes its pending change. -/
theorem WorkerState.Shows.commits (here : state.phase worker = before)
    (pending : before.pendingChange = some (p, change))
    (done : next.pendingChange = none)
    (unchanged : ∀ other change, other ≠ worker →
      (state.phase other).pendingChange ≠ some (p, change))
    (items : ∀ bucket, (after.bucketItems bucket).filterMap shown =
      (state.table.bucketItems bucket).filterMap shown)
    (entries : after.entryAt = Function.update state.table.entryAt p
      ((state.table.entryAt p).bind change)) :
    (state.stepped worker after next stores).Shows shown buckets := by
  have made : shown p = (state.table.entryAt p).bind change :=
    shows.pending worker p change (here ▸ pending)
  apply WorkerState.Shows.of_step
  · intro bucket
    rw [items, shows.buckets]
  · rw [done]
    exact fun _ _ none => by cases none
  · intro other q change' distinct isPending
    have away : q ≠ p := by
      rintro rfl
      exact unchanged other change' distinct isPending
    rw [entries, Function.update_of_ne away]
    exact shows.pending other q change' isPending
  · intro q _ others
    rw [entries]
    by_cases same : q = p
    · subst same
      rw [Function.update_self, made]
    · rw [Function.update_of_ne same]
      refine shows.settled q fun other change' isPending => ?_
      by_cases mine : other = worker
      · subst mine
        rw [here, pending, Option.some.injEq, Prod.mk.injEq] at isPending
        exact same isPending.1.symm
      · exact others other change' mine isPending

end Shows

namespace WorkerState.Linearized

variable (linearized : state.Linearized buckets answers)
include linearized

theorem shows_step {stores : List (Bytes × Bytes)} (sound : state.Sound)
    (shows : state.Shows shown buckets) (here : state.phase worker = before)
    (advanced : advance state.table worker stale before =
      some (after, next)) :
    ∃ shown', (state.stepped worker after next stores).Shows shown'
      (buckets.lookedUp before) := by
  have advances := advance_advances advanced
  have owes := here ▸ linearized.owes worker
  have doomed := here ▸ sound.doomed worker
  have effect := advances.effect sound.linked doomed
  have looks (request : Request) (lookup : before.lookup = some request) :
      (state.phase worker).lookup = some request := here ▸ lookup
  have others {request : Request} {p : Ptr}
      (inHand : before.inHand = some (request, p)) (other : WorkerId)
      (change : Entry → Option Entry) (distinct : other ≠ worker) :
      (state.phase other).pendingChange ≠ some (p, change) :=
    linearized.not_pending_of_other sound distinct (here ▸ inHand) change
  cases advances with
  | @setFound request p found =>
      have method : request.method = .set := owes
      obtain ⟨isFirst, unchanged, -, entry, -, looked⟩ :=
        linearized.of_search_some sound shows (looks request rfl) found
      refine ⟨Function.update shown p
        ((shown p).bind fun entry => some (request.revise entry)), ?_⟩
      rw [Buckets.lookedUp_set rfl method,
        Request.assigned_of_present looked]
      exact shows.found sound.linked here rfl isFirst unchanged rfl
  | @setInsert request missing =>
      have method : request.method = .set := owes
      have absent :=
        linearized.of_search_none sound shows (looks request rfl) missing
      have unused (bucket : Nat) :
          state.table.fresh ∉ state.table.bucketItems bucket :=
        fun member => lt_irrefl _ (sound.linked.lt_fresh member)
      have inserted : Linked (state.table.insertEntry
          (state.table.getBucket request.keyMemory) request.keyMemory
          request.keyLen.toNat).1 _ :=
        sound.linked.insertEntry (sound.linked.getBucket_lt _)
      refine ⟨Function.update shown state.table.fresh
        (some (request.revise (request.addedKey, none, 0))), ?_⟩
      rw [Buckets.lookedUp_set rfl method]
      refine shows.inserts here rfl absent unused ?_ ?_
        (entryAt_insertEntry _ _ _) rfl
      · intro other change pending
        obtain ⟨request', inHand⟩ := Phase.inHand_of_pending pending
        exact unused _ (linearized.holds _ _ _ inHand).1
      · rw [inserted.bucketItems_eq, linearized.getBucket_eq]
  | @setRefused request p held | @delRefused request p held =>
      have free := linearized.lockAt_of_changing sound
        (congrArg Phase.inHand here) (by rw [owes.1]; decide)
        ⟨congrArg Phase.writing here, congrArg Phase.reading here⟩
      exact absurd (rwlock_readItem free) held
  | @setStore request p =>
      exact ⟨shown, shows.commits here rfl rfl (others rfl)
        (fun bucket => by rw [sound.linked.bucketItems_storeValue])
        (entryAt_writeItem_eq_update fun _ => rfl)⟩
  | @getMissing request missing | @getFound request p found =>
      refine ⟨shown, ?_⟩
      rw [Buckets.lookedUp_get rfl owes]
      exact shows.keeps here rfl rfl rfl
  | @delFound request p found =>
      have method : request.method = .del := owes
      obtain ⟨isFirst, unchanged, -, entry, -, -⟩ :=
        linearized.of_search_some sound shows (looks request rfl) found
      refine ⟨Function.update shown p ((shown p).bind fun _ => none), ?_⟩
      rw [Buckets.lookedUp_del rfl method]
      exact shows.found sound.linked here rfl isFirst unchanged rfl
  | @delMissing request missing =>
      have absent :=
        linearized.of_search_none sound shows (looks request rfl) missing
      refine ⟨shown, ?_⟩
      rw [Buckets.lookedUp_del rfl owes, Request.erased_of_absent absent,
        Function.update_eq_self]
      exact shows.keeps here rfl rfl rfl
  | @delUnlink request p =>
      have member := doomed _ _ rfl
      have dropped : (state.table.entryAt p).bind
          (fun _ => none : Entry → Option Entry) = none := by
        cases state.table.entryAt p <;> rfl
      have hidden : shown p = none :=
        (shows.pending worker p _
          (congrArg Phase.pendingChange here)).trans dropped
      refine ⟨shown, shows.commits here rfl rfl (others rfl)
        (fun bucket => ?_) (by rw [dropped, entryAt_unlinkItem])⟩
      rw [(sound.linked.unlinkItem member
        (sound.linked.readItem_of_mem member)).bucketItems_eq,
        Function.update_apply]
      split
      case isTrue same =>
        rw [same]
        exact filterMap_erase_of_none hidden _
      case isFalse => rfl
  | delFailUnlock => exact owes.elim
  | _ =>
      cases effect with
      | keeps items entries =>
          exact ⟨shown, shows.keeps here items entries rfl⟩

/-- A step of one worker. -/
theorem advance {stores : List (Bytes × Bytes)} (sound : state.Sound)
    (here : state.phase worker = before)
    (advanced : RdmaKVStore.advance state.table worker stale before =
      some (after, next)) :
    (state.stepped worker after next stores).Linearized
      (buckets.lookedUp before)
      (Function.update answers worker
        (buckets.owed before (answers worker))) := by
  obtain ⟨shown, shows⟩ := linearized.shows
  have advances := advance_advances advanced
  have effect := advances.effect sound.linked (here ▸ sound.doomed worker)
  obtain ⟨owes, holds⟩ := linearized.owes_self sound shows here advanced
  have current (other : WorkerId) (request : Request)
      (inProgress : ((state.stepped worker after next stores).phase
        other).current = some request) :
      (state.phase other).current = some request := by
    by_cases same : other = worker
    · subst same
      rw [WorkerState.stepped_self] at inProgress
      rcases advances.current with none | kept
      · rw [none] at inProgress
        cases inProgress
      · rw [here, ← kept, inProgress]
    · rwa [WorkerState.stepped_of_ne _ _ _ _ same] at inProgress
  have others {other : WorkerId} {request : Request} {p : Ptr}
      (distinct : other ≠ worker)
      (inHand : (state.phase other).inHand = some (request, p)) :
      after.entryAt p = state.table.entryAt p ∧
        p ∈ after.bucketItems request.bucket :=
    effect.keeps_item sound.linked (linearized.holds _ _ _ inHand).1
      fun change => here ▸
        linearized.not_pending_of_other sound distinct.symm inHand change
  have unfailed (request : Request) (p : Ptr) :
      before ≠ .delFailUnlock request p := by
    rintro rfl
    exact (here ▸ linearized.owes worker : Phase.Owes _ _ _)
  refine ⟨advances.capacity.trans linearized.capacity, ?_, ?_, ?_, ?_, ?_,
    linearized.shows_step sound shows here advanced⟩
  · exact fun other request inProgress =>
      linearized.wellFormed other request (current other request inProgress)
  · exact fun first second request request' distinct mine theirs =>
      linearized.apart first second request request' distinct
        (current _ _ mine) (current _ _ theirs)
  · intro other request p inHand
    by_cases same : other = worker
    · subst same
      rw [WorkerState.stepped_self] at inHand
      exact holds request p inHand
    · rw [WorkerState.stepped_of_ne _ _ _ _ same] at inHand
      obtain ⟨entry, items⟩ := others same inHand
      exact (linearized.holds _ _ _ inHand).of_entryAt items entry
  · refine linearized.tracked.advance sound.linked (fun other p inside => ?_)
      here unfailed advances
    obtain ⟨request, inHand⟩ := Phase.inHand_of_section inside
    exact linearized.lockAt_of_inHand sound inHand
  · intro other
    by_cases same : other = worker
    · subst same
      rw [WorkerState.stepped_self, Function.update_self]
      exact owes
    · rw [WorkerState.stepped_of_ne _ _ _ _ same, Function.update_of_ne same]
      exact (linearized.owes other).of_entryAt fun request p inHand =>
        (others same inHand).1

/-- A worker takes up a request. -/
theorem start (finished : (state.phase worker).Finished)
    (first : Phase.first request = some phase)
    (wellFormed : request.KeyWellFormed)
    (unrelated : ∀ other current,
      (state.phase other).current = some current →
        ¬ request.Conflicts current) :
    (state.stepped worker state.table phase state.stores).Linearized buckets
      answers := by
  obtain ⟨shown, shows⟩ := linearized.shows
  have fresh := Phase.outset_of_first first
  have idle := finished.outset
  have current (other : WorkerId) (request' : Request)
      (inProgress : ((state.stepped worker state.table phase
        state.stores).phase other).current = some request') :
      other = worker ∧ request' = request ∨
        other ≠ worker ∧ (state.phase other).current = some request' := by
    by_cases same : other = worker
    · subst same
      rw [WorkerState.stepped_self, Phase.current_of_first first] at inProgress
      exact .inl ⟨rfl, (Option.some.inj inProgress).symm⟩
    · rw [WorkerState.stepped_of_ne _ _ _ _ same] at inProgress
      exact .inr ⟨same, inProgress⟩
  refine ⟨linearized.capacity, ?_, ?_, ?_, ?_, ?_, shown,
    shows.keeps rfl rfl rfl (fresh.pendingChange.trans
      idle.pendingChange.symm)⟩
  · intro other request' inProgress
    rcases current other request' inProgress with ⟨-, rfl⟩ | ⟨-, old⟩
    · exact wellFormed
    · exact linearized.wellFormed other request' old
  · intro one two request₁ request₂ distinct mine theirs
    rcases current one request₁ mine with ⟨rfl, rfl⟩ | ⟨-, old⟩ <;>
      rcases current two request₂ theirs with ⟨same, rfl⟩ | ⟨-, old'⟩
    · exact absurd same.symm distinct
    · exact unrelated two request₂ old'
    · exact fun conflict => unrelated one request₁ old conflict.symm
    · exact linearized.apart one two request₁ request₂ distinct old old'
  · intro other request' p inHand
    by_cases same : other = worker
    · subst same
      rw [WorkerState.stepped_self, fresh.inHand] at inHand
      cases inHand
    · rw [WorkerState.stepped_of_ne _ _ _ _ same] at inHand
      exact linearized.holds other request' p inHand
  · intro p lock held
    refine (linearized.tracked p lock held).congr fun other => ?_
    by_cases same : other = worker
    · subst same
      rw [WorkerState.stepped_self, fresh.writing, fresh.reading,
        idle.writing, idle.reading]
      exact ⟨Iff.rfl, Iff.rfl⟩
    · rw [WorkerState.stepped_of_ne _ _ _ _ same]
      exact ⟨Iff.rfl, Iff.rfl⟩
  · intro other
    by_cases same : other = worker
    · subst same
      rw [WorkerState.stepped_self]
      exact Phase.owes_of_first first
    · rw [WorkerState.stepped_of_ne _ _ _ _ same]
      exact linearized.owes other

end WorkerState.Linearized

/-! ### Runs -/

theorem latestAnswer_append (worker : WorkerId)
    (answered : List ((WorkerId × Request) × Response))
    (turn : WorkerId × Request) (response : Response) :
    latestAnswer worker (answered ++ [(turn, response)]) =
      if turn.1 = worker then some (turn.2, response)
      else latestAnswer worker answered := by
  by_cases same : turn.1 = worker <;> simp [latestAnswer, same]

theorem mem_of_latestAnswer {answered : List ((WorkerId × Request) × Response)}
    {response : Response}
    (latest : latestAnswer worker answered = some (request, response)) :
    ((worker, request), response) ∈ answered := by
  obtain ⟨⟨⟨owner, asked⟩, given⟩, found, same⟩ :=
    Option.map_eq_some_iff.mp latest
  have isOwner := List.find?_some found
  have member := List.mem_reverse.mp (List.mem_of_find?_eq_some found)
  simp only [decide_eq_true_eq] at isOwner
  cases same
  exact isOwner ▸ member

/-- The recorded requests, executed one after another, leave the entries that
the table will show and give the answers that the workers owe. -/
structure OrderedState.Sequential (state : OrderedState) (ht : HashTable)
    (responses : List Response) : Prop where
  executed : executeAll empty state.turns = some (ht, responses)
  settled : ht.Settled
  length : responses.length = state.turns.length
  linearized : state.work.Linearized ht.contents fun worker =>
    latestAnswer worker (state.turns.zip responses)

theorem linearized_initial {answers : WorkerId → Option (Request × Response)} :
    WorkerState.initial.Linearized empty.contents answers where
  capacity := settled_empty.1.capacity
  wellFormed _ _ none := by cases none
  apart _ _ _ _ _ none := by cases none
  holds _ _ _ none := by cases none
  tracked := tracked_initial rfl
  owes _ := trivial
  shows := by
    refine ⟨empty.entryAt, fun _ => rfl, fun _ _ _ none => ?_, fun _ _ => rfl⟩
    cases none

theorem sequential_initial {state : OrderedState}
    (initial : orderedWorkers.initial state) :
    ∃ ht responses, state.Sequential ht responses := by
  obtain rfl := initial
  exact ⟨empty, [], rfl, settled_empty.1, rfl, linearized_initial⟩

theorem executeAll_singleton {response : Response}
    (executed : execute worker ht request = some (after, response)) :
    executeAll ht [(worker, request)] = some (after, [response]) := by
  simp [executeAll, executed]

/-- The step of a worker is a step of the sequential store if it is a lookup,
and none otherwise. -/
theorem sequential_advance {state : OrderedState} {responses : List Response}
    {stores : List (Bytes × Bytes)} (sound : state.work.Sound)
    (sequential : state.Sequential ht responses)
    (advanced : advance state.work.table worker stale
      (state.work.phase worker) = some (after, next)) :
    ∃ ht' responses', OrderedState.Sequential
      { work := state.work.stepped worker after next stores
        turns := state.turns ++
          state.work.lookups (.advance worker stale) } ht' responses' := by
  have linearized : (state.work.stepped worker after next stores).Linearized
      _ _ := sequential.linearized.advance sound rfl advanced
  cases lookup : (state.work.phase worker).lookup with
  | none =>
      simp only [Buckets.lookedUp, Buckets.owed, lookup, Option.elim,
        Function.update_eq_self] at linearized
      refine ⟨ht, responses, ?_, sequential.settled, ?_, ?_⟩ <;>
        simp only [WorkerState.lookups, lookup, Option.map_none,
          Option.toList_none, List.append_nil]
      · exact sequential.executed
      · exact sequential.length
      · exact linearized
  | some request =>
      obtain ⟨ht', executed, settled, contentsEq⟩ :=
        sequential.settled.execute worker request
      simp only [Buckets.lookedUp, Buckets.owed, lookup, Option.elim]
        at linearized
      refine ⟨ht', responses ++ [Buckets.answer ht.contents request], ?_,
        settled, ?_, ?_⟩ <;>
        simp only [WorkerState.lookups, lookup, Option.map_some,
          Option.toList_some]
      · rw [executeAll_append, sequential.executed, Option.bind_some]
        dsimp only
        rw [executeAll_singleton executed, Option.map_some]
      · rw [List.length_append, List.length_append, sequential.length]
        rfl
      · rw [List.zip_append sequential.length.symm, contentsEq]
        convert linearized using 1
        funext other
        rw [List.zip_cons_cons, List.zip_nil_right, latestAnswer_append]
        by_cases same : worker = other
        · subst same
          rw [if_pos rfl, Function.update_self]
        · rw [if_neg same, Function.update_of_ne (Ne.symm same)]

theorem sequential_step {before after : OrderedState} {label : WorkerLabel}
    {responses : List Response} (sound : before.work.Sound)
    (sequential : before.Sequential ht responses)
    (guarded : ConflictFree before label)
    (stepTo : orderedWorkers.step before label = some after) :
    ∃ ht' responses', after.Sequential ht' responses' := by
  obtain ⟨work, workStep, rfl⟩ := Option.map_eq_some_iff.mp stepTo
  cases label with
  | start worker request =>
      simp only [workers] at workStep
      split at workStep
      case isFalse => cases workStep
      case isTrue finished =>
        obtain ⟨phase, first, rfl⟩ := Option.map_eq_some_iff.mp workStep
        refine ⟨ht, responses, ?_, sequential.settled, ?_, ?_⟩ <;>
          simp only [WorkerState.lookups, List.append_nil]
        · exact sequential.executed
        · exact sequential.length
        · exact sequential.linearized.start finished first guarded.1 guarded.2
  | advance worker stale =>
      obtain ⟨⟨table, next⟩, advanced, rfl⟩ :=
        Option.map_eq_some_iff.mp workStep
      exact sequential_advance sound sequential advanced

theorem reachable_of_ordered {state : OrderedState}
    (reached : orderedWorkers.Reachable state) :
    workers.Reachable state.work := by
  induction reached with
  | start initial =>
      obtain rfl := initial
      exact .start rfl
  | next _ _ stepTo ih =>
      obtain ⟨work, workStep, rfl⟩ := Option.map_eq_some_iff.mp stepTo
      exact .next ih trivial workStep

theorem sequential_of_reached {state : OrderedState}
    (reached : orderedWorkers.GuardedReach ConflictFree state) :
    ∃ ht responses, state.Sequential ht responses :=
  reached.invariant_with
    (fun _ earlier => sound_of_reachable (reachable_of_ordered earlier))
    (fun _ => sequential_initial)
    fun _ _ _ sound ⟨_, _, sequential⟩ guarded stepTo =>
      sequential_step sound sequential guarded stepTo

theorem WorkerState.Linearized.contents_eq
    (linearized : state.Linearized buckets answers)
    (finished : ∀ worker, (state.phase worker).Finished) :
    state.table.contents = buckets := by
  obtain ⟨shown, shows⟩ := linearized.shows
  funext bucket
  rw [shows.buckets]
  refine (List.filterMap_congr fun p _ => ?_).symm
  refine shows.settled p fun worker change pending => ?_
  rw [(finished worker).outset.pendingChange] at pending
  cases pending

theorem OrderedState.Sequential.finished_answered {state : OrderedState}
    {responses : List Response} (sequential : state.Sequential ht responses)
    (worker : WorkerId) (request : Request) (response : Response)
    (outcome : (state.work.phase worker).outcome = some (request, response)) :
    latestAnswer worker (state.turns.zip responses) =
      some (request, response) := by
  have owes := sequential.linearized.owes worker
  cases here : state.work.phase worker with
  | finished request' response' =>
      rw [here] at outcome owes
      cases outcome
      exact owes
  | _ => rw [here] at outcome; cases outcome

/-- In every run of the workers in which no two requests in progress conflict,
each request is answered as if the requests had been executed one after another
in the order of their lookups, and once no request is in progress the table
holds what that execution leaves. -/
theorem conflictFree_answered_in_order {state : OrderedState}
    (reached : orderedWorkers.GuardedReach ConflictFree state) :
    ∃ ht responses, executeAll empty state.turns = some (ht, responses) ∧
      responses.length = state.turns.length ∧
      (∀ worker request response,
        (state.work.phase worker).outcome = some (request, response) →
          latestAnswer worker (state.turns.zip responses) =
            some (request, response)) ∧
      ((∀ worker, (state.work.phase worker).Finished) →
        state.work.table.contents = ht.contents) := by
  obtain ⟨ht, responses, sequential⟩ := sequential_of_reached reached
  exact ⟨ht, responses, sequential.executed, sequential.length,
    sequential.finished_answered, sequential.linearized.contents_eq⟩

def setStarted : OrderedState where
  work := WorkerState.initial.stepped 0 empty
    (.setLockBucket (.make .set [121] [1])) []
  turns := []

def overlapping : OrderedState where
  work := setStarted.work.stepped 1 empty
    (.getSearch (.make .get [122] [])) []
  turns := []

theorem overlapping_reached :
    orderedWorkers.GuardedReach ConflictFree overlapping := by
  have firstStep : orderedWorkers.step ⟨.initial, []⟩
      (.start 0 (.make .set [121] [1])) = some setStarted := rfl
  have secondStep : orderedWorkers.step setStarted
      (.start 1 (.make .get [122] [])) = some overlapping := rfl
  refine .next (.next (.start rfl) ?_ firstStep) ?_ secondStep
  · exact ⟨by decide, fun other current none => by cases none⟩
  · refine ⟨by decide, fun other current inProgress => ?_⟩
    by_cases same : other = 0
    · subst same
      cases inProgress
      decide
    · rw [setStarted, WorkerState.stepped_of_ne _ _ _ _ same] at inProgress
      cases inProgress

def overlappingLabels : List WorkerLabel :=
  WorkerLabel.advances 0 .zero 1 ++ WorkerLabel.advances 1 .zero 1 ++
    WorkerLabel.advances 0 .zero 5

theorem overlapping_answered_in_order :
    ∃ state, orderedWorkers.run overlapping overlappingLabels = some state ∧
      ∃ ht responses, executeAll empty state.turns = some (ht, responses) ∧
        responses.length = state.turns.length := by
  obtain ⟨state, runTo⟩ := Option.isSome_iff_exists.mp
    (show (orderedWorkers.run overlapping overlappingLabels).isSome by decide)
  have guarded : orderedWorkers.RunGuarded ConflictFree overlapping
      overlappingLabels := by
    apply TransitionSystem.runGuarded_of_forall
    intro label member state
    simp only [overlappingLabels, WorkerLabel.advances, List.mem_append,
      List.mem_replicate] at member
    obtain (⟨-, rfl⟩ | ⟨-, rfl⟩) | ⟨-, rfl⟩ := member <;> trivial
  obtain ⟨ht, responses, executed, length, -⟩ :=
    conflictFree_answered_in_order (TransitionSystem.guardedReach_of_run
      overlapping_reached guarded runTo)
  exact ⟨state, runTo, ht, responses, executed, length⟩

end RdmaKVStore
