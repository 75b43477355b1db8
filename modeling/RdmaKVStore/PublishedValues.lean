import RdmaKVStore.StoreRuns
import RdmaKVStore.WorkerInvariant

/-!
# Published values

A SET links its item before it gives it a value, under another lock.  As long
as lookups are exact and no GET copies from an item that has no value yet,
every value a GET returns was written by a SET of the same key.
-/

namespace RdmaKVStore

open LinkedChain HashTable

def HashTable.entryAt (ht : HashTable) (p : Ptr) :
    Option (Bytes × Option Bytes × UInt64) :=
  (ht.heap p).map fun item =>
    (CString.contents item.key, item.value, item.valueSize)

/-- The response carries a value that was written for the key of the
request. -/
def Request.AnsweredFrom (request : Request)
    (stores : List (Bytes × Bytes)) (response : Response) : Prop :=
  ∃ value, (request.keyString, value) ∈ stores ∧ response.body = value ∧
    response.msgLen.toNat = value.length

/-- Every GET that was answered OK returned a written value of its key. -/
def NoThinAir (state : WorkerState) : Prop :=
  ∀ worker request response,
    (state.phase worker).outcome = some (request, response) →
    request.method = .get → response.code = .ok →
      request.AnsweredFrom state.stores response

/-- What a lookup or copy needs: an exact lookup, and a value to copy. -/
def Phase.ReadsPublished (ht : HashTable) : Phase → Prop
  | .setFindEntry request | .getSearch request =>
      ht.LookupExact request.keyMemory
  | .getCopy _ p => (ht.heap p).bind HashItem.value ≠ none
  | _ => True

instance (ht : HashTable) (phase : Phase) :
    Decidable (phase.ReadsPublished ht) :=
  match phase with
  | .setFindEntry request | .getSearch request =>
      inferInstanceAs (Decidable (ht.LookupExact request.keyMemory))
  | .getCopy _ p =>
      inferInstanceAs (Decidable ((ht.heap p).bind HashItem.value ≠ none))
  | .idle | .setLockBucket _ | .setUnlockBucket _ _ | .setTrywrlock _ _
  | .setStore _ _ | .setUnlock _ _ | .getTryrdlock _ _ | .getUnlock _ _ _
  | .delLockBucket _ | .delSearch _ | .delTrywrlock _ _ | .delFailUnlock _ _
  | .delUnlink _ _ | .delUnlockBucket _ _ | .finished _ _ => isTrue trivial

/-- Runs of well-formed SETs and GETs with exact lookups, in which GETs only
copy from items that have a value. -/
def PublishedReads (state : WorkerState) : WorkerLabel → Prop
  | .start _ request =>
      request.WellFormed ∧ (request.method = .set ∨ request.method = .get)
  | .advance worker _ => (state.phase worker).ReadsPublished state.table

instance (state : WorkerState) (label : WorkerLabel) :
    Decidable (PublishedReads state label) :=
  match label with
  | .start _ request => inferInstanceAs (Decidable (request.WellFormed ∧
      (request.method = .set ∨ request.method = .get)))
  | .advance worker _ => inferInstanceAs (Decidable
      ((state.phase worker).ReadsPublished state.table))

/-- What holds of a worker in each phase: its item carries the key of its
request, and the response of a GET carries a written value. -/
def Phase.Justified (ht : HashTable) (stores : List (Bytes × Bytes)) :
    Phase → Prop
  | .idle => True
  | .setLockBucket request | .setFindEntry request =>
      request.WellFormed ∧ request.method = .set
  | .setUnlockBucket request p | .setTrywrlock request p
  | .setStore request p | .setUnlock request p =>
      request.WellFormed ∧ request.method = .set ∧
        ht.keyAt p = some request.keyString
  | .getSearch request => request.WellFormed ∧ request.method = .get
  | .getTryrdlock request p | .getCopy request p =>
      request.WellFormed ∧ request.method = .get ∧
        ht.keyAt p = some request.keyString
  | .getUnlock request _ response => request.AnsweredFrom stores response
  | .finished request response => request.method = .get →
      response.code = .ok → request.AnsweredFrom stores response
  | _ => False

def HashTable.WrittenBy (ht : HashTable) (stores : List (Bytes × Bytes)) :
    Prop :=
  ∀ p key value size, ht.entryAt p = some (key, some value, size) →
    (key, value) ∈ stores ∧ size.toNat = value.length ∧
      value.length ≤ msgSize

/-- Values were written and all workers are in justified phases. -/
structure WorkerState.Published (state : WorkerState) : Prop where
  values : state.table.WrittenBy state.stores
  justified : ∀ worker,
    (state.phase worker).Justified state.table state.stores

variable {ht after : HashTable} {worker other : WorkerId} {stale : HashItem}
variable {before next : Phase} {p : Ptr} {key : Bytes}
variable {stores : List (Bytes × Bytes)}

theorem HashTable.entryAt_of_data_eq
    (same : (after.heap p).map HashItem.data =
      (ht.heap p).map HashItem.data) : after.entryAt p = ht.entryAt p := by
  have projected := congrArg (Option.map fun data =>
    (CString.contents data.1, data.2.1, data.2.2.1)) same
  simpa [Option.map_map, Function.comp_def, HashItem.data, entryAt]
    using projected

theorem HashTable.entryAt_writeItem {q : Ptr} {write : HashItem → HashItem}
    (keeps : ∀ item, (CString.contents (write item).key, (write item).value,
      (write item).valueSize) =
        (CString.contents item.key, item.value, item.valueSize)) :
    (ht.writeItem q write).entryAt p = ht.entryAt p := by
  rw [entryAt, writeItem_heap, entryAt]
  exact modifyAt_map keeps p

namespace Advances

theorem entryAt_cases
    (advances : Advances ht worker stale before after next)
    (live : before.Justified ht stores) (p : Ptr) :
    after.entryAt p = ht.entryAt p ∨
      (p = ht.fresh ∧ ∃ request, before = .setFindEntry request ∧
        after.entryAt p =
          some (CString.contents (ht.newItem (ht.getBucket request.keyMemory)
            request.keyMemory request.keyLen.toNat).key, none, 0)) ∨
      ∃ request, before = .setStore request p ∧
        after.entryAt p = (ht.entryAt p).map fun entry =>
          (entry.1, some request.payload, request.msgLen) := by
  cases advances with
  | @setInsert request =>
      by_cases fresh : p = ht.fresh
      · subst fresh
        refine .inr (.inl ⟨rfl, request, rfl, ?_⟩)
        rw [entryAt, insertEntry_read_fresh, Option.map_some]
        rfl
      · exact .inl (entryAt_of_data_eq (insertEntry_data fresh))
  | @setStore request q =>
      by_cases same : q = p
      · subst same
        refine .inr (.inr ⟨request, rfl, ?_⟩)
        rw [entryAt, storeValue, writeItem_heap, modifyAt_self, entryAt,
          Option.map_map, Option.map_map]
        rfl
      · refine .inl ?_
        rw [entryAt, storeValue, writeItem_heap,
          modifyAt_of_ne (by simpa using same), entryAt]
  | setLocked | getLocked | setUnlock | getUnlock =>
      refine .inl ?_
      exact entryAt_writeItem fun _ => rfl
  | delLocked | delFailUnlock | delUnlink => exact live.elim
  | _ => exact .inl rfl

theorem keyAt_eq (advances : Advances ht worker stale before after next)
    (linked : Linked ht ht.bucketItems) (live : before.Justified ht stores)
    (keyed : ht.keyAt p = some key) : after.keyAt p = some key := by
  have project (table : HashTable) :
      table.keyAt p = (table.entryAt p).map Prod.fst := by
    simp [keyAt, entryAt, Option.map_map, Function.comp_def]
  rw [project] at keyed ⊢
  rcases advances.entryAt_cases live p with
    same | ⟨rfl, -⟩ | ⟨request, -, written⟩
  · rwa [same]
  · rw [entryAt, linked.allocated ht.fresh le_rfl] at keyed
    cases keyed
  · rwa [written, Option.map_map]

end Advances

theorem Phase.Justified.mono {phase : Phase} {more : List (Bytes × Bytes)}
    (justified : phase.Justified ht stores)
    (keys : ∀ p key, ht.keyAt p = some key → after.keyAt p = some key)
    (grows : stores ⊆ more) : phase.Justified after more := by
  have answers {request : Request} {response : Response}
      (answered : request.AnsweredFrom stores response) :
      request.AnsweredFrom more response := by
    obtain ⟨value, member, content⟩ := answered
    exact ⟨value, grows member, content⟩
  cases phase with
  | setUnlockBucket | setTrywrlock | setStore | setUnlock | getTryrdlock
  | getCopy =>
      exact ⟨justified.1, justified.2.1, keys _ _ justified.2.2⟩
  | getUnlock => exact answers justified
  | finished => exact fun gets ok => answers (justified gets ok)
  | _ => exact justified

theorem HashTable.Linked.keyAt_of_search {chains : Nat → List Ptr}
    (linked : Linked ht chains) {request : Request}
    (wellFormed : request.WellFormed)
    (exactKey : ht.LookupExact request.keyMemory)
    (found : ht.search request.keyMemory request.keyLen.toNat =
      some (some p)) : ht.keyAt p = some request.keyString := by
  rw [wellFormed.key.1] at found
  exact linked.lookupExact_iff.mp exactKey p found

theorem Request.answeredFrom_copyValue {request : Request}
    (written : ht.WrittenBy stores)
    (keyed : ht.keyAt p = some request.keyString)
    (valued : (ht.heap p).bind HashItem.value ≠ none) :
    request.AnsweredFrom stores
      (Response.zero.copyValue (ht.readItem p stale)) := by
  obtain ⟨item, read, keyEq⟩ := Option.map_eq_some_iff.mp keyed
  rw [read, Option.bind_some] at valued
  obtain ⟨value, valueEq⟩ := Option.ne_none_iff_exists'.mp valued
  obtain ⟨member, sizeEq, small⟩ :=
    written p request.keyString value item.valueSize
      (by rw [entryAt, read, Option.map_some, keyEq, valueEq])
  rw [readItem, read, Option.getD_some, copyValue_eq_holding valueEq sizeEq]
  exact ⟨value, member, Response.holding_body small⟩

theorem Advances.justified_self
    (advances : Advances ht worker stale before after next)
    (linked : Linked ht ht.bucketItems) (written : ht.WrittenBy stores)
    (live : before.Justified ht stores) (reads : before.ReadsPublished ht) :
    next.Justified after (before.stored ++ stores) := by
  have keys {p : Ptr} {key : Bytes} (keyed : ht.keyAt p = some key) :=
    advances.keyAt_eq linked live keyed
  cases advances with
  | setLockBucket => exact live
  | setFound found =>
      exact ⟨live.1, live.2, linked.keyAt_of_search live.1 reads found⟩
  | @setInsert request =>
      refine ⟨live.1, live.2, ?_⟩
      rw [keyAt, insertEntry_read_fresh, Option.map_some, live.1.key.1,
        contents_newItem_key]
      rfl
  | setUnlockBucket | setLocked | setStore =>
      exact ⟨live.1, live.2.1, keys live.2.2⟩
  | setRefused | setUnlock =>
      intro gets
      rw [live.2.1] at gets
      cases gets
  | getMissing | getRefused => exact fun _ ok => by cases ok
  | getFound found =>
      exact ⟨live.1, live.2, linked.keyAt_of_search live.1 reads found⟩
  | getLocked => exact ⟨live.1, live.2.1, keys live.2.2⟩
  | getCopy => exact Request.answeredFrom_copyValue written live.2.2 reads
  | getUnlock => exact fun _ _ => live
  | _ => exact live.elim

/-- A step leaves only written values in the table. -/
theorem Advances.writtenBy
    (advances : Advances ht worker stale before after next)
    (written : ht.WrittenBy stores) (live : before.Justified ht stores) :
    after.WrittenBy (before.stored ++ stores) := by
  intro p key value size entry
  rcases advances.entryAt_cases live p with
    same | ⟨-, request, -, fresh⟩ | ⟨request, rfl, stored⟩
  · rw [same] at entry
    obtain ⟨member, rest⟩ := written p key value size entry
    exact ⟨List.mem_append_right _ member, rest⟩
  · rw [fresh] at entry
    cases entry
  · obtain ⟨wellFormed, -, keyed⟩ := live
    have sizeEq := Request.payload_length wellFormed.msg
    obtain ⟨item, read, keyEq⟩ := Option.map_eq_some_iff.mp keyed
    rw [stored, entryAt, read, Option.map_some, Option.map_some, keyEq] at entry
    cases entry
    exact ⟨List.mem_append_left _ (List.mem_singleton.mpr rfl), sizeEq.symm,
      sizeEq ▸ wellFormed.msg⟩

theorem published_step {before after : WorkerState} {label : WorkerLabel}
    (sound : before.Sound) (published : before.Published)
    (guarded : PublishedReads before label)
    (stepTo : workers.step before label = some after) : after.Published := by
  rcases workers_step_cases stepTo with
    ⟨worker, request, phase, rfl, -, first, rfl⟩ |
    ⟨worker, stale, table, next, rfl, advances, rfl⟩
  · refine ⟨published.values, ?_⟩
    refine (Function.forall_update_iff _ fun _ (phase : Phase) =>
      phase.Justified before.table before.stores).mpr
        ⟨?_, fun other _ => published.justified other⟩
    obtain ⟨wellFormed, method⟩ := guarded
    rcases method with method | method <;>
      simp only [Phase.first, method, Option.some.injEq] at first <;>
      exact first ▸ ⟨wellFormed, method⟩
  · have live := published.justified worker
    refine ⟨advances.writtenBy published.values live, ?_⟩
    exact (Function.forall_update_iff _ fun _ (phase : Phase) =>
      phase.Justified table ((before.phase worker).stored ++ before.stores)).mpr
        ⟨advances.justified_self sound.linked published.values live guarded,
          fun other _ => (published.justified other).mono
            (fun _ _ => advances.keyAt_eq sound.linked live)
            (List.subset_append_right _ _)⟩

theorem published_initial {state : WorkerState}
    (initial : workers.initial state) : state.Published := by
  obtain rfl := initial
  refine ⟨fun p key value size entry => ?_, fun _ => trivial⟩
  cases entry

/-- In every run of any number of workers with well-formed SETs and GETs whose
lookups are exact and which copy from items with a value only, each GET
answered OK returns a value written by a SET of its key. -/
theorem noThinAir_of_publishedReads {state : WorkerState}
    (reached : workers.GuardedReach PublishedReads state) :
    NoThinAir state := by
  have published : state.Published := reached.invariant_with
    (fun _ => sound_of_reachable) (fun _ => published_initial)
    fun _ _ _ sound published guarded stepTo =>
      published_step sound published guarded stepTo
  intro worker request response finished
  have justified := published.justified worker
  generalize state.phase worker = phase at *
  cases phase <;> cases finished
  exact justified

/-- A SET and a GET of one key, the GET looking up before the SET is done and
copying after it. -/
def publishingLabels : List WorkerLabel :=
  .start 0 (.make .set [97] [1, 2]) :: WorkerLabel.advances 0 .zero 5 ++
    .start 1 (.make .get [97] []) :: WorkerLabel.advances 1 .zero 1 ++
    WorkerLabel.advances 0 .zero 1 ++ WorkerLabel.advances 1 .zero 3

theorem noThinAir_after_publishingLabels :
    ∃ state, workers.run .initial publishingLabels = some state ∧
      NoThinAir state := by
  obtain ⟨state, runTo⟩ := Option.isSome_iff_exists.mp
    (show (workers.run .initial publishingLabels).isSome by decide)
  exact ⟨state, runTo, noThinAir_of_publishedReads
    (TransitionSystem.guardedReach_of_run (.start rfl) (by decide) runTo)⟩

/-- A GET between the insertion and the value write of a SET. -/
def earlyGetLabels : List WorkerLabel :=
  .start 0 (.make .set [97] [1, 2]) :: WorkerLabel.advances 0 .zero 2 ++
    .start 1 (.make .get [97] []) :: WorkerLabel.advances 1 .zero 4

/-- A GET is answered OK although no SET has written a value yet. -/
theorem get_answered_before_any_store :
    (Request.make .set [97] [1, 2]).WellFormed ∧
      (Request.make .get [97] []).WellFormed ∧
      ∃ state, workers.run .initial earlyGetLabels = some state ∧
        state.stores = [] ∧
        ((state.phase 1).outcome.map fun turn =>
          (turn.1.method, turn.2.code)) = some (.get, .ok) ∧
        ¬ NoThinAir state := by
  obtain ⟨state, runTo, checked⟩ := Option.map_eq_some_iff.mp
    (show (workers.run .initial earlyGetLabels).map (fun state =>
        (state.stores, (state.phase 1).outcome.map fun turn =>
          (turn.1.method, turn.2.code))) =
      some ([], some (.get, .ok)) by decide)
  obtain ⟨unwritten, answered⟩ := Prod.mk.inj checked
  refine ⟨by decide, by decide, state, runTo, unwritten, answered,
    fun published => ?_⟩
  obtain ⟨⟨request, response⟩, finished, codes⟩ :=
    Option.map_eq_some_iff.mp answered
  obtain ⟨gets, ok⟩ := Prod.mk.injEq .. ▸ codes
  obtain ⟨value, member, -⟩ := published 1 request response finished gets ok
  simp [unwritten] at member

end RdmaKVStore
