import RdmaKVStore.TableContents

/-!
# Refused updates

A SET or DEL that finds its item locked answers `KEY_ERROR`.  A SET may have
added the item before it tried the lock, and does not take it out again.  The
workers are run with a record of what each request has seen and done: the
contents of the table before and after each of its steps, the item that it has
added, and the updates that had been refused when it began.
-/

namespace RdmaKVStore

open LinkedChain HashTable

abbrev Contents := Nat → List (Bytes × Option Bytes × UInt64)

/-- Two requests of one key: they go to the same bucket with the same string
of their length. -/
def Request.SharesKey (ht : HashTable) (first second : Request) : Prop :=
  ht.getBucket first.keyMemory = ht.getBucket second.keyMemory ∧
    first.addedKey = second.addedKey

instance (ht : HashTable) (first second : Request) :
    Decidable (first.SharesKey ht second) :=
  inferInstanceAs (Decidable (_ ∧ _))

/-- A request since its worker took it up: whether its key was missing then,
how many items had been added until then, which addition is its own, and the
contents before and after each of its steps. -/
structure Attempt where
  request : Request
  missing : Bool
  since : Nat
  addedAt : Option Nat
  steps : List (Contents × Contents)

namespace Attempt

def idle : Attempt where
  request := Request.zero
  missing := false
  since := 0
  addedAt := none
  steps := []

def start (ht : HashTable) (additions : List Request) (request : Request) :
    Attempt where
  request := request
  missing :=
    decide (request.addedKey ∉ ht.keys (ht.getBucket request.keyMemory))
  since := additions.length
  addedAt := none
  steps := []

def step (attempt : Attempt) (additions : List Request) (phase : Phase)
    (ht after : HashTable) : Attempt :=
  { attempt with
    addedAt :=
      if phase.Adds ht then some additions.length else attempt.addedAt
    steps := attempt.steps ++ [(ht.contents, after.contents)] }

/-- None of the steps has changed the keys or values of the table. -/
def Unchanged (attempt : Attempt) : Prop :=
  ∀ step ∈ attempt.steps, step.2 = step.1

/-- Another SET of the key of the request has added an item since. -/
def Overtaken (attempt : Attempt) (ht : HashTable)
    (additions : List Request) : Prop :=
  ∃ (index : Nat) (added : Request), additions[index]? = some added ∧
    attempt.since ≤ index ∧ attempt.addedAt ≠ some index ∧
    added.SharesKey ht attempt.request

end Attempt

/-- The request of a SET or DEL that has been answered `KEY_ERROR`. -/
def Phase.Refused : Phase → Prop
  | .finished request response =>
      (request.method = .set ∨ request.method = .del) ∧
        response.code = .keyError
  | _ => False

instance (phase : Phase) : Decidable phase.Refused :=
  match phase with
  | .finished _ _ => inferInstanceAs (Decidable (_ ∧ _))
  | .idle | .setLockBucket _ | .setFindEntry _ | .setUnlockBucket _ _
  | .setTrywrlock _ _ | .setStore _ _ | .setUnlock _ _ | .getSearch _
  | .getTryrdlock _ _ | .getCopy _ _ | .getUnlock _ _ _ | .delLockBucket _
  | .delSearch _ | .delTrywrlock _ _ | .delFailUnlock _ _ | .delUnlink _ _
  | .delUnlockBucket _ _ => isFalse id

/-- The workers, the record of each one's request with the updates that had
been refused when it began, the requests that have added an item, and the
refused updates. -/
structure UpdateState where
  work : WorkerState
  attempt : WorkerId → Attempt
  earlier : WorkerId → List Attempt
  additions : List Request
  refusals : List Attempt

namespace UpdateState

def initial : UpdateState where
  work := .initial
  attempt _ := .idle
  earlier _ := []
  additions := []
  refusals := []

variable (state : UpdateState)

def stepped (worker : WorkerId) (after : HashTable) : Attempt :=
  (state.attempt worker).step state.additions (state.work.phase worker)
    state.work.table after

def refusal (work : WorkerState) : WorkerLabel → List Attempt
  | .start _ _ => []
  | .advance worker _ =>
      if (work.phase worker).Refused then [state.stepped worker work.table]
      else []

def record (work : WorkerState) : WorkerLabel → UpdateState
  | .start worker request =>
      { state with
        work := work
        attempt := Function.update state.attempt worker
          (.start state.work.table state.additions request)
        earlier := Function.update state.earlier worker state.refusals }
  | .advance worker stale =>
      { state with
        work := work
        attempt := Function.update state.attempt worker
          (state.stepped worker work.table)
        additions := state.additions ++
          (state.work.phase worker).additions state.work.table
        refusals :=
          state.refusals ++ state.refusal work (.advance worker stale) }

end UpdateState

/-- The workers with the record of their requests. -/
def updates : TransitionSystem UpdateState WorkerLabel where
  initial state := state = .initial
  step state label :=
    (workers.step state.work label).map fun work => state.record work label

/-- No refused update has changed the table in any of its steps, and a GET of a
key that was missing before an update that had been refused when the GET began
is answered `KEY_ERROR`, unless another SET has added the key. -/
structure RefusalsChangeNothing (state : UpdateState) : Prop where
  unchanged : ∀ refusal ∈ state.refusals, refusal.Unchanged
  missing : ∀ worker get response,
    (state.work.phase worker).outcome = some (get, response) →
      get.method = .get →
      ∀ refusal ∈ state.earlier worker, refusal.missing = true →
        refusal.request.SharesKey state.work.table get →
          ¬ refusal.Overtaken state.work.table state.additions →
            response.code = .keyError

/-- A SET that tries the lock of an item that it has added finds it free. -/
def Phase.TriesFree (ht : HashTable) (stale : HashItem) (attempt : Attempt) :
    Phase → Prop
  | .setTrywrlock _ p =>
      attempt.addedAt.isSome = true → (ht.readItem p stale).rwlock = .free
  | _ => True

instance (ht : HashTable) (stale : HashItem) (attempt : Attempt)
    (phase : Phase) : Decidable (phase.TriesFree ht stale attempt) :=
  match phase with
  | .setTrywrlock _ p => inferInstanceAs (Decidable
      (attempt.addedAt.isSome = true → (ht.readItem p stale).rwlock = .free))
  | .idle | .setLockBucket _ | .setFindEntry _ | .setUnlockBucket _ _
  | .setStore _ _ | .setUnlock _ _ | .getSearch _ | .getTryrdlock _ _
  | .getCopy _ _ | .getUnlock _ _ _ | .delLockBucket _ | .delSearch _
  | .delTrywrlock _ _ | .delFailUnlock _ _ | .delUnlink _ _
  | .delUnlockBucket _ _ | .finished _ _ => isTrue trivial

def AddedItemsFree (state : UpdateState) : WorkerLabel → Prop
  | .start _ _ => True
  | .advance worker stale =>
      (state.work.phase worker).TriesFree state.work.table stale
        (state.attempt worker)

instance addedItemsFreeDecidable (state : UpdateState) (label : WorkerLabel) :
    Decidable (AddedItemsFree state label) :=
  match label with
  | .start _ _ => isTrue trivial
  | .advance worker stale => inferInstanceAs (Decidable
      ((state.work.phase worker).TriesFree state.work.table stale
        (state.attempt worker)))

/-- A GET of the key of a refused update stops, if at all, at an item of this
key. -/
def Phase.StopsAtOwn (ht : HashTable) (refusals : List Attempt) :
    Phase → Prop
  | .getSearch request =>
      ∀ refusal ∈ refusals, refusal.request.SharesKey ht request →
        ∀ p ∈ (ht.search request.keyMemory request.keyLen.toNat).join,
          ht.keyAt p = some request.addedKey
  | _ => True

instance (ht : HashTable) (refusals : List Attempt) (phase : Phase) :
    Decidable (phase.StopsAtOwn ht refusals) :=
  match phase with
  | .getSearch request => inferInstanceAs (Decidable
      (∀ refusal ∈ refusals, refusal.request.SharesKey ht request →
        ∀ p ∈ (ht.search request.keyMemory request.keyLen.toNat).join,
          ht.keyAt p = some request.addedKey))
  | .idle | .setLockBucket _ | .setFindEntry _ | .setUnlockBucket _ _
  | .setTrywrlock _ _ | .setStore _ _ | .setUnlock _ _ | .getTryrdlock _ _
  | .getCopy _ _ | .getUnlock _ _ _ | .delLockBucket _ | .delSearch _
  | .delTrywrlock _ _ | .delFailUnlock _ _ | .delUnlink _ _
  | .delUnlockBucket _ _ | .finished _ _ => isTrue trivial

/-- Added items are found free, and no GET of the key of a refused update stops
at an item of another key. -/
def RefusedKeysApart (state : UpdateState) (label : WorkerLabel) : Prop :=
  AddedItemsFree state label ∧
    match label with
    | .start _ _ => True
    | .advance worker _ => (state.work.phase worker).StopsAtOwn
        state.work.table state.refusals

instance refusedKeysApartDecidable (state : UpdateState)
    (label : WorkerLabel) : Decidable (RefusedKeysApart state label) :=
  match label with
  | .start _ _ => inferInstanceAs (Decidable (_ ∧ True))
  | .advance worker _ => inferInstanceAs (Decidable (_ ∧
      (state.work.phase worker).StopsAtOwn state.work.table state.refusals))

variable {ht after : HashTable} {worker : WorkerId} {stale : HashItem}
variable {before next : Phase} {attempt : Attempt}
variable {additions : List Request}

theorem updates_step_cases {before after : UpdateState} {label : WorkerLabel}
    (stepTo : updates.step before label = some after) :
    ∃ work, workers.step before.work label = some work ∧
      after = before.record work label := by
  obtain ⟨work, worked, rfl⟩ := Option.map_eq_some_iff.mp stepTo
  exact ⟨work, worked, rfl⟩

/-! ### The contents during a request -/

namespace Attempt

/-- A SET that has not stored its value has changed the contents exactly if it
has added an item; a DEL has not changed them before it removes its item. -/
def Quiet (attempt : Attempt) : Phase → Prop
  | .setLockBucket _ | .setFindEntry _ | .delLockBucket _ | .delSearch _
  | .delTrywrlock _ _ | .delFailUnlock _ _ | .delUnlockBucket _ .keyError =>
      attempt.addedAt = none ∧ attempt.Unchanged
  | .setUnlockBucket _ _ | .setTrywrlock _ _ =>
      attempt.addedAt = none ↔ attempt.Unchanged
  | _ => True

theorem unchanged_step :
    (attempt.step additions before ht after).Unchanged ↔
      attempt.Unchanged ∧ after.contents = ht.contents := by
  simp only [Unchanged, step, List.forall_mem_append, List.forall_mem_singleton]

theorem addedAt_step_of_not_adds (adds : ¬ before.Adds ht) :
    (attempt.step additions before ht after).addedAt = attempt.addedAt :=
  if_neg adds

theorem not_unchanged_of_insert {bucket : Nat}
    {entry : Bytes × Option Bytes × UInt64}
    (changed : after.contents = Function.update ht.contents bucket
      (entry :: ht.contents bucket)) :
    ¬ (attempt.step additions before ht after).Unchanged := by
  intro unchanged
  have same := (unchanged_step.mp unchanged).2
  rw [changed] at same
  have here := congrArg List.length (congrFun same bucket)
  rw [Function.update_self, List.length_cons] at here
  omega

theorem Quiet.advances (quiet : attempt.Quiet before)
    (linked : Linked ht ht.bucketItems)
    (doomed : ∀ key p, before.doomed = some (key, p) →
      p ∈ ht.bucketItems (ht.getBucket key))
    (advances : Advances ht worker stale before after next) :
    (attempt.step additions before ht after).Quiet next := by
  rcases advances.contents_cases linked doomed with
    ⟨same, adds⟩ | ⟨request, rfl, adds, -, changed⟩ | ⟨rewrites, -, -⟩
  · have added : (attempt.step additions before ht after).addedAt =
        attempt.addedAt := addedAt_step_of_not_adds adds
    have unchanged : (attempt.step additions before ht after).Unchanged ↔
        attempt.Unchanged := unchanged_step.trans (and_iff_left same)
    cases advances with
    | setInsert missing => exact absurd missing adds
    | setLockBucket | delLockBucket | delMissing | delFound | delRefused
    | delFailUnlock =>
        exact ⟨added.trans quiet.1, unchanged.mpr quiet.2⟩
    | setFound =>
        exact iff_of_true (added.trans quiet.1) (unchanged.mpr quiet.2)
    | setUnlockBucket =>
        rw [Quiet, added, unchanged]
        exact quiet
    | _ => trivial
  · cases advances with
    | setFound found => cases adds.symm.trans found
    | setInsert =>
        refine iff_of_false ?_ (not_unchanged_of_insert changed)
        rw [step, if_pos adds]
        exact Option.some_ne_none _
  · cases advances with
    | setStore | delUnlink => trivial
    | _ => exact rewrites.elim

end Attempt

/-! ### Refusals -/

/-- An update is refused where a SET finds its item locked, or at the end of a
DEL without success. -/
theorem Phase.Proper.refused_iff (proper : before.Proper)
    (advances : Advances ht worker stale before after next) :
    next.Refused ↔
      (∃ request p, before = .setTrywrlock request p ∧
        (ht.readItem p stale).rwlock ≠ .free) ∨
        ∃ request, before = .delUnlockBucket request .keyError := by
  cases advances with
  | setRefused held =>
      exact iff_of_true ⟨.inl proper, rfl⟩ (.inl ⟨_, _, rfl, held⟩)
  | setLocked free => simp [Refused, free]
  | @delUnlockBucket request code =>
      simp only [Proper] at proper
      simp [Refused, proper, answer]
  | getMissing | getRefused =>
      simp only [Proper] at proper
      simp [Refused, proper]
  | getUnlock =>
      simp only [Proper] at proper
      simp [Refused, proper]
  | _ => simp [Refused, answer]

structure UpdateState.Recorded (state : UpdateState) : Prop where
  sound : state.work.Sound
  proper : ∀ worker, (state.work.phase worker).Proper
  quiet : ∀ worker, (state.attempt worker).Quiet (state.work.phase worker)

namespace UpdateState

variable {state next : UpdateState} {label : WorkerLabel}

def stepRefusals (state : UpdateState) (label : WorkerLabel) : List Attempt :=
  (workers.step state.work label).elim [] fun work =>
    state.refusal work label

theorem recorded_initial : initial.Recorded where
  sound := sound_initial rfl
  proper _ := trivial
  quiet _ := trivial

theorem Recorded.step (recorded : state.Recorded)
    (stepTo : updates.step state label = some next) : next.Recorded := by
  obtain ⟨work, worked, rfl⟩ := updates_step_cases stepTo
  have sound := sound_step recorded.sound worked
  rcases workers_step_cases worked with
    ⟨worker, request, phase, rfl, -, first, rfl⟩ |
    ⟨worker, stale, table, phase, rfl, advances, rfl⟩
  · refine ⟨sound, (Function.forall_update_iff _ fun _ (phase : Phase) =>
      phase.Proper).mpr ⟨Phase.proper_first first,
        fun other _ => recorded.proper other⟩, fun other => ?_⟩
    simp only [record]
    by_cases same : other = worker
    · subst same
      have nothing : (Attempt.start state.work.table state.additions
          request).Unchanged := fun _ member => by cases member
      rw [Function.update_self, Function.update_self]
      rcases Phase.first_eq first with rfl | rfl | rfl
      · exact ⟨rfl, nothing⟩
      · trivial
      · exact ⟨rfl, nothing⟩
    · rw [Function.update_of_ne same, Function.update_of_ne same]
      exact recorded.quiet other
  · refine ⟨sound, (Function.forall_update_iff _ fun _ (phase : Phase) =>
      phase.Proper).mpr ⟨(recorded.proper worker).advances advances,
        fun other _ => recorded.proper other⟩, fun other => ?_⟩
    simp only [record]
    by_cases same : other = worker
    · subst same
      rw [Function.update_self, Function.update_self]
      exact (recorded.quiet other).advances recorded.sound.linked
        (recorded.sound.doomed other) advances
    · rw [Function.update_of_ne same, Function.update_of_ne same]
      exact recorded.quiet other

theorem refusals_step (before : UpdateState) (label : WorkerLabel)
    (after : UpdateState) (stepTo : updates.step before label = some after) :
    after.refusals = before.refusals ++ before.stepRefusals label := by
  obtain ⟨work, worked, rfl⟩ := updates_step_cases stepTo
  rw [stepRefusals, worked]
  cases label with
  | start => exact (List.append_nil _).symm
  | advance => rfl

/-- What a step refuses is unchanged exactly if a SET that tries the lock of
its own addition finds it free. -/
theorem Recorded.stepRefusals_iff (recorded : state.Recorded) :
    (∀ refusal ∈ state.stepRefusals label, refusal.Unchanged) ↔
      AddedItemsFree state label := by
  cases worked : workers.step state.work label with
  | none =>
      refine iff_of_true (by simp [stepRefusals, worked]) ?_
      cases label with
      | start => trivial
      | advance worker stale =>
          -- an attempt to lock never waits
          have waits := Option.map_eq_none_iff.mp worked
          rw [AddedItemsFree]
          cases phase : state.work.phase worker with
          | setTrywrlock request p =>
              rw [phase] at waits
              simp only [advance] at waits
              split at waits <;> cases waits
          | _ => trivial
  | some work =>
      rw [stepRefusals, worked, Option.elim_some]
      rcases workers_step_cases worked with
        ⟨worker, request, phase, rfl, -, -, -⟩ |
        ⟨worker, stale, table, next, rfl, advances, rfl⟩
      · exact iff_of_true (by simp [refusal]) trivial
      · have refused := (recorded.proper worker).refused_iff advances
        have quiet := recorded.quiet worker
        simp only [refusal, stepped, AddedItemsFree, Function.update_self]
        generalize state.work.phase worker = before at *
        by_cases ends : next.Refused
        · rw [if_pos ends, List.forall_mem_singleton, Attempt.unchanged_step]
          rcases refused.mp ends with ⟨request, p, rfl, held⟩ | ⟨request, rfl⟩
          · cases advances with
            | setLocked free => exact absurd free held
            | setRefused =>
                have own : (state.attempt worker).addedAt = none ↔
                    (state.attempt worker).Unchanged := quiet
                simp only [Phase.TriesFree, held, imp_false, and_true, ← own]
                simp
          · cases advances with
            | delUnlockBucket => exact iff_of_true ⟨quiet.2, rfl⟩ trivial
        · rw [if_neg ends]
          refine iff_of_true (by simp) ?_
          cases before with
          | setTrywrlock request p =>
              intro added
              by_contra held
              exact ends (refused.mpr (.inl ⟨request, p, rfl, held⟩))
          | _ => trivial

end UpdateState

/-! ### Missing keys -/

/-- A key that was missing before a request is still missing, unless the
request or another SET has added it. -/
structure Attempt.Tracked (attempt : Attempt) (ht : HashTable)
    (additions : List Request) : Prop where
  since_le : attempt.since ≤ additions.length
  missing : attempt.addedAt = none → attempt.missing = true →
    attempt.request.addedKey ∈
        ht.keys (ht.getBucket attempt.request.keyMemory) →
      attempt.Overtaken ht additions

namespace Attempt

theorem tracked_start (request : Request) :
    (start ht additions request).Tracked ht additions where
  since_le := le_rfl
  missing _ missing there := absurd there (of_decide_eq_true missing)

theorem Overtaken.advances
    (advances : Advances ht worker stale before after next)
    (overtaken : attempt.Overtaken ht additions) (more : List Request) :
    attempt.Overtaken after (additions ++ more) := by
  obtain ⟨index, added, found, later, other, shares⟩ := overtaken
  refine ⟨index, added, ?_, later, other, ?_⟩
  · exact (List.getElem?_append_left
      (List.getElem?_eq_some_iff.mp found).1).trans found
  · rwa [Request.SharesKey, advances.getBucket]

/-- A step either leaves a missing key missing, or it adds this key. -/
theorem Tracked.advances (tracked : attempt.Tracked ht additions)
    (linked : Linked ht ht.bucketItems)
    (doomed : ∀ key p, before.doomed = some (key, p) →
      p ∈ ht.bucketItems (ht.getBucket key))
    (advances : Advances ht worker stale before after next) :
    attempt.Tracked after (additions ++ before.additions ht) := by
  have since_le := tracked.since_le
  refine ⟨since_le.trans (by simp), fun own gone there => ?_⟩
  have onward (before : attempt.request.addedKey ∈
      ht.keys (ht.getBucket attempt.request.keyMemory)) :=
    (tracked.missing own gone before).advances advances
  rw [advances.getBucket] at there
  rcases advances.contents_cases linked doomed with
    ⟨same, -⟩ | ⟨request, -, -, added, changed⟩ | ⟨-, -, fewer⟩
  · rw [keys, same] at there
    exact onward there _
  · rw [keys, changed] at there
    by_cases here : ht.getBucket attempt.request.keyMemory =
        ht.getBucket request.keyMemory
    · rw [here, Function.update_self, List.map_cons, List.mem_cons,
        ← here] at there
      rcases there with new | old
      · rw [added]
        refine ⟨additions.length, request, by simp, since_le, by simp [own],
          ?_, new.symm⟩
        rw [advances.getBucket, here]
      · exact onward old _
    · rw [Function.update_of_ne here] at there
      exact onward there _
  · exact onward (fewer _ there) _

/-- The record of a step keeps what is known of the key. -/
theorem Tracked.step {more : List Request} {table : HashTable}
    (tracked : attempt.Tracked table more) :
    (attempt.step additions before ht after).Tracked table more := by
  refine ⟨tracked.since_le, fun own missing there => ?_⟩
  have adds : ¬ before.Adds ht := by
    intro adds
    rw [Attempt.step, if_pos adds] at own
    cases own
  have same : (attempt.step additions before ht after).addedAt =
      attempt.addedAt := addedAt_step_of_not_adds adds
  obtain ⟨index, added, found, later, other, shares⟩ :=
    tracked.missing (same.symm.trans own) missing there
  exact ⟨index, added, found, later, by rwa [same], shares⟩

end Attempt

/-- The GET that has found an item, and not been refused its lock. -/
def Phase.hasFound : Phase → Option Request
  | .getTryrdlock request _ | .getCopy request _ | .getUnlock request _ _ =>
      some request
  | .finished request response =>
      if request.method = .get ∧ response.code ≠ .keyError then some request
      else none
  | _ => none

theorem Phase.hasFound_of_outcome {phase : Phase} {get : Request}
    {response : Response} (ended : phase.outcome = some (get, response))
    (gets : get.method = .get) (answered : response.code ≠ .keyError) :
    phase.hasFound = some get := by
  cases phase with
  | finished =>
      cases ended
      exact if_pos ⟨gets, answered⟩
  | _ => cases ended

theorem Advances.hasFound_cases {get : Request}
    (advances : Advances ht worker stale before after next)
    (proper : before.Proper) (found : next.hasFound = some get) :
    before.hasFound = some get ∨
      ∃ p, before = .getSearch get ∧
        ht.search get.keyMemory get.keyLen.toNat = some (some p) := by
  cases advances with
  | getFound item =>
      cases found
      exact .inr ⟨_, rfl, item⟩
  | getLocked | getCopy => exact .inl found
  | getUnlock =>
      simp only [Phase.hasFound, Option.ite_none_right_eq_some] at found
      exact .inl found.2
  | setUnlock | delUnlockBucket =>
      simp only [Phase.Proper] at proper
      simp [Phase.hasFound, proper] at found
  | setRefused | getMissing | getRefused =>
      simp [Phase.hasFound, Phase.answer] at found
  | _ => cases found

/-- The invariant of runs in which added items are found free and GETs stop at
items of their key: no refused update has added an item, and where a GET has
found one, another SET has added it after the updates that were refused
before. -/
structure UpdateState.Watched (state : UpdateState) : Prop where
  attempts : ∀ worker,
    (state.attempt worker).Tracked state.work.table state.additions
  refusals : ∀ refusal ∈ state.refusals, refusal.addedAt = none ∧
    refusal.Tracked state.work.table state.additions
  earlier : ∀ worker, state.earlier worker ⊆ state.refusals
  found : ∀ worker get, (state.work.phase worker).hasFound = some get →
    ∀ refusal ∈ state.earlier worker, refusal.missing = true →
      refusal.request.SharesKey state.work.table get →
        refusal.Overtaken state.work.table state.additions

namespace UpdateState

variable {state next : UpdateState} {label : WorkerLabel}

theorem watched_initial : initial.Watched where
  attempts _ := ⟨le_rfl, fun _ missing => by cases missing⟩
  refusals _ member := by cases member
  earlier _ := List.Subset.refl _
  found _ _ found := by cases found

/-- A GET that finds an item of its key finds one that another SET has added
since each refused update before which the key was missing. -/
theorem Watched.overtaken_of_found {worker : WorkerId} {get : Request}
    {p : Ptr} (watched : state.Watched) (recorded : state.Recorded)
    (own : (Phase.getSearch get).StopsAtOwn state.work.table state.refusals)
    (item : state.work.table.search get.keyMemory get.keyLen.toNat =
      some (some p)) {refusal : Attempt}
    (member : refusal ∈ state.earlier worker)
    (missing : refusal.missing = true)
    (shares : refusal.request.SharesKey state.work.table get) :
    refusal.Overtaken state.work.table state.additions := by
  have refused := watched.earlier worker member
  obtain ⟨none, tracked⟩ := watched.refusals refusal refused
  have keyed : state.work.table.keyAt p = some get.addedKey :=
    own refusal refused shares p (by rw [item]; rfl)
  refine tracked.missing none missing ?_
  rw [shares.1, shares.2, keys_eq_filterMap]
  exact List.mem_filterMap.mpr
    ⟨p, recorded.sound.linked.mem_of_search item, keyed⟩

theorem Watched.start {worker : WorkerId} {request : Request} {phase : Phase}
    (watched : state.Watched) (first : Phase.first request = some phase) :
    (state.record { state.work with
      phase := Function.update state.work.phase worker phase }
        (.start worker request)).Watched := by
  refine ⟨?_, watched.refusals, ?_, ?_⟩
  · exact (Function.forall_update_iff _ fun _ (attempt : Attempt) =>
      attempt.Tracked state.work.table state.additions).mpr
        ⟨Attempt.tracked_start request, fun other _ => watched.attempts other⟩
  · exact (Function.forall_update_iff _ fun _ (earlier : List Attempt) =>
      earlier ⊆ state.refusals).mpr
        ⟨List.Subset.refl _, fun other _ => watched.earlier other⟩
  · intro other get found
    simp only [record] at found ⊢
    by_cases same : other = worker
    · subst same
      rw [Function.update_self] at found
      rcases Phase.first_eq first with rfl | rfl | rfl <;> cases found
    · rw [Function.update_of_ne same] at found ⊢
      exact watched.found other get found

theorem Watched.advance {worker : WorkerId} {stale : HashItem}
    {table : HashTable} {phase : Phase} (watched : state.Watched)
    (recorded : state.Recorded)
    (guarded : RefusedKeysApart state (.advance worker stale))
    (advances : Advances state.work.table worker stale
      (state.work.phase worker) table phase) :
    (state.record
      { table := table
        phase := Function.update state.work.phase worker phase
        stores := (state.work.phase worker).stored ++ state.work.stores }
      (.advance worker stale)).Watched := by
  obtain ⟨free, own⟩ := guarded
  have onward {attempt : Attempt}
      (tracked : attempt.Tracked state.work.table state.additions) :=
    tracked.advances recorded.sound.linked (recorded.sound.doomed worker)
      advances
  have ownTracked : (state.stepped worker table).Tracked table
      (state.additions ++
        (state.work.phase worker).additions state.work.table) :=
    (onward (watched.attempts worker)).step
  refine ⟨(Function.forall_update_iff _ fun _ (attempt : Attempt) =>
    attempt.Tracked table _).mpr
      ⟨ownTracked, fun other _ => onward (watched.attempts other)⟩, ?_, ?_, ?_⟩
  · refine List.forall_mem_append.mpr ⟨fun refusal member => ?_, ?_⟩
    · obtain ⟨none, tracked⟩ := watched.refusals refusal member
      exact ⟨none, onward tracked⟩
    · intro refusal member
      obtain ⟨ends, rfl⟩ : phase.Refused ∧
          refusal = state.stepped worker table := by
        simpa [UpdateState.refusal] using member
      refine ⟨?_, ownTracked⟩
      have quiet := recorded.quiet worker
      simp only [AddedItemsFree] at free
      rw [stepped]
      rcases ((recorded.proper worker).refused_iff advances).mp ends with
        ⟨request, p, place, held⟩ | ⟨request, place⟩ <;>
        rw [place] at quiet free ⊢
      · rw [Attempt.addedAt_step_of_not_adds id]
        by_contra added
        exact held (free (Option.ne_none_iff_isSome.mp added))
      · rw [Attempt.addedAt_step_of_not_adds id]
        exact quiet.1
  · exact fun other => List.Subset.trans (watched.earlier other)
      (List.subset_append_left _ _)
  · intro other get found refusal member missing shares
    simp only [record, Request.SharesKey, advances.getBucket] at found shares
    refine Attempt.Overtaken.advances advances ?_ _
    by_cases same : other = worker
    · subst same
      rw [Function.update_self] at found
      rcases advances.hasFound_cases (recorded.proper other) found with
        before | ⟨p, place, item⟩
      · exact watched.found other get before refusal member missing shares
      · simp only [place] at own
        exact watched.overtaken_of_found recorded own item member missing
          shares
    · rw [Function.update_of_ne same] at found
      exact watched.found other get found refusal member missing shares

theorem Watched.step (watched : state.Watched) (recorded : state.Recorded)
    (guarded : RefusedKeysApart state label)
    (stepTo : updates.step state label = some next) : next.Watched := by
  obtain ⟨work, worked, rfl⟩ := updates_step_cases stepTo
  rcases workers_step_cases worked with
    ⟨worker, request, phase, rfl, -, first, rfl⟩ |
    ⟨worker, stale, table, phase, rfl, advances, rfl⟩
  · exact watched.start first
  · exact watched.advance recorded guarded advances

end UpdateState

/-- In every run of any number of workers, the refused updates leave the
contents alone if and only if each SET that tries the lock of an item that it
has added finds it free; and they change nothing that a later GET sees if, in
addition, no GET of their keys stops at an item of another key. -/
theorem refusalsChangeNothing_iff {labels : List WorkerLabel}
    {state : UpdateState}
    (runTo : updates.run .initial labels = some state) :
    ((∀ refusal ∈ state.refusals, refusal.Unchanged) ↔
      updates.RunGuarded AddedItemsFree .initial labels) ∧
    (updates.RunGuarded RefusedKeysApart .initial labels →
      RefusalsChangeNothing state) := by
  have exactly : (∀ refusal ∈ state.refusals, refusal.Unchanged) ↔
      (∀ refusal ∈ UpdateState.initial.refusals, refusal.Unchanged) ∧
        updates.RunGuarded AddedItemsFree .initial labels :=
    TransitionSystem.log_good_iff_runGuarded UpdateState.refusals_step
      (fun _ _ recorded => recorded.stepRefusals_iff)
      (fun _ _ _ recorded _ stepTo => recorded.step stepTo)
      UpdateState.recorded_initial runTo
  have unchanged : (∀ refusal ∈ state.refusals, refusal.Unchanged) ↔
      updates.RunGuarded AddedItemsFree .initial labels :=
    exactly.trans (and_iff_right fun _ => List.not_mem_nil.elim)
  refine ⟨unchanged, fun guarded => ?_⟩
  have reached := TransitionSystem.guardedReach_of_run
    (.start (rfl : updates.initial .initial)) guarded runTo
  have recorded {state : UpdateState} (reached : updates.Reachable state) :
      state.Recorded :=
    TransitionSystem.Reachable.invariant
      (fun _ initial => initial ▸ UpdateState.recorded_initial)
      (fun _ _ _ recorded stepTo => recorded.step stepTo) reached
  have watched : state.Watched := reached.invariant_with
    (fun _ => recorded)
    (fun _ initial => initial ▸ UpdateState.watched_initial)
    fun _ _ _ recorded watched guarded stepTo =>
      watched.step recorded guarded stepTo
  refine ⟨unchanged.mpr (guarded.mono fun _ _ => And.left), ?_⟩
  intro worker get response ended gets refusal member missing shares alone
  by_contra answered
  have found := Phase.hasFound_of_outcome ended gets answered
  exact alone (watched.found worker get found refusal member missing shares)

/-- A SET that is refused by another one of the same key, a DEL of a key that is
not there, and a GET of this key. -/
def contendedLabels : List WorkerLabel :=
  .start 0 (.make .set [97] [1]) :: WorkerLabel.advances 0 .zero 6 ++
    .start 0 (.make .set [97] [2]) :: WorkerLabel.advances 0 .zero 4 ++
    .start 1 (.make .set [97] [3]) :: WorkerLabel.advances 1 .zero 4 ++
    .start 2 (.make .del [98] []) :: WorkerLabel.advances 2 .zero 3 ++
    .start 3 (.make .get [98] []) :: WorkerLabel.advances 3 .zero 1

theorem refusalsChangeNothing_after_contendedLabels :
    ∃ state, updates.run .initial contendedLabels = some state ∧
      state.refusals.length = 2 ∧ RefusalsChangeNothing state := by
  obtain ⟨state, runTo, refused⟩ := Option.map_eq_some_iff.mp
    (show (updates.run .initial contendedLabels).map (fun state =>
      state.refusals.length) = some 2 by decide)
  exact ⟨state, runTo, refused,
    (refusalsChangeNothing_iff runTo).2 (by decide)⟩

/-- A GET takes the lock of the item that a SET has just added; after the SET
another GET asks for its key. -/
def refusedLabels : List WorkerLabel :=
  .start 0 (.make .set [97] [1]) :: WorkerLabel.advances 0 .zero 3 ++
    .start 1 (.make .get [97] []) :: WorkerLabel.advances 1 .zero 2 ++
    WorkerLabel.advances 0 .zero 1 ++
    .start 2 (.make .get [97] []) :: WorkerLabel.advances 2 .zero 4

/-- The SET is refused and its key, missing before, is there: a later GET of it
is answered `OK`. -/
theorem refused_set_leaves_item :
    ∃ state refusal, updates.run .initial refusedLabels = some state ∧
      state.refusals = [refusal] ∧ refusal.request.method = .set ∧
      refusal.missing = true ∧
      ¬ refusal.Overtaken state.work.table state.additions ∧
      ¬ RefusalsChangeNothing state := by
  obtain ⟨state, runTo, checked⟩ := Option.map_eq_some_iff.mp
    (show (updates.run .initial refusedLabels).map (fun state =>
        (state.refusals.map fun refusal => decide
          (refusal.request.method = .set ∧ refusal.missing = true ∧
            refusal.addedAt = some 0),
        state.additions.length,
        (state.work.phase 2).outcome.map fun answered =>
          decide (answered.1.method = .get ∧ answered.2.code = .ok),
        (state.earlier 2).map fun refusal => decide
          (refusal.missing = true ∧ refusal.addedAt = some 0 ∧
            ∀ answered ∈ (state.work.phase 2).outcome,
              refusal.request.SharesKey state.work.table answered.1))) =
      some ([true], 1, some true, [true]) by decide +kernel)
  simp only [Prod.mk.injEq] at checked
  obtain ⟨refused, one, answered, earlier⟩ := checked
  have alone {refusal : Attempt} (added : refusal.addedAt = some 0) :
      ¬ refusal.Overtaken state.work.table state.additions := by
    rintro ⟨index, request, inside, -, other, -⟩
    have bound := (List.getElem?_eq_some_iff.mp inside).1
    obtain rfl : index = 0 := by omega
    exact other added
  obtain ⟨refusal, only, facts⟩ := List.map_eq_singleton_iff.mp refused
  obtain ⟨sets, missing, added⟩ := of_decide_eq_true facts
  obtain ⟨before, onlyBefore, facts⟩ := List.map_eq_singleton_iff.mp earlier
  obtain ⟨⟨get, response⟩, ended, ok⟩ := Option.map_eq_some_iff.mp answered
  obtain ⟨gets, ok⟩ := of_decide_eq_true ok
  obtain ⟨missing', added', shares⟩ := of_decide_eq_true facts
  refine ⟨state, refusal, runTo, only, sets, missing, alone added,
    fun nothing => ?_⟩
  have refusedGet := nothing.missing 2 get response ended
    gets before (by simp [onlyBefore]) missing' (shares _ ended) (alone added')
  rw [ok] at refusedGet
  cases refusedGet

end RdmaKVStore
