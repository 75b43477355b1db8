import RdmaKVStore.ResetSteps

/-!
# Isolation of RST

A RST that replaces the table while no worker is between choosing a bucket
mutex and unlocking it leaves no way from the new table to the items of the old
one.  The items that the new table can reach are those linked since: they hold
values of SETs that had not been answered when the RST was received.
-/

namespace RdmaKVStore

open LinkedChain HashTable

variable {state after : ResetState} {members others : Ptr → Prop}
variable {worker : WorkerId} {phase next : ResetPhase}

/-- Every worker has unlocked the mutex that it had locked, and no GET has
returned the value of a SET that was answered before the reception of a RST
answered before that GET. -/
structure ResetIsolated (state : ResetState) : Prop where
  unlocked : ∀ locked unlocked, (locked, unlocked) ∈ state.unlocks →
    unlocked = locked
  returned : ∀ entry ∈ state.returned, ∀ number,
    entry.storedBy = some number → number ∉ entry.cleared

namespace ResetPhase

/-- The mutex whose address a worker has evaluated and not yet unlocked. -/
def mutex : ResetPhase → Option BucketMutex
  | .setLock _ mutex | .setReadHead _ mutex | .setSearch _ mutex _
  | .setLink _ mutex _ | .setUnlock _ mutex _ => some mutex
  | _ => none

def head : ResetPhase → Option Ptr
  | .setSearch _ _ head | .setLink _ _ head => head
  | _ => none

def setCall : ResetPhase → Option SetCall
  | .setBucket call | .setAddress call _ | .setLock call _
  | .setReadHead call _ | .setSearch call _ _ | .setLink call _ _
  | .setUnlock call _ _ | .setTrywrlock call _ | .setStore call _
  | .setUnlockItem call _ | .setAnswer call => some call
  | _ => none

def getCall : ResetPhase → Option GetCall
  | .getSearch call | .getTryrdlock call _ | .getCopy call _ => some call
  | _ => none

def target : ResetPhase → Option (GetCall × Ptr)
  | .getTryrdlock call p | .getCopy call p => some (call, p)
  | _ => none

/-- The SETs answered before the RST that a worker executes. -/
def seen : ResetPhase → Option (List Nat)
  | .rstReplace seen | .rstAnswer seen => some seen
  | _ => none

def replaced : ResetPhase → Option (List Nat)
  | .rstAnswer seen => some seen
  | _ => none

def replaces : ResetPhase → Bool
  | .rstReplace _ => true
  | _ => false

/-- What is known of a worker's phase when the table reaches `members`. -/
structure Placed (members : Ptr → Prop) (state : ResetState)
    (phase : ResetPhase) : Prop where
  set : ∀ call, phase.setCall = some call →
    call.number < state.sets ∧ call.number ∉ state.answered
  mutex : ∀ mutex, phase.mutex = some mutex →
    mutex.generation = state.generation
  head : ∀ p, phase.head = some p → members p
  get : ∀ call, phase.getCall = some call → call.cleared ⊆ state.cleared
  target : ∀ call p, phase.target = some (call, p) → ∀ number,
    state.storedBy p = some number → number ∉ call.cleared
  seen : ∀ seen, phase.seen = some seen → seen ⊆ state.answered
  replaced : ∀ seen, phase.replaced = some seen → ∀ p number,
    members p → state.storedBy p = some number → number ∉ seen

theorem getCall_of_target {call : GetCall} {p : Ptr}
    (target : phase.target = some (call, p)) : phase.getCall = some call := by
  cases phase with
  | getTryrdlock | getCopy => cases target; rfl
  | _ => cases target

theorem seen_of_replaced {seen : List Nat}
    (replaced : phase.replaced = some seen) : phase.seen = some seen := by
  cases phase with
  | rstAnswer => exact replaced
  | _ => cases replaced

theorem head_of_mutex (outside : phase.mutex = none) : phase.head = none := by
  cases phase with
  | setSearch | setLink => cases outside
  | _ => rfl

theorem placed_idle : Placed members state .idle where
  set _ found := by cases found
  mutex _ found := by cases found
  head _ found := by cases found
  get _ found := by cases found
  target _ _ found := by cases found
  seen _ found := by cases found
  replaced _ found := by cases found

/-- The next phase carries nothing that the phase before did not carry. -/
structure Narrows (next phase : ResetPhase) : Prop where
  set : ∀ call, next.setCall = some call → phase.setCall = some call
  mutex : ∀ mutex, next.mutex = some mutex → phase.mutex = some mutex
  head : ∀ p, next.head = some p → phase.head = some p
  get : ∀ call, next.getCall = some call → phase.getCall = some call
  target : ∀ found, next.target = some found → phase.target = some found
  seen : ∀ seen, next.seen = some seen → phase.seen = some seen
  replaced : ∀ seen, next.replaced = some seen → phase.replaced = some seen

theorem Placed.narrow (placed : phase.Placed members state)
    (narrows : next.Narrows phase) : next.Placed members state where
  set call found := placed.set call (narrows.set call found)
  mutex mutex found := placed.mutex mutex (narrows.mutex mutex found)
  head p found := placed.head p (narrows.head p found)
  get call found := placed.get call (narrows.get call found)
  target call p found := placed.target call p (narrows.target _ found)
  seen seen found := placed.seen seen (narrows.seen seen found)
  replaced seen found := placed.replaced seen (narrows.replaced seen found)

end ResetPhase

/-- The table is replaced while no worker is in a section. -/
def ReplacesOutside (state : ResetState) : ResetLabel → Prop
  | .start _ _ => True
  | .advance worker => (state.phase worker).replaces = true →
      ∀ other, (state.phase other).mutex = none

/-- The items that the table reaches are among `members`, and none of them
holds the value of a cleared SET. -/
structure ReachesOnly (members : Ptr → Prop) (state : ResetState) : Prop where
  heads : ∀ bucket p, state.table.items bucket = some p → members p
  closed : ∀ p q, members p →
    (state.table.heap p).map HashItem.next = some (some q) → members q
  values : ∀ p number, members p → state.storedBy p = some number →
    number ∉ state.cleared
  answered_lt : ∀ number ∈ state.answered, number < state.sets
  cleared_sub : state.cleared ⊆ state.answered
  isolated : ResetIsolated state

/-- The invariant of runs in which tables are replaced outside of sections. -/
structure Isolated (members : Ptr → Prop) (state : ResetState) : Prop where
  reaches : ReachesOnly members state
  placed : ∀ worker, (state.phase worker).Placed members state
  distinct : ∀ first second firstCall secondCall,
    (state.phase first).setCall = some firstCall →
      (state.phase second).setCall = some secondCall →
        firstCall.number = secondCall.number → first = second

theorem HashTable.searchLoop_member {heap : Ptr → Option HashItem}
    {key : Bytes} {keyLen fuel : Nat} {head : Option Ptr} {p : Ptr}
    (closed : ∀ p q, members p →
      (heap p).map HashItem.next = some (some q) → members q)
    (start : ∀ q, head = some q → members q)
    (found : searchLoop heap key keyLen fuel head = some (some p)) :
    members p := by
  induction fuel generalizing head with
  | zero => cases head <;> cases found
  | succ fuel ih =>
      cases head with
      | none => cases found
      | some current =>
          obtain ⟨item, read, rest⟩ := Option.bind_eq_some_iff.mp found
          split at rest
          · cases rest
            exact start _ rfl
          · refine ih (fun q link => closed current q (start _ rfl) ?_) rest
            rw [read, Option.map_some, link]

namespace ReachesOnly

variable (reaches : ReachesOnly members state)
include reaches

theorem locksOnly (locks : LocksOnly state after) :
    ReachesOnly members after where
  heads bucket p head := reaches.heads bucket p (locks.items ▸ head)
  closed p q member link := reaches.closed p q member (locks.next p ▸ link)
  values p number member stored := by
    rw [locks.cleared]
    exact reaches.values p number member (locks.storedBy ▸ stored)
  answered_lt := by
    rw [locks.answered, locks.sets]
    exact reaches.answered_lt
  cleared_sub := by
    rw [locks.answered, locks.cleared]
    exact reaches.cleared_sub
  isolated :=
    ⟨by rw [locks.unlocks]; exact reaches.isolated.unlocked,
      by rw [locks.returned]; exact reaches.isolated.returned⟩

/-- A new entry links to a reached item, so it adds only itself. -/
theorem link {call : SetCall} {mutex : BucketMutex} {head : Option Ptr}
    (reached : ∀ p, head = some p → members p) :
    ReachesOnly (fun p => members p ∨ p = state.table.fresh)
      (state.link call mutex head) where
  heads bucket p found := by
    simp only [ResetState.link, linkEntry] at found
    by_cases same : bucket = mutex.bucket
    · subst same
      rw [Function.update_self, Option.some.injEq] at found
      exact .inr found.symm
    · rw [Function.update_of_ne same] at found
      exact .inl (reaches.heads bucket p found)
  closed p q member next := by
    by_cases same : p = state.table.fresh
    · subst same
      exact .inl (reached q
        (Option.some.inj (next_linkEntry_fresh.symm.trans next)))
    · exact .inl (reaches.closed p q (member.resolve_right same)
        ((next_linkEntry same).symm.trans next))
  values p number member stored := by
    simp only [ResetState.link] at stored
    by_cases same : p = state.table.fresh
    · subst same
      rw [Function.update_self] at stored
      cases stored
    · rw [Function.update_of_ne same] at stored
      exact reaches.values p number (member.resolve_right same) stored
  answered_lt := reaches.answered_lt
  cleared_sub := reaches.cleared_sub
  isolated := ⟨reaches.isolated.unlocked, reaches.isolated.returned⟩

theorem unlockMutex {mutex : BucketMutex}
    (current : mutex.generation = state.generation) :
    ReachesOnly members (state.unlockMutex mutex) where
  heads := reaches.heads
  closed := reaches.closed
  values := reaches.values
  answered_lt := reaches.answered_lt
  cleared_sub := reaches.cleared_sub
  isolated :=
    { reaches.isolated with
      unlocked := fun locked unlocked member => by
        rcases List.mem_append.mp member with old | new
        · exact reaches.isolated.unlocked locked unlocked old
        · obtain ⟨rfl, rfl⟩ := Prod.mk.inj (List.mem_singleton.mp new)
          rw [← current] }

theorem store {call : SetCall} {p : Ptr}
    (unanswered : call.number ∉ state.answered) :
    ReachesOnly members (state.store call p) where
  heads := reaches.heads
  closed q r member next := reaches.closed q r member
    ((next_storeValue _ _ _ q).symm.trans next)
  values q number member stored := by
    simp only [ResetState.store] at stored ⊢
    by_cases same : q = p
    · subst same
      rw [Function.update_self, Option.some.injEq] at stored
      exact stored ▸ fun cleared => unanswered (reaches.cleared_sub cleared)
    · rw [Function.update_of_ne same] at stored
      exact reaches.values q number member stored
  answered_lt := reaches.answered_lt
  cleared_sub := reaches.cleared_sub
  isolated := ⟨reaches.isolated.unlocked, reaches.isolated.returned⟩

theorem answer {call : SetCall} (received : call.number < state.sets) :
    ReachesOnly members
      { state with answered := call.number :: state.answered } where
  heads := reaches.heads
  closed := reaches.closed
  values := reaches.values
  answered_lt := List.forall_mem_cons.mpr ⟨received, reaches.answered_lt⟩
  cleared_sub := List.subset_cons_of_subset _ reaches.cleared_sub
  isolated := ⟨reaches.isolated.unlocked, reaches.isolated.returned⟩

theorem copyValue {call : GetCall} {p : Ptr} {item : HashItem}
    (uncleared : ∀ number, state.storedBy p = some number →
      number ∉ call.cleared) :
    ReachesOnly members (state.copyValue call p item) where
  heads := reaches.heads
  closed := reaches.closed
  values := reaches.values
  answered_lt := reaches.answered_lt
  cleared_sub := reaches.cleared_sub
  isolated :=
    { reaches.isolated with
      returned := List.forall_mem_append.mpr ⟨reaches.isolated.returned,
        List.forall_mem_singleton.mpr uncleared⟩ }

/-- From the new arrays nothing is reached. -/
theorem replace : ReachesOnly (fun _ => False) state.replace where
  heads _ _ found := by cases found
  closed _ _ := False.elim
  values _ _ := False.elim
  answered_lt := reaches.answered_lt
  cleared_sub := reaches.cleared_sub
  isolated := ⟨reaches.isolated.unlocked, reaches.isolated.returned⟩

theorem clear {seen : List Nat} (answered : seen ⊆ state.answered)
    (unreached : ∀ p number, members p →
      state.storedBy p = some number → number ∉ seen) :
    ReachesOnly members { state with cleared := seen ++ state.cleared } where
  heads := reaches.heads
  closed := reaches.closed
  values p number member stored cleared := by
    rcases List.mem_append.mp cleared with new | old
    · exact unreached p number member stored new
    · exact reaches.values p number member stored old
  answered_lt := reaches.answered_lt
  cleared_sub := List.append_subset.mpr ⟨answered, reaches.cleared_sub⟩
  isolated := ⟨reaches.isolated.unlocked, reaches.isolated.returned⟩

end ReachesOnly

namespace ResetPhase.Placed

/-- What is known of a worker stays true while SETs and answers are added, the
items that hold values of unanswered SETs may change, and others are reached. -/
theorem mono (placed : phase.Placed members state)
    (sets : state.sets ≤ after.sets)
    (answered : state.answered ⊆ after.answered)
    (cleared : state.cleared ⊆ after.cleared)
    (unanswered : ∀ call, phase.setCall = some call →
      call.number ∉ state.answered → call.number ∉ after.answered)
    (generation : phase.mutex ≠ none → after.generation = state.generation)
    (kept : phase.head ≠ none → ∀ p, members p → others p)
    (stored : ∀ p number, after.storedBy p = some number →
      state.storedBy p = some number ∨ number ∉ state.answered)
    (reached : ∀ p number, others p → after.storedBy p = some number →
      members p ∨ number ∉ state.answered)
    (clearedSub : state.cleared ⊆ state.answered) :
    phase.Placed others after where
  set call found :=
    ⟨(placed.set call found).1.trans_le sets,
      unanswered call found (placed.set call found).2⟩
  mutex mutex found :=
    (placed.mutex mutex found).trans (generation (by simp [found])).symm
  head p found := kept (by simp [found]) p (placed.head p found)
  get call found := List.Subset.trans (placed.get call found) cleared
  target call p found number holds := by
    rcases stored p number holds with old | fresh
    · exact placed.target call p found number old
    · exact fun member => fresh (clearedSub
        (placed.get call (getCall_of_target found) member))
  seen seen found := List.Subset.trans (placed.seen seen found) answered
  replaced seen found p number member holds := by
    have known := placed.seen seen (seen_of_replaced found)
    rcases reached p number member holds with old | fresh
    · rcases stored p number holds with before | fresh
      · exact placed.replaced seen found p number old before
      · exact fun inSeen => fresh (known inSeen)
    · exact fun inSeen => fresh (known inSeen)

theorem locksOnly (placed : phase.Placed members state)
    (locks : LocksOnly state after) : phase.Placed members after where
  set call found := by
    rw [locks.sets, locks.answered]
    exact placed.set call found
  mutex mutex found := (placed.mutex mutex found).trans locks.generation.symm
  head := placed.head
  get call found := by
    rw [locks.cleared]
    exact placed.get call found
  target call p found number holds :=
    placed.target call p found number (locks.storedBy ▸ holds)
  seen seen found := by
    rw [locks.answered]
    exact placed.seen seen found
  replaced seen found p number member holds :=
    placed.replaced seen found p number member (locks.storedBy ▸ holds)

theorem link (placed : phase.Placed members state)
    (clearedSub : state.cleared ⊆ state.answered) (call : SetCall)
    (mutex : BucketMutex) (head : Option Ptr) :
    phase.Placed (fun p => members p ∨ p = state.table.fresh)
      (state.link call mutex head) := by
  have stored : ∀ p number,
      (state.link call mutex head).storedBy p = some number →
        state.storedBy p = some number ∧ p ≠ state.table.fresh := by
    intro p number holds
    by_cases same : p = state.table.fresh
    · subst same
      exact absurd ((Function.update_self _ _ _).symm.trans holds) (by simp)
    · exact ⟨(Function.update_of_ne same _ _).symm.trans holds, same⟩
  exact placed.mono le_rfl (List.Subset.refl _) (List.Subset.refl _)
    (fun _ _ free => free) (fun _ => rfl) (fun _ _ => .inl)
    (fun p number holds => .inl (stored p number holds).1)
    (fun p number member holds => .inl
      (member.resolve_right (stored p number holds).2)) clearedSub

theorem store (placed : phase.Placed members state)
    (clearedSub : state.cleared ⊆ state.answered) {call : SetCall}
    (unanswered : call.number ∉ state.answered) (p : Ptr) :
    phase.Placed members (state.store call p) := by
  refine placed.mono le_rfl (List.Subset.refl _) (List.Subset.refl _)
    (fun _ _ free => free) (fun _ => rfl) (fun _ _ => id)
    (fun q number holds => ?_) (fun _ _ member _ => .inl member) clearedSub
  by_cases same : q = p
  · subst same
    simp only [ResetState.store, Function.update_self,
      Option.some.injEq] at holds
    exact .inr (holds ▸ unanswered)
  · exact .inl ((Function.update_of_ne same _ _).symm.trans holds)

theorem answer (placed : phase.Placed members state)
    (clearedSub : state.cleared ⊆ state.answered) {call : SetCall}
    (different : ∀ other, phase.setCall = some other →
      other.number ≠ call.number) :
    phase.Placed members
      { state with answered := call.number :: state.answered } :=
  placed.mono le_rfl (List.subset_cons_self _ _) (List.Subset.refl _)
    (fun other found free member => (List.mem_cons.mp member).elim
      (different other found) free)
    (fun _ => rfl) (fun _ _ => id) (fun _ _ => .inl)
    (fun _ _ member _ => .inl member) clearedSub

/-- Outside of sections nothing is known that a new table would change. -/
theorem replace (placed : phase.Placed members state)
    (clearedSub : state.cleared ⊆ state.answered)
    (outside : phase.mutex = none) :
    phase.Placed (fun _ => False) state.replace :=
  placed.mono le_rfl (List.Subset.refl _) (List.Subset.refl _)
    (fun _ _ free => free) (fun inside => absurd outside inside)
    (fun linking => absurd (head_of_mutex outside) linking)
    (fun _ _ => .inl) (fun _ _ => False.elim) clearedSub

theorem clear (placed : phase.Placed members state)
    (clearedSub : state.cleared ⊆ state.answered) (seen : List Nat) :
    phase.Placed members { state with cleared := seen ++ state.cleared } :=
  placed.mono le_rfl (List.Subset.refl _) (List.subset_append_right _ _)
    (fun _ _ free => free) (fun _ => rfl) (fun _ _ => id)
    (fun _ _ => .inl) (fun _ _ member _ => .inl member) clearedSub

end ResetPhase.Placed

namespace Isolated

theorem initial : Isolated (fun _ => False) .initial where
  reaches :=
    { heads := fun _ _ found => by cases found
      closed := fun _ _ => False.elim
      values := fun _ _ => False.elim
      answered_lt := fun _ member => by cases member
      cleared_sub := List.Subset.refl _
      isolated :=
        ⟨fun _ _ member => (List.not_mem_nil member).elim,
          fun _ member => (List.not_mem_nil member).elim⟩ }
  placed _ := ResetPhase.placed_idle
  distinct _ _ _ _ found := by cases found

variable (isolated : Isolated members state)
include isolated

/-- The invariant after a step that changes the state as given and moves one
worker, which keeps its SET if it has one. -/
theorem moved (place : state.phase worker = phase)
    (reaches : ReachesOnly others after) (phases : after.phase = state.phase)
    (rest : ∀ other, other ≠ worker →
      (state.phase other).Placed others after)
    (self : next.Placed others after)
    (call : ∀ call, next.setCall = some call → phase.setCall = some call) :
    Isolated others (after.move worker next) where
  reaches := ⟨reaches.heads, reaches.closed, reaches.values,
    reaches.answered_lt, reaches.cleared_sub,
    reaches.isolated.unlocked, reaches.isolated.returned⟩
  placed := by
    refine (Function.forall_update_iff after.phase
      fun _ (phase : ResetPhase) => phase.Placed others
        (after.move worker next)).mpr ⟨?_, fun other distinct => ?_⟩
    · exact ⟨self.set, self.mutex, self.head, self.get, self.target,
        self.seen, self.replaced⟩
    · rw [phases]
      have placed := rest other distinct
      exact ⟨placed.set, placed.mutex, placed.head, placed.get,
        placed.target, placed.seen, placed.replaced⟩
  distinct := by
    have before {other : WorkerId} {found : SetCall}
        (runs : ((after.move worker next).phase other).setCall = some found) :
        (state.phase other).setCall = some found := by
      simp only [ResetState.move, phases] at runs
      by_cases same : other = worker
      · subst same
        rw [Function.update_self] at runs
        exact place ▸ call found runs
      · rwa [Function.update_of_ne same] at runs
    intro first second firstCall secondCall firstRuns secondRuns
    exact isolated.distinct first second firstCall secondCall
      (before firstRuns) (before secondRuns)

/-- A step that changes nothing but locks. -/
theorem quiet (place : state.phase worker = phase)
    (locks : LocksOnly state after) (self : next.Placed members state)
    (call : ∀ call, next.setCall = some call → phase.setCall = some call) :
    Isolated members (after.move worker next) :=
  isolated.moved place (isolated.reaches.locksOnly locks) locks.phase
    (fun other _ => (isolated.placed other).locksOnly locks)
    (self.locksOnly locks) call

theorem member_of_search {key : Bytes} {keyLen : Nat} {p : Ptr}
    (found : state.table.search key keyLen = some (some p)) : members p :=
  searchLoop_member isolated.reaches.closed
    (fun _ => isolated.reaches.heads _ _) found

end Isolated

theorem LocksOnly.refl (state : ResetState) : LocksOnly state state :=
  ⟨rfl, rfl, fun _ => rfl, rfl, rfl, rfl, rfl, rfl, rfl, rfl⟩

theorem Isolated.serves (isolated : Isolated members state)
    (guarded : ReplacesOutside state (.advance worker))
    (serves : ResetServes state (state.phase worker) after next) :
    ∃ others, Isolated others (after.move worker next) := by
  have placed := isolated.placed worker
  have reaches := isolated.reaches
  generalize place : state.phase worker = before at serves placed
  cases serves with
  | setBucket | setFound | setMissing | setRefused | getMissing
  | getRefused =>
      refine ⟨members, isolated.quiet place (.refl _)
        (placed.narrow ?_) fun call found => found⟩
      constructor <;> intro _ found <;> first | exact found | cases found
  | setLock locks | setLocked locks | setUnlockItem locks | getLocked locks
  | getUnlockItem locks =>
      refine ⟨members, isolated.quiet place locks
        (placed.narrow ?_) fun call found => found⟩
      constructor <;> intro _ found <;> exact found
  | setAddress =>
      refine ⟨members, isolated.quiet place (.refl _)
        ⟨placed.set, fun mutex found => ?_, placed.head, placed.get,
          placed.target, placed.seen, placed.replaced⟩ fun _ found => found⟩
      cases found
      rfl
  | @setReadHead call mutex =>
      exact ⟨members, isolated.quiet place (.refl _)
        ⟨placed.set, placed.mutex, fun p found => reaches.heads _ p found,
          placed.get, placed.target, placed.seen, placed.replaced⟩
        fun _ found => found⟩
  | @getFound call p found =>
      refine ⟨members, isolated.quiet place (.refl _)
        ⟨placed.set, placed.mutex, placed.head, placed.get,
          fun other q target number holds => ?_, placed.seen,
          placed.replaced⟩ fun _ found => found⟩
      cases target
      exact fun cleared => reaches.values p number
        (isolated.member_of_search found) holds (placed.get call rfl cleared)
  | @setLink call mutex head =>
      have linked (phase : ResetPhase) (placed : phase.Placed members state) :=
        placed.link reaches.cleared_sub call mutex head
      refine ⟨_, isolated.moved place
        (reaches.link fun p found => placed.head p found) rfl
        (fun other _ => linked _ (isolated.placed other))
        ((linked _ placed).narrow ?_) fun _ found => found⟩
      constructor <;> intro _ found <;> first | exact found | cases found
  | @setUnlock call mutex p =>
      have kept (phase : ResetPhase) (placed : phase.Placed members state) :
          phase.Placed members (state.unlockMutex mutex) :=
        ⟨placed.set, placed.mutex, placed.head, placed.get, placed.target,
          placed.seen, placed.replaced⟩
      refine ⟨members, isolated.moved place
        (reaches.unlockMutex (placed.mutex mutex rfl)) rfl
        (fun other _ => kept _ (isolated.placed other))
        ((kept _ placed).narrow ?_) fun _ found => found⟩
      constructor <;> intro _ found <;> first | exact found | cases found
  | @setStore call p =>
      have unanswered := (placed.set call rfl).2
      have stored (phase : ResetPhase) (placed : phase.Placed members state) :=
        placed.store reaches.cleared_sub unanswered p
      refine ⟨members, isolated.moved place (reaches.store unanswered) rfl
        (fun other _ => stored _ (isolated.placed other))
        ((stored _ placed).narrow ?_) fun _ found => found⟩
      constructor <;> intro _ found <;> exact found
  | @setAnswer call =>
      refine ⟨members, isolated.moved place
        (reaches.answer (placed.set call rfl).1) rfl
        (fun other distinct => ?_) ResetPhase.placed_idle
        fun _ found => by cases found⟩
      refine (isolated.placed other).answer reaches.cleared_sub
        fun theirs found same => distinct ?_
      exact isolated.distinct other worker theirs call found
        (by rw [place]; rfl) same
  | @getCopy call p item =>
      have kept (phase : ResetPhase) (placed : phase.Placed members state) :
          phase.Placed members (state.copyValue call p item) :=
        ⟨placed.set, placed.mutex, placed.head, placed.get, placed.target,
          placed.seen, placed.replaced⟩
      refine ⟨members, isolated.moved place
        (reaches.copyValue (placed.target call p rfl)) rfl
        (fun other _ => kept _ (isolated.placed other))
        ((kept _ placed).narrow ?_) fun _ found => found⟩
      constructor <;> intro _ found <;> first | exact found | cases found
  | @rstReplace seen =>
      have outside := guarded (by rw [place]; rfl)
      have replaced := placed.replace reaches.cleared_sub rfl
      refine ⟨_, isolated.moved place reaches.replace rfl
        (fun other _ => (isolated.placed other).replace reaches.cleared_sub
          (outside other))
        ⟨replaced.set, replaced.mutex, replaced.head, replaced.get,
          replaced.target, replaced.seen, fun _ _ _ _ => False.elim⟩
        fun _ found => found⟩
  | @rstAnswer seen =>
      exact ⟨members, isolated.moved place
        (reaches.clear (placed.seen seen rfl) (placed.replaced seen rfl)) rfl
        (fun other _ => (isolated.placed other).clear reaches.cleared_sub seen)
        ResetPhase.placed_idle fun _ found => by cases found⟩

/-- A SET is received under a number of its own. -/
theorem Isolated.receiveSet (isolated : Isolated members state)
    (request : Request) :
    Isolated members ({ state with sets := state.sets + 1 }.move worker
      (.setBucket ⟨state.sets, request⟩)) := by
  have reaches := isolated.reaches
  have received : ∀ other, (state.phase other).Placed members
      { state with sets := state.sets + 1 } := fun other =>
    (isolated.placed other).mono (Nat.le_succ _) (List.Subset.refl _)
      (List.Subset.refl _) (fun _ _ free => free) (fun _ => rfl)
      (fun _ _ => id) (fun _ _ => .inl) (fun _ _ member _ => .inl member)
      reaches.cleared_sub
  have new {other : WorkerId} {call : SetCall}
      (runs : (state.phase other).setCall = some call) :
      call.number < state.sets := ((isolated.placed other).set call runs).1
  have fresh : state.sets ∉ state.answered := fun member =>
    absurd (reaches.answered_lt _ member) (lt_irrefl _)
  refine ⟨⟨reaches.heads, reaches.closed, reaches.values,
    fun number member => (reaches.answered_lt number member).trans
      (Nat.lt_succ_self _), reaches.cleared_sub,
    ⟨reaches.isolated.unlocked, reaches.isolated.returned⟩⟩, ?_, ?_⟩
  · refine (Function.forall_update_iff state.phase
      fun _ (phase : ResetPhase) => phase.Placed members _).mpr
        ⟨⟨fun call found => ?_, ?_, ?_, ?_, ?_, ?_, ?_⟩, fun other _ => ?_⟩
    · cases found
      exact ⟨Nat.lt_succ_self _, fresh⟩
    · intro _ found; cases found
    · intro _ found; cases found
    · intro _ found; cases found
    · intro _ _ found; cases found
    · intro _ found; cases found
    · intro _ found; cases found
    · have placed := received other
      exact ⟨placed.set, placed.mutex, placed.head, placed.get,
        placed.target, placed.seen, placed.replaced⟩
  · intro first second firstCall secondCall firstRuns secondRuns same
    simp only [ResetState.move] at firstRuns secondRuns
    by_cases here : first = worker <;> by_cases there : second = worker
    · rw [here, there]
    · rw [here, Function.update_self] at firstRuns
      rw [Function.update_of_ne there] at secondRuns
      cases firstRuns
      exact absurd same.symm (new secondRuns).ne
    · rw [there, Function.update_self] at secondRuns
      rw [Function.update_of_ne here] at firstRuns
      cases secondRuns
      exact absurd same (new firstRuns).ne
    · rw [Function.update_of_ne here] at firstRuns
      rw [Function.update_of_ne there] at secondRuns
      exact isolated.distinct first second firstCall secondCall firstRuns
        secondRuns same

theorem Isolated.step {label : ResetLabel} (isolated : Isolated members state)
    (guarded : ReplacesOutside state label)
    (stepTo : resetWorkers.step state label = some after) :
    ∃ others, Isolated others after := by
  cases label with
  | start worker request =>
      obtain ⟨idle, moved⟩ := Option.ite_none_right_eq_some.mp stepTo
      obtain ⟨⟨middle, next⟩, started, rfl⟩ :=
        Option.map_eq_some_iff.mp moved
      rcases ResetState.start_cases started with
        ⟨rfl, rfl⟩ | ⟨rfl, rfl⟩ | ⟨rfl, rfl⟩
      · exact ⟨members, isolated.receiveSet request⟩
      · refine ⟨members, isolated.quiet idle (.refl _)
          { ResetPhase.placed_idle with
            get := fun call found => ?_
            target := fun _ _ found => by cases found } fun _ found => found⟩
        cases found
        exact List.Subset.refl _
      · refine ⟨members, isolated.quiet idle (.refl _)
          { ResetPhase.placed_idle with
            seen := fun seen found => ?_ } fun _ found => found⟩
        cases found
        exact List.Subset.refl _
  | advance worker =>
      obtain ⟨⟨middle, next⟩, advanced, rfl⟩ :=
        Option.map_eq_some_iff.mp stepTo
      exact isolated.serves guarded (ResetState.advance_serves advanced)

theorem Isolated.of_reached
    (reached : resetWorkers.GuardedReach ReplacesOutside state) :
    ∃ members, Isolated members state := by
  induction reached with
  | start initial =>
      obtain rfl := initial
      exact ⟨_, .initial⟩
  | next _ guarded stepTo ih =>
      obtain ⟨members, isolated⟩ := ih
      exact isolated.step guarded stepTo

/-- In every run in which the table is replaced only while no worker is between
choosing a bucket mutex and unlocking it, RSTs are isolated. -/
theorem resetIsolated_of_replacesOutside
    (reached : resetWorkers.GuardedReach ReplacesOutside state) :
    ResetIsolated state := by
  obtain ⟨members, isolated⟩ := Isolated.of_reached reached
  exact isolated.reaches.isolated

def ReplacesOutsideBelow (bound : Nat) (state : ResetState) :
    ResetLabel → Prop
  | .start worker _ => worker < bound
  | .advance worker => worker < bound ∧
      ((state.phase worker).replaces = true →
        ∀ other < bound, (state.phase other).mutex = none)

instance (bound : Nat) (state : ResetState) (label : ResetLabel) :
    Decidable (ReplacesOutsideBelow bound state label) :=
  match label with
  | .start worker _ => inferInstanceAs (Decidable (worker < bound))
  | .advance worker => inferInstanceAs (Decidable (worker < bound ∧
      ((state.phase worker).replaces = true →
        ∀ other < bound, (state.phase other).mutex = none)))

theorem ResetServes.phase_eq (serves : ResetServes state phase after next) :
    after.phase = state.phase := by
  cases serves with
  | setLock locks | setLocked locks | setUnlockItem locks | getLocked locks
  | getUnlockItem locks => exact locks.phase
  | _ => rfl

theorem runGuarded_of_replacesOutsideBelow {bound : Nat}
    {labels : List ResetLabel}
    (guarded : resetWorkers.RunGuarded (ReplacesOutsideBelow bound) .initial
      labels) :
    resetWorkers.RunGuarded ReplacesOutside .initial labels := by
  refine TransitionSystem.RunGuarded.of_invariant
    (?_ : ∀ (state : ResetState) label, (∀ worker, bound ≤ worker →
      state.phase worker = .idle) → _ → _) ?_ (fun _ _ => rfl) guarded
  · intro state label idle below
    cases label with
    | start => trivial
    | advance worker =>
        intro replaces other
        by_cases small : other < bound
        · exact below.2 replaces other small
        · rw [idle other (not_lt.mp small)]
          rfl
  · intro before label after idle below stepTo
    have moved {middle : ResetState} {worker : WorkerId} {next : ResetPhase}
        (phases : middle.phase = before.phase) (small : worker < bound) :
        ∀ other, bound ≤ other →
          (middle.move worker next).phase other = .idle := by
      intro other large
      have distinct : other ≠ worker := (small.trans_le large).ne'
      rw [ResetState.move, phases]
      exact (Function.update_of_ne distinct _ _).trans (idle other large)
    cases label with
    | start worker request =>
        obtain ⟨-, rest⟩ := Option.ite_none_right_eq_some.mp stepTo
        obtain ⟨⟨middle, next⟩, started, rfl⟩ :=
          Option.map_eq_some_iff.mp rest
        rcases ResetState.start_cases started with
          ⟨rfl, rfl⟩ | ⟨rfl, rfl⟩ | ⟨rfl, rfl⟩ <;> exact moved rfl below
    | advance worker =>
        obtain ⟨⟨middle, next⟩, advanced, rfl⟩ :=
          Option.map_eq_some_iff.mp stepTo
        exact moved (ResetState.advance_serves advanced).phase_eq below.1

def resetAdvances (worker : WorkerId) (count : Nat) : List ResetLabel :=
  List.replicate count (.advance worker)

/-- The keys `ab` and `bA` fall into one bucket. -/
def firstKey : Bytes := [97, 98]

def secondKey : Bytes := [98, 65]

/-- A RST replaces the table after a SET has left its section. -/
def isolatedLabels : List ResetLabel :=
  [[.start 0 (.make .set firstKey [1])], resetAdvances 0 11,
    [.start 1 (.make .rst [] []), .start 2 (.make .set secondKey [2])],
    resetAdvances 2 7, resetAdvances 1 2, resetAdvances 2 4,
    [.start 2 (.make .set secondKey [3])], resetAdvances 2 11,
    [.start 3 (.make .get secondKey [])], resetAdvances 3 4].flatten

theorem resetIsolated_after_isolatedLabels :
    ∃ state, resetWorkers.run .initial isolatedLabels = some state ∧
      state.returned.map GetReturn.storedBy = [some 2] ∧
      ResetIsolated state := by
  obtain ⟨state, runTo, returned⟩ := Option.map_eq_some_iff.mp
    (show (resetWorkers.run .initial isolatedLabels).map (fun state =>
        state.returned.map GetReturn.storedBy) = some [some 2]
          by decide +kernel)
  exact ⟨state, runTo, returned, resetIsolated_of_replacesOutside
    (TransitionSystem.guardedReach_of_run (.start rfl)
      (runGuarded_of_replacesOutsideBelow
        (show resetWorkers.RunGuarded (ReplacesOutsideBelow 4) .initial
          isolatedLabels by decide +kernel)) runTo)⟩

/-- A RST replaces the table between the read of the head and the search of a
SET, which then links the old items into the new table. -/
def straddlingLabels : List ResetLabel :=
  [[.start 0 (.make .set firstKey [1])], resetAdvances 0 11,
    [.start 1 (.make .rst [] []), .start 2 (.make .set secondKey [2])],
    resetAdvances 2 4, resetAdvances 1 2, resetAdvances 2 7,
    [.start 3 (.make .get firstKey [])], resetAdvances 3 4].flatten

/-- A GET returns the value of a SET that was answered before the RST, and the
other SET has unlocked a mutex that it never locked. -/
theorem straddling_set_undoes_reset :
    ∃ state, resetWorkers.Reachable state ∧
      state.unlocks[1]? = some (⟨0, 808⟩, ⟨1, 808⟩) ∧
      state.returned.map (fun entry =>
        (entry.cleared, entry.storedBy, entry.response.body)) =
          [([0], some 0, [1])] ∧
      ¬ ResetIsolated state := by
  obtain ⟨state, runTo, checked⟩ := Option.map_eq_some_iff.mp
    (show (resetWorkers.run .initial straddlingLabels).map (fun state =>
        decide (state.unlocks[1]? = some (⟨0, 808⟩, ⟨1, 808⟩) ∧
          state.returned.map (fun entry =>
            (entry.cleared, entry.storedBy, entry.response.body)) =
              [([0], some 0, [1])])) = some true by decide +kernel)
  obtain ⟨unlocks, returned⟩ := of_decide_eq_true checked
  refine ⟨state, TransitionSystem.reachable_of_run (.start rfl) runTo,
    unlocks, returned, fun isolated => ?_⟩
  have same := isolated.unlocked _ _ (List.mem_of_getElem? unlocks)
  exact absurd same (by decide)

end RdmaKVStore
