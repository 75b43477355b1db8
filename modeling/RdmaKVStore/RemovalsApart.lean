import RdmaKVStore.RemovedItems
import RdmaKVStore.StoreContents

/-!
# Removals without company

A SET or GET uses its item without the mutex of the bucket, and a GET walks the
bucket without it as well.  They are safe from a DEL if no DEL is in progress
together with a SET or GET of its bucket: the items that they point to are then
in their bucket until they are done with them.
-/

namespace RdmaKVStore

open LinkedChain HashTable

/-- Of two requests of one bucket, one is a DEL and the other one is none. -/
def Request.MeetsRemoval (first second : Request) : Prop :=
  first.bucket = second.bucket ∧
    (first.method = .del ∧ second.method ≠ .del ∨
      first.method ≠ .del ∧ second.method = .del)

instance (first second : Request) : Decidable (first.MeetsRemoval second) :=
  inferInstanceAs (Decidable (_ ∧ _))

theorem Request.MeetsRemoval.symm {first second : Request}
    (meets : first.MeetsRemoval second) : second.MeetsRemoval first :=
  ⟨meets.1.symm, meets.2.symm.imp And.symm And.symm⟩

/-- No DEL is taken up while a SET or GET of its bucket is in progress, nor the
other way round. -/
def RemovalsApart (state : WorkerState) : WorkerLabel → Prop
  | .start _ request => ∀ other current,
      (state.phase other).current = some current →
        ¬ request.MeetsRemoval current
  | .advance _ _ => True

structure WorkerState.Apart (state : WorkerState) : Prop where
  capacity : state.table.capacity = htCapacity
  proper : ∀ worker, (state.phase worker).Proper
  apart : ∀ worker other request request', worker ≠ other →
    (state.phase worker).current = some request →
    (state.phase other).current = some request' →
      ¬ request.MeetsRemoval request'
  held : ∀ worker request p, (state.phase worker).current = some request →
    (state.phase worker).pointer = some p →
      p ∈ state.table.bucketItems request.bucket

variable {ht after : HashTable} {worker other : WorkerId} {stale : HashItem}
variable {before next phase : Phase} {state : WorkerState} {p : Ptr}
variable {request : Request}

theorem Phase.current_of_pointer (points : phase.pointer = some p) :
    ∃ request, phase.current = some request := by
  cases phase <;> cases points <;> exact ⟨_, rfl⟩

theorem Phase.Proper.not_del_of_pointer (proper : phase.Proper)
    (current : phase.current = some request)
    (points : phase.pointer = some p) : request.method ≠ .del := by
  cases phase <;> cases points <;> cases current <;>
    simp only [Proper] at proper <;> simp [proper]

theorem Phase.Proper.of_removing (proper : phase.Proper)
    (removes : phase.removing = some p) :
    ∃ request, phase.current = some request ∧ request.method = .del ∧
      phase.doomed = some (request.keyMemory, p) := by
  cases phase <;> cases removes
  exact ⟨_, rfl, proper, rfl⟩

theorem Advances.pointer_mem
    (advances : Advances ht worker stale before after next)
    (linked : Linked ht ht.bucketItems) (capacity : ht.capacity = htCapacity)
    (held : ∀ request p, before.current = some request →
      before.pointer = some p → p ∈ ht.bucketItems request.bucket)
    (current : next.current = some request) (points : next.pointer = some p) :
    p ∈ after.bucketItems request.bucket := by
  rw [← getBucket_of_capacity capacity]
  cases advances with
  | setFound found | getFound found =>
      cases points
      cases current
      exact linked.mem_of_search found
  | setInsert =>
      cases points
      cases current
      rw [(linked.insertEntry (linked.getBucket_lt _)).bucketItems_eq,
        Function.update_self]
      exact List.mem_cons_self
  | setUnlockBucket | getCopy =>
      cases points
      cases current
      rw [getBucket_of_capacity capacity]
      exact held _ _ rfl rfl
  | setLocked | getLocked =>
      cases points
      cases current
      rw [linked.bucketItems_setRwlock, getBucket_of_capacity capacity]
      exact held _ _ rfl rfl
  | setStore =>
      cases points
      cases current
      rw [linked.bucketItems_storeValue, getBucket_of_capacity capacity]
      exact held _ _ rfl rfl
  | _ => cases points

namespace WorkerState

theorem apart_initial : WorkerState.initial.Apart where
  capacity := rfl
  proper _ := trivial
  apart _ _ _ _ _ current := by cases current
  held _ _ _ current := by cases current

theorem Apart.start (apart : state.Apart)
    (first : Phase.first request = some phase)
    (alone : ∀ other current,
      (state.phase other).current = some current →
        ¬ request.MeetsRemoval current) :
    Apart { state with
      phase := Function.update state.phase worker phase } where
  capacity := apart.capacity
  proper := (Function.forall_update_iff _ fun _ (phase : Phase) =>
    phase.Proper).mpr
      ⟨Phase.proper_first first, fun other _ => apart.proper other⟩
  apart one two request₁ request₂ distinct inProgress inProgress' := by
    have own := Phase.current_of_first first
    simp only [Function.update_apply] at inProgress inProgress'
    split at inProgress <;> split at inProgress'
    case isTrue.isTrue same same' =>
      exact absurd (same.trans same'.symm) distinct
    case isTrue.isFalse =>
      obtain rfl := Option.some.inj (own.symm.trans inProgress)
      exact alone two _ inProgress'
    case isFalse.isTrue =>
      obtain rfl := Option.some.inj (own.symm.trans inProgress')
      exact fun meets => alone one _ inProgress meets.symm
    case isFalse.isFalse =>
      exact apart.apart one two _ _ distinct inProgress inProgress'
  held := (Function.forall_update_iff _ fun _ (phase : Phase) =>
    ∀ request p, phase.current = some request → phase.pointer = some p →
      p ∈ state.table.bucketItems request.bucket).mpr
        ⟨fun _ _ _ points => (by
          rcases Phase.first_eq first with rfl | rfl | rfl <;> cases points),
        fun other _ => apart.held other⟩

theorem Apart.advance (apart : state.Apart) (sound : state.Sound)
    {table : HashTable} {stores : List (Bytes × Bytes)}
    (advances : Advances state.table worker stale (state.phase worker) table
      next) :
    Apart
      { table := table
        phase := Function.update state.phase worker next
        stores := stores } where
  capacity := advances.capacity.trans apart.capacity
  proper := (Function.forall_update_iff _ fun _ (phase : Phase) =>
    phase.Proper).mpr ⟨(apart.proper worker).advances advances,
      fun other _ => apart.proper other⟩
  apart one two request₁ request₂ distinct inProgress inProgress' := by
    have earlier (other : WorkerId) (request : Request)
        (now : (Function.update state.phase worker next other).current =
          some request) : (state.phase other).current = some request := by
      rw [Function.update_apply] at now
      split at now
      case isTrue same =>
        subst same
        rcases advances.current with ended | same
        · cases ended.symm.trans now
        · exact same.symm.trans now
      case isFalse => exact now
    exact apart.apart one two _ _ distinct (earlier one _ inProgress)
      (earlier two _ inProgress')
  held := by
    refine (Function.forall_update_iff _ fun _ (phase : Phase) =>
      ∀ request p, phase.current = some request → phase.pointer = some p →
        p ∈ table.bucketItems request.bucket).mpr ⟨fun request p =>
          advances.pointer_mem sound.linked apart.capacity
            (apart.held worker),
        fun other distinct request p current points => ?_⟩
    have member := apart.held other request p current points
    refine advances.mem_bucketItems sound.linked (sound.doomed worker)
      (fun removes => ?_) member
    -- the worker is a DEL of the same bucket
    obtain ⟨removal, inProgress, deletes, doomed⟩ :=
      (apart.proper worker).of_removing removes
    have target := sound.doomed worker _ p doomed
    rw [getBucket_of_capacity apart.capacity] at target
    exact apart.apart worker other _ _ distinct.symm inProgress current
      ⟨sound.linked.separate _ _ p target member, .inl ⟨deletes,
        (apart.proper other).not_del_of_pointer current points⟩⟩

theorem apart_of_reached (reached : workers.GuardedReach RemovalsApart state) :
    state.Apart :=
  reached.invariant_with (fun _ => sound_of_reachable)
    (fun _ initial => initial ▸ apart_initial)
    fun _ _ _ sound apart guarded stepTo => by
      rcases workers_step_cases stepTo with
        ⟨worker, request, phase, rfl, -, first, rfl⟩ |
        ⟨worker, stale, table, next, rfl, advances, rfl⟩
      · exact apart.start first guarded
      · exact apart.advance sound advances

end WorkerState

/-- In runs without a DEL in the company of a SET or GET of its bucket, no SET
or GET points to an item that has been removed. -/
theorem noRemovedItem_of_removalsApart
    (reached : workers.GuardedReach RemovalsApart state) :
    NoRemovedItem state := by
  have apart := WorkerState.apart_of_reached reached
  have sound := sound_of_reachable reached.reachable
  intro worker p points
  obtain ⟨request, current⟩ := Phase.current_of_pointer points
  have member := apart.held worker request p current points
  obtain ⟨item, read⟩ := sound.linked.read_of_mem member
  exact ⟨⟨_, member⟩, fun freed => by simp [freed.2] at read⟩

/-- The request that a step takes up, if any, is no DEL. -/
def WorkerLabel.NotDel : WorkerLabel → Prop
  | .start _ request => request.method ≠ .del
  | .advance _ _ => True

instance (label : WorkerLabel) : Decidable label.NotDel :=
  match label with
  | .start _ _ => inferInstanceAs (Decidable (_ ≠ _))
  | .advance _ _ => isTrue trivial

theorem runGuarded_of_notDel {labels : List WorkerLabel}
    (none : ∀ label ∈ labels, label.NotDel) :
    workers.RunGuarded RemovalsApart .initial labels := by
  refine TransitionSystem.RunGuarded.of_invariant
    (?_ : ∀ (state : WorkerState) label, (∀ worker request,
      (state.phase worker).current = some request → request.method ≠ .del) →
        _ → _) ?_ (fun _ _ current => by cases current)
    (TransitionSystem.runGuarded_of_forall
      (fun label member _ => none label member) _)
  · intro state label noDel notDel
    cases label with
    | advance => trivial
    | start worker request =>
        rintro other current inProgress ⟨-, ⟨deletes, -⟩ | ⟨-, deletes⟩⟩
        · exact notDel deletes
        · exact noDel other current inProgress deletes
  · intro before label after noDel notDel stepTo
    rcases workers_step_cases stepTo with
      ⟨worker, request, phase, rfl, -, first, rfl⟩ |
      ⟨worker, stale, table, next, rfl, advances, rfl⟩
    · refine (Function.forall_update_iff _ fun _ (phase : Phase) =>
        ∀ request, phase.current = some request → request.method ≠ .del).mpr
          ⟨fun other current => ?_, fun other _ => noDel other⟩
      rw [Phase.current_of_first first] at current
      exact Option.some.inj current ▸ notDel
    · refine (Function.forall_update_iff _ fun _ (phase : Phase) =>
        ∀ request, phase.current = some request → request.method ≠ .del).mpr
          ⟨fun request current => ?_, fun other _ => noDel other⟩
      rcases advances.current with ended | same
      · cases ended.symm.trans current
      · exact noDel worker request (same.symm.trans current)

end RdmaKVStore
