import RdmaKVStore.ResponseRoutes
import RdmaKVStore.SlotReads

/-!
# Accesses driven by client fields

The workers of a UD server on one table, with every copy whose length and every
index that a client's bytes decide.  The lengths of a SET are used at once and,
through the size it stores, by later GETs; the client ids index the tables of
routes.  The slot of a request may be overwritten while it is executed, so that
`set_request` may store another length than it has copied.  A RST replaces the
table in one step.
-/

namespace RdmaKVStore

open LinkedChain HashTable

/-- An access that depends on what clients sent: the copies of `set_request`,
`get_key_entry` and `get_request` with their lengths, the size that a SET
stores for later copies, and the indices into `remote_dgram_qp_attrs` and
`ah`. -/
inductive ClientAccess
  | copyMsg (length : UInt64)
  | valueSize (size : UInt64)
  | copyKey (length : UInt64)
  | copyValue (length : UInt64)
  | remoteDgramQpAttrs (index : Int)
  | ah (index : Int)
  deriving DecidableEq

/-- The copy fits the arrays between which it goes, the size of the key block
does not wrap, or the index is one of the table. -/
def ClientAccess.InBounds : ClientAccess → Prop
  | .copyMsg length | .valueSize length | .copyValue length =>
      length.toNat ≤ msgSize
  | .copyKey length =>
      length.toNat ≤ keySize ∧ (length + 1).toNat = length.toNat + 1
  | .remoteDgramQpAttrs index | .ah index => 0 ≤ index ∧ index < maxClients

def SlotPhase.accesses (ht : HashTable) (slot : Request) (stale : HashItem) :
    SlotPhase → List ClientAccess
  | .setInsert _ keyLen _ => [.copyKey keyLen]
  | .setStore expectedLen _ =>
      [.copyMsg slot.msgLen, .valueSize expectedLen]
  | .getCopy p => [.copyValue (ht.readItem p stale).valueSize]
  | _ => []

/-- What `ud_accept_new_connection` accesses. -/
def UdServerInfo.acceptAccesses {Handle : Type*} (info : UdServerInfo Handle)
    (calls : AcceptCalls) : List ClientAccess :=
  if calls.connected then
    [.remoteDgramQpAttrs info.clientCounter,
      .ah (info.nextAttrs calls.attrs).clientId.toInt]
  else []

/-- The table, each worker with the slot that its request pointer leads to and
the client that it answers, the routes, and the accesses so far. -/
structure UdServerState (Handle : Type*) where
  table : HashTable
  phase : WorkerId → SlotPhase
  slot : WorkerId → Request
  clientHandling : WorkerId → Int32
  info : UdServerInfo Handle
  accesses : List ClientAccess

/-- A client connects, a worker receives a request with any contents, the
adapter writes any other contents to the slot of a worker, or a worker advances
in its request or sends its response. -/
inductive UdServerLabel
  | accept (calls : AcceptCalls)
  | receive (worker : WorkerId) (request : Request)
  | overwrite (worker : WorkerId) (message : Request)
  | advance (worker : WorkerId) (stale : HashItem)
  | send (worker : WorkerId)

namespace UdServerState

variable {Handle : Type*}

def initial : UdServerState Handle where
  table := HashTable.empty
  phase _ := .finished
  slot _ := .zero
  clientHandling _ := 0
  info := .initial
  accesses := []

def stepAccesses (state : UdServerState Handle) :
    UdServerLabel → List ClientAccess
  | .accept calls => state.info.acceptAccesses calls
  | .receive _ _ | .overwrite _ _ => []
  | .advance worker stale =>
      (state.phase worker).accesses state.table (state.slot worker) stale
  | .send worker =>
      [.ah (state.clientHandling worker).toInt,
        .remoteDgramQpAttrs (state.clientHandling worker).toInt]

def stepServer (createAh : AhAttr → Option Handle)
    (state : UdServerState Handle) :
    UdServerLabel → Option (UdServerState Handle)
  | .accept calls =>
      some { state with
        info := (state.info.udAcceptNewConnection createAh calls).2 }
  | .receive worker request =>
      if state.phase worker = .finished then
        some { state with
          phase := Function.update state.phase worker .dispatch
          slot := Function.update state.slot worker request
          clientHandling := Function.update state.clientHandling worker
            request.clientId }
      else none
  | .overwrite worker message =>
      some { state with slot := Function.update state.slot worker message }
  | .advance worker stale =>
      ((state.phase worker).step state.table worker (state.slot worker)
        stale).map fun (table, phase) =>
          { state with
            table := table
            phase := Function.update state.phase worker phase }
  | .send worker =>
      if state.phase worker = .finished then some state else none

end UdServerState

/-- A UD server with any number of workers and clients. -/
def udServer {Handle : Type*} (createAh : AhAttr → Option Handle) :
    TransitionSystem (UdServerState Handle) UdServerLabel where
  initial state := state = .initial
  step state label := (state.stepServer createAh label).map fun after =>
    { after with accesses := state.accesses ++ state.stepAccesses label }

/-- Every access so far was in bounds, and so are the sizes of all items. -/
structure AccessesInBounds {Handle : Type*} (state : UdServerState Handle) :
    Prop where
  access : ∀ access ∈ state.accesses, access.InBounds
  size : ∀ p item, state.table.heap p = some item →
    item.valueSize.toNat ≤ msgSize

/-- A SET that is about to store has read a length within its message and finds
another such one, a SET that is about to add an item has a key length within
its key, and a GET that is about to copy from freed memory finds a size there
that fits. -/
def SlotPhase.LengthsFit (ht : HashTable) (slot : Request) (stale : HashItem) :
    SlotPhase → Prop
  | .setInsert _ keyLen _ => keyLen.toNat ≤ keySize
  | .setStore expectedLen _ =>
      slot.msgLen.toNat ≤ msgSize ∧ expectedLen.toNat ≤ msgSize
  | .getCopy p => (ht.heap p).isNone = true → stale.valueSize.toNat ≤ msgSize
  | _ => True

/-- The lengths that a worker is about to use fit; a client connects while the
tables have room, with an id among theirs; and the client that is answered has
such an id. -/
def FieldsFit {Handle : Type*} (state : UdServerState Handle) :
    UdServerLabel → Prop
  | .accept calls => calls.connected = true →
      state.info.clientCounter < maxClients ∧
        0 ≤ (state.info.nextAttrs calls.attrs).clientId.toInt ∧
        (state.info.nextAttrs calls.attrs).clientId.toInt < maxClients
  | .receive _ _ | .overwrite _ _ => True
  | .advance worker stale => (state.phase worker).LengthsFit state.table
      (state.slot worker) stale
  | .send worker => 0 ≤ (state.clientHandling worker).toInt ∧
      (state.clientHandling worker).toInt < maxClients

instance (ht : HashTable) (slot : Request) (stale : HashItem)
    (phase : SlotPhase) : Decidable (phase.LengthsFit ht slot stale) :=
  match phase with
  | .setInsert _ keyLen _ => inferInstanceAs
      (Decidable (keyLen.toNat ≤ keySize))
  | .setStore expectedLen _ => inferInstanceAs (Decidable
      (slot.msgLen.toNat ≤ msgSize ∧ expectedLen.toNat ≤ msgSize))
  | .getCopy p => inferInstanceAs (Decidable
      ((ht.heap p).isNone = true → stale.valueSize.toNat ≤ msgSize))
  | .dispatch | .setExpectedLen | .setGetKeyEntry _ | .setLockBucket _ _ _
  | .setSearch _ _ _ | .setUnlockBucket _ _ _ | .setTrywrlock _ _
  | .setUnlock _ | .getSearch | .getTryrdlock _ | .getUnlock _
  | .delRemoveItem | .delLockBucket _ _ | .delSearch _ _
  | .delTrywrlock _ _ | .delFailUnlock _ _ | .delUnlink _ _
  | .delUnlockBucket _ | .finished => isTrue trivial

instance {Handle : Type*} (state : UdServerState Handle)
    (label : UdServerLabel) : Decidable (FieldsFit state label) :=
  match label with
  | .accept calls => inferInstanceAs (Decidable (calls.connected = true →
      state.info.clientCounter < maxClients ∧
        0 ≤ (state.info.nextAttrs calls.attrs).clientId.toInt ∧
        (state.info.nextAttrs calls.attrs).clientId.toInt < maxClients))
  | .advance worker stale => inferInstanceAs (Decidable
      ((state.phase worker).LengthsFit state.table (state.slot worker) stale))
  | .send worker => inferInstanceAs (Decidable
      (0 ≤ (state.clientHandling worker).toInt ∧
        (state.clientHandling worker).toInt < maxClients))
  | .receive _ _ | .overwrite _ _ => isTrue trivial

namespace HashTable

def sizeAt (ht : HashTable) (p : Ptr) : Option UInt64 :=
  (ht.heap p).map HashItem.valueSize

def SizesFit (ht : HashTable) : Prop :=
  ∀ p size, ht.sizeAt p = some size → size.toNat ≤ msgSize

theorem sizeAt_of_data {ht after : HashTable} {p : Ptr}
    (same : (after.heap p).map HashItem.data =
      (ht.heap p).map HashItem.data) : after.sizeAt p = ht.sizeAt p := by
  have sizes := congrArg (Option.map fun data => data.2.2.1) same
  simp only [Option.map_map] at sizes
  exact sizes

theorem sizeAt_writeItem {ht : HashTable} {p q : Ptr}
    {write : HashItem → HashItem}
    (keeps : ∀ item, (write item).valueSize = item.valueSize) :
    (ht.writeItem p write).sizeAt q = ht.sizeAt q := by
  rw [sizeAt, writeItem_heap, modifyAt_map keeps, sizeAt]

end HashTable

/-- A step leaves the size of an item alone, frees the item, allocates it with
size 0, or stores the length that a SET has read. -/
theorem SlotPhase.sizeAt_step {ht after : HashTable} {worker : WorkerId}
    {slot : Request} {stale : HashItem} {before next : SlotPhase}
    (stepped : before.step ht worker slot stale = some (after, next))
    (q : Ptr) :
    after.sizeAt q = ht.sizeAt q ∨ after.sizeAt q = none ∨
      after.sizeAt q = some 0 ∨ ∃ expectedLen p,
        before = .setStore expectedLen p ∧
          after.sizeAt q = some expectedLen := by
  cases before with
  | finished => cases stepped
  | dispatch =>
      simp only [SlotPhase.step] at stepped
      split at stepped <;> cases stepped <;> exact .inl rfl
  | setLockBucket | delLockBucket =>
      obtain ⟨table, locked, same⟩ := Option.map_eq_some_iff.mp stepped
      obtain ⟨-, rfl⟩ := lockBucket_eq_some locked
      cases same
      exact .inl rfl
  | setSearch | getSearch | delSearch =>
      obtain ⟨entry, -, same⟩ := Option.map_eq_some_iff.mp stepped
      cases entry <;> cases same <;> exact .inl rfl
  | setInsert =>
      cases stepped
      by_cases same : q = ht.fresh
      · refine .inr (.inr (.inl ?_))
        rw [same, sizeAt, insertEntry_read_fresh]
        rfl
      · exact .inl (sizeAt_of_data (insertEntry_data same))
  | setTrywrlock | getTryrdlock | delTrywrlock =>
      simp only [SlotPhase.step] at stepped
      split at stepped <;> cases stepped
      · exact .inl rfl
      · exact .inl (sizeAt_writeItem fun _ => rfl)
  | setStore expectedLen p =>
      cases stepped
      by_cases same : q = p
      · subst same
        cases read : ht.heap q with
        | none =>
            refine .inr (.inl ?_)
            simp [sizeAt, storeMessage, read]
        | some item =>
            refine .inr (.inr (.inr ⟨expectedLen, q, rfl, ?_⟩))
            simp [sizeAt, storeMessage, read]
      · refine .inl (sizeAt_of_data ?_)
        rw [storeMessage, writeItem_heap,
          modifyAt_of_ne fun equal => same (Option.some.inj equal).symm]
  | setUnlock | getUnlock | delFailUnlock =>
      cases stepped
      exact .inl (sizeAt_writeItem fun _ => rfl)
  | delUnlink bucket p =>
      cases stepped
      by_cases same : q = p
      · refine .inr (.inl ?_)
        rw [same, sizeAt, unlinkItem_read_self]
        rfl
      · exact .inl (sizeAt_of_data (unlinkItem_data same))
  | setExpectedLen | setGetKeyEntry | setUnlockBucket | getCopy
  | delRemoveItem | delUnlockBucket =>
      cases stepped
      exact .inl rfl

theorem HashTable.SizesFit.step {ht after : HashTable} {worker : WorkerId}
    {slot : Request} {stale : HashItem} {before next : SlotPhase}
    (fit : ht.SizesFit) (lengths : before.LengthsFit ht slot stale)
    (stepped : before.step ht worker slot stale = some (after, next)) :
    after.SizesFit := by
  intro q size stored
  rcases SlotPhase.sizeAt_step stepped q with same | freed | fresh |
    ⟨expectedLen, p, rfl, set⟩
  · exact fit q size (same ▸ stored)
  · rw [freed] at stored
    cases stored
  · obtain rfl := Option.some.inj (fresh.symm.trans stored)
    exact Nat.zero_le _
  · obtain rfl := Option.some.inj (set.symm.trans stored)
    exact lengths.2

/-- While all stored sizes fit, what a worker accesses next is in bounds exactly
if its lengths fit: only the copy of a GET depends on an earlier SET. -/
theorem HashTable.SizesFit.accesses_iff {ht : HashTable} {slot : Request}
    {stale : HashItem} (fit : ht.SizesFit) (phase : SlotPhase) :
    (∀ access ∈ phase.accesses ht slot stale, access.InBounds) ↔
      phase.LengthsFit ht slot stale := by
  cases phase with
  | setInsert expectedLen keyLen bucket =>
      simp only [SlotPhase.accesses, SlotPhase.LengthsFit,
        List.forall_mem_singleton]
      refine ⟨And.left, fun short => ⟨short, ?_⟩⟩
      rw [keySize] at short
      simp [UInt64.toNat_add]
      omega
  | setStore expectedLen p =>
      simp [SlotPhase.accesses, SlotPhase.LengthsFit, ClientAccess.InBounds]
  | getCopy p =>
      simp only [SlotPhase.accesses, SlotPhase.LengthsFit,
        List.forall_mem_singleton, ClientAccess.InBounds, readItem]
      cases read : ht.heap p with
      | none => simp
      | some item =>
          have fits := fit p item.valueSize (by simp [sizeAt, read])
          simpa using fits
  | _ => simp [SlotPhase.accesses, SlotPhase.LengthsFit]

namespace UdServerState

variable {Handle : Type*} {createAh : AhAttr → Option Handle}
variable {state after : UdServerState Handle} {label : UdServerLabel}

theorem stepAccesses_iff (fit : state.table.SizesFit) :
    (∀ access ∈ state.stepAccesses label, access.InBounds) ↔
      FieldsFit state label := by
  cases label with
  | accept calls =>
      by_cases connected : calls.connected = true
      · simp [stepAccesses, UdServerInfo.acceptAccesses, FieldsFit, connected,
          ClientAccess.InBounds]
      · simp [stepAccesses, UdServerInfo.acceptAccesses, FieldsFit, connected]
  | receive | overwrite => simp [stepAccesses, FieldsFit]
  | advance worker stale => exact fit.accesses_iff _
  | send worker =>
      simp [stepAccesses, FieldsFit, ClientAccess.InBounds]

theorem sizesFit_step (fit : state.table.SizesFit)
    (guarded : FieldsFit state label)
    (stepTo : (udServer createAh).step state label = some after) :
    after.table.SizesFit := by
  obtain ⟨middle, served, rfl⟩ := Option.map_eq_some_iff.mp stepTo
  cases label with
  | accept | overwrite =>
      cases served
      exact fit
  | receive | send =>
      obtain ⟨-, same⟩ := Option.ite_none_right_eq_some.mp served
      cases same
      exact fit
  | advance worker stale =>
      obtain ⟨⟨table, next⟩, stepped, rfl⟩ :=
        Option.map_eq_some_iff.mp served
      exact fit.step guarded stepped

theorem sizesFit_initial :
    (.initial : UdServerState Handle).table.SizesFit := by
  intro p size stored
  cases stored

theorem accesses_step (before : UdServerState Handle)
    (label : UdServerLabel) (after : UdServerState Handle)
    (stepTo : (udServer createAh).step before label = some after) :
    after.accesses = before.accesses ++ before.stepAccesses label := by
  obtain ⟨middle, -, rfl⟩ := Option.map_eq_some_iff.mp stepTo
  rfl

theorem accessesInBounds_iff (fit : state.table.SizesFit) :
    AccessesInBounds state ↔
      ∀ access ∈ state.accesses, access.InBounds := by
  refine ⟨AccessesInBounds.access, fun bounds => ⟨bounds, ?_⟩⟩
  intro p item read
  exact fit p item.valueSize (by rw [sizeAt, read, Option.map_some])

end UdServerState

/-! ### Slots that are left alone -/

/-- The server reaches a state with these slots, phases and table. -/
def SlotsReach {Handle : Type*} (createAh : AhAttr → Option Handle)
    (slot : WorkerId → Request) (phase : WorkerId → SlotPhase)
    (table : HashTable) : Prop :=
  ∃ state, (udServer createAh).Reachable state ∧ state.slot = slot ∧
    state.phase = phase ∧ state.table = table

namespace SlotsReach

variable {Handle : Type*} {createAh : AhAttr → Option Handle}
variable {slot : WorkerId → Request} {phase : WorkerId → SlotPhase}
variable {table after : HashTable} {worker : WorkerId} {next : SlotPhase}

theorem receive (reached : SlotsReach createAh slot phase table)
    (request : Request) (finished : phase worker = .finished) :
    SlotsReach createAh (Function.update slot worker request)
      (Function.update phase worker .dispatch) table := by
  obtain ⟨state, reached, rfl, rfl, rfl⟩ := reached
  have stepTo : (udServer createAh).step state (.receive worker request) =
      some { state with
        phase := Function.update state.phase worker .dispatch
        slot := Function.update state.slot worker request
        clientHandling := Function.update state.clientHandling worker
          request.clientId
        accesses := state.accesses ++ [] } := by
    simp [udServer, UdServerState.stepServer, finished,
      UdServerState.stepAccesses]
  exact ⟨_, reached.next trivial stepTo, rfl, rfl, rfl⟩

theorem advance (reached : SlotsReach createAh slot phase table)
    (stale : HashItem)
    (stepped : (phase worker).step table worker (slot worker) stale =
      some (after, next)) :
    SlotsReach createAh slot (Function.update phase worker next) after := by
  obtain ⟨state, reached, rfl, rfl, rfl⟩ := reached
  have stepTo : (udServer createAh).step state (.advance worker stale) =
      some { state with
        table := after
        phase := Function.update state.phase worker next
        accesses :=
          state.accesses ++ state.stepAccesses (.advance worker stale) } := by
    simp [udServer, UdServerState.stepServer, stepped]
  exact ⟨_, reached.next trivial stepTo, rfl, rfl, rfl⟩

/-- One more step of the worker that has just moved. -/
theorem again {before : SlotPhase} (stale : HashItem)
    (reached : SlotsReach createAh slot (Function.update phase worker before)
      table)
    (stepped : before.step table worker (slot worker) stale =
      some (after, next)) :
    SlotsReach createAh slot (Function.update phase worker next) after := by
  have here : (Function.update phase worker before worker).step table worker
      (slot worker) stale = some (after, next) := by
    rwa [Function.update_self]
  have moved := reached.advance stale here
  rwa [Function.update_idem] at moved

/-- A request that is in the slot is taken up as in `WorkerSteps`. -/
theorem first {request : Request} {start : Phase}
    (reached : SlotsReach createAh slot
      (Function.update phase worker .dispatch) table)
    (here : slot worker = request)
    (first : Phase.first request = some start) :
    SlotsReach createAh slot
      (Function.update phase worker (start.slotPhase table)) table := by
  subst here
  unfold Phase.first at first
  split at first
  case h_1 set =>
    cases first
    exact ((reached.again .zero (by simp only [SlotPhase.step, set]; rfl)).again
      .zero rfl).again .zero rfl
  case h_2 get =>
    cases first
    exact reached.again .zero (by simp only [SlotPhase.step, get]; rfl)
  case h_3 del =>
    cases first
    exact (reached.again .zero (by simp only [SlotPhase.step, del]; rfl)).again
      .zero rfl
  case h_4 => cases first

end SlotsReach

/-- The workers of `WorkerSteps` are those of a server whose slots are left
alone: each state that they reach is one that the server reaches. -/
theorem slotsReach_of_workers {Handle : Type*}
    {createAh : AhAttr → Option Handle} {work : WorkerState}
    (reached : workers.Reachable work) :
    ∃ slot : WorkerId → Request,
      (∀ worker request, (work.phase worker).current = some request →
        slot worker = request) ∧
      SlotsReach createAh slot (Phase.slotPhase work.table ∘ work.phase)
        work.table := by
  induction reached with
  | start initial =>
      subst initial
      exact ⟨fun _ => .zero, fun _ _ => nofun, .initial, .start rfl, rfl,
        rfl, rfl⟩
  | @next before after label _ _ stepTo ih =>
      obtain ⟨slot, kept, reached⟩ := ih
      rcases workers_step_cases stepTo with
        ⟨worker, request, phase, -, finished, first, rfl⟩ |
        ⟨worker, stale, table, next, -, advances, rfl⟩
      · refine ⟨Function.update slot worker request, ?_, ?_⟩
        · intro other current
          simp only [Function.update_apply]
          split
          case isTrue =>
            intro taken
            exact Option.some.inj
              ((Phase.current_of_first first).symm.trans taken)
          case isFalse => exact kept other current
        · have received := reached.receive request
            (Phase.slotPhase_of_finished finished)
          have started := received.first (Function.update_self ..) first
          rwa [← Function.comp_update] at started
      · obtain ⟨request, current⟩ := advances.exists_current
        have here : (before.phase worker).current = some (slot worker) := by
          rw [kept worker request current, current]
        refine ⟨slot, fun other request now => ?_, ?_⟩
        · simp only [Function.update_apply] at now
          split at now
          case isTrue same =>
            subst same
            rcases advances.current with ended | same
            · cases ended.symm.trans now
            · exact kept other request (same.symm.trans now)
          case isFalse => exact kept other request now
        · have moved : SlotsReach createAh slot
              (Function.update (Phase.slotPhase before.table ∘ before.phase)
                worker (next.slotPhase before.table)) table := by
            rcases advances.slotSteps here with once | ⟨middle, one, two⟩
            · exact reached.advance stale once
            · exact (reached.advance stale one).again stale two
          rw [← Function.comp_update] at moved
          rwa [Phase.slotPhase_congr advances.getBucket]

/-- In every run of a UD server, whatever its clients send, all accesses are in
bounds and all stored sizes fit if and only if the fields do at each step. -/
theorem accessesInBounds_iff_fieldsFit {Handle : Type*}
    {createAh : AhAttr → Option Handle} {labels : List UdServerLabel}
    {state : UdServerState Handle}
    (runTo : (udServer createAh).run .initial labels = some state) :
    AccessesInBounds state ↔
      (udServer createAh).RunGuarded FieldsFit .initial labels := by
  have preserved : ∀ before label after,
      before.table.SizesFit → FieldsFit before label →
        (udServer createAh).step before label = some after →
          after.table.SizesFit := fun _ _ _ fit guarded stepTo =>
    UdServerState.sizesFit_step fit guarded stepTo
  have accurate : ∀ (before : UdServerState Handle) label,
      before.table.SizesFit →
        ((∀ access ∈ before.stepAccesses label, access.InBounds) ↔
          FieldsFit before label) :=
    fun _ _ fit => UdServerState.stepAccesses_iff fit
  have exactly : (∀ access ∈ state.accesses, access.InBounds) ↔
      (∀ access ∈ (.initial : UdServerState Handle).accesses,
        access.InBounds) ∧
        (udServer createAh).RunGuarded FieldsFit .initial labels :=
    TransitionSystem.log_good_iff_runGuarded UdServerState.accesses_step
      accurate preserved UdServerState.sizesFit_initial runTo
  constructor
  · intro bounds
    exact (exactly.mp bounds.access).2
  · intro guarded
    have fit : state.table.SizesFit :=
      (TransitionSystem.guardedReach_of_run (.start rfl) guarded
        runTo).invariant (fun _ initial =>
          initial ▸ UdServerState.sizesFit_initial) preserved
    refine (UdServerState.accessesInBounds_iff fit).mpr (exactly.mpr
      ⟨fun access member => ?_, guarded⟩)
    cases member

/-- A client connects and stores a value of the given length, where the slot
says another one when the value is copied, and gets it. -/
def storingLabels (msgLen copied : UInt64) : List UdServerLabel :=
  [[.accept (.success QpAttr.zero),
      .receive 0 { Request.make .set [97] [1] with msgLen := msgLen }],
    List.replicate 8 (.advance 0 .zero),
    [.overwrite 0 { Request.make .set [97] [1] with msgLen := copied }],
    List.replicate 2 (.advance 0 .zero),
    [.send 0, .receive 1 (.make .get [97] [])],
    List.replicate 5 (.advance 1 .zero), [.send 1]].flatten

theorem accessesInBounds_after_storingLabels :
    ∃ state : UdServerState AhAttr,
      (udServer some).run .initial (storingLabels 256 1) = some state ∧
        .copyValue 256 ∈ state.accesses ∧ AccessesInBounds state := by
  obtain ⟨state, runTo, copied⟩ := Option.map_eq_some_iff.mp
    (show ((udServer some).run (.initial : UdServerState AhAttr)
        (storingLabels 256 1)).map (fun state =>
          decide (.copyValue 256 ∈ state.accesses)) = some true
            by decide +kernel)
  exact ⟨state, runTo, of_decide_eq_true copied,
    (accessesInBounds_iff_fieldsFit runTo).mpr (by decide +kernel)⟩

/-- A SET that announces 257 bytes makes a later GET write beyond the
message. -/
theorem long_set_overruns :
    ∃ state : UdServerState AhAttr,
      (udServer some).Reachable state ∧
        .copyMsg 257 ∈ state.accesses ∧ .copyValue 257 ∈ state.accesses ∧
        ¬ AccessesInBounds state := by
  obtain ⟨state, runTo, copied⟩ := Option.map_eq_some_iff.mp
    (show ((udServer some).run (.initial : UdServerState AhAttr)
        (storingLabels 257 257)).map (fun state =>
          decide (.copyMsg 257 ∈ state.accesses ∧
            .copyValue 257 ∈ state.accesses)) = some true by decide +kernel)
  obtain ⟨msg, value⟩ := of_decide_eq_true copied
  refine ⟨state, TransitionSystem.reachable_of_run (.start rfl) runTo, msg,
    value, fun bounds => ?_⟩
  exact absurd (bounds.access _ msg) (by decide : ¬ 257 ≤ 256)

end RdmaKVStore
