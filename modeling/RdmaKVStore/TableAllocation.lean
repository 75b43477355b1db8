import RdmaKVStore.HashTable

/-!
# Allocation of the table

`init_hashtable` with its blocks: the table structure, the array of bucket
heads and the array of mutexes, each of which may fail to be allocated.  A
result `none` stands for an access through the null pointer, or a use or second
`free` of a block that is not live.  The server initialises the table at its
start and again for every RST request.
-/

namespace RdmaKVStore

abbrev BlockId := Nat

/-- The fields of `hashtable_t`. -/
structure TableFields where
  capacity : Nat
  items : Option BlockId
  locks : Option BlockId
  deriving DecidableEq

/-- A live block: the table structure, or one of its arrays with a number of
entries. -/
inductive TableBlock
  | table (fields : TableFields)
  | items (entries : Nat)
  | locks (entries : Nat)
  deriving DecidableEq

/-- The live blocks, the next one to be allocated, and the global `ht`. -/
structure TableMemory where
  blocks : BlockId → Option TableBlock
  fresh : BlockId
  ht : Option BlockId

/-- Which of the three allocations of a call of `init_hashtable` succeed. -/
structure Allocations where
  table : Bool
  items : Bool
  locks : Bool
  deriving DecidableEq

namespace Allocations

def All (allocations : Allocations) : Prop :=
  allocations.table = true ∧ allocations.items = true ∧
    allocations.locks = true

instance (allocations : Allocations) : Decidable allocations.All :=
  inferInstanceAs (Decidable (_ ∧ _ ∧ _))

/-- What `init_hashtable` returns for a capacity other than 0. -/
def result (allocations : Allocations) : Int :=
  if allocations.table = false then -1
  else if allocations.items = false then -2
  else if allocations.locks = false then -3
  else 0

end Allocations

namespace TableMemory

/-- Memory before the first call: `ht` is null. -/
def initial : TableMemory where
  blocks _ := none
  fresh := 0
  ht := none

variable (memory : TableMemory)

/-- `free` of a pointer. -/
def free : Option BlockId → Option TableMemory
  | none => some memory
  | some p => (memory.blocks p).map fun _ =>
      { memory with blocks := Function.update memory.blocks p none }

/-- `calloc`, which returns the null pointer when it fails. -/
def calloc (succeeds : Bool) (block : TableBlock) :
    Option BlockId × TableMemory :=
  if succeeds then
    (some memory.fresh,
      { memory with
        blocks := Function.update memory.blocks memory.fresh (some block)
        fresh := memory.fresh + 1 })
  else (none, memory)

/-- A read through `ht`. -/
def readTable : Option TableFields :=
  memory.ht.bind fun p => (memory.blocks p).bind fun block =>
    match block with
    | .table fields => some fields
    | .items _ | .locks _ => none

/-- A write through `ht`. -/
def writeTable (write : TableFields → TableFields) : Option TableMemory :=
  memory.ht.bind fun p => memory.readTable.map fun fields =>
    { memory with
      blocks := Function.update memory.blocks p
        (some (.table (write fields))) }

/-- The teardown of the old table at the head of `init_hashtable`. -/
def tearDown : Option TableMemory := do
  let memory ← memory.free (← memory.readTable).items
  let memory ← memory.free (← memory.readTable).locks
  let memory ← memory.writeTable fun table => { table with capacity := 0 }
  memory.free memory.ht

/-- The rest of `init_hashtable`, with what it returns. -/
def build (allocations : Allocations) (capacity : Nat) :
    Option (TableMemory × Int) := do
  let (table, memory) :=
    memory.calloc allocations.table (.table ⟨0, none, none⟩)
  let memory := { memory with ht := table }
  if memory.ht = none ∧ capacity ≠ 0 then
    return (memory, -1)
  let (items, memory) := memory.calloc allocations.items (.items capacity)
  let memory ← memory.writeTable fun table => { table with items := items }
  if (← memory.readTable).items = none ∧ capacity ≠ 0 then
    let memory ← memory.free memory.ht
    return (memory, -2)
  let memory ← memory.writeTable fun table =>
    { table with capacity := capacity % 2 ^ 32 }
  let (locks, memory) := memory.calloc allocations.locks (.locks capacity)
  let memory ← memory.writeTable fun table => { table with locks := locks }
  if (← memory.readTable).locks = none ∧ capacity ≠ 0 then
    let memory ← memory.free (← memory.readTable).items
    let memory ← memory.writeTable fun table => { table with capacity := 0 }
    let memory ← memory.free memory.ht
    return (memory, -3)
  return (memory, 0)

/-- `init_hashtable` -/
def initHashtable (allocations : Allocations) (capacity : Nat) :
    Option (TableMemory × Int) := do
  let memory ← if memory.ht = none then some memory else memory.tearDown
  memory.build allocations capacity

/-- `ht` is null or a live table with two live arrays of its capacity. -/
def Sound (capacity : Nat) : Prop :=
  memory.ht = none ∨
    ∃ p items locks, memory.ht = some p ∧
      memory.blocks p =
        some (.table ⟨capacity, some items, some locks⟩) ∧
      memory.blocks items = some (.items capacity) ∧
      memory.blocks locks = some (.locks capacity)

variable {memory} {capacity : Nat} {allocations : Allocations}

/-- The teardown of a sound table goes through. -/
theorem Sound.tearDown (sound : memory.Sound capacity)
    (present : memory.ht ≠ none) : ∃ after, memory.tearDown = some after := by
  obtain ⟨p, items, locks, ht, table, itemsLive, locksLive⟩ :=
    sound.resolve_left present
  have itemsApart : p ≠ items := by
    rintro rfl
    cases table.symm.trans itemsLive
  have locksApart : p ≠ locks := by
    rintro rfl
    cases table.symm.trans locksLive
  have arraysApart : locks ≠ items := by
    rintro rfl
    cases itemsLive.symm.trans locksLive
  simp [TableMemory.tearDown, free, readTable, writeTable, ht, table,
    itemsLive, locksLive, itemsApart, locksApart, arraysApart]

theorem build_cases (memory : TableMemory) (allocations : Allocations)
    (positive : 0 < capacity) (fits : capacity < 2 ^ 32) :
    ∃ after, memory.build allocations capacity =
        some (after, allocations.result) ∧
      (after.Sound capacity ↔
        allocations.table = false ∨ allocations.All) := by
  have nonzero : capacity ≠ 0 := positive.ne'
  obtain ⟨table, items, locks⟩ := allocations
  cases table with
  | false => simp [build, calloc, nonzero, Allocations.result, Sound]
  | true =>
      cases items with
      | false =>
          simp [build, calloc, free, readTable, writeTable, nonzero,
            Allocations.result, Allocations.All, Sound]
      | true =>
          cases locks with
          | false =>
              simp [build, calloc, free, readTable, writeTable, nonzero,
                Allocations.result, Allocations.All, Sound]
          | true =>
              have kept : capacity % 4294967296 = capacity :=
                Nat.mod_eq_of_lt fits
              have apart (p : Nat) : p ≠ p + 1 + 1 := by omega
              simp [build, calloc, readTable, writeTable, nonzero,
                Allocations.result, Allocations.All, Sound, apart,
                (apart _).symm, kept]

/-- A call on a sound table touches live blocks only. -/
theorem Sound.initHashtable (sound : memory.Sound capacity)
    (allocations : Allocations) (positive : 0 < capacity)
    (fits : capacity < 2 ^ 32) :
    ∃ after, memory.initHashtable allocations capacity =
        some (after, allocations.result) ∧
      (after.Sound capacity ↔
        allocations.table = false ∨ allocations.All) := by
  by_cases absent : memory.ht = none
  · rw [TableMemory.initHashtable, if_pos absent]
    exact build_cases memory allocations positive fits
  · obtain ⟨cleared, tornDown⟩ := sound.tearDown absent
    rw [TableMemory.initHashtable, if_neg absent, tornDown]
    exact build_cases cleared allocations positive fits

end TableMemory

theorem Allocations.result_eq_zero_iff {allocations : Allocations} :
    allocations.result = 0 ↔ allocations.All := by
  obtain ⟨table, items, locks⟩ := allocations
  revert table items locks
  decide

theorem Allocations.result_neg {allocations : Allocations}
    (failed : ¬ allocations.All) : allocations.result < 0 := by
  obtain ⟨table, items, locks⟩ := allocations
  revert table items locks
  decide

/-- A call of `init_hashtable`: the memory it leaves and what it returns, or
`none` if it touches a block that is not live, and the response to the RST
request that has made it. -/
structure InitCall where
  result : Option (TableMemory × Int)
  answer : Option ResponseCode

/-- The call leaves no table or a live one, and its request is answered OK only
if it has succeeded. -/
def InitCall.Survived (capacity : Nat) (call : InitCall) : Prop :=
  ∃ after returned, call.result = some (after, returned) ∧
    after.Sound capacity ∧ (call.answer = some .ok → returned = 0)

/-- The calls that RST requests make; `main_job` answers OK in any case. -/
def resetCalls : TableMemory → List Allocations → List InitCall
  | _, [] => []
  | memory, allocations :: resets =>
      match memory.initHashtable allocations htCapacity with
      | none => [⟨none, none⟩]
      | some (after, returned) =>
          ⟨some (after, returned), some .ok⟩ :: resetCalls after resets

/-- The calls of a run of the server: `main` exits when the first one fails. -/
def initCalls (start : Allocations) (resets : List Allocations) :
    List InitCall :=
  match TableMemory.initial.initHashtable start htCapacity with
  | none => [⟨none, none⟩]
  | some (after, returned) =>
      ⟨some (after, returned), none⟩ ::
        if returned < 0 then [] else resetCalls after resets

theorem resetCalls_survived_iff {memory : TableMemory}
    (sound : memory.Sound htCapacity) (resets : List Allocations) :
    (∀ call ∈ resetCalls memory resets, call.Survived htCapacity) ↔
      ∀ allocations ∈ resets, allocations.All := by
  induction resets generalizing memory with
  | nil => simp [resetCalls]
  | cons allocations resets ih =>
      obtain ⟨after, executed, soundIff⟩ :=
        sound.initHashtable allocations (by decide) (by decide)
      simp only [resetCalls, executed, List.forall_mem_cons]
      by_cases all : allocations.All
      · have afterSound := soundIff.mpr (.inr all)
        rw [ih afterSound]
        refine and_congr_left fun _ => iff_of_true ?_ all
        exact ⟨after, _, rfl, afterSound, fun _ =>
          Allocations.result_eq_zero_iff.mpr all⟩
      · refine iff_of_false (fun survived => all ?_) fun every => all every.1
        obtain ⟨after', returned, same, -, honest⟩ := survived.1
        cases same
        exact Allocations.result_eq_zero_iff.mp (honest rfl)

/-- Every call of a run leaves no table or a live one, touches live blocks only
and is answered OK only if it has succeeded, exactly if the first allocation of
the server's start fails, or no allocation of the run does. -/
theorem initCalls_survived_iff (start : Allocations)
    (resets : List Allocations) :
    (∀ call ∈ initCalls start resets, call.Survived htCapacity) ↔
      start.table = false ∨
        start.All ∧ ∀ allocations ∈ resets, allocations.All := by
  have empty : TableMemory.initial.Sound htCapacity := .inl rfl
  obtain ⟨after, executed, soundIff⟩ :=
    empty.initHashtable start (by decide) (by decide)
  have first : InitCall.Survived htCapacity
      ⟨some (after, start.result), none⟩ ↔
        start.table = false ∨ start.All := by
    rw [← soundIff]
    constructor
    · rintro ⟨after', returned, same, sound, -⟩
      cases same
      exact sound
    · exact fun sound => ⟨after, _, rfl, sound, fun ok => by cases ok⟩
  simp only [initCalls, executed, List.forall_mem_cons, first]
  by_cases all : start.All
  · have returned : start.result = 0 := Allocations.result_eq_zero_iff.mpr all
    have present : start.table ≠ false := by simp [all.1]
    rw [returned, if_neg (by decide),
      resetCalls_survived_iff (soundIff.mpr (.inr all))]
    simp [all, present]
  · rw [if_pos (Allocations.result_neg all)]
    simp [all]

def failingResets : List Allocations :=
  [⟨true, false, true⟩, ⟨true, true, true⟩]

/-- The first RST is answered OK although its call returns -2, and the second
one uses the freed table. -/
theorem failingResets_not_survived :
    (initCalls ⟨true, true, true⟩ failingResets).map
        (fun call => (call.result.map Prod.snd, call.answer)) =
      [(some 0, none), (some (-2), some .ok), (none, none)] ∧
      ¬ ∀ call ∈ initCalls ⟨true, true, true⟩ failingResets,
        call.Survived htCapacity := by
  refine ⟨by decide, fun survived => ?_⟩
  have dangling : (⟨none, none⟩ : InitCall) ∈
      initCalls ⟨true, true, true⟩ failingResets := by
    exact List.mem_of_getElem? (i := 2) rfl
  obtain ⟨after, returned, same, -⟩ := survived _ dangling
  cases same

end RdmaKVStore
