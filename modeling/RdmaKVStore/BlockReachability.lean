import Mathlib.Data.Finset.Basic
import RdmaKVStore.StoreRuns

/-!
# Reachability of the store's blocks

The item, key and value blocks that are live, along requests that are executed
one after another.  `get_key_entry` allocates an item and its key, `set_request`
a value for every SET, and `remove_item` frees all three.  A SET of a key that
has a value and a RST of a table that has items leave blocks behind that
nothing points to any more, and no later request frees them.
-/

namespace RdmaKVStore

open LinkedChain HashTable

/-- An item block, the key block of an item, or a value block; value blocks are
numbered in the order of their allocation. -/
inductive StoreBlock
  | item (p : Ptr)
  | key (p : Ptr)
  | value (serial : Nat)
  deriving DecidableEq

/-- The live blocks, the `value` pointer of each item, and the number of the
next value block. -/
structure BlockLedger where
  live : Finset StoreBlock
  valueOf : Ptr → Option Nat
  fresh : Nat

namespace BlockLedger

def initial : BlockLedger where
  live := ∅
  valueOf _ := none
  fresh := 0

variable (ledger : BlockLedger)

/-- The allocations of `get_key_entry` for a new item. -/
def addEntry (p : Ptr) : BlockLedger where
  live := insert (.item p) (insert (.key p) ledger.live)
  valueOf := Function.update ledger.valueOf p none
  fresh := ledger.fresh

/-- `set_request` points the item to a new value block. -/
def storeValue (p : Ptr) : BlockLedger where
  live := insert (.value ledger.fresh) ledger.live
  valueOf := Function.update ledger.valueOf p (some ledger.fresh)
  fresh := ledger.fresh + 1

/-- The calls of `free` in `remove_item`. -/
def removeItem (p : Ptr) : BlockLedger where
  live :=
    let live := match ledger.valueOf p with
      | none => ledger.live
      | some serial => ledger.live.erase (.value serial)
    (live.erase (.key p)).erase (.item p)
  valueOf := Function.update ledger.valueOf p none
  fresh := ledger.fresh

/-- The blocks allocated and freed by `set_request`. -/
def setRequest (worker : WorkerId) (ht : HashTable) (request : Request) :
    BlockLedger :=
  match ht.getKeyEntry worker request.keyMemory request.keyLen.toNat with
  | none => ledger
  | some (entered, p) =>
      let ledger :=
        if ht.search request.keyMemory request.keyLen.toNat = some none then
          ledger.addEntry p
        else ledger
      match (entered.heap p).bind fun item => item.rwlock.trywrlock worker with
      | none => ledger
      | some _ => ledger.storeValue p

/-- The blocks freed by `del_request`. -/
def delRequest (worker : WorkerId) (ht : HashTable) (request : Request) :
    BlockLedger :=
  match ht.search request.keyMemory request.keyLen.toNat with
  | none | some none => ledger
  | some (some p) =>
      match (ht.heap p).bind fun item => item.rwlock.trywrlock worker with
      | none => ledger
      | some _ => ledger.removeItem p

/-- The blocks allocated and freed by a request; `init_hashtable` frees the
arrays of the table only. -/
def execute (worker : WorkerId) (ht : HashTable) (request : Request) :
    BlockLedger :=
  match request.method with
  | .set => ledger.setRequest worker ht request
  | .del => ledger.delRequest worker ht request
  | _ => ledger

end BlockLedger

/-! ### The ledger over a set of items -/

/-- A block is reachable from a table with the given items. -/
def Reaches (items : Set Ptr) (valueOf : Ptr → Option Nat) :
    StoreBlock → Prop
  | .item p | .key p => p ∈ items
  | .value serial => ∃ p ∈ items, valueOf p = some serial

section Reaches

variable {items : Set Ptr} {valueOf : Ptr → Option Nat} {p : Ptr}
variable {block : StoreBlock}

theorem reaches_singleton :
    Reaches {p} valueOf block ↔
      block = .item p ∨ block = .key p ∨
        ∃ serial, valueOf p = some serial ∧ block = .value serial := by
  cases block <;> simp [Reaches]

theorem reaches_insert (absent : p ∉ items) :
    Reaches (insert p items) (Function.update valueOf p none) block ↔
      block = .item p ∨ block = .key p ∨ Reaches items valueOf block := by
  cases block with
  | item | key => simp [Reaches]
  | value serial =>
      simp only [Reaches, reduceCtorEq, false_or]
      constructor
      · rintro ⟨q, member, value⟩
        have other : q ≠ p := by
          rintro rfl
          rw [Function.update_self] at value
          cases value
        rw [Function.update_of_ne other] at value
        exact ⟨q, member.resolve_left other, value⟩
      · rintro ⟨q, member, value⟩
        have other : q ≠ p := fun same => absent (same ▸ member)
        exact ⟨q, .inr member, (Function.update_of_ne other _ _).trans value⟩

theorem reaches_update (member : p ∈ items) {fresh : Nat}
    (distinct : ∀ q ∈ items, ∀ serial, valueOf p = some serial →
      valueOf q = some serial → q = p) :
    Reaches items (Function.update valueOf p (some fresh)) block ↔
      block = .value fresh ∨ Reaches items valueOf block ∧
        ∀ serial, valueOf p = some serial → block ≠ .value serial := by
  cases block with
  | item | key => simp [Reaches]
  | value number =>
      simp only [Reaches, StoreBlock.value.injEq, ne_eq]
      constructor
      · rintro ⟨q, inItems, value⟩
        by_cases same : q = p
        · subst same
          rw [Function.update_self] at value
          exact .inl (Option.some.inj value).symm
        · rw [Function.update_of_ne same] at value
          refine .inr ⟨⟨q, inItems, value⟩, fun serial own equal => ?_⟩
          exact same (distinct q inItems serial own (equal ▸ value))
      · rintro (rfl | ⟨⟨q, inItems, value⟩, others⟩)
        · exact ⟨p, member, Function.update_self _ _ _⟩
        · have other : q ≠ p := by
            rintro rfl
            exact others number value rfl
          exact ⟨q, inItems, (Function.update_of_ne other _ _).trans value⟩

theorem reaches_diff
    (distinct : ∀ q ∈ items, ∀ serial, valueOf p = some serial →
      valueOf q = some serial → q = p) :
    Reaches (items \ {p}) (Function.update valueOf p none) block ↔
      Reaches items valueOf block ∧ ¬ Reaches {p} valueOf block := by
  rw [reaches_singleton]
  cases block with
  | item q | key q => simp [Reaches]
  | value number =>
      simp only [Reaches, reduceCtorEq, false_or, StoreBlock.value.injEq,
        Set.mem_sdiff, Set.mem_singleton_iff]
      constructor
      · rintro ⟨q, ⟨inItems, other⟩, value⟩
        rw [Function.update_of_ne other] at value
        refine ⟨⟨q, inItems, value⟩, ?_⟩
        rintro ⟨serial, own, rfl⟩
        exact other (distinct q inItems _ own value)
      · rintro ⟨⟨q, inItems, value⟩, others⟩
        have other : q ≠ p := by
          rintro rfl
          exact others ⟨number, value, rfl⟩
        exact ⟨q, ⟨inItems, other⟩,
          (Function.update_of_ne other _ _).trans value⟩

end Reaches

namespace BlockLedger

/-- The live blocks are the reachable ones. -/
def Exact (items : Set Ptr) (ledger : BlockLedger) : Prop :=
  ∀ block, block ∈ ledger.live ↔ Reaches items ledger.valueOf block

/-- What holds of the ledger after any requests: reachable blocks are live, and
no two items share a value block. -/
structure Tracks (items : Set Ptr) (nextItem : Ptr) (ledger : BlockLedger) :
    Prop where
  covered : ∀ block, Reaches items ledger.valueOf block → block ∈ ledger.live
  below : ∀ p, .item p ∈ ledger.live ∨ .key p ∈ ledger.live → p < nextItem
  serials : ∀ serial, .value serial ∈ ledger.live → serial < ledger.fresh
  distinct : ∀ p ∈ items, ∀ q ∈ items, ∀ serial,
    ledger.valueOf p = some serial → ledger.valueOf q = some serial → q = p

variable {items : Set Ptr} {nextItem p : Ptr} {ledger : BlockLedger}

theorem addEntry_valueOf_self : (ledger.addEntry p).valueOf p = none :=
  Function.update_self _ _ _

theorem addEntry_valueOf_of_ne {q : Ptr} (other : q ≠ p) :
    (ledger.addEntry p).valueOf q = ledger.valueOf q :=
  Function.update_of_ne other _ _

theorem storeValue_valueOf_self :
    (ledger.storeValue p).valueOf p = some ledger.fresh :=
  Function.update_self _ _ _

theorem storeValue_valueOf_of_ne {q : Ptr} (other : q ≠ p) :
    (ledger.storeValue p).valueOf q = ledger.valueOf q :=
  Function.update_of_ne other _ _

theorem removeItem_valueOf_of_ne {q : Ptr} (other : q ≠ p) :
    (ledger.removeItem p).valueOf q = ledger.valueOf q :=
  Function.update_of_ne other _ _

theorem mem_addEntry {block : StoreBlock} :
    block ∈ (ledger.addEntry p).live ↔
      block = .item p ∨ block = .key p ∨ block ∈ ledger.live := by
  simp [addEntry]

theorem mem_storeValue {block : StoreBlock} :
    block ∈ (ledger.storeValue p).live ↔
      block = .value ledger.fresh ∨ block ∈ ledger.live :=
  Finset.mem_insert

theorem mem_removeItem {block : StoreBlock} :
    block ∈ (ledger.removeItem p).live ↔
      block ∈ ledger.live ∧ ¬ Reaches {p} ledger.valueOf block := by
  rw [reaches_singleton]
  cases value : ledger.valueOf p <;> simp [removeItem, value] <;> tauto

namespace Tracks

theorem initial : Tracks ∅ 0 BlockLedger.initial where
  covered block reached := by
    cases block with
    | item | key => exact absurd reached (Set.notMem_empty _)
    | value =>
        obtain ⟨p, member, -⟩ := reached
        exact absurd member (Set.notMem_empty p)
  below p live := by simp [BlockLedger.initial] at live
  serials serial live := by simp [BlockLedger.initial] at live
  distinct p member := absurd member (Set.notMem_empty p)

variable (tracks : Tracks items nextItem ledger)
include tracks

theorem notMem_items : nextItem ∉ items := fun member =>
  lt_irrefl nextItem
    (tracks.below nextItem (.inl (tracks.covered (.item nextItem) member)))

theorem reaches_addEntry {block : StoreBlock} :
    Reaches (insert nextItem items) (ledger.addEntry nextItem).valueOf
        block ↔
      block = .item nextItem ∨ block = .key nextItem ∨
        Reaches items ledger.valueOf block :=
  reaches_insert tracks.notMem_items

theorem addEntry :
    Tracks (insert nextItem items) (nextItem + 1)
      (ledger.addEntry nextItem) where
  covered block reaches :=
    mem_addEntry.mpr ((tracks.reaches_addEntry.mp reaches).imp_right
      (Or.imp_right (tracks.covered block)))
  below q live := by
    by_contra beyond
    have other : q ≠ nextItem := fun same => beyond (by rw [same]; simp)
    have old : .item q ∈ ledger.live ∨ .key q ∈ ledger.live := by
      simpa [mem_addEntry, other] using live
    exact beyond ((tracks.below q old).trans (Nat.lt_succ_self _))
  serials serial live :=
    tracks.serials serial (by simpa [mem_addEntry] using live)
  distinct q inItems r inItems' serial first second := by
    have old {other : Ptr} (member : other ∈ insert nextItem items)
        (value : (ledger.addEntry nextItem).valueOf other = some serial) :
        other ∈ items ∧ ledger.valueOf other = some serial := by
      by_cases same : other = nextItem
      · rw [same, addEntry_valueOf_self] at value
        cases value
      · rw [addEntry_valueOf_of_ne same] at value
        exact ⟨member.resolve_left same, value⟩
    obtain ⟨firstIn, first⟩ := old inItems first
    obtain ⟨secondIn, second⟩ := old inItems' second
    exact tracks.distinct q firstIn r secondIn serial first second

theorem addEntry_exact :
    (ledger.addEntry nextItem).Exact (insert nextItem items) ↔
      ledger.Exact items := by
  apply forall_congr'
  intro block
  rw [mem_addEntry, tracks.reaches_addEntry]
  by_cases own : block = .item nextItem ∨ block = .key nextItem
  · -- neither block of the new item was live before
    have unreached : ¬ Reaches items ledger.valueOf block := by
      rcases own with rfl | rfl <;> exact tracks.notMem_items
    have dead : block ∉ ledger.live := by
      rcases own with rfl | rfl
      · exact fun live => lt_irrefl _ (tracks.below _ (.inl live))
      · exact fun live => lt_irrefl _ (tracks.below _ (.inr live))
    tauto
  · tauto

theorem fresh_notMem : StoreBlock.value ledger.fresh ∉ ledger.live :=
  fun live => lt_irrefl _ (tracks.serials _ live)

theorem reaches_storeValue (member : p ∈ items) {block : StoreBlock} :
    Reaches items (ledger.storeValue p).valueOf block ↔
      block = .value ledger.fresh ∨
        Reaches items ledger.valueOf block ∧ ∀ serial,
          ledger.valueOf p = some serial → block ≠ .value serial :=
  reaches_update member (tracks.distinct p member)

/-- Either an item is the one that gets the value, or its value is an old
one. -/
theorem storeValue_valueOf_cases {q : Ptr} {serial : Nat} (inItems : q ∈ items)
    (value : (ledger.storeValue p).valueOf q = some serial) :
    q = p ∧ serial = ledger.fresh ∨
      serial ≠ ledger.fresh ∧ ledger.valueOf q = some serial := by
  by_cases same : q = p
  · rw [same, storeValue_valueOf_self] at value
    exact .inl ⟨same, (Option.some.inj value).symm⟩
  · rw [storeValue_valueOf_of_ne same] at value
    refine .inr ⟨?_, value⟩
    rintro rfl
    exact tracks.fresh_notMem
      (tracks.covered (.value ledger.fresh) ⟨q, inItems, value⟩)

theorem storeValue (member : p ∈ items) :
    Tracks items nextItem (ledger.storeValue p) where
  covered block reaches :=
    mem_storeValue.mpr
      (((tracks.reaches_storeValue member).mp reaches).imp_right
        fun old => tracks.covered block old.1)
  below q live := tracks.below q (by simpa [mem_storeValue] using live)
  serials serial live := by
    rcases mem_storeValue.mp live with same | old
    · cases same
      exact Nat.lt_succ_self _
    · exact (tracks.serials serial old).trans (Nat.lt_succ_self _)
  distinct q inItems r inItems' serial first second := by
    rcases tracks.storeValue_valueOf_cases inItems first with
      ⟨rfl, new⟩ | ⟨old, first⟩ <;>
    rcases tracks.storeValue_valueOf_cases inItems' second with
      ⟨rfl, new'⟩ | ⟨old', second⟩
    · rfl
    · exact absurd new old'
    · exact absurd new' old
    · exact tracks.distinct q inItems r inItems' serial first second

/-- A new value block takes the place of the one that the item had, which
stays live. -/
theorem storeValue_exact (member : p ∈ items) :
    (ledger.storeValue p).Exact items ↔
      ledger.Exact items ∧ ledger.valueOf p = none := by
  constructor
  · intro exactly
    have kept {block : StoreBlock} (live : block ∈ ledger.live) :
        Reaches items ledger.valueOf block ∧ ∀ serial,
          ledger.valueOf p = some serial → block ≠ .value serial := by
      have reaches := (tracks.reaches_storeValue member).mp
        ((exactly block).mp (mem_storeValue.mpr (.inr live)))
      exact reaches.resolve_left fun same => tracks.fresh_notMem (same ▸ live)
    refine ⟨fun block => ⟨fun live => (kept live).1, tracks.covered block⟩, ?_⟩
    by_contra present
    obtain ⟨serial, value⟩ := Option.ne_none_iff_exists'.mp present
    have live := tracks.covered (.value serial) ⟨p, member, value⟩
    exact (kept live).2 serial value rfl
  · rintro ⟨exactly, vacant⟩ block
    rw [mem_storeValue, tracks.reaches_storeValue member, exactly]
    simp [vacant]

theorem reaches_removeItem (member : p ∈ items) {block : StoreBlock} :
    Reaches (items \ {p}) (ledger.removeItem p).valueOf block ↔
      Reaches items ledger.valueOf block ∧
        ¬ Reaches {p} ledger.valueOf block :=
  reaches_diff (tracks.distinct p member)

theorem removeItem (member : p ∈ items) :
    Tracks (items \ {p}) nextItem (ledger.removeItem p) where
  covered block reaches :=
    mem_removeItem.mpr (((tracks.reaches_removeItem member).mp reaches).imp_left
      (tracks.covered block))
  below q live := tracks.below q
    (live.imp (fun live => (mem_removeItem.mp live).1)
      fun live => (mem_removeItem.mp live).1)
  serials serial live := tracks.serials serial (mem_removeItem.mp live).1
  distinct q inItems r inItems' serial first second := by
    rw [removeItem_valueOf_of_ne inItems.2] at first
    rw [removeItem_valueOf_of_ne inItems'.2] at second
    exact tracks.distinct q inItems.1 r inItems'.1 serial first second

theorem removeItem_exact (member : p ∈ items) :
    (ledger.removeItem p).Exact (items \ {p}) ↔ ledger.Exact items := by
  apply forall_congr'
  intro block
  rw [mem_removeItem, tracks.reaches_removeItem member]
  by_cases own : Reaches {p} ledger.valueOf block
  · -- the blocks of the item are reachable, and hence live
    have reaches : Reaches items ledger.valueOf block := by
      rcases reaches_singleton.mp own with rfl | rfl | ⟨serial, value, rfl⟩
      · exact member
      · exact member
      · exact ⟨p, member, value⟩
    have live := tracks.covered block reaches
    tauto
  · tauto

omit tracks in
theorem not_reaches_empty {valueOf : Ptr → Option Nat} (block : StoreBlock) :
    ¬ Reaches ∅ valueOf block := by
  cases block with
  | item | key => exact Set.notMem_empty _
  | value serial =>
      rintro ⟨p, member, -⟩
      exact Set.notMem_empty p member

theorem reset : Tracks ∅ nextItem ledger where
  covered block reaches := absurd reaches (not_reaches_empty block)
  below := tracks.below
  serials := tracks.serials
  distinct p member := absurd member (Set.notMem_empty p)

theorem reset_exact :
    ledger.Exact ∅ ↔ ledger.Exact items ∧ items = ∅ := by
  constructor
  · intro exactly
    have dead (block : StoreBlock) : block ∉ ledger.live := fun live =>
      not_reaches_empty block ((exactly block).mp live)
    refine ⟨fun block => iff_of_false (dead block) fun reaches =>
      dead block (tracks.covered block reaches), ?_⟩
    apply Set.eq_empty_iff_forall_notMem.mpr
    intro p member
    exact dead (.item p) (tracks.covered (.item p) member)
  · rintro ⟨exactly, rfl⟩
    exact exactly

end Tracks

end BlockLedger

/-! ### Blocks of the store -/

namespace HashTable

def linkedItems (ht : HashTable) : Set Ptr :=
  {p | ∃ bucket, p ∈ ht.bucketItems bucket}

variable {ht : HashTable} {chains : Nat → List Ptr} {bucket : Nat} {p : Ptr}
variable {key : Bytes} {keyLen : Nat} {item : HashItem}

namespace Linked

variable (linked : Linked ht chains)
include linked

theorem mem_linkedItems : p ∈ ht.linkedItems ↔ ∃ bucket, p ∈ chains bucket := by
  rw [linkedItems, linked.bucketItems_eq]
  rfl

theorem linkedItems_insertEntry (inside : bucket < ht.capacity) :
    (ht.insertEntry bucket key keyLen).1.linkedItems =
      insert ht.fresh ht.linkedItems := by
  have inserted : Linked (ht.insertEntry bucket key keyLen).1
      (Function.update chains bucket (ht.fresh :: chains bucket)) :=
    linked.insertEntry inside
  ext p
  rw [inserted.mem_linkedItems, Set.mem_insert_iff, linked.mem_linkedItems]
  constructor
  · rintro ⟨other, member⟩
    by_cases same : other = bucket
    · subst same
      rw [Function.update_self] at member
      exact (List.mem_cons.mp member).imp_right fun old => ⟨other, old⟩
    · rw [Function.update_of_ne same] at member
      exact .inr ⟨other, member⟩
  · rintro (rfl | ⟨other, member⟩)
    · exact ⟨bucket, by rw [Function.update_self]; exact List.mem_cons_self⟩
    · by_cases same : other = bucket
      · subst same
        exact ⟨other, by
          rw [Function.update_self]
          exact List.mem_cons_of_mem _ member⟩
      · exact ⟨other, by rwa [Function.update_of_ne same]⟩

theorem linkedItems_unlinkItem (member : p ∈ chains bucket)
    (read : ht.heap p = some item) :
    (ht.unlinkItem bucket p item).linkedItems = ht.linkedItems \ {p} := by
  ext q
  rw [(linked.unlinkItem member read).mem_linkedItems, Set.mem_sdiff,
    Set.mem_singleton_iff, linked.mem_linkedItems]
  constructor
  · rintro ⟨other, inChain⟩
    by_cases same : other = bucket
    · subst same
      rw [Function.update_self, (linked.nodup other).mem_erase_iff] at inChain
      exact ⟨⟨other, inChain.2⟩, inChain.1⟩
    · rw [Function.update_of_ne same] at inChain
      refine ⟨⟨other, inChain⟩, ?_⟩
      rintro rfl
      exact same (linked.separate _ _ q inChain member)
  · rintro ⟨⟨other, inChain⟩, apart⟩
    by_cases same : other = bucket
    · subst same
      exact ⟨other, by
        rw [Function.update_self, (linked.nodup other).mem_erase_iff]
        exact ⟨apart, inChain⟩⟩
    · exact ⟨other, by rwa [Function.update_of_ne same]⟩

theorem linkedItems_eq_empty_iff :
    ht.linkedItems = ∅ ↔ ∀ bucket < ht.capacity, ht.items bucket = none := by
  rw [Set.eq_empty_iff_forall_notMem]
  constructor
  · intro none bucket inside
    rw [(linked.chain bucket).head_eq, List.head?_eq_none_iff,
      List.eq_nil_iff_forall_not_mem]
    exact fun p member => none p (linked.mem_linkedItems.mpr ⟨bucket, member⟩)
  · intro heads p member
    obtain ⟨bucket, inChain⟩ := linked.mem_linkedItems.mp member
    have inside : bucket < ht.capacity := by
      by_contra beyond
      rw [linked.inRange bucket (not_lt.mp beyond)] at inChain
      cases inChain
    have head := (linked.chain bucket).head_eq
    rw [heads bucket inside, eq_comm, List.head?_eq_none_iff] at head
    rw [head] at inChain
    cases inChain

end Linked

theorem linkedItems_initHashtable (positive : 0 < htCapacity)
    (allocated : ∀ p, ht.fresh ≤ p → ht.heap p = none) :
    (ht.initHashtable htCapacity).linkedItems = ∅ := by
  have linked : Linked (ht.initHashtable htCapacity) fun _ => [] :=
    linked_initHashtable positive (by decide) allocated
  apply Set.eq_empty_iff_forall_notMem.mpr
  intro p member
  obtain ⟨bucket, inChain⟩ := linked.mem_linkedItems.mp member
  cases inChain

end HashTable

structure BlockState where
  table : HashTable
  ledger : BlockLedger

def executeBlocks (state : BlockState) :
    List (WorkerId × Request) → Option BlockState
  | [] => some state
  | (worker, request) :: turns =>
      (execute worker state.table request).bind fun (table, _) =>
        executeBlocks ⟨table, state.ledger.execute worker state.table request⟩
          turns

/-- The live blocks are those reachable from the table: for each item its own
block, its key and at most one value; and the items have different keys. -/
structure BlockState.NoOrphans (state : BlockState) : Prop where
  exactly : state.ledger.Exact state.table.linkedItems
  keys : ∀ p ∈ state.table.linkedItems, ∀ q ∈ state.table.linkedItems,
    state.table.keyAt p = state.table.keyAt q → p = q

/-- A SET whose lookup finds no item, a RST of a table without items, or
another request. -/
def Request.LeavesNothing (request : Request) (ht : HashTable) : Prop :=
  (request.method = .set →
      ht.search request.keyMemory request.keyLen.toNat = some none) ∧
    (request.method = .rst → ∀ bucket < ht.capacity, ht.items bucket = none)

instance (request : Request) (ht : HashTable) :
    Decidable (request.LeavesNothing ht) :=
  inferInstanceAs (Decidable ((_ → _) ∧ (_ → _)))

theorem Request.leavesNothing_of_ne {request : Request} {ht : HashTable}
    (notSet : request.method ≠ .set) (notRst : request.method ≠ .rst) :
    request.LeavesNothing ht :=
  ⟨fun method => absurd method notSet, fun method => absurd method notRst⟩

/-- No request of a run leaves a block behind. -/
def TidyRun (ht : HashTable) : List (WorkerId × Request) → Prop
  | [] => True
  | (worker, request) :: turns =>
      request.LeavesNothing ht ∧
        ∀ turn ∈ execute worker ht request, TidyRun turn.1 turns

instance TidyRun.decide :
    ∀ (ht : HashTable) (turns : List (WorkerId × Request)),
      Decidable (TidyRun ht turns)
  | _, [] => isTrue trivial
  | ht, (worker, request) :: turns =>
      have := fun turn : HashTable × Response => TidyRun.decide turn.1 turns
      inferInstanceAs (Decidable (request.LeavesNothing ht ∧
        ∀ turn ∈ execute worker ht request, TidyRun turn.1 turns))

/-- The invariant of runs of requests: the ledger follows the table, and every
item has a value. -/
structure Ledgered (ht : HashTable) (chains : Nat → List Ptr)
    (ledger : BlockLedger) : Prop where
  consistent : Consistent ht chains
  tracks : ledger.Tracks ht.linkedItems ht.fresh
  held : ∀ p ∈ ht.linkedItems, ledger.valueOf p ≠ none

/-- The request is executed, the ledger follows, and the live blocks remain the
reachable ones exactly if the request leaves nothing behind. -/
def Accounted (worker : WorkerId) (ht : HashTable) (request : Request)
    (ledger : BlockLedger) : Prop :=
  ∃ after response chains',
    execute worker ht request = some (after, response) ∧
      Ledgered after chains' (ledger.execute worker ht request) ∧
        ((ledger.execute worker ht request).Exact after.linkedItems ↔
          ledger.Exact ht.linkedItems ∧ request.LeavesNothing ht)

namespace Ledgered

variable {ht : HashTable} {chains : Nat → List Ptr} {ledger : BlockLedger}
variable {request : Request}

theorem initial : Ledgered empty (fun _ => []) .initial where
  consistent := consistent_empty
  tracks := by
    rw [show empty.linkedItems = ∅ from
      linkedItems_initHashtable (by decide) fun _ _ => rfl]
    exact .initial
  held p member := by
    rw [show empty.linkedItems = ∅ from
      linkedItems_initHashtable (by decide) fun _ _ => rfl] at member
    exact absurd member (Set.notMem_empty p)

/-- Linked items have different keys. -/
theorem keys (ledgered : Ledgered ht chains ledger) :
    ∀ p ∈ ht.linkedItems, ∀ q ∈ ht.linkedItems,
      ht.keyAt p = ht.keyAt q → p = q := by
  intro p inTable q inTable' same
  have linked := ledgered.consistent.linked
  have placed := ledgered.consistent.placed
  obtain ⟨bucket, inChain⟩ := linked.mem_linkedItems.mp inTable
  obtain ⟨other, inChain'⟩ := linked.mem_linkedItems.mp inTable'
  obtain ⟨first, read⟩ := linked.read_of_mem inChain
  obtain ⟨second, read'⟩ := linked.read_of_mem inChain'
  have sameKey : CString.contents first.key = CString.contents second.key := by
    simpa [keyAt, read, read'] using same
  obtain rfl : bucket = other := by
    rw [← placed.bucket bucket p first inChain read,
      ← placed.bucket other q second inChain' read']
    exact getBucket_congr ht sameKey
  exact placed.distinct bucket p q inChain inChain' same

variable (ledgered : Ledgered ht chains ledger) (worker : WorkerId)
include ledgered

theorem set_missing (forStore : request.ForStore)
    (method : request.method = .set)
    (missing : ht.search request.keyMemory request.keyLen.toNat =
      some none) : Accounted worker ht request ledger := by
  have consistent := ledgered.consistent
  have linked := consistent.linked
  have keyLen := forStore.wellFormed.key.1
  set bucket := ht.getBucket request.keyMemory with bucketEq
  have inside : bucket < ht.capacity := linked.getBucket_lt _
  set entered := (ht.insertEntry bucket request.keyMemory
    request.keyLen.toNat).1 with enteredEq
  have got : ht.getKeyEntry worker request.keyMemory request.keyLen.toNat =
      some (entered, ht.fresh) :=
    getKeyEntry_of_missing worker (consistent.quiet.mutexes _) missing
  have read : entered.heap ht.fresh = some (ht.newItem bucket
      request.keyMemory request.keyLen.toNat) := insertEntry_read_fresh _ _ _ _
  have inserted : Consistent entered (Function.update chains bucket
      (ht.fresh :: chains bucket)) := by
    rw [enteredEq, keyLen]
    exact consistent.insertEntry (keyLen ▸ missing)
  have stored := inserted.assigned ht.fresh request
  have ledgerEq : ledger.execute worker ht request =
      (ledger.addEntry ht.fresh).storeValue ht.fresh := by
    simp only [BlockLedger.execute, method, BlockLedger.setRequest, got,
      missing, if_true, read, Option.bind_some]
    rfl
  have itemsEq : (entered.writeItem ht.fresh
      (assigned request)).linkedItems = insert ht.fresh ht.linkedItems := by
    rw [← linked.linkedItems_insertEntry inside]
    ext p
    rw [stored.linked.mem_linkedItems, inserted.linked.mem_linkedItems]
  have added := ledgered.tracks.addEntry
  have among : ht.fresh ∈ insert ht.fresh ht.linkedItems :=
    Set.mem_insert _ _
  refine ⟨entered.writeItem ht.fresh (assigned request),
    { Response.zero with code := .ok },
    Function.update chains bucket (ht.fresh :: chains bucket), ?_, ?_, ?_⟩
  · rw [execute, method]
    exact setRequest_of_entry got read rfl
  · refine ⟨stored, ?_, fun p member => ?_⟩
    · rw [ledgerEq, itemsEq]
      exact added.storeValue among
    · rw [ledgerEq]
      rw [itemsEq] at member
      by_cases new : p = ht.fresh
      · rw [new, BlockLedger.storeValue_valueOf_self]
        exact Option.some_ne_none _
      · rw [BlockLedger.storeValue_valueOf_of_ne new,
          BlockLedger.addEntry_valueOf_of_ne new]
        exact ledgered.held p (member.resolve_left new)
  · rw [ledgerEq, itemsEq, added.storeValue_exact among,
      ledgered.tracks.addEntry_exact,
      and_iff_left BlockLedger.addEntry_valueOf_self]
    refine (and_iff_left ⟨fun _ => missing, fun reset => ?_⟩).symm
    cases method.symm.trans reset

theorem set_found (method : request.method = .set) {p : Ptr} {item : HashItem}
    (found : ht.search request.keyMemory request.keyLen.toNat =
      some (some p))
    (member : p ∈ chains (ht.getBucket request.keyMemory))
    (read : ht.heap p = some item) :
    Accounted worker ht request ledger := by
  have consistent := ledgered.consistent
  have linked := consistent.linked
  have got : ht.getKeyEntry worker request.keyMemory request.keyLen.toNat =
      some (ht, p) :=
    getKeyEntry_of_found worker (consistent.quiet.mutexes _) found
  have free := consistent.quiet.rwlocks p item read
  have inTable : p ∈ ht.linkedItems :=
    linked.mem_linkedItems.mpr ⟨_, member⟩
  have stored := consistent.assigned p request
  have ledgerEq : ledger.execute worker ht request = ledger.storeValue p := by
    simp only [BlockLedger.execute, method, BlockLedger.setRequest, got, found,
      Option.some.injEq, reduceCtorEq, if_false, read, Option.bind_some, free,
      RwLock.trywrlock_free]
  have itemsEq : (ht.writeItem p (assigned request)).linkedItems =
      ht.linkedItems := by
    ext q
    rw [stored.linked.mem_linkedItems, linked.mem_linkedItems]
  refine ⟨ht.writeItem p (assigned request),
    { Response.zero with code := .ok }, chains, ?_, ?_, ?_⟩
  · rw [execute, method]
    exact setRequest_of_entry got read free
  · refine ⟨stored, ?_, fun q inItems => ?_⟩
    · rw [ledgerEq, itemsEq]
      exact ledgered.tracks.storeValue inTable
    · rw [ledgerEq]
      rw [itemsEq] at inItems
      by_cases same : q = p
      · rw [same, BlockLedger.storeValue_valueOf_self]
        exact Option.some_ne_none _
      · rw [BlockLedger.storeValue_valueOf_of_ne same]
        exact ledgered.held q inItems
  · rw [ledgerEq, itemsEq, ledgered.tracks.storeValue_exact inTable]
    refine iff_of_false (fun exactly => ledgered.held p inTable exactly.2) ?_
    rintro ⟨-, missing, -⟩
    cases (missing method).symm.trans found

/-- A request that leaves the table and the ledger alone. -/
theorem idle (untouched : ledger.execute worker ht request = ledger)
    {response : Response}
    (executed : execute worker ht request = some (ht, response))
    (leaves : request.LeavesNothing ht) :
    Accounted worker ht request ledger := by
  refine ⟨ht, response, chains, executed, ?_, ?_⟩
  · rw [untouched]
    exact ledgered
  · rw [untouched]
    exact (and_iff_left leaves).symm

theorem del (method : request.method = .del) :
    Accounted worker ht request ledger := by
  have consistent := ledgered.consistent
  have linked := consistent.linked
  have leaves : request.LeavesNothing ht :=
    Request.leavesNothing_of_ne (by simp [method]) (by simp [method])
  rcases consistent.removeItem_cases worker request.keyMemory
      request.keyLen.toNat with
    ⟨removed, missing⟩ | ⟨p, item, found, member, read, removed⟩
  · have executed : execute worker ht request =
        some (ht, Response.refusal) := by
      simp only [RdmaKVStore.execute, method, delRequest, removed,
        Option.map_some]
      rfl
    refine ledgered.idle worker ?_ executed leaves
    simp only [BlockLedger.execute, method, BlockLedger.delRequest, missing]
  · have free := consistent.quiet.rwlocks p item read
    have inTable : p ∈ ht.linkedItems :=
      linked.mem_linkedItems.mpr ⟨_, member⟩
    have ledgerEq : ledger.execute worker ht request =
        ledger.removeItem p := by
      simp only [BlockLedger.execute, method, BlockLedger.delRequest, found,
        read, Option.bind_some, free, RwLock.trywrlock_free]
    have itemsEq := linked.linkedItems_unlinkItem member read
    refine ⟨ht.unlinkItem (ht.getBucket request.keyMemory) p item,
      { Response.zero with code := .ok }, _, ?_,
      ⟨consistent.unlinkItem member read, ?_, fun q inItems => ?_⟩, ?_⟩
    · simp only [RdmaKVStore.execute, method, delRequest, removed,
        Option.map_some]
      rfl
    · rw [ledgerEq, itemsEq]
      exact ledgered.tracks.removeItem inTable
    · rw [itemsEq] at inItems
      rw [ledgerEq, BlockLedger.removeItem_valueOf_of_ne inItems.2]
      exact ledgered.held q inItems.1
    · rw [ledgerEq, itemsEq, ledgered.tracks.removeItem_exact inTable]
      exact (and_iff_left leaves).symm

/-- A RST leaves the blocks of all items behind. -/
theorem rst (method : request.method = .rst) :
    Accounted worker ht request ledger := by
  have consistent := ledgered.consistent
  have linked := consistent.linked
  have ledgerEq : ledger.execute worker ht request = ledger := by
    simp only [BlockLedger.execute, method]
  have itemsEq : (ht.initHashtable htCapacity).linkedItems = ∅ :=
    linkedItems_initHashtable (by decide) linked.allocated
  refine ⟨ht.initHashtable htCapacity, { Response.zero with code := .ok },
    fun _ => [], ?_, ⟨?_, ?_, fun p member => ?_⟩, ?_⟩
  · rw [RdmaKVStore.execute, method]
  · exact consistent_initHashtable consistent.quiet (by decide) (by decide)
      linked.allocated
  · rw [ledgerEq, itemsEq]
    exact ledgered.tracks.reset
  · rw [itemsEq] at member
    exact absurd member (Set.notMem_empty p)
  · rw [ledgerEq, itemsEq, ledgered.tracks.reset_exact,
      linked.linkedItems_eq_empty_iff]
    refine and_congr_right fun _ =>
      ⟨fun heads => ⟨fun set => ?_, fun _ => heads⟩,
        fun leaves => leaves.2 method⟩
    cases method.symm.trans set

theorem accounted (forStore : request.ForStore) :
    Accounted worker ht request ledger := by
  have consistent := ledgered.consistent
  rcases forStore.method with method | method | method | method
  · rcases consistent.search_cases request.keyMemory
        request.keyLen.toNat with missing | ⟨p, item, found, member, read⟩
    · exact ledgered.set_missing worker forStore method missing
    · exact ledgered.set_found worker method found member read
  · have leaves : request.LeavesNothing ht :=
      Request.leavesNothing_of_ne (by simp [method]) (by simp [method])
    have untouched : ledger.execute worker ht request = ledger := by
      simp only [BlockLedger.execute, method]
    rcases consistent.search_cases request.keyMemory
        request.keyLen.toNat with missing | ⟨p, item, found, member, read⟩
    · have executed : execute worker ht request =
          some (ht, Response.refusal) := by
        simp only [RdmaKVStore.execute, method, getRequest, missing,
          Option.bind_some, Response.refusal]
      exact ledgered.idle worker untouched executed leaves
    · have executed : execute worker ht request =
          some (ht, Response.zero.copyValue item) := by
        simp only [RdmaKVStore.execute, method]
        exact getRequest_of_found found read
          (consistent.quiet.rwlocks p item read)
      exact ledgered.idle worker untouched executed leaves
  · exact ledgered.del worker method
  · exact ledgered.rst worker method

end Ledgered

/-- A run of requests goes through, and its live blocks remain the reachable
ones exactly if it leaves nothing behind. -/
theorem Ledgered.executeBlocks {ht : HashTable} {chains : Nat → List Ptr}
    {ledger : BlockLedger} (ledgered : Ledgered ht chains ledger)
    {turns : List (WorkerId × Request)}
    (forStore : ∀ turn ∈ turns, turn.2.ForStore) :
    ∃ state chains', executeBlocks ⟨ht, ledger⟩ turns = some state ∧
      Ledgered state.table chains' state.ledger ∧
        (state.ledger.Exact state.table.linkedItems ↔
          ledger.Exact ht.linkedItems ∧ TidyRun ht turns) := by
  induction turns generalizing ht chains ledger with
  | nil =>
      exact ⟨⟨ht, ledger⟩, chains, rfl, ledgered, (and_iff_left trivial).symm⟩
  | cons turn turns ih =>
      obtain ⟨worker, request⟩ := turn
      obtain ⟨middle, response, chains₁, executed, follows, exactly⟩ :=
        ledgered.accounted worker (forStore (worker, request) (by simp))
      obtain ⟨state, chains₂, rest, last, restExactly⟩ :=
        ih follows fun turn member => forStore turn (by simp [member])
      have tidy : TidyRun ht ((worker, request) :: turns) ↔
          request.LeavesNothing ht ∧ TidyRun middle turns := by
        simp only [TidyRun, executed, Option.mem_def, Option.some.injEq,
          forall_eq']
      refine ⟨state, chains₂, ?_, last, ?_⟩
      · simp only [RdmaKVStore.executeBlocks, executed, Option.bind_some, rest]
      · rw [restExactly, exactly, tidy, and_assoc]

/-- Every run of well-formed requests goes through, and afterwards the live
blocks are those reachable from the table exactly if every SET of the run finds
no item and every RST meets a table without items. -/
theorem noOrphans_iff_tidyRun (turns : List (WorkerId × Request))
    (forStore : ∀ turn ∈ turns, turn.2.ForStore) :
    ∃ state, executeBlocks ⟨empty, .initial⟩ turns = some state ∧
      (state.NoOrphans ↔ TidyRun empty turns) := by
  obtain ⟨state, chains, run, ledgered, exactly⟩ :=
    Ledgered.initial.executeBlocks forStore
  have start : BlockLedger.initial.Exact empty.linkedItems := by
    intro block
    rw [show empty.linkedItems = ∅ from
      linkedItems_initHashtable (by decide) fun _ _ => rfl]
    apply iff_of_false (Finset.notMem_empty block)
    intro reached
    exact Finset.notMem_empty block
      (BlockLedger.Tracks.initial.covered block reached)
  refine ⟨state, run, ?_⟩
  rw [← and_iff_right (b := TidyRun empty turns) start, ← exactly]
  exact ⟨BlockState.NoOrphans.exactly, fun exactly => ⟨exactly, ledgered.keys⟩⟩

theorem plainTurns_noOrphans :
    ∃ state, executeBlocks ⟨empty, .initial⟩ plainTurns = some state ∧
      state.NoOrphans := by
  obtain ⟨state, run, exactly⟩ := noOrphans_iff_tidyRun plainTurns (by decide)
  exact ⟨state, run, exactly.mpr (by decide)⟩

def overwritingTurns : List (WorkerId × Request) :=
  [(0, .make .set [121] [1]), (0, .make .set [121] [2])]

/-- Two value blocks are live for one item. -/
theorem overwritingTurns_orphan :
    ∃ state, executeBlocks ⟨empty, .initial⟩ overwritingTurns = some state ∧
      state.ledger.live =
        {.item 0, .key 0, .value 0, .value 1} ∧ ¬ state.NoOrphans := by
  have forStore : ∀ turn ∈ overwritingTurns, turn.2.ForStore := by decide
  obtain ⟨state, chains, run, ledgered, exactly⟩ :=
    Ledgered.initial.executeBlocks forStore
  have live : (executeBlocks ⟨empty, .initial⟩ overwritingTurns).map
      (fun state => state.ledger.live) =
        some {.item 0, .key 0, .value 0, .value 1} := by decide
  rw [run, Option.map_some, Option.some.injEq] at live
  refine ⟨state, run, live, fun none => ?_⟩
  exact absurd (exactly.mp none.exactly).2 (by decide)

end RdmaKVStore
