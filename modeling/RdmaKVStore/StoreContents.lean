import RdmaKVStore.FirstMatch
import RdmaKVStore.Noninterference
import RdmaKVStore.TableContents

/-!
# The store as its contents

What a client of the server can observe is determined by the entries of each
bucket, most recently added first.  Here every request is a function of these
entries, whatever its fields, and the hash table computes these functions: a
lookup meets the first entry that agrees with the requested key in the compared
bytes, and a SET writes to it, a DEL drops it.
-/

namespace RdmaKVStore

open LinkedChain HashTable FirstMatch

/-- A stored key string with its value and size. -/
abbrev Entry := Bytes × Option Bytes × UInt64

abbrev Buckets := Nat → List Entry

/-- What a lookup can see of an item. -/
def HashItem.entry (item : HashItem) : Entry :=
  (CString.contents item.key, item.value, item.valueSize)

def Entry.response (entry : Entry) : Response where
  code := .ok
  msg := writeArray (zeroArray msgSize)
    ((entry.2.1.getD []).take entry.2.2.toNat)
  msgLen := entry.2.2

namespace Request

variable (request : Request)

def bucket : Nat :=
  (hash request.keyMemory).toNat % htCapacity

def finds (entry : Entry) : Bool :=
  StopsAt request.keyMemory request.keyLen.toNat entry.1

/-- The entry with the value and size of a SET. -/
def revise (entry : Entry) : Entry :=
  (entry.1, some request.payload, request.msgLen)

/-- A bucket after the key entry of a SET was found or made. -/
def entered (entries : List Entry) : List Entry :=
  if entries.any request.finds then entries
  else (request.addedKey, none, 0) :: entries

def assigned (entries : List Entry) : List Entry :=
  alterFirst request.finds (fun entry => some (request.revise entry))
    (request.entered entries)

def erased (entries : List Entry) : List Entry :=
  alterFirst request.finds (fun _ => none) entries

end Request

namespace Buckets

variable (buckets : Buckets)

def lookup (request : Request) : Option Entry :=
  (buckets request.bucket).find? request.finds

def answer (request : Request) : Response :=
  match request.method with
  | .get =>
      match buckets.lookup request with
      | some entry => entry.response
      | none => Response.refusal
  | .del =>
      if (buckets.lookup request).isSome then Response.zero
      else Response.refusal
  | _ => Response.zero

def after (request : Request) : Buckets :=
  match request.method with
  | .set => Function.update buckets request.bucket
      (request.assigned (buckets request.bucket))
  | .del => Function.update buckets request.bucket
      (request.erased (buckets request.bucket))
  | .rst => fun _ => []
  | _ => buckets

theorem after_cases (request : Request) :
    (request.method = .set ∧ buckets.after request =
        Function.update buckets request.bucket
          (request.assigned (buckets request.bucket))) ∨
      (request.method = .del ∧ buckets.after request =
        Function.update buckets request.bucket
          (request.erased (buckets request.bucket))) ∨
      (request.method = .rst ∧ buckets.after request = fun _ => []) ∨
      buckets.after request = buckets := by
  unfold after
  cases request.method <;> simp

end Buckets

/-- The value of an entry has as many bytes as its size says. -/
def Entry.Whole (entry : Entry) : Prop :=
  (entry.2.1.getD []).length = entry.2.2.toNat

def Buckets.Whole (buckets : Buckets) : Prop :=
  ∀ bucket, ∀ entry ∈ buckets bucket, entry.Whole

theorem Buckets.Whole.after {buckets : Buckets} {request : Request}
    (whole : buckets.Whole) (fit : request.LengthsFit) :
    (buckets.after request).Whole := by
  rcases buckets.after_cases request with
    ⟨-, after⟩ | ⟨-, after⟩ | ⟨-, after⟩ | after <;> rw [after]
  · refine (Function.forall_update_iff buckets fun _ entries =>
      ∀ entry ∈ entries, entry.Whole).mpr ⟨?_, fun other _ => whole other⟩
    have entered : ∀ entry ∈ request.entered (buckets request.bucket),
        entry.Whole := by
      intro entry member
      unfold Request.entered at member
      split at member
      case isTrue => exact whole _ entry member
      case isFalse =>
        rcases List.mem_cons.mp member with rfl | member
        · rfl
        · exact whole _ entry member
    intro entry member
    rcases mem_alterFirst member with kept | ⟨old, -, -, changed⟩
    · exact entered entry kept
    · cases changed
      exact Request.payload_length fit.2
  · refine (Function.forall_update_iff buckets fun _ entries =>
      ∀ entry ∈ entries, entry.Whole).mpr ⟨?_, fun other _ => whole other⟩
    intro entry member
    rcases mem_alterFirst member with kept | ⟨old, -, -, changed⟩
    · exact whole _ entry kept
    · cases changed
  · intro bucket entry member
    cases member
  · exact whole

/-- The store that answers one request after another from its entries. -/
def bucketStore : Machine Buckets Request Response where
  next := Buckets.after
  output := Buckets.answer

theorem executeAll_append (ht : HashTable)
    (first second : List (WorkerId × Request)) :
    executeAll ht (first ++ second) =
      (executeAll ht first).bind fun (ht, responses) =>
        (executeAll ht second).map fun (ht, more) =>
          (ht, responses ++ more) := by
  induction first generalizing ht with
  | nil => simp [executeAll]
  | cons turn turns ih =>
      simp only [List.cons_append, executeAll, ih, Option.map_bind,
        Option.bind_assoc, Option.bind_map, Function.comp_def, Option.map_map]

/-- A table of the server's size between whole requests. -/
structure HashTable.Settled (ht : HashTable) : Prop where
  linked : Linked ht ht.bucketItems
  quiet : Quiescent ht
  capacity : ht.capacity = htCapacity

theorem HashTable.getBucket_of_capacity {ht : HashTable}
    (capacity : ht.capacity = htCapacity) (request : Request) :
    ht.getBucket request.keyMemory = request.bucket := by
  rw [getBucket, capacity, Request.bucket]

variable {ht after : HashTable} {worker : WorkerId} {request : Request}
variable {p : Ptr} {item : HashItem} {bucket : Nat} {entries : List Entry}

theorem Request.finds_addedKey (request : Request) (value : Option Bytes)
    (size : UInt64) :
    request.finds (request.addedKey, value, size) = true := by
  simp only [finds, decide_eq_true_eq, StopsAt, addedKey,
    CString.contents_append_terminator, CString.contents_take, List.take_take,
    Nat.min_self]

theorem Request.find?_entered (request : Request) (entries : List Entry) :
    ((request.entered entries).find? request.finds).isSome := by
  unfold entered
  split
  case isTrue found =>
    rw [List.find?_isSome]
    simpa using found
  case isFalse =>
    rw [List.find?_cons_of_pos (request.finds_addedKey none 0)]
    rfl

namespace HashTable

theorem matchesKey_eq_finds (request : Request) :
    matchesKey ht.heap request.keyMemory request.keyLen.toNat = fun p =>
      (ht.entryAt p).any request.finds := by
  funext p
  rw [Bool.eq_iff_iff, matchesKey_iff_stopsAt]
  cases read : ht.heap p <;>
    simp [keyAt, entryAt, read, Request.finds]

theorem entryAt_of_read (read : ht.heap p = some item) :
    ht.entryAt p = some item.entry := by
  rw [entryAt, read, Option.map_some, HashItem.entry]

theorem entryAt_writeItem_eq_update {write : HashItem → HashItem}
    {change : Entry → Entry}
    (changes : ∀ item : HashItem, (write item).entry = change item.entry) :
    (ht.writeItem p write).entryAt =
      Function.update ht.entryAt p
        ((ht.entryAt p).bind fun entry => some (change entry)) := by
  funext q
  rw [entryAt, writeItem_heap]
  by_cases same : q = p
  · subst same
    rw [Function.update_self, modifyAt_self, entryAt]
    cases read : ht.heap q with
    | none => rfl
    | some item => exact congrArg some (changes item)
  · rw [Function.update_of_ne same,
      modifyAt_of_ne fun target => same (Option.some.inj target).symm, entryAt]

theorem find?_contents (ht : HashTable) (request : Request) (bucket : Nat) :
    (ht.contents bucket).find? request.finds =
      ((ht.bucketItems bucket).find? fun p =>
        (ht.entryAt p).any request.finds).bind ht.entryAt := by
  rw [contents, List.find?_filterMap]

theorem Linked.search_eq_find? (linked : Linked ht ht.bucketItems)
    (request : Request) :
    ht.search request.keyMemory request.keyLen.toNat =
      some ((ht.bucketItems (ht.getBucket request.keyMemory)).find? fun p =>
        (ht.entryAt p).any request.finds) := by
  rw [linked.search_eq, matchesKey_eq_finds]

/-- Changing the entry of the item that a lookup returns changes the first
entry that it finds. -/
theorem Linked.contents_update (linked : Linked ht ht.bucketItems)
    {change : Entry → Option Entry}
    (isFirst : (ht.bucketItems bucket).find? (fun p =>
      (ht.entryAt p).any request.finds) = some p)
    (items : after.bucketItems = ht.bucketItems)
    (entries : after.entryAt =
      Function.update ht.entryAt p ((ht.entryAt p).bind change)) :
    after.contents = Function.update ht.contents bucket
      (alterFirst request.finds change (ht.contents bucket)) := by
  funext other
  rw [contents, items, entries]
  by_cases same : other = bucket
  · subst same
    rw [Function.update_self]
    exact filterMap_update_find? (linked.nodup other) isFirst
  · rw [Function.update_of_ne same, contents]
    apply List.filterMap_congr
    intro q member
    have away : q ≠ p := by
      rintro rfl
      exact same (linked.separate other bucket q member
        (List.mem_of_find?_eq_some isFirst))
    exact Function.update_of_ne away _ _

/-- Removing the item that a lookup returns drops the first entry that it
finds. -/
theorem Linked.contents_unlinkItem (linked : Linked ht ht.bucketItems)
    (isFirst : (ht.bucketItems bucket).find? (fun p =>
      (ht.entryAt p).any request.finds) = some p)
    (read : ht.heap p = some item) :
    (ht.unlinkItem bucket p item).contents =
      Function.update ht.contents bucket
        (request.erased (ht.contents bucket)) := by
  have member := List.mem_of_find?_eq_some isFirst
  have kept (items : List Ptr) (notIn : p ∉ items) :
      items.filterMap (ht.unlinkItem bucket p item).entryAt =
        items.filterMap ht.entryAt :=
    filterMap_entryAt_congr fun q inItems =>
      unlinkItem_data fun same => notIn (same ▸ inItems)
  funext other
  rw [contents, (linked.unlinkItem member read).bucketItems_eq]
  by_cases same : other = bucket
  · subst same
    rw [Function.update_self, Function.update_self,
      kept _ (linked.nodup other).not_mem_erase]
    exact filterMap_erase_find? (linked.nodup other) isFirst
  · rw [Function.update_of_ne same, Function.update_of_ne same,
      kept _ fun inOther =>
        same (linked.separate other bucket p inOther member)]
    rfl

theorem Quiescent.writeItem (quiet : Quiescent ht)
    {write : HashItem → HashItem}
    (frees : ∀ item, (write item).rwlock = .free) :
    Quiescent (ht.writeItem p write) where
  mutexes := quiet.mutexes
  rwlocks q item read := by
    by_cases target : p = q
    · subst target
      rw [writeItem_heap, modifyAt_self, Option.map_eq_some_iff] at read
      obtain ⟨old, -, rfl⟩ := read
      exact frees old
    · rw [writeItem_heap, modifyAt_of_ne (by simpa using target)] at read
      exact quiet.rwlocks q item read

theorem settled_initHashtable (quiet : Quiescent ht)
    (allocated : ∀ p, ht.fresh ≤ p → ht.heap p = none) :
    Settled (ht.initHashtable htCapacity) ∧
      (ht.initHashtable htCapacity).contents = fun _ => [] := by
  have linked : Linked (ht.initHashtable htCapacity) fun _ => [] :=
    linked_initHashtable (by decide) (by decide) allocated
  refine ⟨⟨linked.self, quiet.initHashtable _, rfl⟩, ?_⟩
  funext bucket
  rw [contents, linked.bucketItems_eq]
  rfl

namespace Settled

variable (settled : Settled ht)
include settled

theorem getBucket_eq (request : Request) :
    ht.getBucket request.keyMemory = request.bucket :=
  getBucket_of_capacity settled.capacity request

/-- A lookup in the table and one in its contents fail together or return an
item and its entry. -/
theorem lookup_cases (request : Request) :
    ht.search request.keyMemory request.keyLen.toNat = some none ∧
        Buckets.lookup ht.contents request = none ∨
      ∃ p item,
        ht.search request.keyMemory request.keyLen.toNat = some (some p) ∧
        ht.heap p = some item ∧ item.rwlock = .free ∧
        (ht.bucketItems request.bucket).find? (fun p =>
          (ht.entryAt p).any request.finds) = some p ∧
        Buckets.lookup ht.contents request = some item.entry := by
  have searched := settled.linked.search_eq_find? request
  rw [settled.getBucket_eq] at searched
  have looked := find?_contents ht request request.bucket
  cases found : (ht.bucketItems request.bucket).find? fun p =>
      (ht.entryAt p).any request.finds with
  | none =>
      rw [found] at searched looked
      exact .inl ⟨searched, looked⟩
  | some p =>
      rw [found] at searched looked
      obtain ⟨item, read⟩ :=
        settled.linked.read_of_mem (List.mem_of_find?_eq_some found)
      rw [Option.bind_some, entryAt_of_read read] at looked
      exact .inr ⟨p, item, searched, read, settled.quiet.rwlocks p item read,
        rfl, looked⟩

/-- `get_key_entry` returns the item of the first entry that a lookup finds
afterwards. -/
theorem getKeyEntry (worker : WorkerId) (request : Request) :
    ∃ middle p item,
      ht.getKeyEntry worker request.keyMemory request.keyLen.toNat =
        some (middle, p) ∧
      Settled middle ∧ middle.heap p = some item ∧ item.rwlock = .free ∧
      (middle.bucketItems request.bucket).find? (fun p =>
        (middle.entryAt p).any request.finds) = some p ∧
      middle.contents = Function.update ht.contents request.bucket
        (request.entered (ht.contents request.bucket)) := by
  have free := settled.quiet.mutexes (ht.getBucket request.keyMemory)
  rcases settled.lookup_cases request with
    ⟨missing, absent⟩ | ⟨p, item, found, read, unheld, isFirst, present⟩
  · have absent : ¬ (ht.contents request.bucket).any request.finds := by
      simpa [Buckets.lookup] using absent
    have inside := settled.linked.getBucket_lt request.keyMemory
    have contentsEq := settled.linked.contents_insertEntry request inside
    have entered := getKeyEntry_of_missing worker free missing
    have inserted : Linked (ht.insertEntry
        (ht.getBucket request.keyMemory) request.keyMemory
        request.keyLen.toNat).1 _ := settled.linked.insertEntry inside
    have readNew := insertEntry_read_fresh ht
      (ht.getBucket request.keyMemory) request.keyMemory
      request.keyLen.toNat
    have shown := entryAt_of_read readNew
    rw [settled.getBucket_eq] at entered inserted contentsEq readNew shown
    refine ⟨(ht.insertEntry request.bucket request.keyMemory
      request.keyLen.toNat).1, _, _, entered,
      ⟨inserted.self, settled.quiet.insertEntry, settled.capacity⟩, readNew,
      rfl, ?_, ?_⟩
    · rw [inserted.bucketItems_eq, Function.update_self,
        List.find?_cons_of_pos]
      rw [shown]
      exact request.finds_addedKey none 0
    · rw [contentsEq, Request.entered, if_neg absent]
  · have present : (ht.contents request.bucket).any request.finds :=
      List.any_eq_true.mpr (List.find?_isSome.mp (Option.isSome_of_mem present))
    refine ⟨ht, p, item, getKeyEntry_of_found worker free found, settled,
      read, unheld, isFirst, ?_⟩
    rw [Request.entered, if_pos present, Function.update_eq_self]

theorem setRequest (worker : WorkerId) (request : Request) :
    ∃ after, RdmaKVStore.setRequest worker ht request Response.zero =
        some (after, Response.zero) ∧ Settled after ∧
      after.contents = Function.update ht.contents request.bucket
        (request.assigned (ht.contents request.bucket)) := by
  obtain ⟨middle, p, item, entered, ok, read, unheld, isFirst, contentsEq⟩ :=
    settled.getKeyEntry worker request
  have linked : Linked (middle.writeItem p (HashTable.assigned request))
      middle.bucketItems :=
    ok.linked.writeItem (fun _ => rfl) fun _ => rfl
  have entries : (middle.writeItem p (HashTable.assigned request)).entryAt =
      Function.update middle.entryAt p
        ((middle.entryAt p).bind fun entry => some (request.revise entry)) :=
    entryAt_writeItem_eq_update fun _ => rfl
  refine ⟨_, setRequest_of_entry entered read unheld,
    ⟨linked.self, ok.quiet.writeItem fun _ => rfl, ok.capacity⟩, ?_⟩
  rw [ok.linked.contents_update isFirst linked.bucketItems_eq entries,
    contentsEq, Function.update_self, Function.update_idem, Request.assigned]

theorem getRequest (worker : WorkerId) (request : Request)
    (method : request.method = .get) :
    RdmaKVStore.getRequest worker ht request Response.zero =
      some (ht, Buckets.answer ht.contents request) := by
  rcases settled.lookup_cases request with
    ⟨missing, absent⟩ | ⟨p, item, found, read, unheld, -, present⟩
  · simp only [RdmaKVStore.getRequest, missing, Option.bind_some,
      Buckets.answer, method, absent, Response.refusal]
  · rw [getRequest_of_found found read unheld]
    simp only [Buckets.answer, method, present]
    rfl

theorem delRequest (worker : WorkerId) (request : Request)
    (method : request.method = .del) :
    ∃ after, RdmaKVStore.delRequest worker ht request Response.zero =
        some (after, Buckets.answer ht.contents request) ∧ Settled after ∧
      after.contents = Function.update ht.contents request.bucket
        (request.erased (ht.contents request.bucket)) := by
  have free := settled.quiet.mutexes (ht.getBucket request.keyMemory)
  rcases settled.lookup_cases request with
    ⟨missing, absent⟩ | ⟨p, item, found, read, unheld, isFirst, present⟩
  · have removed := removeItem_of_missing worker free missing
    refine ⟨ht, ?_, settled, ?_⟩
    · simp [RdmaKVStore.delRequest, removed, Buckets.answer, method, absent,
        Response.refusal]
    · rw [Request.erased, alterFirst_of_forall_not, Function.update_eq_self]
      simpa [Buckets.lookup] using absent
  · have removed := removeItem_of_found worker free found read unheld
    have member := List.mem_of_find?_eq_some isFirst
    rw [settled.getBucket_eq] at removed
    refine ⟨_, ?_, ⟨(settled.linked.unlinkItem member read).self,
      settled.quiet.unlinkItem, settled.capacity⟩,
      settled.linked.contents_unlinkItem isFirst read⟩
    simp [RdmaKVStore.delRequest, removed, Buckets.answer, method, present,
      Response.zero]

/-- A request answers and changes a table as it does the contents. -/
theorem execute (worker : WorkerId) (request : Request) :
    ∃ after, RdmaKVStore.execute worker ht request =
        some (after, Buckets.answer ht.contents request) ∧ Settled after ∧
      after.contents = Buckets.after ht.contents request := by
  cases method : request.method with
  | set =>
      simp only [RdmaKVStore.execute, Buckets.answer, Buckets.after, method]
      exact settled.setRequest worker request
  | get =>
      refine ⟨ht, ?_, settled, ?_⟩
      · simp only [RdmaKVStore.execute, method]
        exact settled.getRequest worker request method
      · simp only [Buckets.after, method]
  | del =>
      obtain ⟨after, executed, ok, contentsEq⟩ :=
        settled.delRequest worker request method
      refine ⟨after, ?_, ok, ?_⟩
      · simp only [RdmaKVStore.execute, method]
        exact executed
      · simp only [Buckets.after, method]
        exact contentsEq
  | rst =>
      obtain ⟨ok, contentsEq⟩ :=
        settled_initHashtable settled.quiet settled.linked.allocated
      simp only [RdmaKVStore.execute, Buckets.answer, Buckets.after, method]
      exact ⟨_, rfl, ok, contentsEq⟩
  | unk | ping | dump | exit | setopt =>
      simp only [RdmaKVStore.execute, Buckets.answer, Buckets.after, method]
      exact ⟨ht, rfl, settled, rfl⟩

theorem executeAll (turns : List (WorkerId × Request)) :
    ∃ after, RdmaKVStore.executeAll ht turns =
        some (after, (bucketStore.answered ht.contents
          (turns.map Prod.snd)).map Prod.snd) ∧
      Settled after ∧
      after.contents =
        bucketStore.final ht.contents (turns.map Prod.snd) := by
  induction turns generalizing ht with
  | nil => exact ⟨ht, rfl, settled, rfl⟩
  | cons turn turns ih =>
      obtain ⟨middle, executed, ok, middleEq⟩ :=
        settled.execute turn.1 turn.2
      obtain ⟨after, rest, final, contentsEq⟩ := ih ok
      rw [middleEq] at rest contentsEq
      refine ⟨after, ?_, final, contentsEq⟩
      simp only [RdmaKVStore.executeAll, executed, Option.bind_some, rest,
        Option.map_some, List.map_cons, Machine.answered]
      rfl

end Settled

theorem settled_empty :
    Settled empty ∧ empty.contents = fun _ => [] :=
  settled_initHashtable ⟨fun _ => rfl, fun _ _ read => by cases read⟩
    fun _ _ => rfl

end HashTable

def longestTurns : List (WorkerId × Request) :=
  [(0, .make .set [97] (List.replicate msgSize 1)), (1, .make .get [97] [])]

end RdmaKVStore
