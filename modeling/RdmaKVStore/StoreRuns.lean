import RdmaKVStore.StoreRefinement

/-!
# Runs of store requests

Each of SET, GET, DEL and RST answers as the map does and acts on the table as
the operation does on the map; hence so does every sequence of requests none of
which meets a longer key that starts with its own.
-/

namespace RdmaKVStore

open LinkedChain HashTable

def Response.holding (value : Bytes) : Response where
  code := .ok
  msg := writeArray (zeroArray msgSize) value
  msgLen := UInt64.ofNat value.length

def Response.refusal : Response :=
  { Response.zero with code := .keyError }

theorem Response.holding_body {value : Bytes} (fits : value.length ≤ msgSize) :
    (Response.holding value).body = value ∧
      (Response.holding value).msgLen.toNat = value.length := by
  have small : (UInt64.ofNat value.length).toNat = value.length := by
    rw [UInt64.toNat_ofNat']
    exact Nat.mod_eq_of_lt (by unfold msgSize at fits; omega)
  refine ⟨?_, small⟩
  simp only [body, holding, writeArray_toList _ _ fits, small]
  exact List.take_left

/-- What the map answers to a request whose key holds the given value. -/
def Request.answer (request : Request) (held : Option Bytes) : Response :=
  match request.method with
  | .get =>
      match held with
      | some value => Response.holding value
      | none => Response.refusal
  | .del => if held.isSome then Response.zero else Response.refusal
  | _ => Response.zero

structure Request.ForStore (request : Request) : Prop where
  wellFormed : request.WellFormed
  method : request.method = .set ∨ request.method = .get ∨
    request.method = .del ∨ request.method = .rst

instance (request : Request) : Decidable request.ForStore :=
  decidable_of_iff
    (request.WellFormed ∧ (request.method = .set ∨ request.method = .get ∨
      request.method = .del ∨ request.method = .rst))
    ⟨fun ⟨wellFormed, method⟩ => ⟨wellFormed, method⟩,
      fun ⟨wellFormed, method⟩ => ⟨wellFormed, method⟩⟩

namespace HashTable

variable {ht after : HashTable} {chains : Nat → List Ptr} {p : Ptr}
variable {item : HashItem} {request : Request} {response : Response}
variable {stored : Bytes → Option Bytes} {worker : WorkerId}

def assigned (request : Request) (item : HashItem) : HashItem :=
  { item with
    value := some request.payload
    valueSize := request.msgLen
    rwlock := .free }

theorem setRequest_of_entry
    (entered : ht.getKeyEntry worker request.keyMemory request.keyLen.toNat =
      some (after, p))
    (read : after.heap p = some item) (unheld : item.rwlock = .free) :
    setRequest worker ht request response =
      some (after.writeItem p (assigned request),
        { response with code := .ok }) := by
  simp only [setRequest, entered, Option.bind_some, read, Option.map_some,
    unheld, RwLock.trywrlock_free, setRwlock, storeValue, unlockItem,
    writeItem, modifyAt_modifyAt]
  rfl

theorem getRequest_of_found
    (found : ht.search request.keyMemory request.keyLen.toNat = some (some p))
    (read : ht.heap p = some item) (unheld : item.rwlock = .free) :
    getRequest worker ht request response =
      some (ht, response.copyValue item) := by
  have unlocked : (RwLock.readers [worker]).unlock worker = .free := by
    simp [RwLock.unlock, RwLock.free]
  have unchanged : modifyAt ht.heap (some p)
      (fun item => { item with
        rwlock := (RwLock.readers [worker]).unlock worker }) = ht.heap :=
    modifyAt_eq_self read (by rw [unlocked, ← unheld])
  simp only [getRequest, found, Option.bind_some, read, Option.map_some,
    unheld, RwLock.free, RwLock.tryrdlock, setRwlock, unlockItem, writeItem,
    modifyAt_modifyAt, unchanged]

theorem copyValue_eq_holding {value : Bytes}
    (valueEq : item.value = some value)
    (sizeEq : item.valueSize.toNat = value.length) :
    Response.zero.copyValue item = Response.holding value := by
  have size : item.valueSize = UInt64.ofNat value.length := by
    rw [← sizeEq, UInt64.ofNat_toNat]
  simp only [Response.copyValue, Response.holding, Response.zero, valueEq,
    Option.getD_some, sizeEq, List.take_length]
  rw [size]

theorem Consistent.assigned (consistent : Consistent ht chains) (p : Ptr)
    (request : Request) :
    Consistent (ht.writeItem p (assigned request)) chains :=
  consistent.writeItem (fun _ => rfl) (fun _ => rfl) (fun _ => rfl)
    fun _ => rfl

theorem Represents.setRequest_of_missing
    (represents : Represents ht chains stored) (worker : WorkerId)
    (wellFormed : request.WellFormed)
    (missing : ht.search request.keyMemory
      (CString.strlen request.keyMemory) = some none) :
    ∃ after chains', setRequest worker ht request Response.zero =
        some (after, Response.zero) ∧
      Represents after chains'
        (Function.update stored request.keyString (some request.payload)) := by
  have consistent := represents.consistent
  have sizeEq := Request.payload_length wellFormed.msg
  have keyLen := wellFormed.key.1
  set bucket := ht.getBucket request.keyMemory with bucketEq
  set chains' := Function.update chains bucket (ht.fresh :: chains bucket)
    with chainsEq
  have chainOf : chains' bucket = ht.fresh :: chains bucket :=
    Function.update_self _ _ _
  have inserted : Consistent
      (ht.insertEntry bucket request.keyMemory request.keyLen.toNat).1
      chains' := by
    rw [keyLen]
    exact consistent.insertEntry missing
  have entered := getKeyEntry_of_missing worker
    (consistent.quiet.mutexes bucket) missing
  rw [← keyLen] at entered
  have readNew := insertEntry_read_fresh ht bucket request.keyMemory
    request.keyLen.toNat
  have newKey : CString.contents (HashTable.assigned request
      (ht.newItem bucket request.keyMemory request.keyLen.toNat)).key =
        request.keyString := by
    rw [keyLen]
    exact contents_newItem_key ht bucket request.keyMemory
  have read : ((ht.insertEntry bucket request.keyMemory
      request.keyLen.toNat).1.writeItem ht.fresh
        (HashTable.assigned request)).heap ht.fresh =
      some (HashTable.assigned request
        (ht.newItem bucket request.keyMemory request.keyLen.toNat)) := by
    rw [writeItem_heap, modifyAt_self, readNew, Option.map_some]
  refine ⟨_, chains', setRequest_of_entry entered readNew rfl, ?_⟩
  rw [← newKey]
  refine represents.assign (inserted.assigned ht.fresh request) rfl
    (chainOf ▸ List.mem_cons_self) read rfl sizeEq.symm
    (sizeEq ▸ wellFormed.msg) ?_ ?_ ?_ ?_
  · intro b q inB
    by_cases same : b = bucket
    · subst same
      rw [chainOf]
      exact List.mem_cons_of_mem _ inB
    · rwa [chainsEq, Function.update_of_ne same]
  · intro b q inB other
    by_cases same : b = bucket
    · subst same
      rw [chainOf] at inB
      exact (List.mem_cons.mp inB).resolve_left other
    · rwa [chainsEq, Function.update_of_ne same] at inB
  · intro q other
    rw [writeItem_heap, modifyAt_of_ne (by simpa using other.symm)]
    exact insertEntry_data other
  · intro item' read'
    rw [consistent.linked.allocated ht.fresh le_rfl] at read'
    cases read'

theorem Represents.setRequest_of_found
    (represents : Represents ht chains stored) (worker : WorkerId)
    (wellFormed : request.WellFormed)
    (found : ht.search request.keyMemory
      (CString.strlen request.keyMemory) = some (some p))
    (member : p ∈ chains (ht.getBucket request.keyMemory))
    (read : ht.heap p = some item)
    (keyEq : CString.contents item.key = request.keyString) :
    ∃ after, setRequest worker ht request Response.zero =
        some (after, Response.zero) ∧
      Represents after chains
        (Function.update stored request.keyString (some request.payload)) := by
  have consistent := represents.consistent
  have sizeEq := Request.payload_length wellFormed.msg
  have entered := getKeyEntry_of_found worker
    (consistent.quiet.mutexes (ht.getBucket request.keyMemory)) found
  rw [← wellFormed.key.1] at entered
  refine ⟨_, setRequest_of_entry entered read
    (consistent.quiet.rwlocks p item read), ?_⟩
  have sameKey : request.keyString =
      CString.contents (HashTable.assigned request item).key := keyEq.symm
  rw [sameKey]
  refine represents.assign (consistent.assigned p request) rfl member ?_ rfl
    sizeEq.symm (sizeEq ▸ wellFormed.msg) (fun _ _ => id)
    (fun _ _ inB _ => inB) ?_ ?_
  · rw [writeItem_heap, modifyAt_self, read, Option.map_some]
  · intro q other
    rw [writeItem_heap, modifyAt_of_ne (by simpa using other.symm)]
  · intro item' read'
    obtain rfl := Option.some.inj (read.symm.trans read')
    rfl

theorem Represents.setRequest (represents : Represents ht chains stored)
    (worker : WorkerId)
    (wellFormed : request.WellFormed)
    (exactKey : ht.LookupExact request.keyMemory) :
    ∃ after chains', setRequest worker ht request Response.zero =
        some (after, Response.zero) ∧
      Represents after chains'
        (Function.update stored request.keyString (some request.payload)) := by
  rcases represents.consistent.search_exact exactKey with
    ⟨missing, -⟩ | ⟨p, item, found, member, read, keyEq⟩
  · exact represents.setRequest_of_missing worker wellFormed missing
  · obtain ⟨after, answered, represented⟩ := represents.setRequest_of_found
      worker wellFormed found member read keyEq
    exact ⟨after, chains, answered, represented⟩

theorem Represents.stored_of_read {bucket : Nat}
    (represents : Represents ht chains stored)
    (member : p ∈ chains bucket) (read : ht.heap p = some item)
    (keyEq : CString.contents item.key = request.keyString) :
    ∃ value, stored request.keyString = some value ∧
      item.value = some value ∧ item.valueSize.toNat = value.length := by
  obtain ⟨value, held, valueEq, sizeEq, -⟩ :=
    represents.sound _ p item member read
  exact ⟨value, keyEq ▸ held, valueEq, sizeEq⟩

theorem Represents.stored_of_missing (represents : Represents ht chains stored)
    (absent : ∀ p ∈ chains (ht.getBucket request.keyMemory),
      ht.keyAt p ≠ some (CString.contents request.keyMemory)) :
    stored request.keyString = none := by
  by_contra present
  obtain ⟨value, held⟩ := Option.ne_none_iff_exists'.mp present
  obtain ⟨p, member, keyEq⟩ :=
    represents.complete request.keyMemory value held
  exact absent p member keyEq

theorem Represents.getRequest (represents : Represents ht chains stored)
    (worker : WorkerId)
    (wellFormed : request.WellFormed) (method : request.method = .get)
    (exactKey : ht.LookupExact request.keyMemory) :
    getRequest worker ht request Response.zero =
      some (ht, request.answer (stored request.keyString)) := by
  have consistent := represents.consistent
  have keyLen := wellFormed.key.1
  rcases consistent.search_exact exactKey with
    ⟨missing, absent⟩ | ⟨p, item, found, member, read, keyEq⟩
  · rw [represents.stored_of_missing absent]
    rw [← keyLen] at missing
    simp only [RdmaKVStore.getRequest, missing, Option.bind_some,
      Request.answer, method, Response.refusal]
  · obtain ⟨value, held, valueEq, sizeEq⟩ :=
      represents.stored_of_read member read keyEq
    rw [← keyLen] at found
    rw [getRequest_of_found found read
      (consistent.quiet.rwlocks p item read), held,
      copyValue_eq_holding valueEq sizeEq]
    simp only [Request.answer, method]

theorem Represents.delRequest (represents : Represents ht chains stored)
    (worker : WorkerId)
    (wellFormed : request.WellFormed) (method : request.method = .del)
    (exactKey : ht.LookupExact request.keyMemory) :
    ∃ after chains', delRequest worker ht request Response.zero =
        some (after, request.answer (stored request.keyString)) ∧
      Represents after chains'
        (Function.update stored request.keyString none) := by
  have consistent := represents.consistent
  have keyLen := wellFormed.key.1
  have free := consistent.quiet.mutexes (ht.getBucket request.keyMemory)
  rcases consistent.search_exact exactKey with
    ⟨missing, absent⟩ | ⟨p, item, found, member, read, keyEq⟩
  · have none := represents.stored_of_missing absent
    have removed := removeItem_of_missing worker free missing
    rw [← keyLen] at removed
    refine ⟨ht, chains, ?_, ?_⟩
    · simp [RdmaKVStore.delRequest, removed, Request.answer, method, none,
        Response.refusal]
    · rwa [← none, Function.update_eq_self]
  · obtain ⟨value, held, -, -⟩ :=
      represents.stored_of_read member read keyEq
    have removed := removeItem_of_found worker free found read
      (consistent.quiet.rwlocks p item read)
    rw [← keyLen] at removed
    refine ⟨_, _, ?_, keyEq ▸ represents.erase member read⟩
    simp [RdmaKVStore.delRequest, removed, Request.answer, method, held,
      Response.zero]

theorem Represents.initHashtable (represents : Represents ht chains stored) :
    Represents (ht.initHashtable htCapacity) (fun _ => []) fun _ => none where
  consistent := consistent_initHashtable represents.consistent.quiet
    (by decide) (by decide) represents.consistent.linked.allocated
  sound _ _ _ member := by simp at member
  complete _ _ held := by simp at held

end HashTable

open MapOperation

variable {ht after : HashTable} {chains : Nat → List Ptr} {request : Request}
variable {stored : Bytes → Option Bytes} {worker : WorkerId}

/-- The lookup of a request, if it makes one, is exact. -/
def Request.Exact (request : Request) (ht : HashTable) : Prop :=
  request.method ≠ .rst → ht.LookupExact request.keyMemory

/-- One request answers as the map and acts as its operation. -/
theorem HashTable.Represents.execute (represents : Represents ht chains stored)
    (worker : WorkerId)
    (forStore : request.ForStore) (exactKey : request.Exact ht) :
    ∃ after chains', execute worker ht request =
        some (after, request.answer (stored request.keyString)) ∧
      Represents after chains' (request.operation.apply stored) := by
  have wellFormed := forStore.wellFormed
  rcases forStore.method with method | method | method | method
  · obtain ⟨after, chains', executed, ok⟩ := represents.setRequest
      worker wellFormed (exactKey (by simp [method]))
    refine ⟨after, chains', ?_, ?_⟩
    · simp only [RdmaKVStore.execute, method, executed, Request.answer]
    · simpa only [Request.operation, method, apply] using ok
  · have executed := represents.getRequest worker wellFormed
      method (exactKey (by simp [method]))
    refine ⟨ht, chains, ?_, ?_⟩
    · simp only [RdmaKVStore.execute, method, executed]
    · simpa only [Request.operation, method, apply] using represents
  · obtain ⟨after, chains', executed, ok⟩ := represents.delRequest
      worker wellFormed method (exactKey (by simp [method]))
    refine ⟨after, chains', ?_, ?_⟩
    · simp only [RdmaKVStore.execute, method, executed]
    · simpa only [Request.operation, method, apply] using ok
  · refine ⟨ht.initHashtable htCapacity, fun _ => [], ?_, ?_⟩
    · simp only [RdmaKVStore.execute, method, Request.answer]
      rfl
    · simpa only [Request.operation, method, apply]
        using represents.initHashtable

def ExactRun (ht : HashTable) : List (WorkerId × Request) → Prop
  | [] => True
  | (worker, request) :: turns =>
      request.Exact ht ∧
        ∀ turn ∈ execute worker ht request, ExactRun turn.1 turns

instance (request : Request) (ht : HashTable) : Decidable (request.Exact ht) :=
  inferInstanceAs (Decidable (_ → _))

instance ExactRun.decide :
    ∀ (ht : HashTable) (turns : List (WorkerId × Request)),
      Decidable (ExactRun ht turns)
  | _, [] => isTrue trivial
  | ht, (worker, request) :: turns =>
      have := fun turn : HashTable × Response =>
        ExactRun.decide turn.1 turns
      inferInstanceAs (Decidable (request.Exact ht ∧
        ∀ turn ∈ execute worker ht request, ExactRun turn.1 turns))

/-- The operations of a run, latest first, before an earlier history. -/
def historyAfter (earlier : List (MapOperation Bytes Bytes))
    (turns : List (WorkerId × Request)) : List (MapOperation Bytes Bytes) :=
  (turns.map fun turn => turn.2.operation).reverse ++ earlier

theorem historyAfter_cons (earlier : List (MapOperation Bytes Bytes))
    (turn : WorkerId × Request) (turns : List (WorkerId × Request)) :
    historyAfter earlier (turn :: turns) =
      historyAfter (turn.2.operation :: earlier) turns := by
  simp [historyAfter]

/-- An exact run answers each request as the map with the history before it,
and ends in a table that represents the map with the whole history. -/
theorem HashTable.Represents.executeAll
    {earlier : List (MapOperation Bytes Bytes)}
    (represents : Represents ht chains fun key => latest key earlier)
    {turns : List (WorkerId × Request)}
    (forStore : ∀ turn ∈ turns, turn.2.ForStore)
    (exactRun : ExactRun ht turns) :
    ∃ after chains' responses, executeAll ht turns = some (after, responses) ∧
      Represents after chains'
        (fun key => latest key (historyAfter earlier turns)) ∧
      responses.length = turns.length ∧
      ∀ i worker (request : Request), turns[i]? = some (worker, request) →
        responses[i]? = some (request.answer
          (latest request.keyString
            (historyAfter earlier (turns.take i)))) := by
  induction turns generalizing ht chains earlier with
  | nil => exact ⟨ht, chains, [], rfl, represents, rfl, by simp⟩
  | cons turn turns ih =>
      obtain ⟨worker, request⟩ := turn
      obtain ⟨exactKey, exactRest⟩ := exactRun
      obtain ⟨middle, chains₁, executed, middleOk⟩ := represents.execute
        worker (forStore (worker, request) (by simp)) exactKey
      rw [← latest_cons] at middleOk
      obtain ⟨after, chains₂, responses, rest, afterOk, length, answers⟩ :=
        ih middleOk (fun turn member => forStore turn (by simp [member]))
          (exactRest _ executed)
      refine ⟨after, chains₂,
        request.answer (latest request.keyString earlier) :: responses,
        ?_, ?_, by simp [length], ?_⟩
      · simp only [RdmaKVStore.executeAll, executed, Option.bind_some, rest,
          Option.map_some]
      · rwa [historyAfter_cons]
      · intro i other request' here
        cases i with
        | zero =>
            obtain ⟨rfl, rfl⟩ := by simpa using here
            simp [historyAfter]
        | succ i =>
            rw [List.getElem?_cons_succ] at here ⊢
            rw [List.take_succ_cons, historyAfter_cons]
            exact answers i other request' here

/-- The answer to a request, given the value of its key: GET returns exactly
the value or refuses, DEL succeeds exactly when there is one. -/
structure Request.AnsweredBy (request : Request) (held : Option Bytes)
    (response : Response) : Prop where
  get_held : request.method = .get → ∀ value, held = some value →
    response.code = .ok ∧ response.body = value ∧
      response.msgLen.toNat = value.length
  get_missing : request.method = .get → held = none →
    response.code = .keyError
  del : request.method = .del → (response.code = .ok ↔ held.isSome)

theorem latest_length_le {turns : List (WorkerId × Request)}
    (forStore : ∀ turn ∈ turns, turn.2.ForStore) {key value : Bytes}
    (held : latest key (historyAfter [] turns) = some value) :
    value.length ≤ msgSize := by
  have member := assign_mem_of_latest held
  simp only [historyAfter, List.append_nil, List.mem_reverse,
    List.mem_map] at member
  obtain ⟨turn, member, operation⟩ := member
  have wellFormed := (forStore turn member).wellFormed
  unfold Request.operation at operation
  split at operation <;> cases operation
  rw [Request.payload_length wellFormed.msg]
  exact wellFormed.msg

theorem Request.answeredBy_answer {held : Option Bytes}
    (small : ∀ value, held = some value → value.length ≤ msgSize) :
    request.AnsweredBy held (request.answer held) where
  get_held method value heldEq := by
    obtain ⟨body, size⟩ := Response.holding_body (small value heldEq)
    simp only [answer, method, heldEq]
    exact ⟨rfl, body, size⟩
  get_missing method heldEq := by
    simp [answer, method, heldEq, Response.refusal]
  del method := by
    cases held <;> simp [answer, method, Response.zero, Response.refusal]

/-- Along every run from the empty table in which no request meets a longer
key that starts with its own before its own key, each request is answered as
by the exact-key map; and in the table such a run ends in, SET and DEL leave
the answers to GETs of other keys alone. -/
theorem exactRun_answers_as_map (turns : List (WorkerId × Request))
    (forStore : ∀ turn ∈ turns, turn.2.ForStore)
    (exactRun : ExactRun empty turns) :
    ∃ ht responses, executeAll empty turns = some (ht, responses) ∧
      responses.length = turns.length ∧
      (∀ i worker (request : Request) response,
        turns[i]? = some (worker, request) →
        responses[i]? = some response →
          request.AnsweredBy
            (latest request.keyString (historyAfter [] (turns.take i)))
            response) ∧
      ∀ writer reader (change get : Request) after response,
        change.ForStore → change.method = .set ∨ change.method = .del →
        get.ForStore → get.method = .get →
        change.keyString ≠ get.keyString →
        change.Exact ht → get.Exact ht → get.Exact after →
        execute writer ht change = some (after, response) →
          (execute reader after get).map Prod.snd =
            (execute reader ht get).map Prod.snd := by
  have start : Represents empty (fun _ => []) fun key => latest key [] :=
    represents_empty
  obtain ⟨ht, chains, responses, run, represents, length, answers⟩ :=
    start.executeAll forStore exactRun
  refine ⟨ht, responses, run, length, ?_, ?_⟩
  · intro i worker request response here answered
    rw [answers i worker request here, Option.some.injEq] at answered
    subst answered
    refine Request.answeredBy_answer fun value held => latest_length_le
      (fun turn member => forStore turn (List.mem_of_mem_take member)) held
  · intro writer reader change get after response changeOk changes getOk gets
      distinct changeExact getBefore getAfter executed
    obtain ⟨after', chains', executed', afterOk⟩ :=
      represents.execute writer changeOk changeExact
    obtain ⟨rfl, -⟩ : after' = after ∧ _ := by
      simpa using executed'.symm.trans executed
    obtain ⟨_, _, beforeEq, -⟩ :=
      represents.execute reader getOk getBefore
    obtain ⟨_, _, afterEq, -⟩ :=
      afterOk.execute reader getOk getAfter
    rw [beforeEq, afterEq, Option.map_some, Option.map_some]
    rcases changes with method | method
    · rw [Request.operation, method, apply_assign_of_ne distinct.symm]
    · rw [Request.operation, method, apply_erase_of_ne distinct.symm]

def plainTurns : List (WorkerId × Request) :=
  [(0, .make .set [121] [1, 2, 3]), (1, .make .get [121] []),
    (0, .make .del [121] []), (1, .make .get [121] [])]

theorem plainTurns_answered :
    ∃ ht responses, executeAll empty plainTurns = some (ht, responses) ∧
      responses.length = 4 := by
  obtain ⟨ht, responses, run, length, -⟩ :=
    exactRun_answers_as_map plainTurns (by decide) (by decide)
  exact ⟨ht, responses, run, length⟩

/-- A SET of `y@` and a GET of `y`, which share a bucket. -/
def longerKeyTurns : List (WorkerId × Request) :=
  [(0, .make .set [121, 64] [1, 2, 3]), (0, .make .get [121] [])]

/-- A GET of a key that was never set succeeds with the value of a longer
key. -/
theorem longerKeyTurns_not_answered_as_map :
    (∀ turn ∈ longerKeyTurns, turn.2.ForStore) ∧
      ¬ ∃ ht responses,
        executeAll empty longerKeyTurns = some (ht, responses) ∧
          ∀ i worker (request : Request) response,
            longerKeyTurns[i]? = some (worker, request) →
            responses[i]? = some response →
              request.AnsweredBy (latest request.keyString
                (historyAfter [] (longerKeyTurns.take i))) response := by
  refine ⟨by decide, ?_⟩
  rintro ⟨ht, responses, run, answered⟩
  have codes : (executeAll empty longerKeyTurns).map
      (fun run => run.2.map Response.code) = some [.ok, .ok] := by decide
  rw [run, Option.map_some, Option.some.injEq] at codes
  obtain ⟨first, second, rfl⟩ : ∃ first second, responses = [first, second] :=
    List.length_eq_two.mp (by simpa using congrArg List.length codes)
  have refused :=
    (answered 1 0 (.make .get [121] []) second rfl rfl).get_missing rfl
      (by decide)
  simp [refused] at codes

end RdmaKVStore
