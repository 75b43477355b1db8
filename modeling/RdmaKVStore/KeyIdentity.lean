import Mathlib.Tactic.Ring
import RdmaKVStore.StoreRuns
import RdmaKVStore.TableContents

/-!
# Key identity

Comparison and storage use the first `key_len` bytes of a key, but `hash` reads
on to the first NUL, which may lie behind the key array.  Two requests that
agree in the first `key_len` bytes therefore have the same key exactly if what
follows these bytes takes the hash to the same bucket.
-/

namespace RdmaKVStore

open LinkedChain HashTable

/-! ### The hash as a polynomial -/

/-- What the bytes of a string add to its hash. -/
def charSum : Bytes → Nat
  | [] => 0
  | byte :: rest =>
      33 ^ rest.length * (charToInt byte).toNat + charSum rest

/-- The hash of a string that goes on after a part with the given hash. -/
def hashOn (acc : Nat) (rest : Bytes) : Nat :=
  (33 ^ rest.length * acc + charSum rest) % 2 ^ 32

theorem toNat_hashStep (acc char : UInt32) :
    (((acc <<< 5) + acc) + char).toNat =
      (33 * acc.toNat + char.toNat) % 2 ^ 32 := by
  have five : (5 : UInt32).toNat % 32 = 5 := by decide
  simp only [UInt32.toNat_add, UInt32.toNat_shiftLeft, Nat.shiftLeft_eq, five]
  omega

theorem toNat_hashLoop {text : Bytes} (noZero : 0 ∉ text) (acc : UInt32) :
    (hashLoop acc text).toNat = hashOn acc.toNat text := by
  induction text generalizing acc with
  | nil => simp [hashLoop, hashOn, charSum]
  | cons byte text ih =>
      have nonzero : byte ≠ 0 := fun equal => noZero (by simp [equal])
      have rest : 0 ∉ text := fun member => noZero (by simp [member])
      rw [hashLoop, if_neg nonzero, ih rest, toNat_hashStep]
      calc (33 ^ text.length *
              ((33 * acc.toNat + (charToInt byte).toNat) % 2 ^ 32) +
                charSum text) % 2 ^ 32
        _ = (33 ^ text.length *
              (33 * acc.toNat + (charToInt byte).toNat) +
                charSum text) % 2 ^ 32 := by
            rw [Nat.add_mod, Nat.mul_mod_mod, ← Nat.add_mod]
        _ = hashOn acc.toNat (byte :: text) := by
            rw [hashOn, charSum, List.length_cons]
            congr 1
            ring

theorem hashLoop_append {text : Bytes} (noZero : 0 ∉ text) (rest : Bytes)
    (acc : UInt32) :
    hashLoop acc (text ++ rest) = hashLoop (hashLoop acc text) rest := by
  induction text generalizing acc with
  | nil => rfl
  | cons byte text ih =>
      have nonzero : byte ≠ 0 := fun equal => noZero (by simp [equal])
      simp only [List.cons_append, hashLoop, if_neg nonzero]
      exact ih (fun member => noZero (by simp [member])) _

theorem toNat_hash_append {text : Bytes} (noZero : 0 ∉ text) (rest : Bytes) :
    (hash (text ++ rest)).toNat =
      hashOn (hashOn 5381 text) (CString.contents rest) := by
  rw [hash, hashLoop_append noZero, ← hashLoop_contents,
    toNat_hashLoop (CString.zero_notMem_contents rest), toNat_hashLoop noZero]
  rfl

/-! ### Requests for one key -/

/-- Requests whose key lengths are `n` and whose keys agree in their first `n`
bytes, none of them NUL. -/
structure SameKey (n : Nat) (first second : Request) : Prop where
  positive : 1 ≤ n
  fits : n ≤ keySize
  firstLen : first.keyLen.toNat = n
  secondLen : second.keyLen.toNat = n
  bytes : second.key.toList.take n = first.key.toList.take n
  noZero : 0 ∉ first.key.toList.take n

instance (n : Nat) (first second : Request) :
    Decidable (SameKey n first second) :=
  decidable_of_iff
    (1 ≤ n ∧ n ≤ keySize ∧ first.keyLen.toNat = n ∧
      second.keyLen.toNat = n ∧
      second.key.toList.take n = first.key.toList.take n ∧
      0 ∉ first.key.toList.take n)
    ⟨fun ⟨positive, fits, first, second, bytes, noZero⟩ =>
      ⟨positive, fits, first, second, bytes, noZero⟩,
      fun ⟨positive, fits, first, second, bytes, noZero⟩ =>
        ⟨positive, fits, first, second, bytes, noZero⟩⟩

/-- The bytes after the first `key_len` ones, up to the first NUL. -/
def Request.keyTail (request : Request) : Bytes :=
  CString.contents (request.keyMemory.drop request.keyLen.toNat)

/-- What follows the first `n` bytes of the keys takes their hash to the same
bucket. -/
def TailsAgree (capacity n : Nat) (first second : Request) : Prop :=
  hashOn (hashOn 5381 (first.key.toList.take n)) first.keyTail % capacity =
    hashOn (hashOn 5381 (first.key.toList.take n)) second.keyTail % capacity

instance (capacity n : Nat) (first second : Request) :
    Decidable (TailsAgree capacity n first second) :=
  inferInstanceAs (Decidable (_ = _))

/-- Nothing follows the key of a request whose `key_len` is the length of its
key string. -/
theorem Request.keyTail_eq_nil {request : Request}
    (wellFormed : request.KeyWellFormed) : request.keyTail = [] := by
  have split : CString.contents request.keyMemory ++
      request.keyMemory.drop request.keyLen.toNat = request.keyMemory := by
    rw [← CString.take_strlen, wellFormed.1, List.take_append_drop]
  have noZero := CString.zero_notMem_contents request.keyMemory
  have whole := congrArg CString.contents split
  rw [CString.contents_append _ noZero] at whole
  exact List.append_right_eq_self.mp whole

theorem tailsAgree_of_wellFormed {first second : Request}
    (firstKey : first.KeyWellFormed) (secondKey : second.KeyWellFormed)
    (capacity n : Nat) : TailsAgree capacity n first second := by
  rw [TailsAgree, Request.keyTail_eq_nil firstKey,
    Request.keyTail_eq_nil secondKey]

/-- The requests have one bucket, and a GET by the second right after a SET by
the first that was answered OK is answered OK with the message of the SET. -/
def KeyIdentified (ht : HashTable) (first second : Request) : Prop :=
  ht.getBucket first.keyMemory = ht.getBucket second.keyMemory ∧
    ∀ worker other after response,
      setRequest worker ht first Response.zero = some (after, response) →
      response.code = .ok → first.msgLen.toNat ≤ msgSize →
        ∃ final answer,
          getRequest other after second Response.zero =
              some (final, answer) ∧
            answer.code = .ok ∧ answer.msgLen = first.msgLen ∧
            answer.body = first.payload

variable {ht after entered : HashTable} {chains : Nat → List Ptr} {p : Ptr}
variable {n : Nat} {first second : Request} {worker : WorkerId}
variable {response : Response}

namespace SameKey

variable (same : SameKey n first second)
include same

theorem symm : SameKey n second first where
  positive := same.positive
  fits := same.fits
  firstLen := same.secondLen
  secondLen := same.firstLen
  bytes := same.bytes.symm
  noZero := same.bytes ▸ same.noZero

theorem keyMemory_eq :
    first.keyMemory =
      first.key.toList.take n ++ first.keyMemory.drop first.keyLen.toNat := by
  have inside : first.keyMemory.take n = first.key.toList.take n := by
    rw [Request.keyMemory, List.append_assoc, List.append_assoc]
    exact List.take_append_of_le_length
      (by rw [List.Vector.toList_length]; exact same.fits)
  rw [same.firstLen, ← inside, List.take_append_drop]

theorem toNat_hash :
    (hash first.keyMemory).toNat =
      hashOn (hashOn 5381 (first.key.toList.take n)) first.keyTail := by
  rw [same.keyMemory_eq, toNat_hash_append same.noZero]
  rfl

theorem take_contents :
    (CString.contents first.keyMemory).take n = first.key.toList.take n := by
  have length : (first.key.toList.take n).length = n :=
    List.length_take_of_le
      (by rw [List.Vector.toList_length]; exact same.fits)
  rw [same.keyMemory_eq, CString.contents_append _ same.noZero]
  exact List.take_left' length

theorem take_contents_eq :
    (CString.contents second.keyMemory).take n =
      (CString.contents first.keyMemory).take n := by
  rw [same.symm.take_contents, same.take_contents, same.bytes]

theorem getBucket_eq_iff :
    ht.getBucket first.keyMemory = ht.getBucket second.keyMemory ↔
      TailsAgree ht.capacity n first second := by
  rw [getBucket, getBucket, same.toNat_hash, same.symm.toNat_hash, same.bytes,
    TailsAgree]

end SameKey

namespace HashTable

theorem Linked.search_congr (linked : Linked ht chains) {key other : Bytes}
    (bucket : ht.getBucket other = ht.getBucket key)
    (compared : (CString.contents other).take n =
      (CString.contents key).take n) :
    ht.search other n = ht.search key n := by
  have sameTest : matchesKey ht.heap other n = matchesKey ht.heap key n := by
    funext p
    rw [Bool.eq_iff_iff, matchesKey_iff_stopsAt, matchesKey_iff_stopsAt]
    simp only [StopsAt, compared]
  rw [linked.search_eq, linked.search_eq, bucket, sameTest]

theorem Linked.search_writeItem (linked : Linked ht chains)
    {write : HashItem → HashItem}
    (keepsNext : ∀ item, (write item).next = item.next)
    (keepsPrev : ∀ item, (write item).prev = item.prev)
    (keepsKey : ∀ item, (write item).key = item.key) (key : Bytes) (n : Nat) :
    (ht.writeItem p write).search key n = ht.search key n := by
  have keys (q : Ptr) : (ht.writeItem p write).keyAt q = ht.keyAt q := by
    rw [keyAt, writeItem_heap, keyAt]
    exact modifyAt_map (fun item => by rw [keepsKey]) q
  have sameTest : matchesKey (ht.writeItem p write).heap key n =
      matchesKey ht.heap key n := by
    funext q
    rw [Bool.eq_iff_iff, matchesKey_iff_stopsAt, matchesKey_iff_stopsAt, keys]
  rw [(linked.writeItem keepsNext keepsPrev).search_eq, linked.search_eq,
    sameTest]
  rfl

theorem Linked.search_insertEntry (linked : Linked ht chains) (key : Bytes)
    (n : Nat) :
    (ht.insertEntry (ht.getBucket key) key n).1.search key n =
      some (some ht.fresh) := by
  have matched : matchesKey (ht.insertEntry (ht.getBucket key) key n).1.heap
      key n ht.fresh = true := by
    refine matchesKey_iff_stopsAt.mpr
      ⟨CString.contents (key.take n ++ [0]), ?_, ?_⟩
    · rw [keyAt, insertEntry_read_fresh, Option.map_some]
      rfl
    · rw [StopsAt, CString.contents_append_terminator, CString.contents_take,
        List.take_take, min_self]
  have inserted : Linked (ht.insertEntry (ht.getBucket key) key n).1
      (Function.update chains (ht.getBucket key)
        (ht.fresh :: chains (ht.getBucket key))) :=
    linked.insertEntry (linked.getBucket_lt key)
  have sameBucket :
      (ht.insertEntry (ht.getBucket key) key n).1.getBucket key =
        ht.getBucket key := rfl
  rw [inserted.search_eq, sameBucket, Function.update_self,
    List.find?_cons_of_pos matched]

/-- `get_key_entry` returns the item that a search for the key meets in the
table it leaves behind. -/
theorem Linked.search_getKeyEntry (linked : Linked ht chains) {key : Bytes}
    (got : ht.getKeyEntry worker key n = some (entered, p)) :
    entered.capacity = ht.capacity ∧ entered.search key n = some (some p) ∧
      ∃ chains', Linked entered chains' := by
  cases locked : ht.lockBucket worker (ht.getBucket key) with
  | none => simp [getKeyEntry, locked] at got
  | some table =>
      have free : ht.locks (ht.getBucket key) = none :=
        (lockBucket_eq_some locked).1
      cases found : (chains (ht.getBucket key)).find?
          (matchesKey ht.heap key n) with
      | none =>
          have missing : ht.search key n = some none := by
            rw [linked.search_eq, found]
          rw [getKeyEntry_of_missing worker free missing] at got
          cases got
          exact ⟨rfl, linked.search_insertEntry key n, _,
            linked.insertEntry (linked.getBucket_lt key)⟩
      | some q =>
          have present : ht.search key n = some (some q) := by
            rw [linked.search_eq, found]
          rw [getKeyEntry_of_found worker free present] at got
          cases got
          exact ⟨rfl, present, chains, linked⟩

/-- A SET that is answered OK leaves the item of its key with the message of
the request and a free lock. -/
theorem Linked.setRequest_ok (linked : Linked ht chains)
    (executed : setRequest worker ht first Response.zero =
      some (after, response))
    (ok : response.code = .ok) :
    after.capacity = ht.capacity ∧ (∃ chains', Linked after chains') ∧
      ∃ p item,
        after.search first.keyMemory first.keyLen.toNat = some (some p) ∧
          after.heap p = some item ∧ item.value = some first.payload ∧
            item.valueSize = first.msgLen ∧ item.rwlock = .free := by
  obtain ⟨⟨entered, p⟩, got, rest⟩ := Option.bind_eq_some_iff.mp executed
  obtain ⟨item, read, result⟩ := Option.map_eq_some_iff.mp rest
  obtain ⟨capacity, found, chains', enteredOk⟩ := linked.search_getKeyEntry got
  cases taken : item.rwlock.trywrlock worker with
  | none =>
      simp only [taken] at result
      cases result
      cases ok
  | some held =>
      have free : item.rwlock = .free :=
        (RwLock.trywrlock_eq_some_iff.mp taken).1
      have whole := executed
      rw [setRequest_of_entry got read free] at whole
      cases whole
      refine ⟨capacity, ⟨chains', enteredOk.writeItem (fun _ => rfl)
        fun _ => rfl⟩, p, assigned first item, ?_, ?_, rfl, rfl, rfl⟩
      · rw [← found]
        refine enteredOk.search_writeItem ?_ ?_ ?_ _ _ <;> exact fun _ => rfl
      · rw [writeItem_heap, modifyAt_self, read, Option.map_some]

end HashTable

/-- Two requests for one key are identified exactly if what follows the first
`key_len` bytes of their keys takes the hash to one bucket. -/
theorem keyIdentified_iff (linked : Linked ht chains)
    (same : SameKey n first second) :
    KeyIdentified ht first second ↔ TailsAgree ht.capacity n first second := by
  rw [KeyIdentified, same.getBucket_eq_iff]
  refine ⟨And.left, fun agree => ⟨agree, ?_⟩⟩
  intro worker other after response executed ok fits
  obtain ⟨capacity, ⟨chains', afterOk⟩, p, item, found, read, value, size,
    free⟩ := linked.setRequest_ok executed ok
  have length : first.payload.length = first.msgLen.toNat :=
    Request.payload_length fits
  have bucket : after.getBucket second.keyMemory =
      after.getBucket first.keyMemory :=
    (same.getBucket_eq_iff.mpr (capacity ▸ agree)).symm
  have foundAgain :
      after.search second.keyMemory second.keyLen.toNat = some (some p) := by
    rw [same.secondLen, afterOk.search_congr bucket same.take_contents_eq,
      ← same.firstLen]
    exact found
  refine ⟨after, Response.holding first.payload, ?_, rfl, ?_, ?_⟩
  · rw [getRequest_of_found foundAgain read free,
      copyValue_eq_holding value (by rw [size, length])]
  · rw [Response.holding, length, UInt64.ofNat_toNat]
  · exact (Response.holding_body (length ▸ fits)).1

/-- A SET of `a` and a GET of it with another message. -/
def plainPair : Request × Request :=
  (.make .set [97] [1, 2], .make .get [97] [3])

theorem plainPair_identified :
    KeyIdentified empty plainPair.1 plainPair.2 :=
  (keyIdentified_iff consistent_empty.linked
    (by decide : SameKey 1 plainPair.1 plainPair.2)).mpr (by decide)

/-- A SET of `a` and a GET of `a` whose key array goes on with `b`. -/
def unterminatedPair : Request × Request :=
  (.make .set [97] [1, 2],
    { Request.make .get [97, 98] [] with keyLen := 1 })

/-- The GET looks into another bucket and is answered KEY_ERROR. -/
theorem unterminatedPair_not_identified :
    SameKey 1 unterminatedPair.1 unterminatedPair.2 ∧
      ¬ KeyIdentified empty unterminatedPair.1 unterminatedPair.2 ∧
      (executeAll empty
        [(0, unterminatedPair.1), (1, unterminatedPair.2)]).map
          (fun run => run.2.map Response.code) = some [.ok, .keyError] := by
  refine ⟨by decide, ?_, by decide⟩
  rintro ⟨bucket, -⟩
  exact absurd bucket (by decide)

end RdmaKVStore
