import RdmaKVStore.HashTableInvariant

/-!
# Runs of hash table calls

Whole calls of `get_key_entry`, `remove_item`, `search` and `init_hashtable`
keep the representation invariant, over runs of any length.  The invariant is
restated in terms of the items and their links.
-/

namespace RdmaKVStore.HashTable

open LinkedChain

variable {ht : HashTable} {chains : Nat → List Ptr} {bucket : Nat} {p : Ptr}
variable {key : Bytes} {item : HashItem}

inductive Call
  | getKeyEntry (worker : WorkerId) (key : Bytes) (keyLen : Nat)
  | removeItem (worker : WorkerId) (key : Bytes) (keyLen : Nat)
  | search (key : Bytes) (keyLen : Nat)
  | initHashtable (capacity : Nat)

/-- The length argument is the string length and fits the key array, and the
capacity is a nonzero `unsigned int`. -/
def Call.WellFormed : Call → Prop
  | .getKeyEntry _ key keyLen | .removeItem _ key keyLen
  | .search key keyLen => keyLen = CString.strlen key ∧ keyLen < keySize
  | .initHashtable capacity => 0 < capacity ∧ capacity < 2 ^ 32

/-- The table after a call; `none` when the call does not return. -/
def Call.run (ht : HashTable) : Call → Option HashTable
  | .getKeyEntry worker key keyLen =>
      (ht.getKeyEntry worker key keyLen).map Prod.fst
  | .removeItem worker key keyLen =>
      (ht.removeItem worker key keyLen).map Prod.fst
  | .search key keyLen => (ht.search key keyLen).map fun _ => ht
  | .initHashtable capacity => some (ht.initHashtable capacity)

def runCalls (ht : HashTable) : List Call → Option HashTable
  | [] => some ht
  | call :: calls => (call.run ht).bind fun after => runCalls after calls

theorem Consistent.call (consistent : Consistent ht chains) {call : Call}
    (wellFormed : call.WellFormed) :
    ∃ after chains', call.run ht = some after ∧ Consistent after chains' := by
  cases call with
  | getKeyEntry worker key keyLen =>
      obtain ⟨rfl, -⟩ := wellFormed
      rcases consistent.getKeyEntry_cases worker key with
        ⟨p, result, -⟩ | ⟨result, missing⟩
      · exact ⟨ht, chains, by simp [Call.run, result], consistent⟩
      · exact ⟨_, _, by rw [Call.run, result, Option.map_some],
          consistent.insertEntry missing⟩
  | removeItem worker key keyLen =>
      rcases consistent.removeItem_cases worker key keyLen with
        ⟨result, -⟩ | ⟨p, item, -, member, read, result⟩
      · exact ⟨ht, chains, by simp [Call.run, result], consistent⟩
      · exact ⟨_, _, by rw [Call.run, result, Option.map_some],
          consistent.unlinkItem member read⟩
  | search key keyLen =>
      rcases consistent.search_cases key keyLen with
        missing | ⟨p, item, found, -, -⟩
      · exact ⟨ht, chains, by simp [Call.run, missing], consistent⟩
      · exact ⟨ht, chains, by simp [Call.run, found], consistent⟩
  | initHashtable capacity =>
      exact ⟨_, _, rfl, consistent_initHashtable consistent.quiet
        wellFormed.1 wellFormed.2 consistent.linked.allocated⟩

theorem Consistent.runCalls (consistent : Consistent ht chains)
    {calls : List Call} (wellFormed : ∀ call ∈ calls, call.WellFormed) :
    ∃ after chains', ht.runCalls calls = some after ∧
      Consistent after chains' := by
  induction calls generalizing ht chains with
  | nil => exact ⟨ht, chains, rfl, consistent⟩
  | cons call calls ih =>
      obtain ⟨middle, chains₁, callEq, middleOk⟩ :=
        consistent.call (wellFormed call (by simp))
      obtain ⟨after, chains₂, restEq, afterOk⟩ :=
        ih middleOk fun other member => wellFormed other (by simp [member])
      exact ⟨after, chains₂, by rw [HashTable.runCalls, callEq,
        Option.bind_some, restEq], afterOk⟩

/-- The representation invariant in terms of items and links: each bucket head
enters a finite acyclic chain whose links agree in both directions, items lie
in the bucket of their own key, and keys are unique. -/
structure WellFormedTable (ht : HashTable) (chains : Nat → List Ptr) :
    Prop where
  bucket_lt : ∀ key, ht.getBucket key < ht.capacity
  chain : ∀ bucket,
    Chain HashItem.links ht.heap none (ht.items bucket) (chains bucket)
  acyclic : ∀ bucket, (chains bucket).Nodup
  search_returns : ∀ key keyLen, ∃ found, ht.search key keyLen = some found
  head_prev : ∀ bucket p item, ht.items bucket = some p →
    ht.heap p = some item → item.prev = none
  next_prev : ∀ bucket p item q, p ∈ chains bucket → ht.heap p = some item →
    item.next = some q → ∃ item', ht.heap q = some item' ∧ item'.prev = some p
  prev_next : ∀ bucket p item q, p ∈ chains bucket → ht.heap p = some item →
    item.prev = some q → ∃ item', ht.heap q = some item' ∧ item'.next = some p
  own_bucket : ∀ bucket p item, p ∈ chains bucket → ht.heap p = some item →
    ht.getBucket item.key = bucket
  distinct : ∀ b c p q first second, p ∈ chains b → q ∈ chains c →
    ht.heap p = some first → ht.heap q = some second →
      CString.contents first.key = CString.contents second.key → p = q

theorem Consistent.wellFormedTable (consistent : Consistent ht chains) :
    WellFormedTable ht chains where
  bucket_lt := consistent.linked.getBucket_lt
  chain := consistent.linked.chain
  acyclic := consistent.linked.nodup
  search_returns key keyLen := ⟨_, consistent.linked.search_eq key keyLen⟩
  head_prev bucket p item head read := by
    have linked := consistent.linked.chain bucket
    obtain ⟨rest, split⟩ : ∃ rest, chains bucket = [] ++ p :: rest := by
      have first := linked.head_eq
      rw [head] at first
      exact ⟨(chains bucket).tail, (List.cons_head?_tail first.symm).symm⟩
    rw [split] at linked
    obtain ⟨item', read', prevEq, -⟩ := linked.node_at
    obtain rfl := Option.some.inj (read.symm.trans read')
    exact prevEq
  next_prev bucket p item q member read next :=
    ((consistent.linked.chain bucket).prev_of_next member read next).2
  prev_next bucket p item q member read prev :=
    ((consistent.linked.chain bucket).next_of_prev member read prev).2
  own_bucket := consistent.placed.bucket
  distinct b c p q first second inB inC readP readQ same := by
    have bucketEq : b = c := by
      rw [← consistent.placed.bucket b p first inB readP,
        getBucket_congr ht same]
      exact consistent.placed.bucket c q second inC readQ
    subst bucketEq
    apply consistent.placed.distinct b p q inB inC
    rw [keyAt, keyAt, readP, readQ, Option.map_some, Option.map_some, same]

/-- One item is new, at the head of its bucket; all others keep their data and
their order. -/
def OneItemAdded (before after : HashTable) (chains : Nat → List Ptr)
    (bucket : Nat) (p : Ptr) : Prop :=
  (∀ b, p ∉ chains b) ∧
    (∀ b, Chain HashItem.links after.heap none (after.items b)
      (Function.update chains bucket (p :: chains bucket) b)) ∧
    ∀ q, q ≠ p → (after.heap q).map HashItem.data =
      (before.heap q).map HashItem.data

/-- One item is gone; all others keep their data and their order. -/
def OneItemRemoved (before after : HashTable) (chains : Nat → List Ptr)
    (bucket : Nat) (p : Ptr) : Prop :=
  p ∈ chains bucket ∧ after.heap p = none ∧
    (∀ b, Chain HashItem.links after.heap none (after.items b)
      (Function.update chains bucket ((chains bucket).erase p) b)) ∧
    ∀ q, q ≠ p → (after.heap q).map HashItem.data =
      (before.heap q).map HashItem.data

theorem Consistent.oneItemAdded (consistent : Consistent ht chains)
    (missing : ht.search key (CString.strlen key) = some none) :
    OneItemAdded ht
      (ht.insertEntry (ht.getBucket key) key (CString.strlen key)).1
      chains (ht.getBucket key) ht.fresh :=
  ⟨fun _ member => lt_irrefl _ (consistent.linked.lt_fresh member),
    (consistent.insertEntry missing).linked.chain,
    fun _ other => insertEntry_data other⟩

theorem Consistent.oneItemRemoved (consistent : Consistent ht chains)
    (member : p ∈ chains bucket) (read : ht.heap p = some item) :
    OneItemRemoved ht (ht.unlinkItem bucket p item) chains bucket p :=
  ⟨member, unlinkItem_read_self,
    (consistent.unlinkItem member read).linked.chain,
    fun _ other => unlinkItem_data other⟩

/-- Every sequence of well-formed calls on a fresh table returns, and leaves a
well-formed table on which `get_key_entry` adds at most one item, at the head
of its bucket, and a successful `remove_item` removes exactly one. -/
theorem table_wellFormed_after_calls (calls : List Call)
    (wellFormed : ∀ call ∈ calls, call.WellFormed) :
    ∃ ht chains, empty.runCalls calls = some ht ∧
      WellFormedTable ht chains ∧
      (∀ worker key keyLen, keyLen = CString.strlen key → keyLen < keySize →
        ∃ after p, ht.getKeyEntry worker key keyLen = some (after, p) ∧
          (after = ht ∨ OneItemAdded ht after chains (ht.getBucket key) p)) ∧
      ∀ worker key keyLen, keyLen = CString.strlen key → keyLen < keySize →
        ∃ after result,
          ht.removeItem worker key keyLen = some (after, result) ∧
            (result = 0 →
              ∃ p, OneItemRemoved ht after chains (ht.getBucket key) p) ∧
            (result ≠ 0 → after = ht) := by
  obtain ⟨ht, chains, runEq, consistent⟩ :=
    consistent_empty.runCalls wellFormed
  refine ⟨ht, chains, runEq, consistent.wellFormedTable, ?_, ?_⟩
  · rintro worker key - rfl -
    rcases consistent.getKeyEntry_cases worker key with
      ⟨p, result, -⟩ | ⟨result, missing⟩
    · exact ⟨ht, p, result, .inl rfl⟩
    · exact ⟨_, _, result, .inr (consistent.oneItemAdded missing)⟩
  · intro worker key keyLen _ _
    rcases consistent.removeItem_cases worker key keyLen with
      ⟨result, -⟩ | ⟨p, item, -, member, read, result⟩
    · exact ⟨ht, -1, result, fun zero => absurd zero (by decide), fun _ => rfl⟩
    · exact ⟨_, 0, result,
        fun _ => ⟨p, consistent.oneItemRemoved member read⟩,
        fun failed => absurd rfl failed⟩

instance (call : Call) : Decidable call.WellFormed :=
  match call with
  | .getKeyEntry _ _ _ | .removeItem _ _ _ | .search _ _ | .initHashtable _ =>
      inferInstanceAs (Decidable (_ ∧ _))

/-- Two keys of one bucket, the second extending the first, with a removal and
a reset. -/
def sampleCalls : List Call :=
  [.getKeyEntry 0 [121, 0] 1, .getKeyEntry 0 [121, 64, 0] 2,
    .removeItem 1 [121, 64, 0] 2, .getKeyEntry 0 [122, 0] 1,
    .initHashtable htCapacity, .getKeyEntry 0 [121, 0] 1]

theorem table_wellFormed_after_sampleCalls :
    ∃ ht chains, empty.runCalls sampleCalls = some ht ∧
      WellFormedTable ht chains := by
  obtain ⟨ht, chains, runEq, ok, -⟩ :=
    table_wellFormed_after_calls sampleCalls (by decide)
  exact ⟨ht, chains, runEq, ok⟩

end RdmaKVStore.HashTable
