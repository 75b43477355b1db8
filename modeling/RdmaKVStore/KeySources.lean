import RdmaKVStore.InstanceRequests
import RdmaKVStore.StoreContents

/-!
# Sources of requests

Requests that come from sources with unrelated keys do not disturb each other:
each source is answered as if the others were not there.  The instances of the
benchmark are such sources, since each prints its number into its keys.
-/

namespace RdmaKVStore

open LinkedChain HashTable FirstMatch

/-- One bucket holds both keys and one key begins with the other, so that a
lookup of the shorter key may stop at the longer one. -/
def Request.Related (first second : Request) : Prop :=
  first.bucket = second.bucket ∧
    (first.keyString <+: second.keyString ∨
      second.keyString <+: first.keyString)

instance (first second : Request) : Decidable (first.Related second) :=
  inferInstanceAs (Decidable (_ ∧ _))

/-- Every entry was added for the key of one of the requests, and holds the
value of a SET whose key it begins with. -/
structure Buckets.WrittenBy (buckets : Buckets) (requests : List Request) :
    Prop where
  added : ∀ bucket, ∀ entry ∈ buckets bucket,
    ∃ request ∈ requests, request.bucket = bucket ∧
      request.keyString = entry.1
  assigned : ∀ bucket, ∀ entry ∈ buckets bucket,
    ∃ set ∈ requests, set.method = .set ∧ set.bucket = bucket ∧
      set.keyString <+: entry.1 ∧ entry.2 = (some set.payload, set.msgLen)

def ownedBy (requests : List Request) (mine : Request → Bool) (bucket : Nat)
    (entry : Entry) : Bool :=
  requests.any fun request =>
    mine request && request.bucket = bucket && request.keyString = entry.1

/-- The source's entries among all that the requests have written. -/
structure Buckets.Alike (requests : List Request) (mine : Request → Bool)
    (buckets alone : Buckets) : Prop where
  written : buckets.WrittenBy requests
  own : ∀ bucket,
    alone bucket = (buckets bucket).filter (ownedBy requests mine bucket)

variable {request first second : Request} {requests : List Request}
variable {buckets alone : Buckets} {mine : Request → Bool} {entry : Entry}
variable {entries : List Entry} {bucket : Nat}

namespace Request

theorem Related.symm (related : first.Related second) :
    second.Related first :=
  ⟨related.1.symm, related.2.symm⟩

theorem related_of_prefix {key : Bytes}
    (bucketEq : first.bucket = second.bucket)
    (firstPrefix : first.keyString <+: key)
    (secondPrefix : second.keyString <+: key) : first.Related second :=
  ⟨bucketEq, List.prefix_or_prefix_of_prefix firstPrefix secondPrefix⟩

theorem finds_iff (wellFormed : request.KeyWellFormed) :
    request.finds entry = true ↔ request.keyString <+: entry.1 := by
  rw [finds, decide_eq_true_eq, StopsAt, wellFormed.1, CString.strlen,
    List.take_length, List.prefix_iff_eq_take]
  exact eq_comm

theorem addedKey_eq (wellFormed : request.KeyWellFormed) :
    request.addedKey = request.keyString := by
  rw [addedKey, CString.contents_append_terminator, CString.contents_take,
    wellFormed.1, CString.strlen, List.take_length, keyString]

theorem mem_entered (wellFormed : request.KeyWellFormed)
    (member : entry ∈ request.entered entries) :
    entry ∈ entries ∨ entry = (request.keyString, none, 0) := by
  unfold entered at member
  split at member
  · exact .inl member
  · rw [addedKey_eq wellFormed] at member
    exact (List.mem_cons.mp member).symm

/-- An entry after a SET is an old one, or it has the value of the SET and its
own key or that of an old entry which begins with it. -/
theorem mem_assigned (wellFormed : request.KeyWellFormed)
    (member : entry ∈ request.assigned entries) :
    entry ∈ entries ∨
      request.keyString <+: entry.1 ∧
        entry.2 = (some request.payload, request.msgLen) ∧
        (entry.1 = request.keyString ∨ ∃ old ∈ entries, old.1 = entry.1) := by
  have changed (old : Entry) (inEntered : old ∈ request.entered entries)
      (found : request.finds old) (revised : entry = request.revise old) :
      request.keyString <+: entry.1 ∧
        entry.2 = (some request.payload, request.msgLen) ∧
        (entry.1 = request.keyString ∨ ∃ old ∈ entries, old.1 = entry.1) := by
    subst revised
    refine ⟨(finds_iff wellFormed).mp found, rfl, ?_⟩
    rcases mem_entered wellFormed inEntered with inOld | added
    · exact .inr ⟨old, inOld, rfl⟩
    · exact .inl (congrArg Prod.fst added)
  unfold assigned at member
  rcases mem_alterFirst member with kept | ⟨old, inEntered, found, revised⟩
  · unfold entered at kept
    split at kept
    case isTrue => exact .inl kept
    case isFalse absent =>
      rcases List.mem_cons.mp kept with rfl | inOld
      · -- the new entry is the first that is found, and is changed
        unfold entered at member
        rw [if_neg absent,
          alterFirst_cons_of_pos _ (request.finds_addedKey none 0)] at member
        rcases List.mem_append.mp member with revised | inOld
        · exact .inr (changed _ (by
              rw [entered, if_neg absent]
              exact List.mem_cons_self)
            (request.finds_addedKey none 0)
            (Option.some.inj (Option.mem_toList.mp revised)).symm)
        · exact .inl inOld
      · exact .inl inOld
  · exact .inr (changed old inEntered found (Option.some.inj revised).symm)

theorem mem_erased (member : entry ∈ request.erased entries) :
    entry ∈ entries := by
  rcases mem_alterFirst member with kept | ⟨old, -, -, changed⟩
  · exact kept
  · cases changed

end Request

namespace Buckets

/-- The requests keep the origin of all entries. -/
theorem WrittenBy.after (written : buckets.WrittenBy requests)
    (member : request ∈ requests) (wellFormed : request.KeyWellFormed) :
    (buckets.after request).WrittenBy requests := by
  have origin (bucket : Nat) (entry : Entry)
      (stored : entry ∈ buckets.after request bucket) :
      entry ∈ buckets bucket ∨
        bucket = request.bucket ∧ request.method = .set ∧
          entry ∈ request.assigned (buckets bucket) := by
    rcases buckets.after_cases request with
      ⟨method, changed⟩ | ⟨-, changed⟩ | ⟨-, changed⟩ | changed <;>
      rw [changed] at stored
    · by_cases same : bucket = request.bucket
      · subst same
        rw [Function.update_self] at stored
        exact .inr ⟨rfl, method, stored⟩
      · rw [Function.update_of_ne same] at stored
        exact .inl stored
    · by_cases same : bucket = request.bucket
      · subst same
        rw [Function.update_self] at stored
        exact .inl (Request.mem_erased stored)
      · rw [Function.update_of_ne same] at stored
        exact .inl stored
    · cases stored
    · exact .inl stored
  constructor
  · intro bucket entry stored
    rcases origin bucket entry stored with old | ⟨rfl, -, inAssigned⟩
    · exact written.added bucket entry old
    · rcases Request.mem_assigned wellFormed inAssigned with
        old | ⟨-, -, own | ⟨old, inOld, sameKey⟩⟩
      · exact written.added _ entry old
      · exact ⟨request, member, rfl, own.symm⟩
      · rw [← sameKey]
        exact written.added _ old inOld
  · intro bucket entry stored
    rcases origin bucket entry stored with old | ⟨rfl, method, inAssigned⟩
    · exact written.assigned bucket entry old
    · rcases Request.mem_assigned wellFormed inAssigned with
        old | ⟨isPrefix, value, -⟩
      · exact written.assigned _ entry old
      · exact ⟨request, member, method, rfl, isPrefix, value⟩

theorem writtenBy_nil (requests : List Request) :
    Buckets.WrittenBy (fun _ => []) requests :=
  ⟨fun _ _ => List.not_mem_nil.elim, fun _ _ => List.not_mem_nil.elim⟩

end Buckets

theorem Buckets.Alike.update (alike : Buckets.Alike requests mine buckets alone)
    {target : Nat} {changed changedAlone : List Entry}
    (same : changedAlone = changed.filter (ownedBy requests mine target))
    (bucket : Nat) :
    Function.update alone target changedAlone bucket =
      (Function.update buckets target changed bucket).filter
        (ownedBy requests mine bucket) := by
  by_cases here : bucket = target
  · subst here
    rw [Function.update_self, Function.update_self, same]
  · rw [Function.update_of_ne here, Function.update_of_ne here, alike.own]

/-- A source whose keys are unrelated to those of all other requests, none of
which resets the table. -/
structure SeparateSource (requests : List Request) (mine : Request → Bool) :
    Prop where
  wellFormed : ∀ request ∈ requests, request.KeyWellFormed
  noReset : ∀ request ∈ requests, request.method ≠ .rst
  apart : ∀ first ∈ requests, ∀ second ∈ requests,
    mine first → ¬ mine second → ¬ first.Related second

theorem ownedBy_iff :
    ownedBy requests mine bucket entry = true ↔
      ∃ owner ∈ requests, mine owner ∧ owner.bucket = bucket ∧
        owner.keyString = entry.1 := by
  simp [ownedBy, and_assoc]

namespace SeparateSource

variable (separate : SeparateSource requests mine)
include separate

theorem owned_of_found (written : buckets.WrittenBy requests)
    (member : request ∈ requests) (isMine : mine request)
    (stored : entry ∈ buckets request.bucket) (found : request.finds entry) :
    ownedBy requests mine request.bucket entry := by
  obtain ⟨owner, inRequests, bucketEq, keyEq⟩ := written.added _ entry stored
  have isPrefix :=
    (Request.finds_iff (separate.wellFormed _ member)).mp found
  have related : request.Related owner :=
    Request.related_of_prefix bucketEq.symm isPrefix (keyEq ▸ List.prefix_rfl)
  refine ownedBy_iff.mpr ⟨owner, inRequests, ?_, bucketEq, keyEq⟩
  by_contra foreign
  exact separate.apart _ member _ inRequests isMine foreign related

theorem foreign_of_found (member : request ∈ requests)
    (notMine : ¬ mine request) (found : request.keyString <+: entry.1) :
    ¬ ownedBy requests mine request.bucket entry := by
  intro owned
  obtain ⟨owner, inRequests, isMine, bucketEq, keyEq⟩ := ownedBy_iff.mp owned
  exact separate.apart _ inRequests _ member isMine notMine
    (Request.related_of_prefix bucketEq (keyEq ▸ List.prefix_rfl) found)

theorem lookup_eq (written : buckets.WrittenBy requests)
    (member : request ∈ requests) (isMine : mine request) :
    ((buckets request.bucket).filter
        (ownedBy requests mine request.bucket)).find? request.finds =
      (buckets request.bucket).find? request.finds :=
  find?_filter_of_keeps fun _ stored found =>
    separate.owned_of_found written member isMine stored found

theorem assigned_own (written : buckets.WrittenBy requests)
    (member : request ∈ requests) (isMine : mine request) :
    (request.assigned (buckets request.bucket)).filter
        (ownedBy requests mine request.bucket) =
      request.assigned ((buckets request.bucket).filter
        (ownedBy requests mine request.bucket)) := by
  have wellFormed := separate.wellFormed _ member
  have ownKey (value : Option Bytes × UInt64) :
      ownedBy requests mine request.bucket (request.addedKey, value) :=
    ownedBy_iff.mpr ⟨request, member, isMine, rfl,
      (Request.addedKey_eq wellFormed).symm⟩
  have entered : request.entered ((buckets request.bucket).filter
      (ownedBy requests mine request.bucket)) =
        (request.entered (buckets request.bucket)).filter
          (ownedBy requests mine request.bucket) := by
    have sameAny := congrArg Option.isSome
      (separate.lookup_eq written member isMine)
    rw [Bool.eq_iff_iff, List.find?_isSome, List.find?_isSome,
      ← List.any_eq_true, ← List.any_eq_true] at sameAny
    unfold Request.entered
    by_cases present : (buckets request.bucket).any request.finds
    · rw [if_pos present, if_pos (sameAny.mpr present)]
    · rw [if_neg present, if_neg fun found => present (sameAny.mp found),
        List.filter_cons_of_pos (ownKey _)]
  have owned : ∀ entry ∈ request.entered (buckets request.bucket),
      request.finds entry → ownedBy requests mine request.bucket entry := by
    intro entry inEntered found
    rcases Request.mem_entered wellFormed inEntered with stored | rfl
    · exact separate.owned_of_found written member isMine stored found
    · rw [← Request.addedKey_eq wellFormed]
      exact ownKey _
  rw [Request.assigned, Request.assigned, entered]
  refine filter_alterFirst owned fun entry inEntered found changed revised => ?_
  obtain rfl := Option.some.inj revised
  exact owned entry inEntered found

theorem assigned_foreign (member : request ∈ requests)
    (notMine : ¬ mine request) (entries : List Entry) :
    (request.assigned entries).filter
        (ownedBy requests mine request.bucket) =
      entries.filter (ownedBy requests mine request.bucket) := by
  have wellFormed := separate.wellFormed _ member
  have foreign : ∀ entry ∈ request.entered entries, request.finds entry →
      ¬ ownedBy requests mine request.bucket entry := fun entry _ found =>
    separate.foreign_of_found member notMine
      ((Request.finds_iff wellFormed).mp found)
  rw [Request.assigned, filter_alterFirst_of_dropped foreign]
  · unfold Request.entered
    split
    case isTrue => rfl
    case isFalse =>
      rw [List.filter_cons_of_neg]
      apply separate.foreign_of_found member notMine
      rw [Request.addedKey_eq wellFormed]
  · intro entry inEntered found changed revised
    obtain rfl := Option.some.inj revised
    exact foreign entry inEntered found

theorem erased_own (written : buckets.WrittenBy requests)
    (member : request ∈ requests) (isMine : mine request) :
    (request.erased (buckets request.bucket)).filter
        (ownedBy requests mine request.bucket) =
      request.erased ((buckets request.bucket).filter
        (ownedBy requests mine request.bucket)) :=
  filter_alterFirst (fun _ stored found =>
    separate.owned_of_found written member isMine stored found)
    fun _ _ _ _ none => by cases none

theorem erased_foreign (member : request ∈ requests)
    (notMine : ¬ mine request) (entries : List Entry) :
    (request.erased entries).filter (ownedBy requests mine request.bucket) =
      entries.filter (ownedBy requests mine request.bucket) :=
  filter_alterFirst_of_dropped (fun _ _ found =>
    separate.foreign_of_found member notMine
      ((Request.finds_iff (separate.wellFormed _ member)).mp found))
    fun _ _ _ _ none => by cases none

theorem answer_own (alike : Buckets.Alike requests mine buckets alone)
    (member : request ∈ requests) (isMine : mine request) :
    buckets.answer request = alone.answer request := by
  have lookupEq : alone.lookup request = buckets.lookup request := by
    rw [Buckets.lookup, alike.own, Buckets.lookup]
    exact separate.lookup_eq alike.written member isMine
  rw [Buckets.answer, Buckets.answer, lookupEq]

theorem after_own (alike : Buckets.Alike requests mine buckets alone)
    (member : request ∈ requests) (isMine : mine request) :
    Buckets.Alike requests mine (buckets.after request)
      (alone.after request) := by
  refine ⟨alike.written.after member (separate.wellFormed _ member), ?_⟩
  cases method : request.method with
  | set =>
      simp only [Buckets.after, method]
      apply alike.update
      rw [separate.assigned_own alike.written member isMine, alike.own]
  | del =>
      simp only [Buckets.after, method]
      apply alike.update
      rw [separate.erased_own alike.written member isMine, alike.own]
  | rst => exact absurd method (separate.noReset _ member)
  | unk | get | ping | dump | exit | setopt =>
      simp only [Buckets.after, method]
      exact alike.own

theorem after_foreign (alike : Buckets.Alike requests mine buckets alone)
    (member : request ∈ requests) (notMine : ¬ mine request) :
    Buckets.Alike requests mine (buckets.after request) alone := by
  refine ⟨alike.written.after member (separate.wellFormed _ member), ?_⟩
  rw [← Function.update_eq_self request.bucket alone]
  rcases buckets.after_cases request with
    ⟨-, changed⟩ | ⟨-, changed⟩ | ⟨reset, -⟩ | kept
  · rw [changed]
    apply alike.update
    rw [separate.assigned_foreign member notMine, alike.own]
  · rw [changed]
    apply alike.update
    rw [separate.erased_foreign member notMine, alike.own]
  · exact absurd reset (separate.noReset _ member)
  · rw [kept, Function.update_eq_self]
    exact alike.own

theorem unwinding :
    bucketStore.Unwinding requests mine (Buckets.Alike requests mine) where
  output _ member isMine _ _ alike := separate.answer_own alike member isMine
  own _ member isMine _ _ alike := separate.after_own alike member isMine
  others _ member notMine _ _ alike :=
    separate.after_foreign alike member notMine

end SeparateSource

theorem separateSource_of_source {Source : Type*} [DecidableEq Source]
    (source : Request → Source) (turns : List (WorkerId × Request))
    (wellFormed : ∀ turn ∈ turns, turn.2.KeyWellFormed)
    (noReset : ∀ turn ∈ turns, turn.2.method ≠ .rst)
    (unrelated : ∀ first ∈ turns, ∀ second ∈ turns,
      source first.2 ≠ source second.2 → ¬ first.2.Related second.2)
    (mine : Source) :
    SeparateSource (turns.map Prod.snd)
      fun request => source request = mine := by
  refine ⟨List.forall_mem_map.mpr wellFormed,
    List.forall_mem_map.mpr noReset, ?_⟩
  intro first inFirst second inSecond isMine notMine
  obtain ⟨turn, inTurns, rfl⟩ := List.mem_map.mp inFirst
  obtain ⟨turn', inTurns', rfl⟩ := List.mem_map.mp inSecond
  refine unrelated turn inTurns turn' inTurns' fun same => ?_
  simp only [decide_eq_true_eq] at isMine notMine
  exact notMine (same ▸ isMine)

/-- The requests of a separate source, executed without the others, get the
answers that they get among them. -/
theorem SeparateSource.executeAll_alone {turns : List (WorkerId × Request)}
    (separate : SeparateSource (turns.map Prod.snd) mine) :
    ∃ ht responses alone,
      executeAll empty turns = some (ht, responses) ∧
      executeAll empty (turns.filter fun turn => mine turn.2) =
        some (alone, ((turns.zip responses).filter fun turn =>
          mine turn.1.2).map Prod.snd) ∧
      ∀ bucket, (alone.contents bucket).Sublist (ht.contents bucket) := by
  have start : Buckets.Alike (turns.map Prod.snd) mine (fun _ => [])
      fun _ => [] := ⟨Buckets.writtenBy_nil _, fun _ => rfl⟩
  obtain ⟨settled, none⟩ := settled_empty
  obtain ⟨ht, executed, -, contentsEq⟩ := settled.executeAll turns
  obtain ⟨alone, executedAlone, -, aloneEq⟩ := settled.executeAll
    (turns.filter fun turn => mine turn.2)
  have selected : (turns.filter fun turn => mine turn.2).map Prod.snd =
      (turns.map Prod.snd).filter mine := by
    rw [List.filter_map]
    rfl
  rw [none] at executed contentsEq executedAlone aloneEq
  rw [selected] at executedAlone aloneEq
  refine ⟨ht, _, alone, executed, ?_, fun bucket => ?_⟩
  · rw [executedAlone, separate.unwinding.zip_filter start, selected,
      List.map_snd_zip]
    rw [List.length_map, Machine.length_answered, ← selected, List.length_map]
  · rw [aloneEq, contentsEq, (separate.unwinding.final start).own]
    exact List.filter_sublist

/-- Each source is answered as if its requests were the only ones, whatever
requests of other sources with unrelated keys are executed in between, and the
table ends up with all entries that it would hold without them. -/
theorem source_answered_alone {Source : Type*} [DecidableEq Source]
    (source : Request → Source) (turns : List (WorkerId × Request))
    (wellFormed : ∀ turn ∈ turns, turn.2.KeyWellFormed)
    (noReset : ∀ turn ∈ turns, turn.2.method ≠ .rst)
    (unrelated : ∀ first ∈ turns, ∀ second ∈ turns,
      source first.2 ≠ source second.2 → ¬ first.2.Related second.2)
    (mine : Source) :
    ∃ ht responses alone,
      executeAll empty turns = some (ht, responses) ∧
      executeAll empty (turns.filter fun turn => source turn.2 = mine) =
        some (alone, ((turns.zip responses).filter fun turn =>
          source turn.1.2 = mine).map Prod.snd) ∧
      ∀ bucket, (alone.contents bucket).Sublist (ht.contents bucket) :=
  (separateSource_of_source source turns wellFormed noReset unrelated
    mine).executeAll_alone

def twoKeyTurns : List (WorkerId × Request) :=
  [(0, .make .set [121] [1]), (1, .make .set [122] [2]),
    (2, .make .get [121] []), (1, .make .del [121] []),
    (0, .make .get [122] [])]

theorem twoKeyTurns_answered_alone :
    ∃ ht responses alone,
      executeAll empty twoKeyTurns = some (ht, responses) ∧
      executeAll empty
          (twoKeyTurns.filter fun turn => turn.2.keyString = [122]) =
        some (alone, ((twoKeyTurns.zip responses).filter fun turn =>
          turn.1.2.keyString = [122]).map Prod.snd) := by
  obtain ⟨ht, responses, alone, executed, executedAlone, -⟩ :=
    source_answered_alone Request.keyString twoKeyTurns (by decide)
      (by decide) (by decide) [122]
  exact ⟨ht, responses, alone, executed, executedAlone⟩

/-! ### Origin of answers -/

theorem Buckets.WrittenBy.mono {more : List Request}
    (written : buckets.WrittenBy requests) (within : requests ⊆ more) :
    buckets.WrittenBy more where
  added bucket entry stored := by
    obtain ⟨request, member, origin⟩ := written.added bucket entry stored
    exact ⟨request, within member, origin⟩
  assigned bucket entry stored := by
    obtain ⟨set, member, origin⟩ := written.assigned bucket entry stored
    exact ⟨set, within member, origin⟩

theorem bucketStore_writtenBy (wellFormed : ∀ request ∈ requests,
    request.KeyWellFormed) :
    (bucketStore.final (fun _ => []) requests).WrittenBy requests := by
  induction requests using List.reverseRecOn with
  | nil => exact Buckets.writtenBy_nil []
  | append_singleton earlier request ih =>
      have written := ih fun other member =>
        wellFormed other (List.mem_append_left _ member)
      rw [Machine.final, List.foldl_append]
      refine (written.mono (List.subset_append_left _ _)).after ?_ ?_
      · simp
      · exact wellFormed request (by simp)

theorem Entry.response_eq_holding {entry : Entry} {set : Request}
    (fits : set.msgLen.toNat ≤ msgSize)
    (value : entry.2 = (some set.payload, set.msgLen)) :
    entry.response = Response.holding set.payload := by
  have length := Request.payload_length fits
  rw [Entry.response, Response.holding, value, Option.getD_some, ← length,
    List.take_length, length, UInt64.ofNat_toNat]

theorem Buckets.WrittenBy.answer_get (written : buckets.WrittenBy requests)
    (fits : ∀ set ∈ requests, set.msgLen.toNat ≤ msgSize)
    (wellFormed : request.KeyWellFormed) (method : request.method = .get) :
    buckets.answer request = Response.refusal ∨
      ∃ set ∈ requests, set.method = .set ∧ set.Related request ∧
        buckets.answer request = Response.holding set.payload := by
  simp only [Buckets.answer, method]
  cases looked : buckets.lookup request with
  | none => exact .inl rfl
  | some entry =>
      have stored : entry ∈ buckets request.bucket :=
        List.mem_of_find?_eq_some looked
      have isPrefix :=
        (Request.finds_iff wellFormed).mp (List.find?_some looked)
      obtain ⟨set, member, sets, bucketEq, setPrefix, value⟩ :=
        written.assigned _ entry stored
      exact .inr ⟨set, member, sets,
        Request.related_of_prefix bucketEq setPrefix isPrefix,
        Entry.response_eq_holding (fits set member) value⟩

/-- A GET that does not fail is answered with the message of an earlier SET
whose key is related to its own. -/
theorem get_answered_from (turns : List (WorkerId × Request))
    (wellFormed : ∀ turn ∈ turns, turn.2.WellFormed) {ht : HashTable}
    {responses : List Response}
    (executed : executeAll empty turns = some (ht, responses)) {i : Nat}
    {worker : WorkerId} {response : Response}
    (asked : turns[i]? = some (worker, request))
    (answered : responses[i]? = some response)
    (method : request.method = .get) :
    response = Response.refusal ∨
      ∃ set ∈ turns.take i, set.2.method = .set ∧ set.2.Related request ∧
        response = Response.holding set.2.payload := by
  obtain ⟨settled, none⟩ := settled_empty
  obtain ⟨ht', executed', -⟩ := settled.executeAll turns
  rw [none, executed, Option.some.injEq, Prod.mk.injEq] at executed'
  rw [executed'.2, List.getElem?_map, bucketStore.answered_getElem?,
    List.getElem?_map, asked, Option.map_some, Option.map_some,
    Option.map_some, Option.some.injEq] at answered
  subst answered
  have earlier : ∀ before ∈ (turns.take i).map Prod.snd,
      before.WellFormed := by
    refine List.forall_mem_map.mpr fun turn member => ?_
    exact wellFormed turn (List.mem_of_mem_take member)
  rw [← List.map_take]
  have written := bucketStore_writtenBy fun before member =>
    (earlier before member).key
  rcases written.answer_get (fun set member => (earlier set member).msg)
      (wellFormed _ (List.mem_of_getElem? asked)).key method with
    refused | ⟨set, member, origin⟩
  · exact .inl refused
  · obtain ⟨turn, inTurns, rfl⟩ := List.mem_map.mp member
    exact .inr ⟨turn, inTurns, origin⟩

/-! ### Benchmark instances -/

/-- One of the two functions of an instance makes the request for one of its
operations. -/
structure Request.MadeBy (request : Request) (instanceNr count : Int32) :
    Prop where
  made : ∃ conn after : InstanceConn, conn.instanceNr = instanceNr ∧
    after.request = request ∧
    (conn.makeGetRequest count = some after ∨
      conn.makeSetRequest count = some after)

section Instances

variable {instanceNr instanceNr' count count' : Int32}

theorem InstanceConn.made_cases {conn after : InstanceConn}
    (made : conn.makeGetRequest count = some after ∨
      conn.makeSetRequest count = some after) :
    after.request.clientId = conn.instanceNr ∧
      after.request.HasKey (instanceKey conn.instanceNr count) ∧
      (after.request.method = .get ∧ after.request.msgLen = 0 ∨
        after.request.method = .set ∧
          after.request.HasMessage
            (instanceMessage conn.instanceNr count)) := by
  rcases made with got | set
  · obtain ⟨_, gotEq, hasKey⟩ := conn.makeGetRequest_eq count
    obtain rfl := Option.some.inj (gotEq.symm.trans got)
    obtain ⟨key, -, rfl⟩ := Option.map_eq_some_iff.mp got
    rw [request_setRequest] at hasKey ⊢
    exact ⟨rfl, hasKey, .inl ⟨rfl, rfl⟩⟩
  · obtain ⟨_, setEq, hasKey, hasMessage⟩ := conn.makeSetRequest_eq count
    obtain rfl := Option.some.inj (setEq.symm.trans set)
    obtain ⟨key, -, printed⟩ := Option.bind_eq_some_iff.mp set
    obtain ⟨msg, -, rfl⟩ := Option.map_eq_some_iff.mp printed
    rw [request_setRequest] at hasKey hasMessage ⊢
    exact ⟨rfl, hasKey, .inr ⟨rfl, hasMessage⟩⟩

namespace Request.MadeBy

variable (made : request.MadeBy instanceNr count)
include made

theorem cases :
    request.clientId = instanceNr ∧
      request.HasKey (instanceKey instanceNr count) ∧
      (request.method = .get ∧ request.msgLen = 0 ∨
        request.method = .set ∧
          request.HasMessage (instanceMessage instanceNr count)) := by
  obtain ⟨conn, after, rfl, rfl, madeIt⟩ := made
  exact InstanceConn.made_cases madeIt

theorem not_del : request.method ≠ .del := by
  rcases made.cases.2.2 with ⟨gets, -⟩ | ⟨sets, -⟩
  · simp [gets]
  · simp [sets]

theorem wellFormed : request.WellFormed := by
  obtain ⟨-, ⟨keyOk, keyEq⟩, message⟩ := made.cases
  refine ⟨keyOk, ?_, ?_⟩
  · have length : request.keyLen.toNat =
        (instanceKey instanceNr count).length := by
      rw [keyOk.1, ← keyEq]
      rfl
    have head : ("Key from instance ".toList.map Char.toUInt8).length = 18 := by
      decide
    rw [length, instanceKey_eq, instanceText, List.length_append, head]
    omega
  · rcases message with ⟨-, none⟩ | ⟨-, ⟨-, fits⟩, -⟩
    · rw [none]
      decide
    · exact fits.le

theorem noReset : request.method ≠ .rst := by
  intro reset
  rcases made.cases.2.2 with ⟨method, -⟩ | ⟨method, -⟩ <;>
    rw [reset] at method <;> cases method

end Request.MadeBy

/-- The space behind the number of the instance keeps the keys of different
instances apart. -/
theorem instanceNr_eq_of_leading
    (isPrefix : instanceKey instanceNr count <+:
      instanceKey instanceNr' count') : instanceNr = instanceNr' := by
  have apart (number : Int) : 32 ∉ asciiBytes.integer number :=
    Numerals.notMem_integer (by decide) rfl number
  rw [instanceKey_eq, instanceKey_eq, instanceText, instanceText,
    List.prefix_append_right_inj] at isPrefix
  obtain ⟨rest, whole⟩ := isPrefix
  rw [List.append_assoc, List.cons_append,
    append_separator_inj (apart _) (apart _),
    Numerals.integer_injective.eq_iff, Int32.toInt_inj] at whole
  exact whole.1

theorem Request.MadeBy.unrelated (made : first.MadeBy instanceNr count)
    (made' : second.MadeBy instanceNr' count')
    (distinct : instanceNr ≠ instanceNr') : ¬ first.Related second := by
  rintro ⟨-, firstPrefix | secondPrefix⟩
  all_goals
    rw [made.cases.2.1.keyString, made'.cases.2.1.keyString] at *
  · exact distinct (instanceNr_eq_of_leading firstPrefix)
  · exact distinct (instanceNr_eq_of_leading secondPrefix).symm

end Instances

end RdmaKVStore
