import RdmaKVStore.KeySources
import RdmaKVStore.RepeatedInputs

/-!
# Retried requests

Over UC and UD a client sends its request again when no response arrives in
time, so the server may execute it several times.  All requests but DEL may be
executed again: as long as nobody else uses the client's keys, every execution
is answered as if the request had been sent once.
-/

namespace RdmaKVStore

open HashTable FirstMatch

variable {request : Request}

namespace Request

theorem any_assigned (request : Request) (entries : List Entry) :
    (request.assigned entries).any request.finds = true := by
  have entered := List.find?_isSome.mp (request.find?_entered entries)
  have finds (entry : Entry) :
      request.finds (request.revise entry) = request.finds entry := rfl
  rw [assigned, any_alterFirst finds]
  exact List.any_eq_true.mpr entered

theorem assigned_assigned (request : Request) (entries : List Entry) :
    request.assigned (request.assigned entries) =
      request.assigned entries := by
  have present := request.any_assigned entries
  have finds (entry : Entry) :
      request.finds (request.revise entry) = request.finds entry := rfl
  have again (entry : Entry) :
      request.revise (request.revise entry) = request.revise entry := rfl
  rw [assigned, entered, if_pos present, assigned]
  exact alterFirst_alterFirst finds again _

end Request

theorem bucketStore_idempotent (kept : request.method ≠ .del) :
    bucketStore.Idempotent request := by
  constructor
  · intro buckets
    simp only [bucketStore]
    cases method : request.method with
    | set =>
        simp only [Buckets.after, method, Function.update_self,
          Function.update_idem, Request.assigned_assigned]
    | del => exact absurd method kept
    | rst | unk | get | ping | dump | exit | setopt =>
        simp only [Buckets.after, method]
  · intro buckets
    simp only [bucketStore]
    cases method : request.method with
    | get => simp only [Buckets.after, method]
    | del => exact absurd method kept
    | set | rst | unk | ping | dump | exit | setopt =>
        simp only [Buckets.answer, method]

/-- Each operation of a separate source is retried any number of times; every
one of its executions is answered as its only execution is when the source is
alone. -/
theorem SeparateSource.executeAll_retried {Tag Op : Type*} {tags : List Tag}
    (turn : Tag → WorkerId × Request) (op : Tag → Op) (request : Op → Request)
    {mine : Request → Bool}
    (separate : SeparateSource (tags.map fun tag => (turn tag).2) mine)
    (requested : ∀ tag ∈ tags, mine (turn tag).2 →
      request (op tag) = (turn tag).2)
    {ops : List Op} (retried : Repeats ops
      ((tags.filter fun tag => mine (turn tag).2).map op))
    (kept : ∀ op ∈ ops, (request op).method ≠ .del) (worker : WorkerId) :
    ∃ ht responses alone answers,
      executeAll empty (tags.map turn) = some (ht, responses) ∧
      executeAll empty (ops.map fun op => (worker, request op)) =
        some (alone, answers) ∧
      Repeats (ops.zip answers)
        (((tags.zip responses).filter fun answered =>
          mine (turn answered.1).2).map (Prod.map op id)) ∧
      ∀ bucket, (alone.contents bucket).Sublist (ht.contents bucket) := by
  have start : Buckets.Alike (tags.map fun tag => (turn tag).2) mine
      (fun _ => []) fun _ => [] := ⟨Buckets.writtenBy_nil _, fun _ => rfl⟩
  obtain ⟨settled, none_⟩ := settled_empty
  obtain ⟨ht, executed, -, contentsEq⟩ := settled.executeAll (tags.map turn)
  obtain ⟨alone, executedAlone, -, aloneEq⟩ :=
    settled.executeAll (ops.map fun op => (worker, request op))
  have all : (tags.map turn).map Prod.snd =
      tags.map fun tag => (turn tag).2 := List.map_map
  have sent : (ops.map fun op => (worker, request op)).map Prod.snd =
      ops.map request := List.map_map
  have selected : (tags.map fun tag => (turn tag).2).filter mine =
      (tags.filter fun tag => mine (turn tag).2).map fun tag =>
        (turn tag).2 := by
    rw [List.filter_map]
    rfl
  have made : ((tags.filter fun tag => mine (turn tag).2).map op).map request =
      (tags.map fun tag => (turn tag).2).filter mine := by
    rw [selected, List.map_map]
    exact List.map_congr_left fun tag member =>
      requested tag (List.mem_filter.mp member).1 (List.mem_filter.mp member).2
  rw [none_, all] at executed contentsEq
  rw [none_, sent] at executedAlone aloneEq
  obtain ⟨answers, final⟩ := bucketStore.answered_repeats retried
    (fun op member => bucketStore_idempotent (kept op member)) fun _ => []
  rw [made] at answers final
  refine ⟨ht, _, alone, _, executed, executedAlone, ?_, fun bucket => ?_⟩
  · rw [separate.unwinding.zip_filter start, ← selected, ← List.zip_map_left]
    exact answers
  · rw [aloneEq, ← final, contentsEq, (separate.unwinding.final start).own]
    exact List.filter_sublist

/-- However often a client repeats its requests, none of them a DEL, among any
requests for unrelated keys, where all keys are well formed and nobody sends an
RST, every execution of a request is answered as it would be if the client were
alone and had sent each request once, and the table ends up with all entries
that it would hold then. -/
theorem retried_requests_answered_alike {Source : Type*} [DecidableEq Source]
    (source : Request → Source) (turns : List (WorkerId × Request))
    (wellFormed : ∀ turn ∈ turns, turn.2.KeyWellFormed)
    (noReset : ∀ turn ∈ turns, turn.2.method ≠ .rst)
    (unrelated : ∀ first ∈ turns, ∀ second ∈ turns,
      source first.2 ≠ source second.2 → ¬ first.2.Related second.2)
    (mine : Source) (requests : List Request)
    (retried : Repeats requests
      ((turns.map Prod.snd).filter fun request => source request = mine))
    (kept : ∀ request ∈ requests, request.method ≠ .del) (worker : WorkerId) :
    ∃ ht responses alone answers,
      executeAll empty turns = some (ht, responses) ∧
      executeAll empty (requests.map fun request => (worker, request)) =
        some (alone, answers) ∧
      Repeats (requests.zip answers)
        (((turns.map Prod.snd).zip responses).filter fun answered =>
          source answered.1 = mine) ∧
      ∀ bucket, (alone.contents bucket).Sublist (ht.contents bucket) := by
  have separate := separateSource_of_source source turns wellFormed noReset
    unrelated mine
  rw [List.filter_map] at retried
  obtain ⟨ht, responses, alone, answers, executed, executedAlone, alike,
    within⟩ := separate.executeAll_retried id Prod.snd id (fun _ _ _ => rfl)
      retried kept worker
  rw [List.map_id] at executed
  refine ⟨ht, responses, alone, answers, executed, executedAlone, ?_, within⟩
  rw [List.zip_map_left, List.filter_map]
  exact alike

/-- A SET and a GET of one key, both of them sent twice, among requests for
another key. -/
def retriedTurns : List (WorkerId × Request) :=
  [(0, .make .set [121] [1]), (1, .make .set [122] [2]),
    (1, .make .set [122] [2]), (0, .make .del [121] []),
    (1, .make .get [122] []), (1, .make .get [122] [])]

theorem retriedTurns_answered_alike :
    ∃ ht responses alone answers,
      executeAll empty retriedTurns = some (ht, responses) ∧
      executeAll empty
          [(1, .make .set [122] [2]), (1, .make .get [122] [])] =
        some (alone, answers) ∧
      Repeats ([Request.make .set [122] [2], .make .get [122] []].zip answers)
        (((retriedTurns.map Prod.snd).zip responses).filter fun answered =>
          answered.1.keyString = [122]) := by
  have retried : Repeats
      [Request.make .set [122] [2], .make .get [122] []]
      ((retriedTurns.map Prod.snd).filter fun request =>
        request.keyString = [122]) := by
    have mine : (retriedTurns.map Prod.snd).filter (fun request =>
        request.keyString = [122]) =
      [.make .set [122] [2], .make .set [122] [2], .make .get [122] [],
        .make .get [122] []] := rfl
    rw [mine]
    exact .again _ (.once _ (.again _ (.once _ .nil)))
  obtain ⟨ht, responses, alone, answers, executed, executedAlone, alike, -⟩ :=
    retried_requests_answered_alike Request.keyString retriedTurns (by decide)
      (by decide) (by decide) [122]
      [.make .set [122] [2], .make .get [122] []] retried (by decide) 1
  exact ⟨ht, responses, alone, answers, executed, executedAlone, alike⟩

end RdmaKVStore
