import RdmaKVStore.TcpFraming

/-!
# Responses per request

Both the dispatcher and the worker's own switch send responses.  The worker
sends one in every turn; the dispatcher sends another one before it for PING,
SETOPT and UNK.  Over TCP the requests come in the pieces that `read` returns.
-/

namespace RdmaKVStore

variable {Store : Type*} {session : Session Store} {index : Nat}
variable (handlers : StoreHandlers Store)

/-- The code decided for a request: the dispatcher's, if it answers the
request, and the one that the method switch leaves otherwise. -/
def decidedCode (request : Request) (socket : SocketReport) (store : Store) :
    ResponseCode :=
  (dispatchCodes request socket).head?.getD
    (handlers.switch request store).2.code

/-- The codes decided for a sequence of requests, given the socket reports of
their turns. -/
def decidedCodes :
    Store → (Nat → SocketReport) → List Request → List ResponseCode
  | _, _, [] => []
  | store, sockets, request :: requests =>
      decidedCode handlers request (sockets 0) store ::
        decidedCodes (handlers.switch request store).1
          (fun turn => sockets (turn + 1)) requests

def StoreHandlers.storeAfter (store : Store) (requests : List Request) :
    Store :=
  requests.foldl (fun store request => (handlers.switch request store).1) store

/-- Every request has one turn, in which one response is sent, with the code
decided for the request. -/
def OneResponseEach (store : Store) (sockets : Nat → SocketReport)
    (requests : List Request) (turns : List Turn) : Prop :=
  turns.map (fun turn => turn.responses.map Response.code) =
    (decidedCodes handlers store sockets requests).map fun code => [code]

def OpenUntilLast (type : ConnectionType) (start : Nat)
    (messages : List Request) : Prop :=
  ∀ (index : Nat) message, index + 1 < messages.length →
    messages[index]? = some message → ¬ message.Closes type (start + index)

def Method.Dispatched (method : Method) : Prop :=
  method = .ping ∨ method = .setopt ∨ method = .unk

instance (method : Method) : Decidable method.Dispatched :=
  inferInstanceAs (Decidable (_ ∨ _ ∨ _))

theorem dispatchCodes_eq_nil_iff {request : Request} (socket : SocketReport)
    (stays : request.method ≠ .exit) :
    dispatchCodes request socket = [] ↔ ¬ request.method.Dispatched := by
  cases method : request.method with
  | setopt =>
      refine iff_of_false ?_ (fun elsewhere => elsewhere (.inr (.inl rfl)))
      simp only [dispatchCodes, method]
      split
      · split
        · simp
        · split <;> simp
      · simp
  | exit => exact absurd method stays
  | _ => simp [dispatchCodes, method, Method.Dispatched]

/-- A turn's codes are the decided one alone just if the dispatcher sends
nothing. -/
theorem codes_eq_decided_iff {request : Request} (socket : SocketReport)
    (store : Store) (stays : request.method ≠ .exit) :
    dispatchCodes request socket ++ [(handlers.switch request store).2.code] =
        [decidedCode handlers request socket store] ↔
      ¬ request.method.Dispatched := by
  rw [← dispatchCodes_eq_nil_iff socket stays, decidedCode]
  cases dispatchCodes request socket <;> simp

theorem decidedCodes_concat (store : Store) (sockets : Nat → SocketReport)
    (requests : List Request) (request : Request) :
    decidedCodes handlers store sockets (requests ++ [request]) =
      decidedCodes handlers store sockets requests ++
        [decidedCode handlers request (sockets requests.length)
          (handlers.storeAfter store requests)] := by
  induction requests generalizing store sockets with
  | nil => rfl
  | cons first requests ih =>
      rw [List.cons_append, decidedCodes, ih, decidedCodes, List.cons_append]
      rfl

theorem oneResponseEach_cons {request : Request} {requests : List Request}
    {store : Store} {sockets : Nat → SocketReport} {turn : Turn}
    {turns : List Turn} :
    OneResponseEach handlers store sockets (request :: requests)
        (turn :: turns) ↔
      turn.responses.map Response.code =
          [decidedCode handlers request (sockets 0) store] ∧
        OneResponseEach handlers (handlers.switch request store).1
          (fun turn => sockets (turn + 1)) requests turns := by
  simp [OneResponseEach, decidedCodes]

theorem openUntilLast_cons {type : ConnectionType} {start : Nat}
    {message : Request} {messages : List Request} :
    OpenUntilLast type start (message :: messages) ↔
      (messages ≠ [] → ¬ message.Closes type start) ∧
        OpenUntilLast type (start + 1) messages := by
  constructor
  · refine fun last => ⟨fun more => last 0 message ?_ rfl,
      fun index later bound found => ?_⟩
    · simpa using List.length_pos_iff.mpr more
    · rw [show start + 1 + index = start + (index + 1) by omega]
      exact last (index + 1) later (by simpa using bound) found
  · rintro ⟨first, rest⟩ index later bound found
    cases index with
    | zero =>
        cases found
        refine first fun nothing => ?_
        simp [nothing] at bound
    | succ index =>
        rw [show start + (index + 1) = start + 1 + index by omega]
        exact rest index later (by simpa using bound) found

theorem Session.tcpLoop_oneResponseEach_iff (tcp : session.type = .tcp)
    (aligned : Aligned session index) (sockets : Nat → SocketReport)
    (requests : List Request) {pieces : List Bytes}
    (cut : Cut Request.format.size (Request.format.stream requests) pieces)
    (stay : ∀ request ∈ requests, request.method ≠ .exit) :
    OneResponseEach handlers session.store sockets requests
        (session.tcpLoop handlers sockets pieces) ↔
      (∀ piece ∈ pieces, piece.length = Request.format.size) ∧
        (∀ request ∈ requests, ¬ request.method.Dispatched) ∧
        OpenUntilLast .tcp index requests := by
  induction requests generalizing session index sockets pieces with
  | nil =>
      obtain rfl := cut.eq_nil
      simp [OneResponseEach, OpenUntilLast, tcpLoop, decidedCodes]
  | cons request requests ih =>
      obtain ⟨piece, pieces, rfl⟩ := cut.exists_cons Request.format.positive
        (Request.format.length_encode request)
      by_cases short : piece.length ≠ Request.format.size
      · -- the session ends without a response
        obtain ⟨turn, after, turned, silent⟩ :=
          mainTurn_short handlers tcp short (sockets 0)
        refine iff_of_false (fun each => ?_) fun reads =>
          short (reads.1 piece List.mem_cons_self)
        simp only [tcpLoop, turned] at each
        have first := ((oneResponseEach_cons handlers).mp each).1
        simp [silent] at first
      have whole := not_not.mp short
      obtain ⟨rfl, rest⟩ := cut.head_of_length
        (whole.trans (Request.format.length_encode request).symm)
      have stays : request.method ≠ .exit := stay request (by simp)
      obtain ⟨sent, after, turned, codes, store, -, -, known, -⟩ :=
        aligned.mainTurn handlers stays (fun kills => kills.1 tcp) (sockets 0)
      have first := codes_eq_decided_iff handlers (sockets 0) session.store
        stays
      rw [← codes] at first
      rw [tcp] at turned known
      simp only [tcpLoop, readPiece_encode, turned, openUntilLast_cons,
        List.forall_mem_cons, whole, true_and]
      by_cases closes : request.Closes .tcp index
      · -- the session ends after this turn
        simp only [decide_eq_true closes, oneResponseEach_cons,
          List.map_append, List.map_cons, List.map_nil, first]
        cases requests with
        | nil =>
            obtain rfl := rest.eq_nil
            simp [OneResponseEach, OpenUntilLast, decidedCodes]
        | cons next requests => simp [OneResponseEach, decidedCodes, closes]
      · simp only [decide_eq_false closes, oneResponseEach_cons,
          List.map_append, List.map_cons, List.map_nil, first]
        by_cases dispatched : request.method.Dispatched
        · simp [dispatched]
        · have answered : request.method ≠ .unk := fun unk =>
            dispatched (.inr (.inr unk))
          obtain ⟨type, aligned'⟩ := known answered closes
          rw [← store, ih type aligned' _ rest fun request member =>
            stay request (by simp [member])]
          simp [dispatched, closes]

end RdmaKVStore
