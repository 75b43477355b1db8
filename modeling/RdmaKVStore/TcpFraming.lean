import RdmaKVStore.ReceiveRing
import RdmaKVStore.WireFormat

/-!
# Framing over TCP

Requests and responses cross a TCP connection as a stream of bytes, which
`read` returns in pieces.  The server takes a piece that is not a whole request
for the end of the connection; the client takes every piece for a response.
-/

namespace RdmaKVStore

variable {Store : Type*} {session : Session Store} {index : Nat}
variable {request : Request} {socket : SocketReport}

namespace Session

/-- A receive step over TCP in which `read` returns a piece of the stream. -/
def readPiece (session : Session Store) (piece : Bytes)
    (socket : SocketReport) : Receipt :=
  { Receipt.arrival
      (Request.format.overwrite session.getCurrentRequest piece) socket with
    read := piece.length }

variable (handlers : StoreHandlers Store)

/-- The turns of the loop over TCP on the pieces that `read` returns. -/
def tcpLoop : Session Store → (Nat → SocketReport) → List Bytes → List Turn
  | _, _, [] => []
  | session, sockets, piece :: pieces =>
      match session.mainTurn handlers
          (session.readPiece piece (sockets 0)) with
      | none => []
      | some (turn, _, true) => [turn]
      | some (turn, session, false) =>
          turn :: tcpLoop session (fun turn => sockets (turn + 1)) pieces

/-- `main_job` over TCP on the pieces that `read` returns. -/
def tcpJob (session : Session Store) (sockets : Nat → SocketReport)
    (pieces : List Bytes) : List Turn :=
  session.start.tcpLoop handlers sockets pieces

theorem tcpJob_accepted (blocking : Bool) (store : Store)
    (sockets : Nat → SocketReport) (pieces : List Bytes) :
    (accepted .tcp blocking store).tcpJob handlers sockets pieces =
      (accepted .tcp blocking store).tcpLoop handlers sockets pieces := by
  rw [tcpJob, start_of_open (by rfl)]

end Session

/-- The requests that some turns have executed: a turn that sends no response
has not got one, and a turn that serves none has answered an EXIT. -/
def executed (turns : List Turn) : List (Option Request) :=
  (turns.filter fun turn => turn.responses ≠ []).map Turn.served

/-- The session ends with this request, which `index` requests have come
before that were not UNK. -/
def Request.Ends (index : Nat) (request : Request) : Prop :=
  request.method = .exit ∨ request.Closes .tcp index

instance (index : Nat) (request : Request) : Decidable (request.Ends index) :=
  inferInstanceAs (Decidable (_ ∨ _))

/-- Every piece up to the one with the request that ends the session is a
whole request. -/
def ReadsWhole : Nat → List Request → List Bytes → Prop
  | _, [], _ => True
  | _, _ :: _, [] => False
  | index, request :: requests, piece :: pieces =>
      piece.length = Request.format.size ∧
        (request.Ends index ∨
          ReadsWhole (if request.method = .unk then index else index + 1)
            requests pieces)

/-- `tcp_receive_response`; a failing `read` returns no bytes and sets
`errno`. -/
def tcpReceiveResponse (buffer : Response) (errno : Int) (piece : Bytes) :
    Int × Response :=
  if piece.length ≤ 0 then (-errno, buffer)
  else (piece.length, Response.format.overwrite buffer piece)

/-- The responses that a client finds in its buffer when
`tcp_receive_response` returns a number of bytes. -/
def tcpResponses (errno : Int) : Response → List Bytes → List Response
  | _, [] => []
  | buffer, piece :: pieces =>
      let (ret, response) := tcpReceiveResponse buffer errno piece
      if 0 < ret then response :: tcpResponses errno response pieces
      else tcpResponses errno response pieces

theorem executed_cons_of_silent {turn : Turn} (turns : List Turn)
    (silent : turn.responses = []) :
    executed (turn :: turns) = executed turns := by
  simp [executed, silent]

theorem executed_cons_of_answered {turn : Turn} (turns : List Turn)
    (answered : turn.responses ≠ []) :
    executed (turn :: turns) = turn.served :: executed turns := by
  simp [executed, answered]

namespace Session

variable {handlers : StoreHandlers Store}

theorem readPiece_encode (session : Session Store) (request : Request)
    (socket : SocketReport) :
    session.readPiece (Request.format.encode request) socket =
      .arrival request socket := by
  rw [readPiece, RecordFormat.overwrite_encode,
    Request.format.length_encode request]
  rfl

variable (handlers)

theorem mainTurn_short (tcp : session.type = .tcp) {piece : Bytes}
    (short : piece.length ≠ Request.format.size) (socket : SocketReport) :
    ∃ turn after,
      session.mainTurn handlers (session.readPiece piece socket) =
        some (turn, after, true) ∧ turn.responses = [] := by
  have prepared : session.prepareForNextRequest = session := by
    simp only [prepareForNextRequest, tcp]
  have read : (session.readPiece piece socket).read ≠ requestSize := by
    rw [Request.format_size] at short
    simp only [readPiece, requestSize]
    omega
  have received :
      session.recvRequest (session.readPiece piece socket) =
        some (.null (session.readInto
          (session.readPiece piece socket).message)) := by
    simp only [recvRequest, receiveHeader, tcp, tcpReceiveHeader]
    rw [if_neg (by simp [readPiece, Receipt.arrival]), if_pos read]
    rfl
  rw [mainTurn, prepared, received]
  exact ⟨_, _, rfl, rfl⟩

theorem mainTurn_exit (unlocked : session.locked = false)
    (current : (session.prepareForNextRequest.landed
      request).getCurrentRequest = request)
    (exits : request.method = .exit) :
    ∃ turn after,
      session.mainTurn handlers (.arrival request socket) =
        some (turn, after, true) ∧ turn.responses ≠ [] := by
  obtain ⟨header, opened, received⟩ := receiveHeader_arrival request socket
    (locked_prepareForNextRequest.trans unlocked)
  set landed := session.prepareForNextRequest.landed request
  have request' : (landed.rememberClient request).getCurrentRequest =
      request :=
    (getCurrentRequest_of_frame (frame_rememberClient request)).trans current
  have recv : ∃ after response,
      session.prepareForNextRequest.recvRequest (.arrival request socket) =
        some (.exited after [response]) := by
    simp only [recvRequest, received, Option.map_some, opened, if_false,
      current, requestDispatcher, request', exits]
    exact ⟨_, _, rfl⟩
  obtain ⟨after, response, recv⟩ := recv
  rw [mainTurn, recv]
  exact ⟨_, _, rfl, List.cons_ne_nil _ _⟩

theorem aligned_after_unk {after : Session Store} (tcp : session.type = .tcp)
    (aligned : Aligned session index)
    (opened : ¬ request.Closes .tcp index)
    (frame : after.frame =
      (session.prepareForNextRequest.landed request).frame) :
    after.type = .tcp ∧ Aligned after index := by
  have put := aligned.landed request
  have still := (isConnectionClosed_of_frame frame).trans
    ((put.isConnectionClosed aligned).trans
      (decide_eq_false (tcp ▸ opened)))
  simp only [Session.frame, Session.config, Prod.mk.injEq] at frame
  obtain ⟨⟨type, -⟩, -, count, locked⟩ := frame
  have tcp' : after.type = .tcp := type.trans (put.type.trans tcp)
  refine ⟨tcp', ?_, ?_, ?_, fun rdma => absurd tcp' rdma,
    fun rdma => absurd tcp' rdma, fun rdma => absurd tcp' rdma⟩
  · rw [count, put.count, tcp, tcp']
  · rw [locked, put.unlocked (by rw [tcp]; decide)]
  · simpa [isConnectionClosed] using still

/-- A whole request is executed; it ends the session or leaves it ready for the
next one. -/
theorem mainTurn_whole (tcp : session.type = .tcp)
    (aligned : Aligned session index) (request : Request)
    (socket : SocketReport) :
    ∃ turn after ended,
      session.mainTurn handlers (.arrival request socket) =
        some (turn, after, ended) ∧
      turn.responses ≠ [] ∧ (ended = true ↔ request.Ends index) ∧
      (¬ request.Ends index → after.type = .tcp ∧
        Aligned after
          (if request.method = .unk then index else index + 1)) := by
  by_cases exits : request.method = .exit
  · obtain ⟨turn, after, turned, answered⟩ := mainTurn_exit handlers
        aligned.unlocked
      (aligned.landed request).getCurrentRequest exits
    exact ⟨turn, after, true, turned, answered,
      iff_of_true rfl (.inl exits), fun stays => absurd (.inl exits) stays⟩
  · have survived : ¬ request.Kills session.type := fun kills => kills.1 tcp
    obtain ⟨sent, after, turned, -, -, -, -, known, unknown⟩ :=
      aligned.mainTurn handlers exits survived socket
    rw [tcp] at turned known
    refine ⟨_, after, _, turned, by simp, ?_, fun stays => ?_⟩
    · rw [decide_eq_true_iff, Request.Ends, or_iff_right exits]
    · have opened : ¬ request.Closes .tcp index :=
        fun closes => stays (.inr closes)
      by_cases unk : request.method = .unk
      · rw [if_pos unk]
        exact aligned_after_unk tcp aligned opened (unknown unk)
      · rw [if_neg unk]
        exact known unk opened

/-- Cutting the stream of requests changes what is executed unless all reads
of the session return whole requests. -/
theorem executed_tcpLoop_iff (requests : List Request)
    (tcp : session.type = .tcp) (aligned : Aligned session index)
    (sockets : Nat → SocketReport) {pieces : List Bytes}
    (cut : Cut Request.format.size (Request.format.stream requests) pieces) :
    executed (session.tcpLoop handlers sockets pieces) =
        executed (session.tcpLoop handlers sockets
          (requests.map Request.format.encode)) ↔
      ReadsWhole index requests pieces := by
  induction requests generalizing session index sockets pieces with
  | nil =>
      obtain rfl := cut.eq_nil
      exact iff_of_true rfl trivial
  | cons request requests ih =>
      obtain ⟨turn, after, ended, turned, answered, ends, next⟩ :=
        mainTurn_whole handlers tcp aligned request (sockets 0)
      obtain ⟨piece, pieces, rfl⟩ := cut.exists_cons Request.format.positive
        (Request.format.length_encode request)
      by_cases whole : piece.length = Request.format.size
      · obtain ⟨rfl, rest⟩ := cut.head_of_length
          (whole.trans (Request.format.length_encode request).symm)
        simp only [List.map_cons, tcpLoop, readPiece_encode, turned]
        cases ended with
        | true => exact iff_of_true rfl ⟨whole, .inl (ends.mp rfl)⟩
        | false =>
            have stays : ¬ request.Ends index :=
              fun ending => Bool.false_ne_true (ends.mpr ending)
            obtain ⟨tcp', aligned'⟩ := next stays
            rw [executed_cons_of_answered _ answered,
              executed_cons_of_answered _ answered, List.cons.injEq,
              ih tcp' aligned' _ rest, ReadsWhole]
            simp only [whole, stays, true_and, false_or]
      · -- the server executes nothing, though there is a request
        obtain ⟨nothing, final, shortTurn, silent⟩ :=
          mainTurn_short handlers tcp whole (sockets 0)
        refine iff_of_false (fun same => ?_) fun reads => whole reads.1
        simp only [List.map_cons, tcpLoop, readPiece_encode, turned, shortTurn]
          at same
        rw [executed_cons_of_silent _ silent] at same
        cases ended <;> rw [executed_cons_of_answered _ answered] at same <;>
          cases same

end Session

theorem tcpResponses_eq_overwrites (errno : Int) (buffer : Response)
    {pieces : List Bytes} (nonempty : ∀ piece ∈ pieces, piece ≠ []) :
    tcpResponses errno buffer pieces =
      Response.format.overwrites buffer pieces := by
  induction pieces generalizing buffer with
  | nil => rfl
  | cons piece pieces ih =>
      have some : 0 < piece.length :=
        List.length_pos_iff.mpr (nonempty piece List.mem_cons_self)
      rw [tcpResponses, tcpReceiveResponse, if_neg (by omega)]
      simp only [Int.natCast_pos.mpr some, if_true]
      rw [ih _ fun piece member =>
        nonempty piece (List.mem_cons_of_mem _ member)]
      rfl

/-- However the streams of a connection are cut into pieces, the server
executes what it would execute on whole requests exactly if all reads of its
session return whole requests, and the client gets the responses of the server
exactly if all its reads return whole responses. -/
theorem tcpFraming_iff {Store : Type*} (handlers : StoreHandlers Store)
    (blocking : Bool) (store : Store) (sockets : Nat → SocketReport)
    (requests : List Request) {requestPieces : List Bytes}
    (requestCut : Cut Request.format.size (Request.format.stream requests)
      requestPieces)
    (errno : Int) (buffer : Response) (responses : List Response)
    {responsePieces : List Bytes}
    (responseCut : Cut Response.format.size
      (Response.format.stream responses) responsePieces) :
    (executed ((Session.accepted .tcp blocking store).tcpJob handlers sockets
          requestPieces) =
        executed ((Session.accepted .tcp blocking store).tcpJob handlers
          sockets (requests.map Request.format.encode)) ↔
      ReadsWhole 0 requests requestPieces) ∧
    (tcpResponses errno buffer responsePieces = responses ↔
      ∀ piece ∈ responsePieces, piece.length = Response.format.size) := by
  constructor
  · rw [Session.tcpJob_accepted, Session.tcpJob_accepted]
    exact Session.executed_tcpLoop_iff handlers requests rfl
      (.accepted .tcp blocking store) sockets requestCut
  · rw [tcpResponses_eq_overwrites errno buffer responseCut.nonempty]
    exact RecordFormat.overwrites_eq_iff buffer responseCut

def exitThenSet : List Request :=
  [.make .exit [] []] ++ [.make .set [97] [1]]

def exitThenSetPieces : List Bytes :=
  [Request.make .exit [] []].map Request.format.encode ++
    [(Request.format.encode (.make .set [97] [1])).take 1,
      (Request.format.encode (.make .set [97] [1])).drop 1]

theorem tcpFraming_after_exit :
    executed ((Session.accepted .tcp false ()).tcpJob .idle
        (fun _ => ⟨0, 0, []⟩) exitThenSetPieces) =
      executed ((Session.accepted .tcp false ()).tcpJob .idle
        (fun _ => ⟨0, 0, []⟩) (exitThenSet.map Request.format.encode)) ∧
    tcpResponses 11 .zero ([.zero].map Response.format.encode) = [.zero] := by
  have requestCut : Cut Request.format.size
      (Request.format.stream exitThenSet) exitThenSetPieces :=
    RecordFormat.cut_append (Request.format.cut_whole _)
      (Request.format.cut_first (by decide) _)
  have framed := tcpFraming_iff .idle false () (fun _ => ⟨0, 0, []⟩)
    exitThenSet requestCut 11 .zero [.zero]
    (Response.format.cut_whole [.zero])
  constructor
  · apply framed.1.mpr
    exact ⟨Request.format.length_encode _, .inl (.inl rfl)⟩
  · exact framed.2.mpr RecordFormat.forall_length_encode

/-- A SET that comes in two pieces is not executed, and a response that comes
in two pieces is received as two. -/
theorem cutRecords_misread :
    (∃ pieces, Cut Request.format.size
        (Request.format.stream [.make .set [97] [1]]) pieces ∧
      executed ((Session.accepted .tcp false ()).tcpJob .idle
          (fun _ => ⟨0, 0, []⟩) pieces) ≠
        executed ((Session.accepted .tcp false ()).tcpJob .idle
          (fun _ => ⟨0, 0, []⟩)
          ([.make .set [97] [1]].map Request.format.encode))) ∧
    ∃ pieces, Cut Response.format.size (Response.format.stream [.zero])
        pieces ∧ tcpResponses 11 .zero pieces ≠ [.zero] := by
  constructor
  · have cut := Request.format.cut_first (by decide) (.make .set [97] [1])
    refine ⟨_, cut, ?_⟩
    intro same
    rw [Session.tcpJob_accepted, Session.tcpJob_accepted] at same
    have reads := (Session.executed_tcpLoop_iff .idle [.make .set [97] [1]] rfl
      (.accepted .tcp false ()) _ cut).mp same
    have short := reads.1
    rw [List.length_take, Request.format.length_encode] at short
    exact absurd short (by decide)
  · have cut := Response.format.cut_first (by decide) .zero
    refine ⟨_, cut, ?_⟩
    intro same
    rw [tcpResponses_eq_overwrites 11 .zero cut.nonempty] at same
    have whole := (RecordFormat.overwrites_eq_iff Response.zero cut).mp same
    have short := whole ((Response.format.encode .zero).take 1)
      List.mem_cons_self
    rw [List.length_take, Response.format.length_encode] at short
    exact absurd short (by decide)

end RdmaKVStore
