import RdmaKVStore.HashTableInvariant
import RdmaKVStore.EarlyRequests
import RdmaKVStore.Kvstore

/-!
# One server behind four transports

A client that sends its next request after the answer to the last one finds
the same server behind each transport.  What the transports share is a server
without any: it executes the requests in order, early or not.
-/

namespace RdmaKVStore

variable {Store : Type*}

/-- The requests executed in order, with the responses and the store that they
leave. -/
def StoreHandlers.executeAll (handlers : StoreHandlers Store) :
    Store → List Request → List Response × Store
  | store, [] => ([], store)
  | store, request :: requests =>
      let (store, response) := handlers.switch request store
      let (responses, store) := executeAll handlers store requests
      (response :: responses, store)

/-- A run of the loop has served some requests in order, each with one
response, as a server without transport executes them. -/
structure Executes (handlers : StoreHandlers Store) (store : Store)
    (requests : List Request) (run : List Turn × Session Store) : Prop where
  served : run.1.map Turn.served = requests.map some
  responses : run.1.map Turn.responses =
    (handlers.executeAll store requests).1.map fun response => [response]
  store : run.2.store = (handlers.executeAll store requests).2

theorem Executes.cons {handlers : StoreHandlers Store} {store : Store}
    {request : Request} {requests : List Request}
    {run : List Turn × Session Store} {turn : Turn}
    (executes : Executes handlers (handlers.switch request store).1 requests
      run)
    (served : turn.served = some request)
    (responses : turn.responses = [(handlers.switch request store).2]) :
    Executes handlers store (request :: requests) (turn :: run.1, run.2) where
  served := by rw [List.map_cons, List.map_cons, served, executes.served]
  responses := by
    rw [List.map_cons, responses, executes.responses]
    rfl
  store := executes.store

/-- A request with a case in the method switch that leaves the connection
open. -/
structure Request.Plain (request : Request) : Prop where
  stored : request.method.Stored
  stays : request.connectionClose = 0

theorem dispatchCodes_of_stored {request : Request}
    (stored : request.method.Stored) (socket : SocketReport) :
    dispatchCodes request socket = [] := by
  rcases stored with method | method | method | method <;>
    simp only [dispatchCodes, method]

theorem Aligned.stays_open_of_plain {base : Session Store} {index : Nat}
    (aligned : Aligned base index) {deliveries : List Delivery}
    (plain : ∀ delivery ∈ deliveries, delivery.request.Plain) :
    (base.receiveEarly deliveries).isConnectionClosed = false := by
  have opened : base.isConnectionClosed = false := by
    simp [Session.isConnectionClosed, aligned.stillOpen]
  rw [Session.isConnectionClosed_receiveEarly opened aligned.next]
  refine decide_eq_false ?_
  rintro ⟨next, first, -, closes⟩
  exact closes.2 (plain next (List.mem_of_mem_head? first)).stays

theorem Aligned.serveAll_executes {handlers : StoreHandlers Store}
    {base : Session Store} {index : Nat} (aligned : Aligned base index)
    (deliveries : List Delivery)
    (plain : ∀ delivery ∈ deliveries, delivery.request.Plain) :
    Executes handlers base.store (deliveries.map Delivery.request)
      ((base.receiveEarly deliveries).serveAll handlers deliveries) := by
  induction deliveries generalizing base index with
  | nil => exact ⟨rfl, rfl, rfl⟩
  | cons delivery deliveries ih =>
      obtain ⟨⟨stored, stays⟩, rest⟩ := List.forall_mem_cons.mp plain
      have goes : delivery.request.method ≠ .exit := by
        intro exits
        rw [exits] at stored
        exact absurd stored (by decide)
      have opened : ¬ delivery.request.Closes base.type index :=
        fun closes => closes.2 stays
      obtain ⟨sent, after, turned, codes, store, -, -, known, -⟩ :=
        aligned.mainTurn handlers goes (stored.not_kills base.type)
          delivery.socket
      obtain ⟨-, aligned'⟩ := known stored.ne_unk opened
      have silent : sent = [] := by
        rw [dispatchCodes_of_stored stored] at codes
        exact List.map_eq_nil_iff.mp codes
      have still := aligned'.stays_open_of_plain rest
      rw [Session.serveAll, Session.mainTurn_receiveEarly delivery deliveries
        fun rdma => Session.exists_deliver (aligned.next rdma) _, turned]
      simp only [still, reduceCtorEq, Bool.false_eq_true, or_self, if_false]
      rw [List.map_cons]
      have executes := ih aligned' rest
      rw [store] at executes
      exact executes.cons rfl (by rw [silent]; rfl)

/-- The table and the response after a handler; nothing is known of the table
after undefined behaviour. -/
def tableOr (response : Response) :
    Option (HashTable × Response) → Option HashTable × Response
  | some (ht, response) => (some ht, response)
  | none => (none, response)

/-- The functions of `kvstore.c`, called by one worker. -/
def kvstoreHandlers (worker : WorkerId) :
    StoreHandlers (Option HashTable) where
  setRequest request response table :=
    tableOr response
      (table.bind fun ht => setRequest worker ht request response)
  getRequest request response table :=
    tableOr response
      (table.bind fun ht => getRequest worker ht request response)
  delRequest request response table :=
    tableOr response
      (table.bind fun ht => delRequest worker ht request response)
  initHashtable table := table.map fun ht => ht.initHashtable htCapacity

theorem switch_kvstoreHandlers (worker : WorkerId) (request : Request)
    (ht : HashTable) :
    (kvstoreHandlers worker).switch request (some ht) =
      tableOr Response.zero (execute worker ht request) := by
  cases method : request.method <;>
    simp only [StoreHandlers.switch, execute, method] <;> rfl

theorem executeAll_kvstoreHandlers (worker : WorkerId)
    (requests : List Request) {ht after : HashTable}
    {responses : List Response}
    (executed : executeAll ht (requests.map fun request =>
      (worker, request)) = some (after, responses)) :
    (kvstoreHandlers worker).executeAll (some ht) requests =
      (responses, some after) := by
  induction requests generalizing ht responses with
  | nil =>
      cases executed
      rfl
  | cons request requests ih =>
      obtain ⟨⟨middle, response⟩, first, rest⟩ :=
        Option.bind_eq_some_iff.mp executed
      obtain ⟨⟨last, responses⟩, others, same⟩ :=
        Option.map_eq_some_iff.mp rest
      cases same
      simp only [StoreHandlers.executeAll, switch_kvstoreHandlers, first,
        tableOr, ih others]

/-- A session with one client over a transport. -/
def Session.overTransport (handlers : StoreHandlers Store)
    (type : ConnectionType) (blocking : Bool) (store : Store)
    (deliveries : List Delivery) : List Turn × Session Store :=
  (Session.accepted type blocking store).serveJob handlers deliveries

theorem overTransport_executes (handlers : StoreHandlers Store)
    (type : ConnectionType) (blocking : Bool) (store : Store)
    {deliveries : List Delivery}
    (plain : ∀ delivery ∈ deliveries, delivery.request.Plain) :
    Executes handlers store (deliveries.map Delivery.request)
      (Session.overTransport handlers type blocking store deliveries) := by
  have aligned := Aligned.accepted type blocking store
  have opened := aligned.stays_open_of_plain plain
  rw [Session.isConnectionClosed, decide_eq_false_iff_not, not_not] at opened
  rw [Session.overTransport, Session.serveJob, Session.start_of_open opened]
  exact aligned.serveAll_executes deliveries plain

def sampleDeliveries (early : Bool) : List Delivery :=
  [⟨.make .set [97] [1], ⟨0, 0, []⟩, early⟩,
    ⟨.make .get [97] [], ⟨0, 0, []⟩, early⟩,
    ⟨.make .rst [] [], ⟨0, 0, []⟩, early⟩]

/-- Over every transport the table and the responses are those of the store
alone. -/
theorem overTransport_kvstore (worker : WorkerId) (type : ConnectionType)
    (blocking : Bool) {ht after : HashTable} {responses : List Response}
    {deliveries : List Delivery}
    (plain : ∀ delivery ∈ deliveries, delivery.request.Plain)
    (executed : executeAll ht (deliveries.map fun delivery =>
      (worker, delivery.request)) = some (after, responses)) :
    let run := Session.overTransport (kvstoreHandlers worker) type blocking
      (some ht) deliveries
    run.1.map Turn.responses = responses.map (fun response => [response]) ∧
      run.2.store = some after := by
  have executes := overTransport_executes (kvstoreHandlers worker) type
    blocking (some ht) plain
  have alone : (kvstoreHandlers worker).executeAll (some ht)
      (deliveries.map Delivery.request) = (responses, some after) := by
    apply executeAll_kvstoreHandlers
    rwa [List.map_map]
  have same := executes.responses
  have table := executes.store
  rw [alone] at same table
  exact ⟨same, table⟩

end RdmaKVStore
