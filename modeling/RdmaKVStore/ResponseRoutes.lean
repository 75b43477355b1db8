import Mathlib.Data.List.Induction
import Mathlib.Data.List.Nodup
import RdmaKVStore.ServerSession

/-!
# Routes of UD responses

`ud_accept_new_connection` files what it learns of a client under two indices:
the attributes under the number of clients so far, and the address handle under
the id in the attributes.  `ud_send_response` reads both tables under the id.
-/

namespace RdmaKVStore

/-- `struct qp_attr` -/
structure QpAttr where
  gidGlobalInterfaceId : UInt64
  gidGlobalSubnetPrefix : UInt64
  clientId : Int32
  lid : Int32
  qpn : UInt32
  psn : Int32

/-- The fields of `struct ibv_ah_attr` that the server sets. -/
structure AhAttr where
  dlid : UInt16
  portNum : UInt8
  deriving DecidableEq

/-- `IB_PHYS_PORT` -/
def ibPhysPort : UInt8 := 1

namespace QpAttr

/-- An entry of the table that `calloc` has cleared. -/
def zero : QpAttr where
  gidGlobalInterfaceId := 0
  gidGlobalSubnetPrefix := 0
  clientId := 0
  lid := 0
  qpn := 0
  psn := 0

/-- What the address handle of a client is built from. -/
def ahAttr (attrs : QpAttr) : AhAttr where
  dlid := attrs.lid.toUInt32.toUInt16
  portNum := ibPhysPort

end QpAttr

/-- The tables of `struct ud_server_info`, by index from the starts of the
arrays, and `client_counter`. -/
structure UdServerInfo (Handle : Type*) where
  remoteDgramQpAttrs : Int → QpAttr
  ah : Int → Option Handle
  clientCounter : Nat

/-- What the calls of `ud_accept_new_connection` report: whether the buffer can
be registered and the connection accepted and set up, what `read` gets, and
what `write` returns. -/
structure AcceptCalls where
  connected : Bool
  attrs : Option QpAttr
  written : Int

def AcceptCalls.success (attrs : QpAttr) : AcceptCalls where
  connected := true
  attrs := some attrs
  written := 40

namespace UdServerInfo

variable {Handle : Type*}

def initial : UdServerInfo Handle where
  remoteDgramQpAttrs _ := QpAttr.zero
  ah _ := none
  clientCounter := 0

variable (info : UdServerInfo Handle)

/-- `read` fills the entry of the next client; a failed one is only logged. -/
def readAttrs (attrs : Option QpAttr) : UdServerInfo Handle :=
  { info with
    remoteDgramQpAttrs := Function.update info.remoteDgramQpAttrs
      info.clientCounter
      (attrs.getD (info.remoteDgramQpAttrs info.clientCounter)) }

/-- The attributes that the entry of the next client then holds. -/
def nextAttrs (attrs : Option QpAttr) : QpAttr :=
  (info.readAttrs attrs).remoteDgramQpAttrs info.clientCounter

/-- `ud_accept_new_connection` -/
def udAcceptNewConnection (createAh : AhAttr → Option Handle)
    (calls : AcceptCalls) : Int × UdServerInfo Handle :=
  if calls.connected then
    let attrs := info.nextAttrs calls.attrs
    let info := { info.readAttrs calls.attrs with
      ah := Function.update info.ah attrs.clientId.toInt
        (createAh attrs.ahAttr) }
    if (createAh attrs.ahAttr).isNone then (-1, info)
    else (calls.written, { info with clientCounter := info.clientCounter + 1 })
  else (-1, info)

def connectAll (createAh : AhAttr → Handle) (connections : List QpAttr) :
    UdServerInfo Handle :=
  connections.foldl (fun info attrs =>
    (info.udAcceptNewConnection (fun attr => some (createAh attr))
      (.success attrs)).2) initial

/-- The address handle and the queue pair number that `ud_send_response` hands
to `ud_post_send`. -/
def udSendTarget (clientHandling : Int32) : Option Handle × UInt32 :=
  (info.ah clientHandling.toInt,
    (info.remoteDgramQpAttrs clientHandling.toInt).qpn)

variable {createAh : AhAttr → Handle} {connections : List QpAttr}

theorem connectAll_concat (attrs : QpAttr) :
    connectAll createAh (connections ++ [attrs]) =
      { remoteDgramQpAttrs := Function.update
          (connectAll createAh connections).remoteDgramQpAttrs
          (connectAll createAh connections).clientCounter attrs
        ah := Function.update (connectAll createAh connections).ah
          attrs.clientId.toInt (some (createAh attrs.ahAttr))
        clientCounter :=
          (connectAll createAh connections).clientCounter + 1 } := by
  rw [connectAll, List.foldl_append, ← connectAll]
  simp [udAcceptNewConnection, AcceptCalls.success, nextAttrs, readAttrs]

@[simp]
theorem connectAll_clientCounter :
    (connectAll createAh connections).clientCounter = connections.length := by
  induction connections using List.reverseRecOn with
  | nil => rfl
  | append_singleton connections attrs ih =>
      rw [connectAll_concat, List.length_append, List.length_singleton, ih]

theorem connectAll_remoteDgramQpAttrs (index : Nat) :
    (connectAll createAh connections).remoteDgramQpAttrs index =
      connections[index]?.getD QpAttr.zero := by
  induction connections using List.reverseRecOn with
  | nil => rfl
  | append_singleton connections attrs ih =>
      rw [connectAll_concat, connectAll_clientCounter]
      simp only
      by_cases last : index = connections.length
      · rw [last, Function.update_self, List.getElem?_concat_length,
          Option.getD_some]
      · rw [Function.update_of_ne (by omega), ih]
        by_cases inside : index < connections.length
        · rw [List.getElem?_append_left inside]
        · rw [List.getElem?_eq_none (by omega),
            List.getElem?_eq_none (by simp; omega)]

theorem connectAll_ah (distinct : (connections.map QpAttr.clientId).Nodup)
    {attrs : QpAttr} (registered : attrs ∈ connections) :
    (connectAll createAh connections).ah attrs.clientId.toInt =
      some (createAh attrs.ahAttr) := by
  induction connections using List.reverseRecOn with
  | nil => cases registered
  | append_singleton connections last ih =>
      rw [connectAll_concat]
      simp only
      rw [List.map_append, List.map_singleton, List.nodup_append] at distinct
      rcases List.mem_append.mp registered with earlier | here
      · have other : attrs.clientId ≠ last.clientId :=
          distinct.2.2 _ (List.mem_map_of_mem earlier) _ (by simp)
        rw [Function.update_of_ne fun same => other (Int32.toInt_inj.mp same)]
        exact ih distinct.1 earlier
      · rw [List.mem_singleton.mp here, Function.update_self]

end UdServerInfo

/-- Over UD `recv_request` leaves the client id of the request that it returns
in `client_handling`. -/
theorem Session.recvRequest_clientHandling {Store : Type*}
    {session after : Session Store} {receipt : Receipt} {request : Request}
    {sent : List Response} (ud : session.type = .ud)
    (received : session.recvRequest receipt =
      some (.request request after sent)) :
    after.clientHandling = request.clientId := by
  obtain ⟨⟨header, middle⟩, headerEq, same⟩ :=
    Option.map_eq_some_iff.mp received
  have type : middle.type = .ud := by
    have kept := config_receiveHeader headerEq
    simp only [config, Prod.mk.injEq] at kept
    exact kept.1.trans ud
  have remembered : middle.rememberClient middle.getCurrentRequest =
      { middle with clientHandling := middle.getCurrentRequest.clientId } :=
    if_pos type
  obtain ⟨response, dispatched⟩ := requestDispatcher_session
    (middle.rememberClient middle.getCurrentRequest) receipt.socket
  by_cases closed : header = -1
  · simp only [closed, if_true] at same
    cases same
  · simp only [closed, if_false] at same
    split at same
    · cases same
    · simp only [Received.request.injEq] at same
      obtain ⟨rfl, rfl, -⟩ := same
      rw [dispatched, remembered]

/-- The answer to a request of a connected client goes to the address handle
and the queue pair of that client if and only if the client that connected as
number `client_id` registered the same queue pair number. -/
theorem udSendTarget_iff_of_connectAll {Handle Store : Type*}
    (createAh : AhAttr → Handle) {connections : List QpAttr}
    (distinct : (connections.map QpAttr.clientId).Nodup)
    (inRange : ∀ attrs ∈ connections, 0 ≤ attrs.clientId.toInt ∧
      attrs.clientId.toInt < maxClients)
    {attrs : QpAttr} (registered : attrs ∈ connections)
    {session after : Session Store} {receipt : Receipt} {request : Request}
    {sent : List Response} (ud : session.type = .ud)
    (received : session.recvRequest receipt =
      some (.request request after sent))
    (sender : request.clientId = attrs.clientId) :
    (UdServerInfo.connectAll createAh connections).udSendTarget
        after.clientHandling =
      (some (createAh attrs.ahAttr), attrs.qpn) ↔
    (connections[attrs.clientId.toInt.toNat]?.getD QpAttr.zero).qpn =
      attrs.qpn := by
  obtain ⟨nonneg, -⟩ := inRange attrs registered
  have index : attrs.clientId.toInt = (attrs.clientId.toInt.toNat : Int) :=
    (Int.toNat_of_nonneg nonneg).symm
  have stored : (UdServerInfo.connectAll createAh
      connections).remoteDgramQpAttrs attrs.clientId.toInt.toNat = _ :=
    UdServerInfo.connectAll_remoteDgramQpAttrs _
  rw [← index] at stored
  rw [Session.recvRequest_clientHandling ud received, sender,
    UdServerInfo.udSendTarget, UdServerInfo.connectAll_ah distinct registered,
    stored, Prod.mk.injEq]
  exact and_iff_right rfl

def namedAttrs (clientId : Int32) (qpn : UInt32) : QpAttr :=
  { QpAttr.zero with clientId := clientId, qpn := qpn }

/-- The first turn of a UD worker, on a request of client 1. -/
def firstReceived : Option (Received Unit) :=
  (Session.accepted .ud false ()).recvRequest (.arrival
    { Request.make .get [97] [] with clientId := 1 } ⟨0, 0, []⟩)

theorem firstReceived_request :
    ∃ request after sent,
      firstReceived = some (.request request after sent) ∧
        request.clientId = 1 := by
  have client : (firstReceived.bind fun received => match received with
      | .request request _ _ => some request.clientId
      | .null _ | .exited _ _ => none) = some 1 := by decide +kernel
  obtain ⟨received, first, client⟩ := Option.bind_eq_some_iff.mp client
  cases received with
  | request request after sent =>
      exact ⟨request, after, sent, first, Option.some.inj client⟩
  | null | exited => cases client

/-- Two clients that connect in the order of their ids are answered each at its
own queue pair. -/
theorem udSendTarget_after_ordered_connections :
    ∃ request after sent,
      firstReceived = some (.request request after sent) ∧
        (UdServerInfo.connectAll id
          [namedAttrs 0 7, namedAttrs 1 8]).udSendTarget
            after.clientHandling = (some (namedAttrs 1 8).ahAttr, 8) := by
  obtain ⟨request, after, sent, received, sender⟩ := firstReceived_request
  exact ⟨request, after, sent, received, (udSendTarget_iff_of_connectAll id
    (by decide :
      ([namedAttrs 0 7, namedAttrs 1 8].map QpAttr.clientId).Nodup) (by decide)
    (by simp : namedAttrs 1 8 ∈ _) rfl received sender).mpr (by decide)⟩

/-- When client 1 connects before client 0, its answers go to the queue pair of
client 0. -/
theorem udSendTarget_after_crossed_connections :
    ∃ request after sent,
      firstReceived = some (.request request after sent) ∧
        request.clientId = (namedAttrs 1 8).clientId ∧
        (UdServerInfo.connectAll id
          [namedAttrs 1 8, namedAttrs 0 7]).udSendTarget
            after.clientHandling = (some (namedAttrs 1 8).ahAttr, 7) := by
  obtain ⟨request, after, sent, received, sender⟩ := firstReceived_request
  refine ⟨request, after, sent, received, sender, ?_⟩
  rw [Session.recvRequest_clientHandling rfl received, sender]
  decide

end RdmaKVStore
