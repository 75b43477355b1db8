import RdmaKVStore.Numerals
import RdmaKVStore.Requests

/-!
# Requests of a benchmark instance

`make_get_request` and `make_set_request` of `instance.c`, which print the
number of the instance and of the operation into the key and the message.
-/

namespace RdmaKVStore

def asciiBytes : Numerals UInt8 where
  digit number := (48 + number).toUInt8
  value byte := if 48 ≤ byte ∧ byte < 58 then some (byte.toNat - 48) else none
  minus := 45
  value_digit := by decide
  value_minus := by decide

/-- `sprintf` into an array; `none` if the text and its terminator run over. -/
def sprintf {size : Nat} (array : List.Vector UInt8 size) (text : Bytes) :
    Option (List.Vector UInt8 size) :=
  if text.length < size then some (writeArray array (text ++ [0])) else none

/-- The memory that starts at the message array. -/
def Request.msgMemory (request : Request) : Bytes :=
  request.msg.toList ++ littleEndian64 request.keyLen ++
    littleEndian64 request.msgLen

def instanceKey (instanceNr count : Int32) : Bytes :=
  asciiBytes.format Char.toUInt8 "Key from instance %d count %d".toList
    [.integer instanceNr.toInt, .integer count.toInt]

def instanceMessage (instanceNr count : Int32) : Bytes :=
  asciiBytes.format Char.toUInt8 "Message from instance %d count %d".toList
    [.integer instanceNr.toInt, .integer count.toInt]

/-- `struct client_to_server_conn`: the transport, the number of the instance,
and the request structure of each transport's connection. -/
structure InstanceConn where
  connT : ConnectionType
  instanceNr : Int32
  requests : ConnectionType → Request

namespace InstanceConn

variable (conn : InstanceConn)

/-- The request structure that the `switch` selects. -/
def request : Request :=
  conn.requests conn.connT

def setRequest (request : Request) : InstanceConn :=
  { conn with
    requests := Function.update conn.requests conn.connT request }

def makeGetRequest (count : Int32) : Option InstanceConn :=
  (sprintf conn.request.key (instanceKey conn.instanceNr count)).map
    fun key =>
      let request := { conn.request with method := .get, key := key }
      conn.setRequest
        { request with
          keyLen := (CString.strlen request.keyMemory).toUInt64
          msgLen := 0
          clientId := conn.instanceNr }

def makeSetRequest (count : Int32) : Option InstanceConn :=
  (sprintf conn.request.key (instanceKey conn.instanceNr count)).bind
    fun key =>
      let request := { conn.request with method := .set, key := key }
      let request :=
        { request with
          keyLen := (CString.strlen request.keyMemory).toUInt64 }
      (sprintf request.msg (instanceMessage conn.instanceNr count)).map
        fun msg =>
          let request := { request with msg := msg }
          conn.setRequest
            { request with
              msgLen := (CString.strlen request.msgMemory).toUInt64
              clientId := conn.instanceNr }

end InstanceConn

/-! ### Texts -/

def instanceText (head : List Char) (instanceNr count : Int32) : Bytes :=
  head.map Char.toUInt8 ++ (asciiBytes.integer instanceNr.toInt ++
    32 :: ("count ".toList.map Char.toUInt8 ++
      asciiBytes.integer count.toInt))

section Texts

variable {head : List Char} {instanceNr count : Int32}

theorem instanceKey_eq (instanceNr count : Int32) :
    instanceKey instanceNr count =
      instanceText "Key from instance ".toList instanceNr count := by
  rw [instanceText, ← List.append_nil (asciiBytes.integer count.toInt)]
  rfl

example : instanceKey 2 (-1) =
    "Key from instance 2 count -1".toList.map Char.toUInt8 := by decide

theorem instanceMessage_eq (instanceNr count : Int32) :
    instanceMessage instanceNr count =
      instanceText "Message from instance ".toList instanceNr count := by
  rw [instanceText, ← List.append_nil (asciiBytes.integer count.toInt)]
  rfl

theorem length_instanceText_le (head : List Char)
    (instanceNr count : Int32) :
    (instanceText head instanceNr count).length ≤ head.length + 29 := by
  have numeral (number : Int32) :
      (asciiBytes.integer number.toInt).length ≤ 11 :=
    Numerals.length_integer_int32 number
  have first := numeral instanceNr
  have second := numeral count
  have middle : ("count ".toList.map Char.toUInt8).length = 6 := by decide
  simp only [instanceText, List.length_append, List.length_cons, middle,
    List.length_map] at *
  omega

theorem zero_notMem_instanceText (noZero : 0 ∉ head.map Char.toUInt8)
    (instanceNr count : Int32) :
    0 ∉ instanceText head instanceNr count := by
  have numbers (number : Int) : 0 ∉ asciiBytes.integer number :=
    Numerals.notMem_integer (by decide) rfl number
  have middle : (0 : UInt8) ∉ "count ".toList.map Char.toUInt8 := by decide
  intro member
  rcases List.mem_append.mp member with inHead | member
  · exact noZero inHead
  · rcases List.mem_append.mp member with inNumber | member
    · exact numbers _ inNumber
    · rcases List.mem_cons.mp member with space | member
      · cases space
      · rcases List.mem_append.mp member with inMiddle | inNumber
        · exact middle inMiddle
        · exact numbers _ inNumber

theorem instanceText_inj (head : List Char)
    {instanceNr instanceNr' count count' : Int32} :
    instanceText head instanceNr count =
        instanceText head instanceNr' count' ↔
      (instanceNr, count) = (instanceNr', count') := by
  have apart (number : Int) : 32 ∉ asciiBytes.integer number :=
    Numerals.notMem_integer (by decide) rfl number
  rw [instanceText, instanceText, List.append_cancel_left_eq,
    append_separator_inj (apart _) (apart _),
    List.append_cancel_left_eq, Numerals.integer_injective.eq_iff,
    Numerals.integer_injective.eq_iff, Int32.toInt_inj, Int32.toInt_inj]
  simp

end Texts

/-! ### Printed requests -/

section Printed

variable {size : Nat} {array : List.Vector UInt8 size} {text : Bytes}

theorem sprintf_of_fits (fits : text.length < size) :
    sprintf array text = some (writeArray array (text ++ [0])) :=
  if_pos fits

theorem contents_printed (fits : text.length < size) (noZero : 0 ∉ text)
    (rest : Bytes) :
    CString.contents ((writeArray array (text ++ [0])).toList ++ rest) =
      text := by
  have length : (text ++ [0]).length ≤ size := by
    rw [List.length_append]
    exact fits
  rw [writeArray_toList _ _ length, List.append_assoc, List.append_assoc]
  exact CString.contents_append_zero _ noZero

theorem strlen_printed (fits : text.length < size) (noZero : 0 ∉ text)
    (rest : Bytes) :
    CString.strlen ((writeArray array (text ++ [0])).toList ++ rest) =
      text.length := by
  rw [CString.strlen, contents_printed fits noZero]

theorem take_printed (fits : text.length < size) :
    (writeArray array (text ++ [0])).toList.take text.length = text := by
  have length : (text ++ [0]).length ≤ size := by
    rw [List.length_append]
    exact fits
  rw [writeArray_toList _ _ length, List.append_assoc, List.take_left]

theorem toNat_length (fits : text.length < size) (small : size < 2 ^ 64) :
    text.length.toUInt64.toNat = text.length :=
  UInt64.toNat_ofNat_of_lt' (fits.trans small)

end Printed

namespace Request

/-- The key array holds a text with its terminator, and `key_len` is the length
of the text. -/
structure HasKey (request : Request) (text : Bytes) : Prop where
  wellFormed : request.KeyWellFormed
  keyString : request.keyString = text

/-- `msg_len` is the length of the NUL-terminated message, which leaves room for
its terminator in the message array. -/
def MsgWellFormed (request : Request) : Prop :=
  request.msgLen.toNat = CString.strlen request.msgMemory ∧
    request.msgLen.toNat < msgSize

structure HasMessage (request : Request) (text : Bytes) : Prop where
  wellFormed : request.MsgWellFormed
  payload : request.payload = text

variable {request : Request} {text : Bytes}

theorem hasKey_of_printed {array : List.Vector UInt8 keySize}
    (fits : text.length < keySize) (noZero : 0 ∉ text)
    (key : request.key = writeArray array (text ++ [0]))
    (keyLen : request.keyLen = text.length.toUInt64) :
    request.HasKey text := by
  have memory : CString.contents request.keyMemory = text := by
    rw [keyMemory, key, List.append_assoc, List.append_assoc]
    exact contents_printed fits noZero _
  have length := toNat_length fits (by decide)
  refine ⟨⟨?_, ?_⟩, memory⟩
  · rw [keyLen, length, CString.strlen, memory]
  · rw [keyLen, length]
    exact fits

theorem hasMessage_of_printed {array : List.Vector UInt8 msgSize}
    (fits : text.length < msgSize) (noZero : 0 ∉ text)
    (msg : request.msg = writeArray array (text ++ [0]))
    (msgLen : request.msgLen = text.length.toUInt64) :
    request.HasMessage text := by
  have length := toNat_length fits (by decide)
  refine ⟨⟨?_, ?_⟩, ?_⟩
  · rw [msgLen, length, msgMemory, msg, List.append_assoc]
    exact (strlen_printed fits noZero _).symm
  · rw [msgLen, length]
    exact fits
  · rw [payload, msgLen, length, msg]
    exact take_printed fits

end Request

section Instances

variable (instanceNr count : Int32)

theorem length_instanceKey_lt : (instanceKey instanceNr count).length <
    keySize := by
  rw [instanceKey_eq]
  apply (length_instanceText_le _ instanceNr count).trans_lt
  decide

theorem length_instanceMessage_lt :
    (instanceMessage instanceNr count).length < msgSize := by
  rw [instanceMessage_eq]
  apply (length_instanceText_le _ instanceNr count).trans_lt
  decide

theorem zero_notMem_instanceKey : 0 ∉ instanceKey instanceNr count := by
  rw [instanceKey_eq]
  exact zero_notMem_instanceText (by decide) instanceNr count

theorem zero_notMem_instanceMessage :
    0 ∉ instanceMessage instanceNr count := by
  rw [instanceMessage_eq]
  exact zero_notMem_instanceText (by decide) instanceNr count

end Instances

namespace InstanceConn

variable (conn : InstanceConn) (count : Int32)

theorem request_setRequest (request : Request) :
    (conn.setRequest request).request = request :=
  Function.update_self ..

theorem makeGetRequest_eq :
    ∃ after, conn.makeGetRequest count = some after ∧
      after.request.HasKey (instanceKey conn.instanceNr count) := by
  have fits := length_instanceKey_lt conn.instanceNr count
  have noZero := zero_notMem_instanceKey conn.instanceNr count
  rw [makeGetRequest, sprintf_of_fits fits]
  refine ⟨_, rfl, ?_⟩
  rw [request_setRequest]
  apply Request.hasKey_of_printed fits noZero rfl
  simp only [Request.keyMemory, List.append_assoc]
  rw [strlen_printed fits noZero]

theorem makeSetRequest_eq :
    ∃ after, conn.makeSetRequest count = some after ∧
      after.request.HasKey (instanceKey conn.instanceNr count) ∧
      after.request.HasMessage (instanceMessage conn.instanceNr count) := by
  have keyFits := length_instanceKey_lt conn.instanceNr count
  have keyNoZero := zero_notMem_instanceKey conn.instanceNr count
  have msgFits := length_instanceMessage_lt conn.instanceNr count
  have msgNoZero := zero_notMem_instanceMessage conn.instanceNr count
  rw [makeSetRequest, sprintf_of_fits keyFits, Option.bind_some]
  dsimp only
  rw [sprintf_of_fits msgFits]
  refine ⟨_, rfl, ?_⟩
  rw [request_setRequest]
  constructor
  · apply Request.hasKey_of_printed keyFits keyNoZero rfl
    simp only [Request.keyMemory, List.append_assoc]
    rw [strlen_printed keyFits keyNoZero]
  · apply Request.hasMessage_of_printed msgFits msgNoZero rfl
    simp only [Request.msgMemory, List.append_assoc]
    rw [strlen_printed msgFits msgNoZero]

end InstanceConn

/-- For every two pairs of an instance and an operation, the requests that the
two functions make have well-formed keys and messages, and the keys and the
messages are the same exactly if the pairs are. -/
theorem generatedRequests_distinct (conn conn' : InstanceConn)
    (count count' : Int32) :
    ∃ got set got' set',
      conn.makeGetRequest count = some got ∧
      conn.makeSetRequest count = some set ∧
      conn'.makeGetRequest count' = some got' ∧
      conn'.makeSetRequest count' = some set' ∧
      got.request.KeyWellFormed ∧ set.request.KeyWellFormed ∧
      set.request.MsgWellFormed ∧
      (∀ made ∈ [got, set], ∀ made' ∈ [got', set'],
        made.request.keyString = made'.request.keyString ↔
          (conn.instanceNr, count) = (conn'.instanceNr, count')) ∧
      (set.request.payload = set'.request.payload ↔
        (conn.instanceNr, count) = (conn'.instanceNr, count')) := by
  obtain ⟨got, gotEq, gotKey⟩ := conn.makeGetRequest_eq count
  obtain ⟨set, setEq, setKey, setMsg⟩ := conn.makeSetRequest_eq count
  obtain ⟨got', gotEq', gotKey'⟩ := conn'.makeGetRequest_eq count'
  obtain ⟨set', setEq', setKey', setMsg'⟩ := conn'.makeSetRequest_eq count'
  refine ⟨got, set, got', set', gotEq, setEq, gotEq', setEq',
    gotKey.wellFormed, setKey.wellFormed, setMsg.wellFormed, ?_, ?_⟩
  · have keys : ∀ made ∈ [got, set], made.request.keyString =
        instanceKey conn.instanceNr count := by
      simp [gotKey.keyString, setKey.keyString]
    have keys' : ∀ made ∈ [got', set'], made.request.keyString =
        instanceKey conn'.instanceNr count' := by
      simp [gotKey'.keyString, setKey'.keyString]
    intro made member made' member'
    rw [keys made member, keys' made' member', instanceKey_eq, instanceKey_eq,
      instanceText_inj]
  · rw [setMsg.payload, setMsg'.payload, instanceMessage_eq,
      instanceMessage_eq, instanceText_inj]

end RdmaKVStore
