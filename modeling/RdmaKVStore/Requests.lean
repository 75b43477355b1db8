import RdmaKVStore.CStrings
import Mathlib.Data.Vector.Basic

/-!
# Request and response structures

The constants, enumerations and wire structures of `common.h`.  Character
arrays are byte vectors of their fixed size.  The key array is not followed by
a terminator of its own: code that reads it as a C string runs on into the
fields behind it, which `Request.keyMemory` lays out in structure order.
-/

namespace RdmaKVStore

/-- `MSG_SIZE` -/
def msgSize : Nat := 256

/-- `KEY_SIZE` -/
def keySize : Nat := 64

/-- `enum connection_type` -/
inductive ConnectionType
  | tcp | rc | uc | ud
  deriving DecidableEq, Repr

/-- `enum method` -/
inductive Method
  | unk | set | get | del | ping | dump | rst | exit | setopt
  deriving DecidableEq, Repr

/-- `enum response_code` -/
inductive ResponseCode
  | ok | keyError | parsingError | storeError | setoptError | unkError
  deriving DecidableEq, Repr

def writeArray {size : Nat} (array : List.Vector UInt8 size) (bytes : Bytes) :
    List.Vector UInt8 size :=
  ⟨(bytes.take size) ++ array.toList.drop (bytes.take size).length, by
    simp only [List.length_append, List.length_drop, List.length_take,
      List.Vector.toList_length]
    omega⟩

/-- An array cleared by `calloc` or `bzero`. -/
def zeroArray (size : Nat) : List.Vector UInt8 size :=
  List.Vector.replicate size 0

@[simp]
theorem writeArray_toList {size : Nat} (array : List.Vector UInt8 size)
    (bytes : Bytes) (fits : bytes.length ≤ size) :
    (writeArray array bytes).toList =
      bytes ++ array.toList.drop bytes.length := by
  simp [writeArray, List.take_of_length_le fits]

/-- `struct request` -/
structure Request where
  clientId : Int32
  method : Method
  key : List.Vector UInt8 keySize
  msg : List.Vector UInt8 msgSize
  keyLen : UInt64
  msgLen : UInt64
  connectionClose : Int32

def littleEndian64 (value : UInt64) : Bytes :=
  (List.range 8).map fun index => (value >>> (8 * index).toUInt64).toUInt8

namespace Request

/-- A structure cleared by `calloc`; the method enumeration starts at `UNK`. -/
def zero : Request where
  clientId := 0
  method := .unk
  key := zeroArray keySize
  msg := zeroArray msgSize
  keyLen := 0
  msgLen := 0
  connectionClose := 0

def keyMemory (request : Request) : Bytes :=
  request.key.toList ++ request.msg.toList ++
    littleEndian64 request.keyLen ++ littleEndian64 request.msgLen

/-- The payload that a SET stores: `msg_len` bytes from the message array.  A
longer copy, which the code makes in full beyond the array, is cut off here;
`AccessBounds` is about such copies. -/
def payload (request : Request) : Bytes :=
  request.msg.toList.take request.msgLen.toNat

/-- `key_len` is the length of the NUL-terminated key, which leaves room for
its terminator in the key array. -/
def KeyWellFormed (request : Request) : Prop :=
  request.keyLen.toNat = CString.strlen request.keyMemory ∧
    request.keyLen.toNat < keySize

/-- The requests that the store's clients are expected to send. -/
structure WellFormed (request : Request) : Prop where
  key : request.KeyWellFormed
  key_nonempty : 1 ≤ request.keyLen.toNat
  msg : request.msgLen.toNat ≤ msgSize

/-- The lengths are within their arrays, so that all copies are. -/
def LengthsFit (request : Request) : Prop :=
  request.keyLen.toNat ≤ keySize ∧ request.msgLen.toNat ≤ msgSize

instance (request : Request) : Decidable request.LengthsFit :=
  inferInstanceAs (Decidable (_ ∧ _))

instance (request : Request) : Decidable request.KeyWellFormed :=
  inferInstanceAs (Decidable (_ ∧ _))

instance (request : Request) : Decidable request.WellFormed :=
  decidable_of_iff
    (request.KeyWellFormed ∧ 1 ≤ request.keyLen.toNat ∧
      request.msgLen.toNat ≤ msgSize)
    ⟨fun ⟨key, nonempty, msg⟩ => ⟨key, nonempty, msg⟩,
      fun ⟨key, nonempty, msg⟩ => ⟨key, nonempty, msg⟩⟩

def keyString (request : Request) : Bytes :=
  CString.contents request.keyMemory

theorem payload_length {request : Request}
    (fits : request.msgLen.toNat ≤ msgSize) :
    request.payload.length = request.msgLen.toNat := by
  simpa [payload, List.length_take] using fits

/-- A request structure with the given key and message strings, as `sprintf`
and `strlen` fill in a cleared structure. -/
def make (method : Method) (key msg : Bytes) : Request where
  clientId := 0
  method := method
  key := writeArray (zeroArray keySize) key
  msg := writeArray (zeroArray msgSize) msg
  keyLen := key.length.toUInt64
  msgLen := msg.length.toUInt64
  connectionClose := 0

end Request

/-- `struct response` -/
structure Response where
  code : ResponseCode
  msg : List.Vector UInt8 msgSize
  msgLen : UInt64
  deriving DecidableEq

namespace Response

/-- A structure cleared by `bzero`; the response codes start at `OK`. -/
def zero : Response where
  code := .ok
  msg := zeroArray msgSize
  msgLen := 0

/-- The first `msg_len` bytes of the message array. -/
def body (response : Response) : Bytes :=
  response.msg.toList.take response.msgLen.toNat

end Response

end RdmaKVStore
