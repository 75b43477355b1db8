import RdmaKVStore.RecordStreams
import RdmaKVStore.Requests

/-!
# Bytes of requests and responses

The structures of `common.h` as they lie in memory and on a TCP connection:
32-bit integers and enumerations, the character arrays, 64-bit lengths at
offsets that are multiples of eight, and padding, which is zero because the
structures are cleared when they are allocated.
-/

namespace RdmaKVStore

theorem littleEndian64_eq_encode (value : UInt64) :
    littleEndian64 value = LittleEndian.encode 8 value.toNat := by
  rw [LittleEndian.encode_eq_map, littleEndian64]
  refine List.map_congr_left fun index member => ?_
  have small : index < 8 := List.mem_range.mp member
  have shift : (8 * index).toUInt64.toNat % 64 = 8 * index := by
    simp only [Nat.toUInt64_eq, UInt64.toNat_ofNat']
    omega
  apply UInt8.toNat_inj.mp
  rw [UInt64.toNat_toUInt8, UInt64.toNat_shiftRight, UInt8.toNat_ofNat',
    Nat.shiftRight_eq_div_pow, shift, pow_mul, show 2 ^ 8 = 256 from rfl]

def int32Bytes (value : Int32) : Bytes :=
  LittleEndian.encode 4 value.toUInt32.toNat

def int32Of (bytes : Bytes) : Int32 :=
  (UInt32.ofNat (LittleEndian.decode bytes)).toInt32

def uint64Of (bytes : Bytes) : UInt64 :=
  UInt64.ofNat (LittleEndian.decode bytes)

def arrayOf (size : Nat) (bytes : Bytes) : List.Vector UInt8 size :=
  writeArray (zeroArray size) bytes

/-- The numbers of the enumeration, from `UNK` on. -/
def Method.number : Method → Nat
  | .unk => 0
  | .set => 1
  | .get => 2
  | .del => 3
  | .ping => 4
  | .dump => 5
  | .rst => 6
  | .exit => 7
  | .setopt => 8

/-- The method with a number.  The dispatcher and the method switch have no
case for DUMP, and none for other numbers. -/
def Method.ofNumber : Nat → Method
  | 0 => .unk
  | 1 => .set
  | 2 => .get
  | 3 => .del
  | 4 => .ping
  | 6 => .rst
  | 7 => .exit
  | 8 => .setopt
  | _ => .dump

/-- The numbers of `RESPONSE_CODES`. -/
def ResponseCode.number : ResponseCode → Nat
  | .ok => 0
  | .keyError => 1
  | .parsingError => 2
  | .storeError => 3
  | .setoptError => 4
  | .unkError => 5

/-- The response code with a number; a server sends no others. -/
def ResponseCode.ofNumber : Nat → ResponseCode
  | 0 => .ok
  | 1 => .keyError
  | 2 => .parsingError
  | 3 => .storeError
  | 4 => .setoptError
  | _ => .unkError

@[simp]
theorem length_int32Bytes (value : Int32) : (int32Bytes value).length = 4 :=
  LittleEndian.length_encode _ _

@[simp]
theorem length_littleEndian64 (value : UInt64) :
    (littleEndian64 value).length = 8 := by
  rw [littleEndian64_eq_encode, LittleEndian.length_encode]

theorem int32Of_int32Bytes (value : Int32) :
    int32Of (int32Bytes value) = value := by
  rw [int32Of, int32Bytes, LittleEndian.decode_encode
    (by simpa using value.toUInt32.toNat_lt), UInt32.ofNat_toNat]
  rfl

theorem uint64Of_littleEndian64 (value : UInt64) :
    uint64Of (littleEndian64 value) = value := by
  rw [uint64Of, littleEndian64_eq_encode, LittleEndian.decode_encode
    (by simpa using value.toNat_lt), UInt64.ofNat_toNat]

theorem arrayOf_toList {size : Nat} (array : List.Vector UInt8 size) :
    arrayOf size array.toList = array := by
  apply List.Vector.eq
  rw [arrayOf, writeArray_toList _ _ (List.Vector.toList_length array).le,
    List.drop_eq_nil_of_le (by simp), List.append_nil]

theorem Method.ofNumber_number (method : Method) :
    Method.ofNumber method.number = method := by
  cases method <;> rfl

theorem Method.number_lt (method : Method) : method.number < 256 ^ 4 := by
  cases method <;> decide

theorem ResponseCode.number_lt (code : ResponseCode) :
    code.number < 256 ^ 4 := by
  cases code <;> decide

theorem ResponseCode.ofNumber_number (code : ResponseCode) :
    ResponseCode.ofNumber code.number = code := by
  cases code <;> rfl

namespace Request

/-- The fields of `struct request` in memory. -/
def fields (request : Request) : List Bytes :=
  [int32Bytes request.clientId, LittleEndian.encode 4 request.method.number,
    request.key.toList, request.msg.toList, littleEndian64 request.keyLen,
    littleEndian64 request.msgLen, int32Bytes request.connectionClose,
    List.replicate 4 0]

theorem map_length_fields (request : Request) :
    request.fields.map List.length =
      [4, 4, keySize, msgSize, 8, 8, 4, 4] := by
  simp [fields]

/-- `struct request` in memory. -/
def toBytes (request : Request) : Bytes :=
  request.fields.flatten

/-- The `struct request` that lies in memory. -/
def ofBytes (bytes : Bytes) : Request where
  clientId := int32Of (fieldAt bytes 0 4)
  method := Method.ofNumber (LittleEndian.decode (fieldAt bytes 4 4))
  key := arrayOf keySize (fieldAt bytes 8 keySize)
  msg := arrayOf msgSize (fieldAt bytes 72 msgSize)
  keyLen := uint64Of (fieldAt bytes 328 8)
  msgLen := uint64Of (fieldAt bytes 336 8)
  connectionClose := int32Of (fieldAt bytes 344 4)

theorem length_toBytes (request : Request) : request.toBytes.length = 352 := by
  rw [toBytes, List.length_flatten, map_length_fields]
  rfl

theorem ofBytes_toBytes (request : Request) :
    ofBytes request.toBytes = request := by
  have sized := request.map_length_fields
  have clientId : fieldAt request.toBytes 0 4 = int32Bytes request.clientId :=
    fieldAt_flatten sized 0 rfl rfl
  have method : fieldAt request.toBytes 4 4 =
      LittleEndian.encode 4 request.method.number :=
    fieldAt_flatten sized 1 rfl rfl
  have key : fieldAt request.toBytes 8 keySize = request.key.toList :=
    fieldAt_flatten sized 2 rfl rfl
  have msg : fieldAt request.toBytes 72 msgSize = request.msg.toList :=
    fieldAt_flatten sized 3 rfl rfl
  have keyLen : fieldAt request.toBytes 328 8 =
      littleEndian64 request.keyLen :=
    fieldAt_flatten sized 4 rfl rfl
  have msgLen : fieldAt request.toBytes 336 8 =
      littleEndian64 request.msgLen :=
    fieldAt_flatten sized 5 rfl rfl
  have connectionClose : fieldAt request.toBytes 344 4 =
      int32Bytes request.connectionClose :=
    fieldAt_flatten sized 6 rfl rfl
  rw [ofBytes, clientId, method, key, msg, keyLen, msgLen, connectionClose]
  simp only [int32Of_int32Bytes, arrayOf_toList, uint64Of_littleEndian64,
    LittleEndian.decode_encode request.method.number_lt,
    Method.ofNumber_number]

/-- `struct request` on a connection. -/
def format : RecordFormat UInt8 Request where
  size := 352
  encode := toBytes
  decode := ofBytes
  positive := by decide
  length_encode := length_toBytes
  decode_encode := ofBytes_toBytes

theorem format_size : format.size = 352 :=
  rfl

end Request

namespace Response

/-- The fields of `struct response` in memory. -/
def fields (response : Response) : List Bytes :=
  [LittleEndian.encode 4 response.code.number, response.msg.toList,
    List.replicate 4 0, littleEndian64 response.msgLen]

theorem map_length_fields (response : Response) :
    response.fields.map List.length = [4, msgSize, 4, 8] := by
  simp [fields]

/-- `struct response` in memory. -/
def toBytes (response : Response) : Bytes :=
  response.fields.flatten

/-- The `struct response` that lies in memory. -/
def ofBytes (bytes : Bytes) : Response where
  code := ResponseCode.ofNumber (LittleEndian.decode (fieldAt bytes 0 4))
  msg := arrayOf msgSize (fieldAt bytes 4 msgSize)
  msgLen := uint64Of (fieldAt bytes 264 8)

theorem length_toBytes (response : Response) :
    response.toBytes.length = 272 := by
  rw [toBytes, List.length_flatten, map_length_fields]
  rfl

theorem ofBytes_toBytes (response : Response) :
    ofBytes response.toBytes = response := by
  have sized := response.map_length_fields
  have code : fieldAt response.toBytes 0 4 =
      LittleEndian.encode 4 response.code.number :=
    fieldAt_flatten sized 0 rfl rfl
  have msg : fieldAt response.toBytes 4 msgSize = response.msg.toList :=
    fieldAt_flatten sized 1 rfl rfl
  have msgLen : fieldAt response.toBytes 264 8 =
      littleEndian64 response.msgLen :=
    fieldAt_flatten sized 3 rfl rfl
  rw [ofBytes, code, msg, msgLen]
  simp only [arrayOf_toList, uint64Of_littleEndian64,
    LittleEndian.decode_encode response.code.number_lt,
    ResponseCode.ofNumber_number]

/-- `struct response` on a connection. -/
def format : RecordFormat UInt8 Response where
  size := 272
  encode := toBytes
  decode := ofBytes
  positive := by decide
  length_encode := length_toBytes
  decode_encode := ofBytes_toBytes

end Response

end RdmaKVStore
