import Mathlib.Algebra.Order.Group.Nat
import Mathlib.Data.List.Basic
import Mathlib.Data.Nat.Init

/-!
# Streams of fixed-size records

Integers as bytes, fields at fixed offsets of a record, and the cuts of a
stream of records of one size into pieces.  A cut keeps the borders of the
records only if all its pieces have the size of a record.
-/

namespace RdmaKVStore

namespace LittleEndian

/-- The given number of bytes of a number, the lowest first. -/
def encode : Nat → Nat → List UInt8
  | 0, _ => []
  | count + 1, value => UInt8.ofNat value :: encode count (value / 256)

/-- The number with the given bytes. -/
def decode : List UInt8 → Nat
  | [] => 0
  | byte :: bytes => byte.toNat + 256 * decode bytes

@[simp]
theorem length_encode (count value : Nat) :
    (encode count value).length = count := by
  induction count generalizing value with
  | zero => rfl
  | succ count ih => rw [encode, List.length_cons, ih]

theorem decode_encode {count value : Nat} (fits : value < 256 ^ count) :
    decode (encode count value) = value := by
  induction count generalizing value with
  | zero =>
      obtain rfl : value = 0 := by simpa using fits
      rfl
  | succ count ih =>
      have rest : value / 256 < 256 ^ count :=
        Nat.div_lt_of_lt_mul (by rwa [← pow_succ'])
      rw [encode, decode, ih rest, UInt8.toNat_ofNat']
      exact Nat.mod_add_div value 256

theorem encode_eq_map (count value : Nat) :
    encode count value =
      (List.range count).map fun index =>
        UInt8.ofNat (value / 256 ^ index) := by
  induction count generalizing value with
  | zero => rfl
  | succ count ih =>
      rw [encode, ih, List.range_succ_eq_map, List.map_cons, List.map_map]
      simp only [pow_zero, Nat.div_one, List.cons.injEq, true_and]
      refine List.map_congr_left fun index _ => ?_
      rw [Function.comp_apply, Nat.div_div_eq_div_mul, ← pow_succ']

end LittleEndian

section Records

variable {α : Type*} {size : Nat}

def fieldAt (record : List α) (offset size : Nat) : List α :=
  (record.drop offset).take size

def fieldOffset : List Nat → Nat → Nat
  | size :: sizes, index + 1 => size + fieldOffset sizes index
  | _, _ => 0

theorem fieldAt_flatten {fields : List (List α)} {sizes : List Nat}
    (sized : fields.map List.length = sizes) (index : Nat)
    {field : List α} (found : fields[index]? = some field)
    (length : sizes[index]? = some size) :
    fieldAt fields.flatten (fieldOffset sizes index) size = field := by
  induction fields generalizing sizes index with
  | nil => cases found
  | cons first fields ih =>
      subst sized
      cases index with
      | zero =>
          cases found
          cases length
          exact List.take_left
      | succ index =>
          have rest := ih rfl index found length
          rw [fieldAt] at rest ⊢
          rw [List.map_cons, fieldOffset, List.flatten_cons,
            ← List.drop_drop, List.drop_left, rest]

/-- The pieces of a stream that a reader gets which asks for `size` elements
at a time: each has at least one element and at most `size`. -/
structure Cut (size : Nat) (stream : List α) (pieces : List (List α)) :
    Prop where
  nonempty : ∀ piece ∈ pieces, piece ≠ []
  bounded : ∀ piece ∈ pieces, piece.length ≤ size
  joined : pieces.flatten = stream

namespace Cut

variable {stream record piece : List α} {records pieces : List (List α)}

theorem tail (cut : Cut size stream (piece :: pieces)) :
    Cut size pieces.flatten pieces where
  nonempty piece member := cut.nonempty piece (List.mem_cons_of_mem _ member)
  bounded piece member := cut.bounded piece (List.mem_cons_of_mem _ member)
  joined := rfl

theorem head_of_length
    (cut : Cut size (record :: records).flatten (piece :: pieces))
    (whole : piece.length = record.length) :
    piece = record ∧ Cut size records.flatten pieces := by
  have joined := cut.joined
  rw [List.flatten_cons, List.flatten_cons] at joined
  obtain ⟨same, rest⟩ := List.append_inj joined whole
  exact ⟨same, rest ▸ cut.tail⟩

theorem eq_nil (cut : Cut size [] pieces) : pieces = [] := by
  cases pieces with
  | nil => rfl
  | cons piece pieces =>
      have joined := cut.joined
      rw [List.flatten_cons, List.append_eq_nil_iff] at joined
      exact absurd joined.1 (cut.nonempty piece List.mem_cons_self)

theorem exists_cons (positive : 0 < size) (length : record.length = size)
    (cut : Cut size (record :: records).flatten pieces) :
    ∃ piece rest, pieces = piece :: rest := by
  cases pieces with
  | nil =>
      have joined := congrArg List.length cut.joined
      rw [List.flatten_cons, List.length_append, length] at joined
      simp only [List.flatten_nil, List.length_nil] at joined
      omega
  | cons piece rest => exact ⟨piece, rest, rfl⟩

theorem eq_records (cut : Cut size records.flatten pieces)
    (positive : 0 < size)
    (sized : ∀ record ∈ records, record.length = size)
    (whole : ∀ piece ∈ pieces, piece.length = size) : pieces = records := by
  induction records generalizing pieces with
  | nil => exact cut.eq_nil
  | cons record records ih =>
      have length := sized record List.mem_cons_self
      obtain ⟨piece, pieces, rfl⟩ := cut.exists_cons positive length
      obtain ⟨rfl, rest⟩ := cut.head_of_length
        ((whole piece List.mem_cons_self).trans length.symm)
      rw [ih rest
        (fun record member => sized record (List.mem_cons_of_mem _ member))
        fun piece member => whole piece (List.mem_cons_of_mem _ member)]

theorem length_flatten_le (bounded : ∀ piece ∈ pieces, piece.length ≤ size) :
    pieces.flatten.length ≤ pieces.length * size := by
  induction pieces with
  | nil => simp
  | cons piece pieces ih =>
      have rest := ih fun piece member =>
        bounded piece (List.mem_cons_of_mem _ member)
      have first := bounded piece List.mem_cons_self
      rw [List.flatten_cons, List.length_append, List.length_cons,
        Nat.succ_mul]
      omega

theorem whole_of_length (bounded : ∀ piece ∈ pieces, piece.length ≤ size)
    (full : pieces.length * size ≤ pieces.flatten.length) :
    ∀ piece ∈ pieces, piece.length = size := by
  induction pieces with
  | nil => simp
  | cons piece pieces ih =>
      have bounded' : ∀ piece ∈ pieces, piece.length ≤ size :=
        fun piece member => bounded piece (List.mem_cons_of_mem _ member)
      have first := bounded piece List.mem_cons_self
      have rest := length_flatten_le bounded'
      rw [List.flatten_cons, List.length_append, List.length_cons,
        Nat.succ_mul] at full
      exact List.forall_mem_cons.mpr
        ⟨by omega, ih bounded' (by omega)⟩

theorem length_flatten_of_sized
    (sized : ∀ record ∈ records, record.length = size) :
    records.flatten.length = records.length * size := by
  induction records with
  | nil => simp
  | cons record records ih =>
      rw [List.flatten_cons, List.length_append, List.length_cons,
        Nat.succ_mul, sized record List.mem_cons_self,
        ih fun record member => sized record (List.mem_cons_of_mem _ member)]
      omega

theorem whole_of_length_eq (cut : Cut size records.flatten pieces)
    (sized : ∀ record ∈ records, record.length = size)
    (length : pieces.length = records.length) :
    ∀ piece ∈ pieces, piece.length = size := by
  apply whole_of_length cut.bounded
  rw [cut.joined, length_flatten_of_sized sized, length]

end Cut

end Records

/-- A format in which values are records of one positive size. -/
structure RecordFormat (α Value : Type*) where
  size : Nat
  encode : Value → List α
  decode : List α → Value
  positive : 0 < size
  length_encode : ∀ value, (encode value).length = size
  decode_encode : ∀ value, decode (encode value) = value

namespace RecordFormat

variable {α Value : Type*} (format : RecordFormat α Value)

def stream (values : List Value) : List α :=
  (values.map format.encode).flatten

/-- The value in a buffer after a piece has been put over its beginning. -/
def overwrite (buffer : Value) (piece : List α) : Value :=
  format.decode (piece ++ (format.encode buffer).drop piece.length)

def overwrites : Value → List (List α) → List Value
  | _, [] => []
  | buffer, piece :: pieces =>
      format.overwrite buffer piece ::
        overwrites (format.overwrite buffer piece) pieces

variable {format} {pieces : List (List α)} {values : List Value}

theorem overwrite_encode (buffer value : Value) :
    format.overwrite buffer (format.encode value) = value := by
  rw [overwrite, List.drop_eq_nil_of_le
    (by rw [format.length_encode, format.length_encode]), List.append_nil,
    format.decode_encode]

theorem cut_whole (format : RecordFormat α Value) (values : List Value) :
    Cut format.size (format.stream values) (values.map format.encode) where
  nonempty piece member := by
    obtain ⟨value, -, rfl⟩ := List.mem_map.mp member
    exact List.ne_nil_of_length_pos
      (format.length_encode value ▸ format.positive)
  bounded piece member := by
    obtain ⟨value, -, rfl⟩ := List.mem_map.mp member
    exact (format.length_encode value).le
  joined := rfl

theorem cut_append {more : List Value} {pieces' : List (List α)}
    (first : Cut format.size (format.stream values) pieces)
    (second : Cut format.size (format.stream more) pieces') :
    Cut format.size (format.stream (values ++ more)) (pieces ++ pieces') where
  nonempty := List.forall_mem_append.mpr ⟨first.nonempty, second.nonempty⟩
  bounded := List.forall_mem_append.mpr ⟨first.bounded, second.bounded⟩
  joined := by
    rw [List.flatten_append, first.joined, second.joined, stream, stream,
      stream, List.map_append, List.flatten_append]

theorem cut_first (format : RecordFormat α Value) (large : 1 < format.size)
    (value : Value) :
    Cut format.size (format.stream [value])
      [(format.encode value).take 1, (format.encode value).drop 1] where
  nonempty := by
    have length := format.length_encode value
    refine List.forall_mem_cons.mpr ⟨?_, List.forall_mem_singleton.mpr ?_⟩ <;>
      refine List.ne_nil_of_length_pos ?_ <;>
      simp only [List.length_take, List.length_drop] <;> omega
  bounded := by
    have length := format.length_encode value
    refine List.forall_mem_cons.mpr ⟨?_, List.forall_mem_singleton.mpr ?_⟩ <;>
      simp only [List.length_take, List.length_drop] <;> omega
  joined := by
    simp only [stream, List.map_cons, List.map_nil, List.flatten_cons,
      List.flatten_nil, List.append_nil, List.take_append_drop]

theorem length_overwrites (buffer : Value) (pieces : List (List α)) :
    (format.overwrites buffer pieces).length = pieces.length := by
  induction pieces generalizing buffer with
  | nil => rfl
  | cons piece pieces ih => rw [overwrites, List.length_cons, ih,
      List.length_cons]

theorem overwrites_encode (buffer : Value) (values : List Value) :
    format.overwrites buffer (values.map format.encode) = values := by
  induction values generalizing buffer with
  | nil => rfl
  | cons value values ih =>
      rw [List.map_cons, overwrites, overwrite_encode, ih]

theorem forall_length_encode :
    ∀ record ∈ values.map format.encode, record.length = format.size := by
  intro record member
  obtain ⟨value, -, rfl⟩ := List.mem_map.mp member
  exact format.length_encode value

/-- A buffer that is not cleared between reads shows the values of a stream
exactly if every piece is a whole record. -/
theorem overwrites_eq_iff (buffer : Value)
    (cut : Cut format.size (format.stream values) pieces) :
    format.overwrites buffer pieces = values ↔
      ∀ piece ∈ pieces, piece.length = format.size := by
  constructor
  · intro same
    have length := congrArg List.length same
    rw [length_overwrites] at length
    exact cut.whole_of_length_eq forall_length_encode
      (by rw [length, List.length_map])
  · intro whole
    rw [cut.eq_records format.positive forall_length_encode whole]
    exact overwrites_encode buffer values

end RecordFormat

end RdmaKVStore
