import Mathlib.Data.List.TakeWhile

/-!
# NUL-terminated byte strings

Memory is read as a list of bytes starting at a pointer.  A C string is the
part before the first NUL byte; `strlen` and `strncmp` follow the C standard
library, with bytes past the end of the list read as NUL.
-/

namespace RdmaKVStore

abbrev Bytes := List UInt8

namespace CString

/-- The C string that starts at the given memory: the bytes before the first
NUL. -/
def contents (memory : Bytes) : Bytes :=
  memory.takeWhile (· ≠ 0)

def strlen (memory : Bytes) : Nat :=
  (contents memory).length

/-- `strncmp`: bytes are compared as unsigned characters, at most `count` of
them, and the comparison ends at a common NUL. -/
def strncmp : Nat → Bytes → Bytes → Int
  | 0, _, _ => 0
  | count + 1, first, second =>
      if first.headD 0 ≠ second.headD 0 then
        (first.headD 0).toNat - (second.headD 0).toNat
      else if first.headD 0 = 0 then
        0
      else
        strncmp count first.tail second.tail

@[simp]
theorem contents_nil : contents [] = [] :=
  rfl

@[simp]
theorem contents_zero_cons (memory : Bytes) : contents (0 :: memory) = [] :=
  rfl

theorem contents_cons_of_ne {byte : UInt8} (memory : Bytes)
    (nonzero : byte ≠ 0) :
    contents (byte :: memory) = byte :: contents memory := by
  simp [contents, nonzero]

theorem zero_notMem_contents (memory : Bytes) : 0 ∉ contents memory := by
  intro member
  have nonzero := List.mem_takeWhile_imp member
  simp at nonzero

/-- Bytes without a NUL, followed by a NUL, are a C string with exactly these
contents. -/
theorem contents_append_zero {text : Bytes} (rest : Bytes)
    (noZero : 0 ∉ text) : contents (text ++ 0 :: rest) = text := by
  induction text with
  | nil => rfl
  | cons byte text ih =>
      have nonzero : byte ≠ 0 := fun equal => noZero (by simp [equal])
      have tailNoZero : 0 ∉ text := fun member => noZero (by simp [member])
      rw [List.cons_append, contents_cons_of_ne _ nonzero, ih tailNoZero]

theorem contents_append {text : Bytes} (rest : Bytes) (noZero : 0 ∉ text) :
    contents (text ++ rest) = text ++ contents rest := by
  refine List.takeWhile_append_of_pos fun byte member => ?_
  have nonzero : byte ≠ 0 := fun equal => noZero (equal ▸ member)
  simpa using nonzero

theorem contents_take (memory : Bytes) (count : Nat) :
    contents (memory.take count) = (contents memory).take count :=
  List.take_takeWhile.symm

theorem contents_append_terminator (memory : Bytes) :
    contents (memory ++ [0]) = contents memory := by
  induction memory with
  | nil => rfl
  | cons byte memory ih =>
      by_cases zero : byte = 0
      · subst zero; rfl
      · rw [List.cons_append, contents_cons_of_ne _ zero,
          contents_cons_of_ne _ zero, ih]

theorem contents_prefix_memory (memory : Bytes) : contents memory <+: memory :=
  List.takeWhile_prefix _

theorem take_strlen (memory : Bytes) :
    memory.take (strlen memory) = contents memory :=
  (List.prefix_iff_eq_take.mp (contents_prefix_memory memory)).symm

/-- `strncmp` returns zero exactly when the two C strings agree up to `count`
bytes. -/
theorem strncmp_eq_zero_iff (count : Nat) (first second : Bytes) :
    strncmp count first second = 0 ↔
      (contents first).take count = (contents second).take count := by
  induction count generalizing first second with
  | zero => simp [strncmp]
  | succ count ih =>
      have headContents (memory : Bytes) :
          memory.headD 0 = 0 ∧ contents memory = [] ∨
            ∃ byte rest, byte ≠ 0 ∧ memory.headD 0 = byte ∧
              memory.tail = rest ∧ contents memory = byte :: contents rest := by
        cases memory with
        | nil => simp
        | cons byte rest =>
            by_cases zero : byte = 0
            · subst zero; simp
            · exact Or.inr ⟨byte, rest, zero, rfl, rfl,
                contents_cons_of_ne rest zero⟩
      rw [strncmp]
      rcases headContents first with ⟨fh, fc⟩ | ⟨x, xs, xne, fh, ft, fc⟩ <;>
        rcases headContents second with ⟨sh, sc⟩ | ⟨y, ys, yne, sh, st, sc⟩
      · rw [fh, sh, fc, sc]; simp
      · have differ : y.toNat ≠ 0 := fun zero =>
          yne (UInt8.toNat_inj.mp zero)
        rw [fh, sh, fc, sc]; simp [yne.symm, differ]
      · have differ : x.toNat ≠ 0 := fun zero =>
          xne (UInt8.toNat_inj.mp zero)
        rw [fh, sh, fc, sc]; simp [xne, differ]
      · rw [fh, sh, ft, st, fc, sc]
        by_cases equal : x = y
        · subst equal
          simp [xne, ih]
        · have differ : (x.toNat : Int) - y.toNat ≠ 0 := by
            intro zero
            exact equal (UInt8.toNat_inj.mp (by omega))
          simp [equal, differ]

/-- Comparing as many bytes as the second string has tests whether it is a
prefix of the first one. -/
theorem strncmp_strlen_eq_zero_iff (first second : Bytes) :
    strncmp (strlen second) first second = 0 ↔
      contents second <+: contents first := by
  rw [strncmp_eq_zero_iff, strlen, List.take_length,
    List.prefix_iff_eq_take]
  exact eq_comm

end CString

end RdmaKVStore
