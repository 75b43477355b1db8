import Mathlib.Data.Nat.Digits.Lemmas

/-!
# Decimal numerals

How natural numbers and integers are spelled with the digits and the minus sign
of any alphabet, how digits are read back, and how numbers and texts are put in
the places that a format leaves for them.
-/

namespace RdmaKVStore

/-- The ten digits of an alphabet, with their values, and a minus sign. -/
structure Numerals (Symbol : Type*) where
  digit : Nat → Symbol
  value : Symbol → Option Nat
  minus : Symbol
  value_digit : ∀ number < 10, value (digit number) = some number
  value_minus : value minus = none

theorem append_separator_inj {Symbol : Type*} {separator : Symbol}
    {first second rest rest' : List Symbol} (apart : separator ∉ first)
    (apart' : separator ∉ second) :
    first ++ separator :: rest = second ++ separator :: rest' ↔
      first = second ∧ rest = rest' := by
  induction first generalizing second with
  | nil =>
      cases second with
      | nil => simp
      | cons symbol second =>
          have other := List.ne_of_not_mem_cons apart'
          simp [other]
  | cons symbol first ih =>
      cases second with
      | nil =>
          have other := List.ne_of_not_mem_cons apart
          simp [other.symm]
      | cons symbol' second =>
          rw [List.cons_append, List.cons_append, List.cons.injEq,
            List.cons.injEq, and_assoc,
            ih (List.not_mem_of_not_mem_cons apart)
              (List.not_mem_of_not_mem_cons apart')]

namespace Numerals

variable {Symbol : Type*} (numerals : Numerals Symbol)

def natural (number : Nat) : List Symbol :=
  if number = 0 then [numerals.digit 0]
  else ((Nat.digits 10 number).map numerals.digit).reverse

def integer (number : Int) : List Symbol :=
  if number < 0 then numerals.minus :: numerals.natural number.natAbs
  else numerals.natural number.natAbs

/-- The number whose digits are those read so far and the given ones. -/
def readFrom : Nat → List Symbol → Option Nat
  | number, [] => some number
  | number, symbol :: text =>
      (numerals.value symbol).bind fun digit =>
        readFrom (10 * number + digit) text

def read : List Symbol → Option Nat
  | [] => none
  | symbol :: text => numerals.readFrom 0 (symbol :: text)

variable {numerals}

theorem readFrom_append (number : Nat) (first second : List Symbol) :
    numerals.readFrom number (first ++ second) =
      (numerals.readFrom number first).bind fun number =>
        numerals.readFrom number second := by
  induction first generalizing number with
  | nil => rfl
  | cons symbol first ih =>
      rw [List.cons_append, readFrom, readFrom]
      cases numerals.value symbol with
      | none => rfl
      | some digit => exact ih _

theorem readFrom_digits {digits : List Nat}
    (small : ∀ digit ∈ digits, digit < 10) :
    numerals.readFrom 0 (digits.map numerals.digit).reverse =
      some (Nat.ofDigits 10 digits) := by
  induction digits with
  | nil => rfl
  | cons digit digits ih =>
      obtain ⟨own, others⟩ := List.forall_mem_cons.mp small
      rw [List.map_cons, List.reverse_cons, readFrom_append, ih others,
        Option.bind_some, readFrom, numerals.value_digit digit own,
        Option.bind_some, readFrom, Nat.ofDigits_cons, Nat.add_comm]

theorem natural_ne_nil (number : Nat) : numerals.natural number ≠ [] := by
  unfold natural
  split
  · exact List.cons_ne_nil _ _
  · next positive =>
      intro empty
      apply positive
      apply Nat.digits_eq_nil_iff_eq_zero.mp
      exact List.map_eq_nil_iff.mp (List.reverse_eq_nil_iff.mp empty)

theorem read_of_ne_nil {text : List Symbol} (nonempty : text ≠ []) :
    numerals.read text = numerals.readFrom 0 text := by
  cases text with
  | nil => exact absurd rfl nonempty
  | cons symbol text => rfl

theorem read_natural (number : Nat) :
    numerals.read (numerals.natural number) = some number := by
  rw [read_of_ne_nil (natural_ne_nil number), natural]
  split
  · next zero =>
      rw [zero, readFrom, numerals.value_digit 0 (by decide)]
      rfl
  · rw [readFrom_digits fun digit => Nat.digits_lt_base (by decide),
      Nat.ofDigits_digits]

theorem natural_injective : Function.Injective numerals.natural := by
  intro first second same
  have read : numerals.read (numerals.natural first) = some first :=
    read_natural first
  rw [same, read_natural] at read
  exact (Option.some.inj read).symm

theorem mem_natural {symbol : Symbol} {number : Nat}
    (member : symbol ∈ numerals.natural number) :
    ∃ digit < 10, numerals.digit digit = symbol := by
  unfold natural at member
  split at member
  · exact ⟨0, by decide, (List.mem_singleton.mp member).symm⟩
  · obtain ⟨digit, own, spelled⟩ :=
      List.mem_map.mp (List.mem_reverse.mp member)
    exact ⟨digit, Nat.digits_lt_base (by decide) own, spelled⟩

theorem mem_integer {symbol : Symbol} {number : Int}
    (member : symbol ∈ numerals.integer number) :
    symbol = numerals.minus ∨ ∃ digit < 10, numerals.digit digit = symbol := by
  unfold integer at member
  split at member
  · exact (List.mem_cons.mp member).imp_right mem_natural
  · exact .inr (mem_natural member)

theorem notMem_integer {symbol : Symbol} (notMinus : symbol ≠ numerals.minus)
    (notDigit : numerals.value symbol = none) (number : Int) :
    symbol ∉ numerals.integer number := by
  intro member
  rcases mem_integer member with minus | ⟨digit, small, rfl⟩
  · exact notMinus minus
  · rw [numerals.value_digit digit small] at notDigit
    cases notDigit

theorem read_minus (text : List Symbol) :
    numerals.read (numerals.minus :: text) = none := by
  rw [read, readFrom, numerals.value_minus, Option.bind_none]

theorem integer_injective : Function.Injective numerals.integer := by
  -- no numeral of a natural number begins with the minus sign
  have signed (first second : Nat) :
      numerals.minus :: numerals.natural first ≠ numerals.natural second := by
    intro same
    have read : numerals.read (numerals.natural second) = some second :=
      read_natural second
    rw [← same, read_minus] at read
    cases read
  intro first second same
  unfold integer at same
  split at same <;> split at same
  · have sizes := natural_injective (List.cons.inj same).2
    omega
  · exact absurd same (signed _ _)
  · exact absurd same.symm (signed _ _)
  · have sizes := natural_injective same
    omega

theorem length_natural_le {number count : Nat} (positive : 0 < count)
    (small : number < 10 ^ count) :
    (numerals.natural number).length ≤ count := by
  unfold natural
  split
  · exact positive
  · rw [List.length_reverse, List.length_map]
    exact (Nat.digits_length_le_iff (by decide) number).mpr small

theorem length_integer_le {number : Int} {count : Nat} (positive : 0 < count)
    (small : number.natAbs < 10 ^ count) :
    (numerals.integer number).length ≤ count + 1 := by
  have digits : (numerals.natural number.natAbs).length ≤ count :=
    length_natural_le positive small
  unfold integer
  split
  · exact Nat.succ_le_succ digits
  · exact digits.trans count.le_succ

theorem length_integer_int32 (number : Int32) :
    (numerals.integer number.toInt).length ≤ 11 := by
  apply length_integer_le (by decide)
  have lower := number.le_toInt
  have upper := number.toInt_lt
  omega

end Numerals

/-- An argument of a format. -/
inductive FormatArgument (Symbol : Type*)
  | integer (number : Int)
  | text (symbols : List Symbol)

/-- The text that `printf` prints for a format with `%d` and `%s`. -/
def Numerals.format {Symbol : Type*} (numerals : Numerals Symbol)
    (encode : Char → Symbol) :
    List Char → List (FormatArgument Symbol) → List Symbol
  | '%' :: 'd' :: rest, .integer number :: arguments =>
      numerals.integer number ++ numerals.format encode rest arguments
  | '%' :: 's' :: rest, .text symbols :: arguments =>
      symbols ++ numerals.format encode rest arguments
  | character :: rest, arguments =>
      encode character :: numerals.format encode rest arguments
  | [], _ => []

theorem Numerals.format_append {Symbol : Type*} {numerals : Numerals Symbol}
    {encode : Char → Symbol} {literal : List Char} (plain : '%' ∉ literal)
    (rest : List Char) (arguments : List (FormatArgument Symbol)) :
    numerals.format encode (literal ++ rest) arguments =
      literal.map encode ++ numerals.format encode rest arguments := by
  induction literal with
  | nil => rfl
  | cons character literal ih =>
      have other : character ≠ '%' := (List.ne_of_not_mem_cons plain).symm
      rw [List.cons_append, Numerals.format,
        ih (List.not_mem_of_not_mem_cons plain)]
      · rfl
      · exact fun _ _ _ _ percent => absurd percent other
      · exact fun _ _ _ _ percent => absurd percent other

end RdmaKVStore
