import RdmaKVStore.Numerals
import RdmaKVStore.Requests
import RdmaKVStore.RightSplits

/-!
# Names of result files

The name that `data_processing` gives to a result file, and `get_parts` of
`util.py`, which takes the name apart again.
-/

namespace RdmaKVStore

def asciiChars : Numerals Char where
  digit number := Char.ofNat (48 + number)
  value char :=
    if '0' ≤ char ∧ char ≤ '9' then some (char.toNat - 48) else none
  minus := '-'
  value_digit := by decide
  value_minus := by decide

/-! ### The name of a file -/

def connectionTypeConversion : List (ConnectionType × List Char) :=
  [(.tcp, "TCP".toList), (.rc, "RC".toList), (.uc, "UC".toList),
    (.ud, "UD".toList)]

/-- `connection_type_to_str` -/
def connectionTypeToStr (type : ConnectionType) : List Char :=
  match connectionTypeConversion.find? fun entry => entry.1 = type with
  | some entry => entry.2
  | none => "TCP".toList

/-- `snprintf` into an array with room for so many characters, one of which is
the terminator. -/
def snprintf (size : Nat) (text : List Char) : List Char :=
  text.take (size - 1)

section Name

variable (type : ConnectionType) (clients clientNumber numberOps : Int32)

/-- The format's last part.  `numberOps` is `num_ops / clients`. -/
def resultFileName : List Char :=
  asciiChars.format id "%s_%d_client_%d_%d.csv".toList
    [.text (connectionTypeToStr type), .integer clients.toInt,
      .integer clientNumber.toInt, .integer numberOps.toInt]

/-- The path that `data_processing` opens, unless it exits because the path has
lost its suffix. -/
def resultPath (blocking : Bool) : Option (List Char) :=
  let format :=
    if blocking then
      "./benchmarking/data/blocking/%s_%d_client_%d_%d.csv".toList
    else "./benchmarking/data/non_blocking/%s_%d_client_%d_%d.csv".toList
  let fileName := snprintf 255 (asciiChars.format id format
    [.text (connectionTypeToStr type), .integer clients.toInt,
      .integer clientNumber.toInt, .integer numberOps.toInt])
  let suffix := fileName.drop (fileName.length - 4)
  if suffix.take 4 ≠ ".csv".toList then none else some fileName

end Name

/-! ### Taking a name apart -/

/-- The white space that `int` strips from a text. -/
def pythonSpace (char : Char) : Bool :=
  let code := char.toNat
  9 ≤ code ∧ code ≤ 13 ∨ code = 32 ∨ code = 133 ∨ code = 160 ∨ code = 5760 ∨
    8192 ≤ code ∧ code ≤ 8202 ∨ code = 8232 ∨ code = 8233 ∨ code = 8239 ∨
      code = 8287 ∨ code = 12288

def strip (text : List Char) : List Char :=
  ((text.dropWhile pythonSpace).reverse.dropWhile pythonSpace).reverse

/-- ASCII digits, between which there may be single underscores. -/
def readGroups (text : List Char) : Option Nat :=
  if [] ∈ text.splitOn '_' then none
  else asciiChars.read (text.filter (· ≠ '_'))

/-- Python's `int` on a text whose digits are ASCII digits; `none` if it raises
an error. -/
def pythonInt (text : List Char) : Option Int :=
  match strip text with
  | [] => none
  | sign :: rest =>
      if sign = '-' then (readGroups rest).map Int.negOfNat
      else if sign = '+' then (readGroups rest).map Int.ofNat
      else (readGroups (sign :: rest)).map Int.ofNat

/-- `get_parts`; `none` if it raises an error. -/
def getParts (filename : List Char) :
    Option (List Char × Int × Int × Int) := do
  let filenameParts := rsplit '_' 4 (← (rsplit '/' 1 filename).getLast?)
  let type ← filenameParts[0]?
  let numberClients ← pythonInt (← filenameParts[1]?)
  let clientNumber ← pythonInt (← filenameParts[3]?)
  let numberOps ← pythonInt (← (rsplit '.' 1 (← filenameParts[4]?))[0]?)
  return (type, numberClients, clientNumber, numberOps)

/-! ### Reading a numeral -/

section Numbers

theorem underscore_notMem_integer (number : Int) :
    '_' ∉ asciiChars.integer number :=
  Numerals.notMem_integer (by decide) rfl number

theorem pythonSpace_integer {char : Char} {number : Int}
    (member : char ∈ asciiChars.integer number) : pythonSpace char = false := by
  have digits : ∀ digit < 10, pythonSpace (asciiChars.digit digit) = false := by
    decide
  rcases Numerals.mem_integer member with rfl | ⟨digit, small, rfl⟩
  · rfl
  · exact digits digit small

theorem dropWhile_eq_self {text : List Char}
    (noSpace : ∀ char ∈ text, pythonSpace char = false) :
    text.dropWhile pythonSpace = text := by
  apply List.dropWhile_eq_self_iff.mpr
  intro nonempty
  rw [noSpace _ (List.getElem_mem nonempty)]
  exact Bool.false_ne_true

theorem strip_eq_self {text : List Char}
    (noSpace : ∀ char ∈ text, pythonSpace char = false) :
    strip text = text := by
  rw [strip, dropWhile_eq_self noSpace, dropWhile_eq_self, List.reverse_reverse]
  intro char member
  exact noSpace char (List.mem_reverse.mp member)

theorem readGroups_natural (number : Nat) :
    readGroups (asciiChars.natural number) = some number := by
  have apart : '_' ∉ asciiChars.natural number :=
    underscore_notMem_integer number
  have nonempty : asciiChars.natural number ≠ [] :=
    Numerals.natural_ne_nil number
  have single : [] ∉ (asciiChars.natural number).splitOn '_' := by
    rw [List.splitOn_eq_singleton apart, List.mem_singleton]
    exact nonempty.symm
  have whole : (asciiChars.natural number).filter (· ≠ '_') =
      asciiChars.natural number := by
    apply List.filter_eq_self.mpr
    intro char member
    rw [decide_eq_true_eq]
    rintro rfl
    exact apart member
  rw [readGroups, if_neg single, whole, Numerals.read_natural]

theorem pythonInt_natural (number : Nat) :
    pythonInt (asciiChars.natural number) = some (number : Int) := by
  have noSpace : ∀ char ∈ asciiChars.natural number,
      pythonSpace char = false := fun _ member =>
    pythonSpace_integer (show _ ∈ asciiChars.integer number from member)
  have signs : ∀ digit < 10, asciiChars.digit digit ≠ '-' ∧
      asciiChars.digit digit ≠ '+' := by decide
  have read := readGroups_natural number
  rw [pythonInt, strip_eq_self noSpace]
  cases spelled : asciiChars.natural number with
  | nil => exact absurd spelled (Numerals.natural_ne_nil number)
  | cons first rest =>
      have member : first ∈ asciiChars.natural number := by
        rw [spelled]
        exact List.mem_cons_self
      obtain ⟨digit, small, rfl⟩ := Numerals.mem_natural member
      obtain ⟨notMinus, notPlus⟩ := signs digit small
      rw [spelled] at read
      dsimp only
      rw [if_neg notMinus, if_neg notPlus, read]
      rfl

theorem pythonInt_integer (number : Int) :
    pythonInt (asciiChars.integer number) = some number := by
  have noSpace : ∀ char ∈ asciiChars.integer number,
      pythonSpace char = false := fun char member => pythonSpace_integer member
  by_cases negative : number < 0
  · have spelled : asciiChars.integer number =
        '-' :: asciiChars.natural number.natAbs := if_pos negative
    rw [pythonInt, strip_eq_self noSpace, spelled]
    dsimp only
    rw [if_pos rfl, readGroups_natural, Option.map_some, Option.some.injEq,
      Int.negOfNat_eq, Int.ofNat_eq_natCast,
      Int.ofNat_natAbs_of_nonpos negative.le, neg_neg]
  · have spelled : asciiChars.integer number =
        asciiChars.natural number.natAbs := if_neg negative
    rw [spelled, pythonInt_natural, Option.some.injEq]
    omega

end Numbers

/-! ### Names -/

section Names

variable (type : ConnectionType) (clients clientNumber numberOps : Int32)

def resultParts : List (List Char) :=
  [asciiChars.integer clients.toInt, "client".toList,
    asciiChars.integer clientNumber.toInt,
    asciiChars.integer numberOps.toInt ++ '.' :: "csv".toList]

theorem resultFileName_eq : resultFileName type clients clientNumber numberOps =
    connectionTypeToStr type ++
      (resultParts clients clientNumber numberOps).flatMap ('_' :: ·) := by
  simp only [resultParts, List.flatMap_cons, List.flatMap_nil, List.append_nil]
  rfl

example : resultFileName .rc 4 0 250 = "RC_4_client_0_250.csv".toList := by
  decide

theorem notMem_resultParts {separator : Char}
    (other : separator ∉ '.' :: "csvclient".toList)
    (numbers : ∀ number, separator ∉ asciiChars.integer number) :
    ∀ part ∈ resultParts clients clientNumber numberOps, separator ∉ part := by
  have client : separator ∉ "client".toList := fun member =>
    other (List.mem_append_right ".csv".toList member)
  have suffix : separator ∉ ".csv".toList := fun member =>
    other (List.mem_append_left "client".toList member)
  simp only [resultParts, List.forall_mem_cons, List.mem_append, not_or]
  exact ⟨numbers _, client, numbers _, ⟨numbers _, suffix⟩, by simp⟩

theorem slash_notMem_resultFileName :
    '/' ∉ resultFileName type clients clientNumber numberOps := by
  have inType : '/' ∉ connectionTypeToStr type := by
    cases type <;> decide
  have inParts : ∀ part ∈ resultParts clients clientNumber numberOps,
      '/' ∉ part :=
    notMem_resultParts _ _ _ (by decide) fun number =>
      Numerals.notMem_integer (by decide) rfl number
  rw [resultFileName_eq, List.mem_append, List.mem_flatMap]
  rintro (member | ⟨part, own, member⟩)
  · exact inType member
  · rcases List.mem_cons.mp member with underscore | member
    · cases underscore
    · exact inParts part own member

theorem rsplit_resultFileName :
    rsplit '_' 4 (resultFileName type clients clientNumber numberOps) =
      connectionTypeToStr type ::
        resultParts clients clientNumber numberOps := by
  have apart := notMem_resultParts clients clientNumber numberOps (by decide)
    underscore_notMem_integer
  rw [resultFileName_eq]
  exact rsplit_join apart

theorem getParts_resultFileName (directory : List Char) :
    getParts (directory ++
        '/' :: resultFileName type clients clientNumber numberOps) =
      some (connectionTypeToStr type, clients.toInt, clientNumber.toInt,
        numberOps.toInt) := by
  have noDot : '.' ∉ "csv".toList := by decide
  have noSlash :=
    slash_notMem_resultFileName type clients clientNumber numberOps
  have name := getLast?_rsplit_append noSlash 0 directory
  have suffix : (rsplit '.' 1 (asciiChars.integer numberOps.toInt ++
      '.' :: "csv".toList))[0]? =
        some (asciiChars.integer numberOps.toInt) := by
    rw [rsplit_append noDot]
    rfl
  rw [getParts, name, Option.bind_eq_bind, Option.bind_some,
    rsplit_resultFileName]
  simp only [resultParts, List.getElem?_cons_zero, List.getElem?_cons_succ,
    Option.bind_eq_bind, Option.bind_some, pythonInt_integer, suffix]
  rfl

theorem connectionTypeToStr_injective :
    Function.Injective connectionTypeToStr := by
  intro type type' same
  cases type <;> cases type' <;> first | rfl | exact absurd same (by decide)

theorem length_resultFileName_le :
    (resultFileName type clients clientNumber numberOps).length ≤ 50 := by
  have numeral (number : Int32) :
      (asciiChars.integer number.toInt).length ≤ 11 :=
    Numerals.length_integer_int32 number
  have typeLength : (connectionTypeToStr type).length ≤ 3 := by
    cases type <;> decide
  have first := numeral clients
  have second := numeral clientNumber
  have third := numeral numberOps
  have client : "client".toList.length = 6 := rfl
  have suffix : "csv".toList.length = 3 := rfl
  simp only [resultFileName_eq, resultParts, List.flatMap_cons,
    List.flatMap_nil, List.length_append, List.length_cons, List.length_nil]
  omega

def resultDirectory (blocking : Bool) : List Char :=
  if blocking then "./benchmarking/data/blocking".toList
  else "./benchmarking/data/non_blocking".toList

theorem snprintf_of_fits {size : Nat} {text : List Char}
    (fits : text.length < size) : snprintf size text = text :=
  List.take_of_length_le (Nat.le_sub_one_of_lt fits)

theorem suffix_append (stem : List Char) :
    ((stem ++ ".csv".toList).drop
      ((stem ++ ".csv".toList).length - 4)).take 4 = ".csv".toList := by
  have length : (stem ++ ".csv".toList).length - 4 = stem.length := by
    rw [List.length_append]
    rfl
  rw [length, List.drop_left]
  rfl

theorem resultFileName_suffix :
    ∃ stem, resultFileName type clients clientNumber numberOps =
      stem ++ ".csv".toList := by
  refine ⟨connectionTypeToStr type ++ ([asciiChars.integer clients.toInt,
    "client".toList, asciiChars.integer clientNumber.toInt,
    asciiChars.integer numberOps.toInt].flatMap ('_' :: ·)), ?_⟩
  rw [resultFileName_eq, resultParts]
  simp

theorem format_resultDirectory (blocking : Bool) (rest : List Char)
    (arguments : List (FormatArgument Char)) :
    asciiChars.format id (resultDirectory blocking ++ '/' :: rest) arguments =
      resultDirectory blocking ++
        '/' :: asciiChars.format id rest arguments := by
  have plain : '%' ∉ resultDirectory blocking ++ ['/'] := by
    cases blocking <;> decide
  have printed : asciiChars.format id
      ((resultDirectory blocking ++ ['/']) ++ rest) arguments = _ :=
    Numerals.format_append plain rest arguments
  rw [List.map_id, List.append_assoc, List.append_assoc] at printed
  exact printed

theorem resultPath_eq (blocking : Bool) :
    resultPath type clients clientNumber numberOps blocking =
      some (resultDirectory blocking ++
        '/' :: resultFileName type clients clientNumber numberOps) := by
  have format :
      (if blocking then
        "./benchmarking/data/blocking/%s_%d_client_%d_%d.csv".toList
      else "./benchmarking/data/non_blocking/%s_%d_client_%d_%d.csv".toList) =
        resultDirectory blocking ++
          '/' :: "%s_%d_client_%d_%d.csv".toList := by
    cases blocking <;> simp [resultDirectory]
  have nameLength :=
    length_resultFileName_le type clients clientNumber numberOps
  have directoryLength : (resultDirectory blocking).length ≤ 32 := by
    cases blocking <;> decide
  have fits : (resultDirectory blocking ++
      '/' :: resultFileName type clients clientNumber numberOps).length <
        255 := by
    rw [List.length_append, List.length_cons]
    omega
  obtain ⟨stem, named⟩ :=
    resultFileName_suffix type clients clientNumber numberOps
  rw [resultPath, format, format_resultDirectory, ← resultFileName,
    snprintf_of_fits fits, named, ← List.cons_append, ← List.append_assoc]
  exact if_neg (not_not_intro (suffix_append _))

end Names

/-- For every type and all numbers, `get_parts` takes the name apart into the
type and the numbers, whatever directory it is in, and so different results have
different names; the file that is opened has this name. -/
theorem resultNames_roundTrip (type : ConnectionType)
    (clients clientNumber numberOps : Int32) :
    (∀ blocking, resultPath type clients clientNumber numberOps blocking =
      some (resultDirectory blocking ++
        '/' :: resultFileName type clients clientNumber numberOps)) ∧
    (∀ directory, getParts (directory ++
        '/' :: resultFileName type clients clientNumber numberOps) =
      some (connectionTypeToStr type, clients.toInt, clientNumber.toInt,
        numberOps.toInt)) ∧
    ∀ type' clients' clientNumber' numberOps',
      resultFileName type clients clientNumber numberOps =
          resultFileName type' clients' clientNumber' numberOps' ↔
        (type, clients, clientNumber, numberOps) =
          (type', clients', clientNumber', numberOps') := by
  refine ⟨resultPath_eq type clients clientNumber numberOps,
    getParts_resultFileName type clients clientNumber numberOps, ?_⟩
  intro type' clients' clientNumber' numberOps'
  constructor
  · intro same
    have first := getParts_resultFileName type clients clientNumber numberOps []
    rw [same, getParts_resultFileName] at first
    simp only [Option.some.injEq, Prod.mk.injEq, Int32.toInt_inj] at first
    obtain ⟨types, rfl, rfl, rfl⟩ := first
    rw [connectionTypeToStr_injective types]
  · intro same
    obtain ⟨rfl, rfl, rfl, rfl⟩ := by simpa only [Prod.mk.injEq] using same
    rfl

end RdmaKVStore
