import OciWrapper.Dml.ValidateField

namespace OciWrapper.Dml

open OciWrapper.Text

/-- `sizeof(pf.insert_value) - 1`. -/
def insertValueMax : Nat := 1023

/-- The text is a number of the column. -/
def NumberOf (col : ColMetadata) (v : CString) : Prop :=
  ∃ whole fraction, NumberText v whole fraction ∧
    FitsPrecision col.dataPrecision col.dataScale whole.length fraction.length

/-- What a column asks of a value. -/
def ColumnRule (col : ColMetadata) (v : CString) : Prop :=
  if v = [] then ¬(col.nullable.head? = some 'N' ∧ col.dataDefault = [])
  else
    match dbTypeClass col.dataType with
    | .string => (v.length : Int) ≤ col.dataLength
    | .binary =>
      (∀ c ∈ v, isXDigit c = true) ∧ 2 ∣ v.length ∧ (v.length : Int) ≤ col.dataLength * 2
    | .numeric => NumberOf col v
    | _ => True

/-- The validator's copy of a value tells what the column asks of the whole. -/
def CopySuffices (col : ColMetadata) (v : CString) : Prop :=
  v = [] ∨
    match dbTypeClass col.dataType with
    | .string =>
      0 < col.dataLength ∧
        (col.dataLength < insertValueMax ∨ (v.length : Int) ≤ col.dataLength)
    | .binary =>
      ¬((∀ c ∈ v.take insertValueMax, isXDigit c = true) ∧
        (col.dataLength ≤ 0 ∨ ((v.take insertValueMax).length : Int) ≤ col.dataLength * 2) ∧
        (¬2 ∣ v.length ∨ col.dataLength * 2 < v.length ∨
          ∃ c ∈ v.drop insertValueMax, isXDigit c = false))
    | .numeric =>
      v.length ≤ insertValueMax ∨
        (NumberOf col v → ¬OpenExponent (v.take insertValueMax)) ∧
          (NumberOf col (v.take insertValueMax) → NumberOf col v)
    | _ => True

section Copies

variable {col : ColMetadata} {v : CString}

theorem string_copy_iff (filled : v ≠ []) :
    ((col.dataLength ≤ 0 ∨ ((v.take insertValueMax).length : Int) ≤ col.dataLength) ↔
      (v.length : Int) ≤ col.dataLength) ↔
    0 < col.dataLength ∧
      (col.dataLength < insertValueMax ∨ (v.length : Int) ≤ col.dataLength) := by
  have some := List.length_pos_of_ne_nil filled
  have size : insertValueMax = 1023 := rfl
  rw [List.length_take]
  omega

theorem hex_whole_iff :
    (∀ c ∈ v, isXDigit c = true) ↔ (∀ c ∈ v.take insertValueMax, isXDigit c = true) ∧
      ¬∃ c ∈ v.drop insertValueMax, isXDigit c = false := by
  conv_lhs => rw [← List.take_append_drop insertValueMax v]
  rw [List.forall_mem_append]
  simp

theorem raw_copy_iff :
    ((∀ c ∈ v.take insertValueMax, isXDigit c = true) ∧
        (col.dataLength ≤ 0 ∨ ((v.take insertValueMax).length : Int) ≤ col.dataLength * 2) ↔
      (∀ c ∈ v, isXDigit c = true) ∧ 2 ∣ v.length ∧ (v.length : Int) ≤ col.dataLength * 2) ↔
    ¬((∀ c ∈ v.take insertValueMax, isXDigit c = true) ∧
      (col.dataLength ≤ 0 ∨ ((v.take insertValueMax).length : Int) ≤ col.dataLength * 2) ∧
      (¬2 ∣ v.length ∨ col.dataLength * 2 < v.length ∨
        ∃ c ∈ v.drop insertValueMax, isXDigit c = false)) := by
  have shorter : ((v.take insertValueMax).length : Int) ≤ v.length :=
    Int.ofNat_le.mpr (List.length_take_le' insertValueMax v)
  have whole : (∀ c ∈ v, isXDigit c = true) ↔ _ := hex_whole_iff
  rw [whole]
  constructor
  · intro same ⟨hex, room, broken⟩
    obtain ⟨⟨-, tail⟩, even, fits⟩ := same.mp ⟨hex, room⟩
    rcases broken with odd | long | stray
    · exact odd even
    · omega
    · exact tail stray
  · intro suffices'
    constructor
    · intro ⟨hex, room⟩
      refine ⟨⟨hex, fun stray => ?_⟩, ?_, ?_⟩
      · exact suffices' ⟨hex, room, Or.inr (Or.inr stray)⟩
      · by_contra odd
        exact suffices' ⟨hex, room, Or.inl odd⟩
      · by_contra long
        exact suffices' ⟨hex, room, Or.inr (Or.inl (by omega))⟩
    · intro satisfied
      obtain ⟨⟨hex, -⟩, -, fits⟩ := satisfied
      exact ⟨hex, Or.inr (by omega)⟩

theorem FitsPrecision.mono {precision scale : Int} {whole fraction whole' fraction' : Nat}
    (fits : FitsPrecision precision scale whole fraction) (fewWhole : whole' ≤ whole)
    (fewPlaces : fraction' ≤ fraction) : FitsPrecision precision scale whole' fraction' := by
  intro precise
  obtain ⟨before, after⟩ := fits precise
  omega

theorem number_copy_iff :
    (NumberOf col (v.take insertValueMax) ↔ NumberOf col v) ↔
      v.length ≤ insertValueMax ∨
        (NumberOf col v → ¬OpenExponent (v.take insertValueMax)) ∧
          (NumberOf col (v.take insertValueMax) → NumberOf col v) := by
  constructor
  · intro same
    refine Or.inr ⟨fun number => ?_, same.mp⟩
    obtain ⟨_, _, copy, -⟩ := same.mpr number
    exact copy.not_open
  · rintro (short | ⟨closed, continues⟩)
    · rw [List.take_of_length_le short]
    · refine ⟨continues, fun number => ?_⟩
      obtain ⟨whole, fraction, text, fits⟩ := id number
      by_cases short : v.length ≤ insertValueMax
      · rw [List.take_of_length_le short]
        exact number
      · have several : 2 ≤ insertValueMax := by decide
        rcases text.take several (by omega) with
          ⟨whole', fraction', copy, fewWhole, fewPlaces⟩ | broken
        · exact ⟨whole', fraction', copy, fits.mono fewWhole fewPlaces⟩
        · exact (closed number broken).elim

end Copies

section Fields

variable {interval : ParsedField → Except CString Unit} {col : ColMetadata} {fv : FieldValue}
  {f : Nat}

/-- What the rules see of a value is its first 1023 bytes. -/
theorem validateField_copy_iff (named : Fits 128 col.dataType)
    (kind : dbTypeClass col.dataType ∈ [.string, .binary, .numeric]) :
    (validateField interval (parsedField f fv col) = .ok () ↔ ColumnRule col fv.get) ↔
      CopySuffices col fv.get := by
  have type : (parsedField f fv col).fieldType = col.dataType :=
    List.take_of_length_le (Nat.le_of_lt_succ named)
  have value : (parsedField f fv col).insertValue = fv.get.take insertValueMax := rfl
  have length : (parsedField f fv col).fieldLength = col.dataLength := rfl
  rw [validateField, ColumnRule, CopySuffices, type, value]
  by_cases empty : fv.get = []
  · have missing : ((parsedField f fv col).fieldNullable.head? = some 'N' ∧
        (parsedField f fv col).fieldDefault = []) ↔
        (col.nullable.head? = some 'N' ∧ col.dataDefault = []) := by
      simp [parsedField, List.head?_take]
    rw [empty, List.take_nil, if_pos rfl, if_pos rfl]
    refine iff_of_true ?_ (Or.inl rfl)
    rw [← missing]
    split
    next given => exact iff_of_false (by simp) (not_not_intro given)
    next given => exact iff_of_true rfl given
  · have filled : fv.get.take insertValueMax ≠ [] := by
      rw [Ne, List.take_eq_nil_iff]
      simp [empty, insertValueMax]
    rw [if_neg filled, if_neg empty]
    simp only [List.mem_cons, List.not_mem_nil, or_false] at kind
    rcases kind with string | binary | numeric
    · simp only [string, validateString_ok, value, length, empty, false_or]
      exact string_copy_iff empty
    · simp only [binary, validateRaw_ok, value, length, empty, false_or]
      exact raw_copy_iff
    · simp only [numeric, validateNumeric_ok, value, empty, false_or]
      exact number_copy_iff

/-- A validator accepts a value of such a column exactly when the rules accept its copy. -/
theorem checkField_passes_iff {ctx : Level2Context} (rules : ctx.validateField = validateField interval)
    {cols : List ColMetadata} {owner tableName subject : CString} {rejected : CString → CString}
    {today : Dates.Today} (found : findColumn cols fv.fieldName = some col)
    (kind : dbTypeClass col.dataType ∈ [.string, .binary, .numeric]) :
    (checkField ctx cols owner tableName subject rejected today f fv).2 = [] ↔
      validateField interval (parsedField f fv col) = .ok () := by
  have dateless : normalizeClientDateValue col.dataType fv.value fv.clientDateFormat today =
      .ok (fv.value, fv.clientDateFormat) := by
    unfold normalizeClientDateValue
    rw [if_pos]
    simp only [List.mem_cons, List.not_mem_nil, or_false] at kind
    rcases kind with string | binary | numeric
    · simp [string]
    · simp [binary]
    · simp [numeric]
  unfold checkField
  simp only [found, dateless, rules]
  cases validateField interval (parsedField f fv col) with
  | ok done => simp
  | error reason => simp

/-- A value of a string, RAW or numeric column is accepted, by either validator, exactly when the
whole of it satisfies the column: precisely for the values whose copy tells. -/
theorem accepted_values_satisfy_iff {ctx : Level2Context}
    (rules : ctx.validateField = validateField interval) {cols : List ColMetadata}
    (found : findColumn cols fv.fieldName = some col) (named : Fits 128 col.dataType)
    (kind : dbTypeClass col.dataType ∈ [.string, .binary, .numeric]) (owner tableName : CString)
    (r : Nat) (today : Dates.Today) :
    (((checkRowField ctx cols owner tableName r today f fv).2 = [] ↔ ColumnRule col fv.get) ↔
      CopySuffices col fv.get) ∧
    (((checkSetField ctx cols owner tableName today f fv).2 = [] ↔ ColumnRule col fv.get) ↔
      CopySuffices col fv.get) := by
  rw [checkRowField, checkSetField, checkField_passes_iff rules found kind,
    checkField_passes_iff rules found kind]
  exact ⟨validateField_copy_iff named kind, validateField_copy_iff named kind⟩

end Fields

def rawColumn : ColMetadata := ⟨"KEY".toList, "RAW".toList, 8, -1, -1, ['Y'], []⟩

def rawContext : Level2Context where
  maxBulkInserts := 100
  metadata := fun _ _ => some [rawColumn]
  validateField := validateField fun _ => .ok ()

def rawValue (value : String) : FieldValue := ⟨"KEY".toList, value.toList, none, []⟩

def rawInsert : InsertRequest := ⟨"T".toList, [], [[rawValue "ABC"]]⟩

theorem accepted_values_satisfy_raw :
    (findColumn [rawColumn] "KEY".toList = some rawColumn ∧ Fits 128 rawColumn.dataType ∧
      dbTypeClass rawColumn.dataType ∈ [.string, .binary, .numeric]) ∧
    (((checkRowField rawContext [rawColumn] [] "T".toList 0 ⟨2026, 10⟩ 0 (rawValue "ABCD")).2 = [] ↔
      ColumnRule rawColumn (rawValue "ABCD").get) ↔ CopySuffices rawColumn (rawValue "ABCD").get) :=
  have column : findColumn [rawColumn] "KEY".toList = some rawColumn := by decide
  have kind : dbTypeClass rawColumn.dataType ∈ [.string, .binary, .numeric] := by decide +kernel
  have named : Fits 128 rawColumn.dataType := by decide
  ⟨⟨column, named, kind⟩, (accepted_values_satisfy_iff rfl column named kind [] "T".toList 0
    ⟨2026, 10⟩).1⟩

def longText : CString := List.replicate 2001 'x'

def textColumn : ColMetadata := ⟨"NOTE".toList, "VARCHAR2".toList, 2000, -1, -1, ['Y'], []⟩

/-- Three hex digits are accepted for a RAW column, and a text of 2001 bytes for a column of 2000. -/
theorem odd_digits_are_accepted :
    level2ValidateInsert rawContext (fun _ _ => ⟨2026, 10⟩) rawInsert = (setOk, rawInsert) ∧
      ¬ColumnRule rawColumn (rawValue "ABC").get ∧
      (checkRowField rawContext [textColumn] [] "T".toList 0 ⟨2026, 10⟩ 0
        ⟨"NOTE".toList, longText, none, []⟩).2 = [] ∧
      ¬ColumnRule textColumn longText := by
  have string : dbTypeClass textColumn.dataType = .string := by decide +kernel
  have size : longText.length = 2001 := List.length_replicate
  have cut : (longText.take insertValueMax).length = 1023 := by
    rw [List.length_take, size]
    rfl
  refine ⟨by decide +kernel, fun rule => ?_, ?_, fun rule => ?_⟩
  · have filled : (rawValue "ABC").get ≠ [] := by decide
    have binary : dbTypeClass rawColumn.dataType = .binary := by decide +kernel
    rw [ColumnRule, if_neg filled, binary] at rule
    exact absurd rule.2.1 (by decide)
  · have kind : dbTypeClass textColumn.dataType ∈ [.string, .binary, .numeric] := by
      rw [string]
      decide
    rw [checkRowField, checkField_passes_iff rfl (show findColumn [textColumn] "NOTE".toList =
      some textColumn by decide) kind, validateField, if_neg]
    · have type : dbTypeClass ("VARCHAR2".toList.take 127) = .string := string
      simp only [parsedField, textColumn, type]
      rw [validateString_ok]
      refine Or.inr ?_
      show ((longText.take insertValueMax).length : Int) ≤ 2000
      rw [cut]
      decide
    · intro empty
      have none := congrArg List.length (show longText.take insertValueMax = [] from empty)
      rw [cut] at none
      cases none
  · have filled : longText ≠ [] := List.ne_nil_of_length_pos (by rw [size]; decide)
    rw [ColumnRule, if_neg filled, string] at rule
    dsimp only at rule
    rw [size] at rule
    exact absurd rule (by decide)

end OciWrapper.Dml
