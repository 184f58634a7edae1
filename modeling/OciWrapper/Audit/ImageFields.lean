import OciWrapper.Audit.ImageDocument

namespace OciWrapper.Audit

open OciWrapper.Text OciWrapper.Core OciWrapper.Execute OciWrapper.Dml

theorem element_eq {opening closing p body s : CString}
    (whole : strstr opening (p ++ (body ++ (closing ++ s))) = some (body ++ (closing ++ s)))
    (inside : strstr closing (body ++ (closing ++ s)) = some (closing ++ s)) :
    element opening closing (p ++ (body ++ (closing ++ s))) = some (body ++ closing, s) := by
  have length : (body ++ (closing ++ s)).length - (closing ++ s).length + closing.length =
      (body ++ closing).length := by
    simp only [List.length_append]
    omega
  rw [element, whole, Option.bind_eq_bind, Option.bind_some, inside, Option.bind_some]
  dsimp only
  rw [length, ← List.append_assoc, List.take_left, List.drop_left]

/-- The field of a cell up to its end. -/
def fieldBody (col : ImageColumn) (cell : ImageCell) : CString :=
  unitsText (nameUnits col ++ bodyUnits col cell)

def fieldXml (col : ImageColumn) (cell : ImageCell) : CString :=
  fieldBody col cell ++ "</field>".toList

/-- The value that is found in the field of a cell. -/
def shownValue : ImageCell → CString
  | .text put _ => xmlEscape (strncpyField 4096 put)
  | .blob _ => []

section Fields

variable (col : ImageColumn) (cell : ImageCell)

theorem cell_line : (cellAppends col cell).flatten = fieldXml col cell ++ ['\n'] := by
  rw [cellAppends_flatten, unitsText_append, fieldXml, fieldBody, List.append_assoc]
  simp [endUnits, unitsText]

theorem fieldBody_starts : ∃ rest, fieldBody col cell = "<field>".toList ++ rest := by
  rw [fieldBody, nameUnits, List.cons_append, unitsText, List.flatMap_cons, List.append_nil]
  exact ⟨_, rfl⟩

theorem skip_fieldBody {needle s : CString} (tag : Tag needle)
    (names : Unlike needle nameTags = true) (bodies : Unlike needle bodyTags = true) :
    strstr needle (fieldBody col cell ++ s) = strstr needle s := by
  have first := made_nameUnits col
  have second := made_bodyUnits col cell
  rw [fieldBody, unitsText_append, List.append_assoc,
    tag.skip_units (first.units (by decide)) (first.differ names),
    tag.skip_units (second.units (by decide)) (second.differ bodies)]

theorem element_field {p s : CString} (before : Absent "<field>".toList p) :
    element "<field>".toList "</field>".toList (p ++ (fieldXml col cell ++ s)) =
      some (fieldXml col cell, s) := by
  obtain ⟨rest, starts⟩ := fieldBody_starts col cell
  have opening : Tag "<field>".toList := by decide
  have closing : Tag "</field>".toList := by decide
  rw [fieldXml, List.append_assoc]
  refine element_eq ?_ ?_
  · rw [starts, List.append_assoc, before.strstr_append opening opening.bracketed,
      strstr_here _ opening]
  · rw [skip_fieldBody col cell closing (by decide) (by decide), strstr_here _ closing]

theorem fieldName_fieldXml : fieldName (fieldXml col cell) = col.reported := by
  have opening : Tag "<field_name>".toList := by decide
  have closing : Tag "</field_name>".toList := by decide
  have parts : fieldXml col cell = "<field>".toList ++ ("<field_name>".toList ++
      (xmlEscape (strncpyField 128 col.reported) ++ ("</field_name>".toList ++
        (unitsText (bodyUnits col cell) ++ "</field>".toList)))) := by
    rw [fieldXml, fieldBody, unitsText_append]
    simp only [nameUnits, unitsText, List.flatMap_cons, List.flatMap_nil, List.append_nil,
      List.append_assoc]
  have before : Absent "<field_name>".toList "<field>".toList := by
    have other := opening.absent_other (t := "<field>".toList) (p := []) (by decide) (by decide)
      (by decide)
    rwa [List.append_nil] at other
  have short := ((strncpyField_eq_self_iff 128 col.reported).mp col.kept).1
  rw [fieldName, parts, contents_eq opening closing before
    (closing.absent_plain (xmlEscape_bare _)), col.kept, col.plain, Option.getD_some,
    List.take_of_length_le (short.trans (by decide))]

theorem strncpyField_length (size : Nat) (bytes : CString) :
    (strncpyField size bytes).length ≤ size - 1 := by
  rw [strncpyField]
  exact List.length_take_le (size - 1) _

theorem fieldValue_text (put held : CString) :
    fieldValue (fieldXml col (.text put held)) = xmlEscape (strncpyField 4096 put) := by
  have opening : Tag "<field_value>".toList := by decide
  have closing : Tag "</field_value>".toList := by decide
  let types := [("<field_type>".toList, xmlEscape (cellField col put).fieldType),
    ("</field_type>".toList, [])]
  have parts : fieldXml col (.text put held) =
      unitsText (nameUnits col ++ types) ++ ("<field_value>".toList ++
        (xmlEscape (cellField col put).value ++ ("</field_value>".toList ++ "</field>".toList))) := by
    rw [fieldXml, fieldBody, bodyUnits, textUnits]
    simp only [types, unitsText, List.flatMap_append, List.flatMap_cons, List.flatMap_nil,
      List.append_nil, List.append_assoc]
  have made : Made (nameTags ++ ["<field_type>".toList, "</field_type>".toList])
      (nameUnits col ++ types) := by
    have name := xmlEscape_bare (strncpyField 128 col.reported)
    have type := xmlEscape_bare (cellField col put).fieldType
    simp [Made, nameUnits, nameTags, types, name, type]
  have before := opening.absent_units (made.units (by decide)) (made.differ (by decide))
  have short : (xmlEscape (strncpyField 4096 put)).length ≤ auditValueMax := by
    have kept := strncpyField_length 4096 put
    have most := xmlEscape_length (strncpyField 4096 put)
    rw [auditValueMax]
    omega
  rw [fieldValue, parts, contents_eq opening closing before
    (closing.absent_plain (xmlEscape_bare _)), Option.getD_some, cellField, resultsetSetField,
    List.take_of_length_le short]

/-- The tags in the field of a BLOB. -/
def blobTags : List CString :=
  nameTags ++ ["<field_type>".toList, "</field_type>".toList, "<field_value/>".toList,
    "<blob>".toList, "<file_name>".toList, "</file_name>".toList, "<file_path>".toList,
    "</file_path>".toList, "<file_url>".toList, "</file_url>".toList, "<file_size>".toList,
    "</file_size>".toList, "<mime_type>".toList, "</mime_type>".toList, "</blob>".toList,
    "</field>".toList]

theorem made_blob (detail : BlobDetail) :
    Made blobTags (nameUnits col ++ bodyUnits col (.blob detail) ++ [("</field>".toList, [])]) := by
  have reported := xmlEscape_bare (strncpyField 128 col.reported)
  have name := xmlEscape_bare detail.fileName
  have path := xmlEscape_bare detail.filePath
  have url := xmlEscape_bare detail.fileUrl
  have digits := digits_bare (ub4 detail.fileSize)
  rw [bodyUnits]
  split
  · simp [Made, nameUnits, blobUnits, sizeUnits, blobTags, nameTags, reported, name, path, digits,
      detail.bare]
  · simp [Made, nameUnits, blobUnits, sizeUnits, urlUnits, blobTags, nameTags, reported, name, path,
      url, digits, detail.bare]

theorem fieldValue_blob (detail : BlobDetail) : fieldValue (fieldXml col (.blob detail)) = [] := by
  have opening : Tag "<field_value>".toList := by decide
  have made := made_blob col detail
  have parts : fieldXml col (.blob detail) =
      unitsText (nameUnits col ++ bodyUnits col (.blob detail) ++ [("</field>".toList, [])]) := by
    rw [unitsText_append, ← fieldBody, fieldXml]
    simp only [unitsText, List.flatMap_cons, List.flatMap_nil, List.append_nil]
  have absent : strstr "<field_value>".toList (fieldXml col (.blob detail)) = none := by
    rw [parts]
    exact opening.absent_units (made.units (by decide)) (made.differ (by decide))
  rw [fieldValue, contents, absent]
  rfl

theorem fieldValue_fieldXml : fieldValue (fieldXml col cell) = shownValue cell := by
  cases cell with
  | text put held => exact fieldValue_text col put held
  | blob detail => exact fieldValue_blob col detail

/-- A line for each field. -/
def fieldLines (cells : List (ImageColumn × ImageCell)) : CString :=
  cells.flatMap fun entry => fieldXml entry.1 entry.2 ++ ['\n']

theorem fieldLines_bracketed (cells : List (ImageColumn × ImageCell)) {s : CString}
    (bracket : Bracketed s) : Bracketed (fieldLines cells ++ s) := by
  cases cells with
  | nil => exact bracket
  | cons entry cells =>
    have opening : Tag "<field>".toList := by decide
    obtain ⟨rest, starts⟩ := fieldBody_starts entry.1 entry.2
    rw [fieldLines, List.flatMap_cons, fieldXml, starts]
    simp only [List.append_assoc]
    exact opening.bracketed

/-- The first field of that name is taken. -/
theorem findFieldLoop_fieldLines (colName : CString) (cells : List (ImageColumn × ImageCell))
    {p s : CString} {fuel : Nat} (before : Absent "<field>".toList p)
    (behind : Absent "<field>".toList s) (bracket : Bracketed s) (room : cells.length < fuel) :
    findFieldLoop colName fuel (p ++ (fieldLines cells ++ s)) =
      (cells.find? fun entry => strcasecmp entry.1.reported colName).map
        fun entry => shownValue entry.2 := by
  have opening : Tag "<field>".toList := by decide
  induction cells generalizing p fuel with
  | nil =>
    obtain ⟨fuel, rfl⟩ := Nat.exists_eq_add_of_lt room
    have absent : strstr "<field>".toList (p ++ (fieldLines [] ++ s)) = none :=
      before.append opening bracket behind
    rw [findFieldLoop, element, absent]
    rfl
  | cons entry cells ih =>
    obtain ⟨fuel, rfl⟩ : ∃ n, fuel = n + 1 := ⟨fuel - 1, by omega⟩
    have split : p ++ (fieldLines (entry :: cells) ++ s) =
        p ++ (fieldXml entry.1 entry.2 ++ (['\n'] ++ (fieldLines cells ++ s))) := by
      simp only [fieldLines, List.flatMap_cons, List.append_assoc]
    have line : Absent "<field>".toList ['\n'] := opening.absent_plain (by decide)
    have later := ih line (Nat.lt_of_succ_lt_succ room)
    rw [split, findFieldLoop, element_field entry.1 entry.2 before]
    dsimp only
    rw [fieldName_fieldXml, fieldValue_fieldXml, later, List.find?_cons]
    by_cases named : strcasecmp entry.1.reported colName = true
    · rw [if_pos ⟨entry.1.filled, named⟩, named]
      rfl
    · rw [if_neg fun both => named both.2, Bool.eq_false_of_not_eq_true named]

end Fields

end OciWrapper.Audit
