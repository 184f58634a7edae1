import OciWrapper.Audit.BeforeImage
import OciWrapper.Dml.PlacedRows
import OciWrapper.Execute.OracleClobs
import OciWrapper.Text.Tags

namespace OciWrapper.Audit

open OciWrapper.Text OciWrapper.Core OciWrapper.Execute OciWrapper.Dml

/-- `resultset_blob_detail_t`; its MIME type is one of those of `get_mime_type`. -/
structure BlobDetail where
  fileName : CString
  filePath : CString
  fileUrl : CString
  fileSize : Nat
  mimeType : CString
  bare : '<' ∉ mimeType

/-- A field of a row of the result: the text `held` by the database and what is put in the field for
it (the text, or the URL of its file), or a BLOB. -/
inductive ImageCell
  | text (put held : CString)
  | blob (detail : BlobDetail)

def ImageCell.held : ImageCell → Option CString
  | .text _ held => some held
  | .blob _ => none

/-- A column of the SELECT, by the name asked for and the name the result has for it. A name that
stands unquoted in a statement has none of the characters that are escaped. -/
structure ImageColumn where
  name : CString
  reported : CString
  typeName : CString
  matched : strcasecmp reported name = true
  filled : reported ≠ []
  kept : strncpyField 128 reported = reported
  plain : xmlEscape reported = reported

/-- The field of a cell that is no BLOB. -/
def cellField (col : ImageColumn) (put : CString) : ResultField :=
  resultsetSetField col.reported col.typeName put

/-- The tags of a field up to its name, and behind it. -/
def nameUnits (col : ImageColumn) : List (CString × CString) :=
  [("<field>".toList, []), ("<field_name>".toList, xmlEscape (strncpyField 128 col.reported)),
    ("</field_name>".toList, [])]

def endUnits : List (CString × CString) := [("</field>".toList, ['\n'])]

def blobUnits (detail : BlobDetail) : List (CString × CString) :=
  [("<field_type>".toList, "BLOB".toList), ("</field_type>".toList, []),
    ("<field_value/>".toList, []), ("<blob>".toList, []),
    ("<file_name>".toList, xmlEscape detail.fileName), ("</file_name>".toList, []),
    ("<file_path>".toList, xmlEscape detail.filePath), ("</file_path>".toList, [])]

def urlUnits (detail : BlobDetail) : List (CString × CString) :=
  [("<file_url>".toList, xmlEscape detail.fileUrl), ("</file_url>".toList, [])]

def sizeUnits (detail : BlobDetail) : List (CString × CString) :=
  [("<file_size>".toList, Nat.toDigits 10 (ub4 detail.fileSize)), ("</file_size>".toList, []),
    ("<mime_type>".toList, detail.mimeType), ("</mime_type>".toList, []), ("</blob>".toList, [])]

/-- The calls of `xml_append` for a field, in `xml_add_field` and `xml_add_blob_field_1`. -/
def cellAppends (col : ImageColumn) : ImageCell → List CString
  | .text put _ => [xmlAddField (cellField col put)]
  | .blob detail =>
    [unitsText (nameUnits col ++ blobUnits detail)] ++
      (if detail.fileUrl = [] then [] else [unitsText (urlUnits detail)]) ++
      [unitsText (sizeUnits detail ++ endUnits)]

/-- The content of a table: for a row, what each column has, by its name in lower case. -/
abbrev ImageRow := CString → ImageCell

def rowAppends (cols : List ImageColumn) (number : Nat) (row : ImageRow) : List CString :=
  ["<row number=\"".toList ++ Nat.toDigits 10 number ++ "\">\n".toList] ++
    cols.flatMap (fun col => cellAppends col (row (folded col.name))) ++ ["</row>\n".toList]

/-- `sizeof(temp)` in `xml_append`. -/
def xmlTempSize : Nat := 8192

/-- The text left by calls of `xml_append`, and what else is appended then: a call whose text does
not fit `temp` leaves a NUL behind the bytes that do. -/
def xmlAppends : List CString → CString → CString
  | [], tail => tail
  | piece :: pieces, tail =>
    if piece.length < xmlTempSize then piece ++ xmlAppends pieces tail
    else piece.take (xmlTempSize - 1)

/-- The calls of `xml_append` for the rows. -/
def rowsAppends (cols : List ImageColumn) (rows : List (ImageRow × Nat)) : List CString :=
  rows.flatMap fun entry => rowAppends cols entry.2 entry.1

/-- `response_write_xml`. -/
def resultsetXml (cols : List ImageColumn) (rows : List ImageRow) : CString :=
  xmlAppends (["<resultset>\n".toList] ++ (rowsAppends cols (rows.zipIdx 1) ++
    ["</resultset>\n".toList])) []

/-- The numbers in the envelopes; `elapsed` is printed by `%.6f`. -/
structure QueryFigures where
  truncated : Bool
  numRows : Nat
  elapsed : CString
  batchSize : Nat
  blobs : Nat
  clobs : Nat
  bare : '<' ∉ elapsed

def sqlPiece (sql : CString) : CString := "<sql_query>".toList ++ sql ++ "</sql_query>\n".toList

def truncatedText (figures : QueryFigures) : CString :=
  if figures.truncated then "true".toList else "false".toList

/-- The calls of `xml_append` in `execute_query_batch` before the rows. -/
def headAppends (sql : CString) (figures : QueryFigures) : List CString :=
  ["<?xml version=\"1.0\" encoding=\"UTF-8\"?>\n".toList, "<output_xml>\n".toList,
    "<execution_envelope>\n".toList, sqlPiece sql,
    "<truncated>".toList ++ truncatedText figures ++ "</truncated>\n".toList,
    "</execution_envelope>\n".toList]

/-- The calls of `xml_append` behind the rows. -/
def endAppends (figures : QueryFigures) : List CString :=
  ["<execution_envelope>\n".toList,
    "<num_rows>".toList ++ Nat.toDigits 10 figures.numRows ++ "</num_rows>\n".toList,
    "<execution_time_total>".toList ++ figures.elapsed ++ "</execution_time_total>\n".toList,
    "<fetch_batch_size>".toList ++ Nat.toDigits 10 figures.batchSize ++
      "</fetch_batch_size>\n".toList,
    "<blobs_extracted>".toList ++ Nat.toDigits 10 figures.blobs ++ "</blobs_extracted>\n".toList,
    "<clobs_extracted>".toList ++ Nat.toDigits 10 figures.clobs ++ "</clobs_extracted>\n".toList,
    "</execution_envelope>\n".toList, "</output_xml>\n".toList]

/-- `OUTPUT_XML` of `execute_query_batch` for a SELECT that was executed. -/
def queryDocument (sql : CString) (cols : List ImageColumn) (rows : List ImageRow)
    (figures : QueryFigures) : CString :=
  xmlAppends (headAppends sql figures) (resultsetXml cols rows ++ xmlAppends (endAppends figures) [])

section Appends

variable {pieces more : List CString} {tail : CString}

theorem xmlAppends_append (fits : ∀ piece ∈ pieces, piece.length < xmlTempSize) :
    xmlAppends (pieces ++ more) tail = pieces.flatten ++ xmlAppends more tail := by
  induction pieces with
  | nil => rfl
  | cons piece pieces ih =>
    rw [List.forall_mem_cons] at fits
    rw [List.cons_append, xmlAppends, if_pos fits.1, ih fits.2, List.flatten_cons,
      List.append_assoc]

theorem xmlAppends_whole (fits : ∀ piece ∈ pieces, piece.length < xmlTempSize) :
    xmlAppends pieces tail = pieces.flatten ++ tail := by
  have whole : xmlAppends (pieces ++ []) tail = pieces.flatten ++ xmlAppends [] tail :=
    xmlAppends_append fits
  rwa [List.append_nil] at whole

/-- Nothing is appended behind a text that does not fit. -/
theorem xmlAppends_cut (cut : ∃ piece ∈ pieces, xmlTempSize ≤ piece.length) :
    xmlAppends (pieces ++ more) tail = xmlAppends pieces [] := by
  induction pieces with
  | nil =>
    obtain ⟨piece, member, -⟩ := cut
    cases member
  | cons piece pieces ih =>
    rw [List.cons_append, xmlAppends, xmlAppends]
    split
    next fits =>
      obtain ⟨other, member, long⟩ := cut
      rcases List.mem_cons.mp member with rfl | member
      · exact absurd fits (Nat.not_lt.mpr long)
      · rw [ih ⟨other, member, long⟩]
    next => rfl

theorem xmlAppends_prefix (pieces : List CString) : xmlAppends pieces [] <+: pieces.flatten := by
  induction pieces with
  | nil => exact List.nil_prefix
  | cons piece pieces ih =>
    rw [xmlAppends, List.flatten_cons]
    split
    · exact (List.prefix_append_right_inj piece).mpr ih
    · exact (List.take_prefix _ piece).trans (List.prefix_append piece pieces.flatten)

end Appends

section Escaping

theorem xmlEscapeChar_bare (c : Char) : '<' ∉ xmlEscapeChar c := by
  rw [xmlEscapeChar]
  split_ifs with amp lt gt quot apos
  · decide
  · decide
  · decide
  · decide
  · decide
  · rw [List.mem_singleton]
    exact fun same => lt same.symm

theorem xmlEscape_bare (s : CString) : '<' ∉ xmlEscape s := by
  rw [xmlEscape, List.mem_flatMap]
  rintro ⟨c, -, inside⟩
  exact xmlEscapeChar_bare c inside

theorem xmlEscapeChar_length (c : Char) :
    0 < (xmlEscapeChar c).length ∧ (xmlEscapeChar c).length ≤ 6 := by
  rw [xmlEscapeChar]
  split_ifs <;> simp

theorem xmlEscape_length (s : CString) : (xmlEscape s).length ≤ 6 * s.length := by
  induction s with
  | nil => exact Nat.le_refl 0
  | cons c s ih =>
    have most := (xmlEscapeChar_length c).2
    rw [xmlEscape, List.flatMap_cons, List.length_append, ← xmlEscape, List.length_cons]
    omega

theorem digits_bare (n : Nat) : '<' ∉ Nat.toDigits 10 n := by
  intro inside
  exact absurd (digit_range inside) (by decide)

end Escaping

section Fields

def textUnits (col : ImageColumn) (put : CString) : List (CString × CString) :=
  [("<field_type>".toList, xmlEscape (cellField col put).fieldType), ("</field_type>".toList, []),
    ("<field_value>".toList, xmlEscape (cellField col put).value), ("</field_value>".toList, [])]

/-- What stands between the name and the end of a field. -/
def bodyUnits (col : ImageColumn) : ImageCell → List (CString × CString)
  | .text put _ => textUnits col put
  | .blob detail =>
    blobUnits detail ++ (if detail.fileUrl = [] then [] else urlUnits detail) ++ sizeUnits detail

theorem xmlAddField_units (col : ImageColumn) (put : CString) :
    xmlAddField (cellField col put) = unitsText (nameUnits col ++ textUnits col put ++ endUnits) := by
  have joins : ∀ t₁ t₂ t₃ t₄ t₅ t₆ t₇ t₈ : CString, ∀ {s₁ s₂ s₃ s₄ line name type value : CString},
      s₁ = t₁ ++ t₂ → s₂ = t₃ ++ t₄ → s₃ = t₅ ++ t₆ → s₄ = t₇ ++ (t₈ ++ line) →
      s₁ ++ name ++ s₂ ++ type ++ s₃ ++ value ++ s₄ =
        unitsText ([(t₁, []), (t₂, name), (t₃, [])] ++ [(t₄, type), (t₅, []), (t₆, value), (t₇, [])] ++
          [(t₈, line)]) := by
    rintro t₁ t₂ t₃ t₄ t₅ t₆ t₇ t₈ _ _ _ _ line name type value rfl rfl rfl rfl
    simp [unitsText]
  exact joins "<field>".toList "<field_name>".toList "</field_name>".toList "<field_type>".toList
    "</field_type>".toList "<field_value>".toList "</field_value>".toList "</field>".toList
    rfl rfl rfl rfl

theorem cellAppends_flatten (col : ImageColumn) (cell : ImageCell) :
    (cellAppends col cell).flatten = unitsText (nameUnits col ++ bodyUnits col cell ++ endUnits) := by
  cases cell with
  | text put held =>
    rw [cellAppends, List.flatten_singleton]
    exact xmlAddField_units col put
  | blob detail =>
    rw [cellAppends, bodyUnits]
    split
    · simp only [List.append_nil, List.flatten_append, List.flatten_singleton, unitsText_append,
        List.append_assoc]
    · simp only [List.flatten_append, List.flatten_singleton, unitsText_append, List.append_assoc]

def nameTags : List CString := ["<field>".toList, "<field_name>".toList, "</field_name>".toList]

def bodyTags : List CString :=
  ["<field_type>".toList, "</field_type>".toList, "<field_value>".toList, "</field_value>".toList,
    "<field_value/>".toList, "<blob>".toList, "<file_name>".toList, "</file_name>".toList,
    "<file_path>".toList, "</file_path>".toList, "<file_url>".toList, "</file_url>".toList,
    "<file_size>".toList, "</file_size>".toList, "<mime_type>".toList, "</mime_type>".toList,
    "</blob>".toList]

/-- Units of these tags. -/
def Made (tags : List CString) (units : List (CString × CString)) : Prop :=
  ∀ u ∈ units, u.1 ∈ tags ∧ '<' ∉ u.2

theorem Made.units {tags : List CString} {units : List (CString × CString)} (made : Made tags units)
    (table : tags.all (fun t => decide (Tag t)) = true) : TagUnits units := fun u member =>
  ⟨of_decide_eq_true (List.all_eq_true.mp table u.1 (made u member).1), (made u member).2⟩

/-- No tag of the list is taken for the one searched for. -/
def Unlike (needle : CString) (tags : List CString) : Bool :=
  tags.all fun t => decide (needle.take t.length ≠ t.take needle.length)

theorem Made.differ {tags : List CString} {units : List (CString × CString)} {needle : CString}
    (made : Made tags units) (table : Unlike needle tags = true) : Differ needle units :=
  fun u member => of_decide_eq_true (List.all_eq_true.mp table u.1 (made u member).1)

theorem Made.append {tags : List CString} {a b : List (CString × CString)} (first : Made tags a)
    (second : Made tags b) : Made tags (a ++ b) := by
  intro u member
  rcases List.mem_append.mp member with here | there
  · exact first u here
  · exact second u there

theorem made_nameUnits (col : ImageColumn) : Made nameTags (nameUnits col) := by
  have bare := xmlEscape_bare (strncpyField 128 col.reported)
  simp [Made, nameUnits, nameTags, bare]

theorem made_blobUnits (detail : BlobDetail) : Made bodyTags (blobUnits detail) := by
  have name := xmlEscape_bare detail.fileName
  have path := xmlEscape_bare detail.filePath
  simp [Made, blobUnits, bodyTags, name, path]

theorem made_bodyUnits (col : ImageColumn) (cell : ImageCell) :
    Made bodyTags (bodyUnits col cell) := by
  cases cell with
  | text put held =>
    have type := xmlEscape_bare (cellField col put).fieldType
    have value := xmlEscape_bare (cellField col put).value
    simp [Made, bodyUnits, textUnits, bodyTags, type, value]
  | blob detail =>
    have url := xmlEscape_bare detail.fileUrl
    have digits := digits_bare (ub4 detail.fileSize)
    have sizes : Made bodyTags (sizeUnits detail) := by
      simp [Made, sizeUnits, bodyTags, digits, detail.bare]
    have urls : Made bodyTags (urlUnits detail) := by
      simp [Made, urlUnits, bodyTags, url]
    rw [bodyUnits]
    refine ((made_blobUnits detail).append ?_).append sizes
    split
    · intro u none
      cases none
    · exact urls

end Fields

end OciWrapper.Audit
