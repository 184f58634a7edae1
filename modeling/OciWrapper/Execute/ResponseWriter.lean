import OciWrapper.Audit.ImageDocument
import OciWrapper.Execute.CountedSelect
import OciWrapper.Markup.XmlUnits

namespace OciWrapper.Execute

open OciWrapper.Text OciWrapper.Core OciWrapper.Markup
open OciWrapper.Dml (digit_range)
open OciWrapper.Audit (xmlAppends xmlTempSize)

/-- `get_mime_type`. -/
def getMimeType (fileName : CString) : CString :=
  if '.' ∈ fileName then
    let ext := (fileName.reverse.takeWhile (· ≠ '.')).reverse
    if strcasecmp ext "jpg".toList || strcasecmp ext "jpeg".toList then "image/jpeg".toList
    else if strcasecmp ext "png".toList then "image/png".toList
    else if strcasecmp ext "gif".toList then "image/gif".toList
    else if strcasecmp ext "bmp".toList then "image/bmp".toList
    else if strcasecmp ext "pdf".toList then "application/pdf".toList
    else "application/octet-stream".toList
  else "application/octet-stream".toList

/-- The calls of `xml_append` in `xml_add_blob_field_1`. -/
def blobHead (name fileName filePath : CString) : CString :=
  "<field><field_name>".toList ++ xmlEscape name ++
    "</field_name><field_type>BLOB</field_type><field_value/><blob><file_name>".toList ++
    xmlEscape fileName ++ "</file_name><file_path>".toList ++ xmlEscape filePath ++
    "</file_path>".toList

def blobUrl (fileUrl : CString) : CString :=
  "<file_url>".toList ++ xmlEscape fileUrl ++ "</file_url>".toList

def blobTail (fileSize : Nat) (mimeType : CString) : CString :=
  "<file_size>".toList ++ Nat.toDigits 10 (ub4 fileSize) ++ "</file_size><mime_type>".toList ++
    mimeType ++ "</mime_type></blob></field>\n".toList

/-- The calls of `xml_append` for a field. -/
def fieldPieces : ResultsetField → List CString
  | .text fieldName fieldType value => [xmlAddField ⟨fieldName, fieldType, value⟩]
  | .blob fieldName fileName filePath fileUrl fileSize mimeType =>
    [blobHead fieldName fileName filePath] ++ (if fileUrl = [] then [] else [blobUrl fileUrl]) ++
      [blobTail fileSize mimeType]

def rowStartPiece (number : Nat) : CString :=
  "<row number=\"".toList ++ Nat.toDigits 10 number ++ "\">\n".toList

def rowPieces (row : ResultsetRow) : List CString :=
  [rowStartPiece row.recordNumber] ++ row.fields.flatMap fieldPieces ++ ["</row>\n".toList]

/-- `response_write_xml`. -/
def Resultset.responseWriteXml (rs : Resultset) : CString :=
  xmlAppends (["<resultset>\n".toList] ++ rs.records.flatMap rowPieces ++
    ["</resultset>\n".toList]) []

/-- A field as the drivers fill it. -/
def ResultsetField.Delivered : ResultsetField → Prop
  | .text .. => True
  | .blob _ fileName _ _ fileSize mimeType => mimeType = getMimeType fileName ∧ fileSize < 2 ^ 32

/-- A result set as the drivers fill it. -/
structure DeliveredResultset extends Resultset where
  numbers : ∀ row ∈ records, row.recordNumber < 2 ^ 31
  delivered : ∀ row ∈ records, ∀ field ∈ row.fields, field.Delivered

section Nodes

def charNodes (s : CString) : List Node := s.map .char

def leafNode (name value : CString) : Node := .element name [] (charNodes value)

def fieldChildren : ResultsetField → List Node
  | .text fieldName fieldType value =>
    [leafNode "field_name".toList fieldName, leafNode "field_type".toList fieldType,
      leafNode "field_value".toList value]
  | .blob fieldName fileName filePath fileUrl fileSize mimeType =>
    [leafNode "field_name".toList fieldName, leafNode "field_type".toList "BLOB".toList,
      leafNode "field_value".toList [],
      .element "blob".toList [] ([leafNode "file_name".toList fileName,
          leafNode "file_path".toList filePath] ++
        (if fileUrl = [] then [] else [leafNode "file_url".toList fileUrl]) ++
        [leafNode "file_size".toList (Nat.toDigits 10 fileSize),
          leafNode "mime_type".toList mimeType])]

def fieldNodes (field : ResultsetField) : List Node :=
  [.element "field".toList [] (fieldChildren field), .char '\n']

def rowNodes (row : ResultsetRow) : List Node :=
  [.element "row".toList [("number".toList, Nat.toDigits 10 row.recordNumber)]
    (.char '\n' :: row.fields.flatMap fieldNodes), .char '\n']

/-- What is inside of the element of a result set. -/
def resultsetChildren (rs : Resultset) : List Node := .char '\n' :: rs.records.flatMap rowNodes

def resultsetNode (rs : Resultset) : Node := .element "resultset".toList [] (resultsetChildren rs)

end Nodes

def ResultsetField.texts : ResultsetField → List CString
  | .text fieldName fieldType value => [fieldName, fieldType, value]
  | .blob fieldName fileName filePath fileUrl _ _ => [fieldName, fileName, filePath, fileUrl]

/-- Text that XML can hold: its characters in UTF-8, and lines that end in newlines. -/
def XmlText (s : CString) : Prop := Encoded xmlChar s ∧ '\r' ∉ s

instance (s : CString) : Decidable (XmlText s) := inferInstanceAs (Decidable (_ ∧ _))

/-- The field fits the buffer of `xml_append`, piece by piece, and holds text for XML. -/
def ResultsetField.Renders (field : ResultsetField) : Prop :=
  (∀ piece ∈ fieldPieces field, piece.length < xmlTempSize) ∧ ∀ text ∈ field.texts, XmlText text

instance (field : ResultsetField) : Decidable field.Renders := inferInstanceAs (Decidable (_ ∧ _))

section Units

def fieldBody : ResultsetField → List (CString × CString)
  | .text fieldName fieldType value =>
    leafUnits "field_name".toList (xmlEscape fieldName) ++
      leafUnits "field_type".toList (xmlEscape fieldType) ++
      leafUnits "field_value".toList (xmlEscape value)
  | .blob fieldName fileName filePath fileUrl fileSize mimeType =>
    leafUnits "field_name".toList (xmlEscape fieldName) ++
      leafUnits "field_type".toList "BLOB".toList ++ [(emptyTag "field_value".toList, [])] ++
      elementUnits (startTag "blob".toList) "blob".toList [] []
        (leafUnits "file_name".toList (xmlEscape fileName) ++
          leafUnits "file_path".toList (xmlEscape filePath) ++
          (if fileUrl = [] then [] else leafUnits "file_url".toList (xmlEscape fileUrl)) ++
          leafUnits "file_size".toList (Nat.toDigits 10 (ub4 fileSize)) ++
          leafUnits "mime_type".toList mimeType)

def fieldUnits (field : ResultsetField) : List (CString × CString) :=
  elementUnits (startTag "field".toList) "field".toList [] ['\n'] (fieldBody field)

def rowTag (number : Nat) : CString :=
  attributeTag "row".toList "number".toList (Nat.toDigits 10 number)

def rowUnits (row : ResultsetRow) : List (CString × CString) :=
  elementUnits (rowTag row.recordNumber) "row".toList ['\n'] ['\n'] (row.fields.flatMap fieldUnits)

def rowsUnits (rs : Resultset) : List (CString × CString) := rs.records.flatMap rowUnits

def resultsetUnits (rs : Resultset) : List (CString × CString) :=
  elementUnits (startTag "resultset".toList) "resultset".toList ['\n'] ['\n'] (rowsUnits rs)

theorem unitsText_leaf (name value : CString) :
    unitsText (leafUnits name value) = startTag name ++ value ++ endTag name := by
  simp [unitsText, leafUnits]

theorem unitsText_element (start name inside behind : CString) (units : List (CString × CString)) :
    unitsText (elementUnits start name inside behind units) =
      start ++ inside ++ unitsText units ++ endTag name ++ behind := by
  simp [unitsText, elementUnits]

theorem xmlAddField_text (fieldName fieldType value : CString) :
    xmlAddField ⟨fieldName, fieldType, value⟩ = unitsText (fieldUnits (.text fieldName fieldType value)) := by
  have joins : ∀ {s₁ s₂ s₃ s₄ f n n' t t' v v' f' name type value : CString},
      s₁ = f ++ n → s₂ = n' ++ t → s₃ = t' ++ v → s₄ = v' ++ (f' ++ ['\n']) →
      s₁ ++ name ++ s₂ ++ type ++ s₃ ++ value ++ s₄ =
        f ++ [] ++ (n ++ name ++ n' ++ (t ++ type ++ t') ++ (v ++ value ++ v')) ++ f' ++ ['\n'] := by
    rintro s₁ s₂ s₃ s₄ f n n' t t' v v' f' name type value rfl rfl rfl rfl
    simp only [List.append_assoc, List.nil_append]
  rw [fieldUnits, unitsText_element, fieldBody, unitsText_append, unitsText_append, unitsText_leaf,
    unitsText_leaf, unitsText_leaf]
  exact joins rfl rfl rfl rfl

theorem unitsText_single (start inside : CString) : unitsText [(start, inside)] = start ++ inside := by
  simp [unitsText]

theorem leaf_literal {s₁ s₂ name value : CString} (first : s₁ = startTag name)
    (last : s₂ = endTag name) : s₁ ++ value ++ s₂ = unitsText (leafUnits name value) := by
  rw [first, last, unitsText_leaf]

theorem url_text (fileUrl : CString) :
    unitsText (if fileUrl = [] then [] else leafUnits "file_url".toList (xmlEscape fileUrl)) =
      if fileUrl = [] then [] else blobUrl fileUrl := by
  have first : "<file_url>".toList = startTag "file_url".toList := rfl
  have last : "</file_url>".toList = endTag "file_url".toList := rfl
  by_cases none : fileUrl = []
  · rw [if_pos none, if_pos none]
    exact List.flatMap_nil
  · rw [if_neg none, if_neg none]
    exact (leaf_literal first last).symm

theorem blob_joins {s₁ s₂ s₃ s₄ s₅ s₆ s₇ f n n' t b t' v o d d' p p' z z' m m' o' f' url
    name file path size mime : CString} (e₁ : s₁ = f ++ n)
    (e₂ : s₂ = n' ++ (t ++ (b ++ (t' ++ (v ++ (o ++ d)))))) (e₃ : s₃ = d' ++ p) (e₄ : s₄ = p')
    (e₅ : s₅ = z) (e₆ : s₆ = z' ++ m) (e₇ : s₇ = m' ++ (o' ++ (f' ++ ['\n']))) :
    s₁ ++ name ++ s₂ ++ file ++ s₃ ++ path ++ s₄ ++ url ++ (s₅ ++ size ++ s₆ ++ mime ++ s₇) =
      f ++ [] ++ (n ++ name ++ n' ++ (t ++ b ++ t') ++ (v ++ []) ++
        (o ++ [] ++ (d ++ file ++ d' ++ (p ++ path ++ p') ++ url ++ (z ++ size ++ z') ++
          (m ++ mime ++ m')) ++ o' ++ [])) ++ f' ++ ['\n'] := by
  rw [e₁, e₂, e₃, e₄, e₅, e₆, e₇]
  simp only [List.append_assoc, List.nil_append]

theorem blob_text (fieldName fileName filePath fileUrl mimeType : CString) (fileSize : Nat) :
    blobHead fieldName fileName filePath ++ (if fileUrl = [] then [] else blobUrl fileUrl) ++
        blobTail fileSize mimeType =
      unitsText (fieldUnits (.blob fieldName fileName filePath fileUrl fileSize mimeType)) := by
  simp only [fieldUnits, fieldBody, unitsText_append, unitsText_leaf, unitsText_element,
    unitsText_single, url_text]
  unfold blobHead blobTail
  exact blob_joins rfl rfl rfl rfl rfl rfl rfl

theorem flatten_pieces (head url tail : CString) {p : Prop} [Decidable p] :
    ([head] ++ (if p then [] else [url]) ++ [tail]).flatten =
      head ++ (if p then [] else url) ++ tail := by
  split <;> simp only [List.flatten_append, List.flatten_singleton, List.append_nil]

theorem fieldPieces_text (field : ResultsetField) :
    (fieldPieces field).flatten = unitsText (fieldUnits field) := by
  cases field with
  | text fieldName fieldType value =>
    rw [fieldPieces, List.flatten_singleton]
    exact xmlAddField_text fieldName fieldType value
  | blob fieldName fileName filePath fileUrl fileSize mimeType =>
    exact (flatten_pieces _ _ _).trans (blob_text fieldName fileName filePath fileUrl mimeType fileSize)

theorem unitsText_flatMap {α : Type} (items : List α) (units : α → List (CString × CString)) :
    unitsText (items.flatMap units) = items.flatMap fun item => unitsText (units item) := by
  rw [unitsText, List.flatMap_assoc]
  rfl

theorem rowStart_text (number : Nat) : rowStartPiece number = rowTag number ++ ['\n'] := by
  have joins : ∀ {s₁ s₂ row key digits : CString},
      s₁ = '<' :: (row ++ ' ' :: (key ++ ['=', '"'])) → s₂ = ['"', '>'] ++ ['\n'] →
      s₁ ++ digits ++ s₂ =
        '<' :: (row ++ ' ' :: (key ++ '=' :: '"' :: (digits ++ ['"', '>']))) ++ ['\n'] := by
    rintro s₁ s₂ row key digits rfl rfl
    simp only [List.append_assoc, List.cons_append, List.nil_append]
  exact joins rfl rfl

theorem rowPieces_text (row : ResultsetRow) :
    (rowPieces row).flatten = unitsText (rowUnits row) := by
  have last : "</row>\n".toList = endTag "row".toList ++ ['\n'] := rfl
  have fields : (row.fields.flatMap fieldPieces).flatten =
      unitsText (row.fields.flatMap fieldUnits) := by
    rw [unitsText_flatMap, ← funext fieldPieces_text, List.flatMap, List.flatMap, List.flatten_flatten,
      List.map_map]
    rfl
  rw [rowPieces, List.flatten_append, List.flatten_append, List.flatten_singleton,
    List.flatten_singleton, rowStart_text, fields, last, rowUnits, unitsText_element]
  simp only [List.append_assoc]

theorem rowsPieces_text (rs : Resultset) :
    (rs.records.flatMap rowPieces).flatten = unitsText (rowsUnits rs) := by
  rw [rowsUnits, unitsText_flatMap, ← funext rowPieces_text, List.flatMap, List.flatMap,
    List.flatten_flatten, List.map_map]
  rfl

/-- The elements of a result set. -/
def elementNames : List CString :=
  ["resultset".toList, "row".toList, "field".toList, "field_name".toList, "field_type".toList,
    "field_value".toList, "blob".toList, "file_name".toList, "file_path".toList,
    "file_url".toList, "file_size".toList, "mime_type".toList]

theorem element_tag {name : CString} (known : name ∈ elementNames) : TagName name := by
  have all : elementNames.all (fun name => decide (TagName name)) = true := by decide +kernel
  exact of_decide_eq_true (List.all_eq_true.mp all name known)

section Marks

theorem xmlEscape_noClose (s : CString) : '>' ∉ xmlEscape s := by
  rw [xmlEscape, List.mem_flatMap]
  rintro ⟨c, -, inside⟩
  rw [xmlEscapeChar] at inside
  split_ifs at inside with amp lt gt quot apos
  · exact absurd inside (by decide)
  · exact absurd inside (by decide)
  · exact absurd inside (by decide)
  · exact absurd inside (by decide)
  · exact absurd inside (by decide)
  · exact gt (List.mem_singleton.mp inside).symm

theorem digits_range {c : Char} {n : Nat} (low : ¬(48 ≤ c.toNat ∧ c.toNat ≤ 57)) :
    c ∉ Nat.toDigits 10 n := fun inside => low (digit_range inside)

def mimeTypes : List CString :=
  ["image/jpeg".toList, "image/png".toList, "image/gif".toList, "image/bmp".toList,
    "application/pdf".toList, "application/octet-stream".toList]

theorem getMimeType_mem (fileName : CString) : getMimeType fileName ∈ mimeTypes := by
  unfold getMimeType mimeTypes
  generalize "image/jpeg".toList = jpeg
  generalize "image/png".toList = png
  generalize "image/gif".toList = gif
  generalize "image/bmp".toList = bmp
  generalize "application/pdf".toList = pdf
  generalize "application/octet-stream".toList = other
  dsimp only
  split_ifs <;> simp

example : getMimeType "scan.PDF".toList = "application/pdf".toList := by decide +kernel

/-- What the other texts of a BLOB may be. -/
def ResultsetField.Known : ResultsetField → Prop
  | .text .. => True
  | .blob _ _ _ _ fileSize mimeType => mimeType ∈ mimeTypes ∧ fileSize < 2 ^ 32

theorem ResultsetField.Delivered.known {field : ResultsetField} (delivered : field.Delivered) :
    field.Known := by
  cases field with
  | text => exact trivial
  | blob fieldName fileName filePath fileUrl fileSize mimeType =>
    exact ⟨delivered.1 ▸ getMimeType_mem fileName, delivered.2⟩

def Resultset.Known (rs : Resultset) : Prop := ∀ row ∈ rs.records, ∀ field ∈ row.fields, field.Known

/-- None of the marks of markup. -/
def markFree (c : Char) : Bool := c != '<' && c != '&' && c != '\r' && c != '>'

theorem mime_plain {mimeType : CString} (known : mimeType ∈ mimeTypes) :
    Encoded xmlChar mimeType ∧ mimeType.all markFree = true := by
  have all : mimeTypes.all (fun m => decide (Encoded xmlChar m ∧ m.all markFree = true)) = true := by
    decide +kernel
  exact of_decide_eq_true (List.all_eq_true.mp all mimeType known)

theorem free_bare {s : CString} {c : Char} (free : s.all markFree = true)
    (mark : markFree c = false) : c ∉ s := by
  intro member
  rw [List.all_eq_true.mp free c member] at mark
  cases mark

theorem mime_bare {mimeType : CString} (known : mimeType ∈ mimeTypes) : '>' ∉ mimeType :=
  free_bare (mime_plain known).2 rfl

theorem marks_fieldBody {field : ResultsetField} (known : field.Known) :
    MarkUnits (fieldBody field) := by
  cases field with
  | text fieldName fieldType value =>
    exact ((markUnits_leaf (element_tag (by simp [elementNames])) (xmlEscape_noClose fieldName)).append
      (markUnits_leaf (element_tag (by simp [elementNames])) (xmlEscape_noClose fieldType))).append
      (markUnits_leaf (element_tag (by simp [elementNames])) (xmlEscape_noClose value))
  | blob fieldName fileName filePath fileUrl fileSize mimeType =>
    have url : MarkUnits (if fileUrl = [] then [] else
        leafUnits "file_url".toList (xmlEscape fileUrl)) := by
      split
      · exact fun u member => nomatch member
      · exact markUnits_leaf (element_tag (by simp [elementNames])) (xmlEscape_noClose fileUrl)
    have size : MarkUnits (leafUnits "file_size".toList (Nat.toDigits 10 (ub4 fileSize))) :=
      markUnits_leaf (element_tag (by simp [elementNames])) (digits_range (by decide))
    have empty : MarkUnits [(emptyTag "field_value".toList, [])] := by
      have tag := (@element_tag "field_value".toList (by simp [elementNames])).empty
      intro u member
      rw [List.mem_singleton.mp member]
      exact ⟨tag, List.not_mem_nil⟩
    have name : MarkUnits (leafUnits "file_name".toList (xmlEscape fileName)) :=
      markUnits_leaf (element_tag (by simp [elementNames])) (xmlEscape_noClose fileName)
    have path : MarkUnits (leafUnits "file_path".toList (xmlEscape filePath)) :=
      markUnits_leaf (element_tag (by simp [elementNames])) (xmlEscape_noClose filePath)
    have mime : MarkUnits (leafUnits "mime_type".toList mimeType) :=
      markUnits_leaf (element_tag (by simp [elementNames])) (mime_bare known.1)
    have details := (((name.append path).append url).append size).append mime
    have blob : MarkUnits (elementUnits (startTag "blob".toList) "blob".toList [] [] _) :=
      have tag := @element_tag "blob".toList (by simp [elementNames])
      markUnits_element tag tag.opening List.not_mem_nil List.not_mem_nil details
    exact (((markUnits_leaf (element_tag (by simp [elementNames])) (xmlEscape_noClose fieldName)).append
      (markUnits_leaf (element_tag (by simp [elementNames])) (by decide +kernel))).append empty).append blob

theorem newline_bare : '>' ∉ ['\n'] := by decide

theorem marks_fieldUnits {field : ResultsetField} (known : field.Known) :
    MarkUnits (fieldUnits field) :=
  have tag := @element_tag "field".toList (by simp [elementNames])
  markUnits_element tag tag.opening List.not_mem_nil newline_bare (marks_fieldBody known)

theorem marks_rowTag (number : Nat) : MarkTag (rowTag number) := by
  have digits : ∀ c ∈ Nat.toDigits 10 number, 48 ≤ c.toNat ∧ c.toNat ≤ 57 := fun c => digit_range
  have front : rowTag number = "<row number=\"".toList ++ (Nat.toDigits 10 number ++ ['"', '>']) := by
    have joins : ∀ {s₁ row key digits : CString},
        s₁ = '<' :: (row ++ ' ' :: (key ++ ['=', '"'])) →
        '<' :: (row ++ ' ' :: (key ++ '=' :: '"' :: (digits ++ ['"', '>']))) =
          s₁ ++ (digits ++ ['"', '>']) := by
      rintro s₁ row key digits rfl
      simp only [List.append_assoc, List.cons_append, List.nil_append]
    exact joins rfl
  have opening : ∀ {s : CString}, s.head? = some '<' ∧ '\r' ∉ s ∧ '>' ∉ s ∧ PlainBytes xmlChar s →
      MarkTag (s ++ (Nat.toDigits 10 number ++ ['"', '>'])) := by
    rintro s ⟨opens, line, close, plain⟩
    refine ⟨?_, ?_, ?_, ?_⟩
    · rw [List.head?_append, opens]
      rfl
    · rw [List.mem_append, List.mem_append, not_or, not_or]
      exact ⟨line, digits_range (by decide), by decide⟩
    · have quote : guarded '-' ['"', '>'] = true := by decide
      exact guarded_append (guarded_bare close)
        (guarded_append (guarded_bare (digits_range (by decide))) quote)
    · rw [PlainBytes, List.forall_mem_append, List.forall_mem_append]
      have quote : PlainBytes xmlChar ['"', '>'] := by decide +kernel
      refine ⟨plain, fun c member => ?_, quote⟩
      obtain ⟨low, high⟩ := digits c member
      refine ⟨by omega, ?_⟩
      simp only [xmlChar, Bool.or_eq_true, Bool.and_eq_true, decide_eq_true_eq]
      omega
  rw [front]
  exact opening (by decide +kernel)

theorem marks_rowUnits {row : ResultsetRow} (known : ∀ field ∈ row.fields, field.Known) :
    MarkUnits (rowUnits row) :=
  markUnits_element (element_tag (by simp [elementNames])) (marks_rowTag row.recordNumber)
    newline_bare newline_bare
    (MarkUnits.flatMap fun field member => marks_fieldUnits (known field member))

theorem marks_rowsUnits {rs : Resultset} (known : rs.Known) :
    MarkUnits (rowsUnits rs) :=
  MarkUnits.flatMap fun row member => marks_rowUnits (known row member)

theorem marks_resultsetUnits {rs : Resultset} (known : rs.Known) :
    MarkUnits (resultsetUnits rs) :=
  have tag := @element_tag "resultset".toList (by simp [elementNames])
  markUnits_element tag tag.opening newline_bare newline_bare (marks_rowsUnits known)

end Marks

section Lines

def ResultsetField.normalized : ResultsetField → ResultsetField
  | .text fieldName fieldType value =>
    .text (normalizeLines fieldName) (normalizeLines fieldType) (normalizeLines value)
  | .blob fieldName fileName filePath fileUrl fileSize mimeType =>
    .blob (normalizeLines fieldName) (normalizeLines fileName) (normalizeLines filePath)
      (normalizeLines fileUrl) fileSize mimeType

/-- The result set with the line ends of its texts normalised. -/
def Resultset.normalized (rs : Resultset) : Resultset :=
  ⟨rs.records.map fun row => ⟨row.recordNumber, row.fields.map ResultsetField.normalized⟩⟩

theorem ResultsetField.Known.normalized {field : ResultsetField} (known : field.Known) :
    field.normalized.Known := by
  cases field with
  | text => exact trivial
  | blob => exact known

theorem Resultset.Known.normalized {rs : Resultset} (known : rs.Known) : rs.normalized.Known := by
  intro row there field inside
  obtain ⟨source, member, rfl⟩ := List.mem_map.mp there
  obtain ⟨old, place, rfl⟩ := List.mem_map.mp inside
  exact (known source member old place).normalized

theorem normalizeLines_xmlEscape (s : CString) :
    normalizeLines (xmlEscape s) = xmlEscape (normalizeLines s) := by
  refine normalizeLines_flatMap (by decide) (by decide) ?_ s
  intro c back line
  rw [xmlEscapeChar]
  split_ifs
  · decide
  · decide
  · decide
  · decide
  · decide
  · exact ⟨fun member => back (List.mem_singleton.mp member).symm, List.cons_ne_nil c [],
      fun same => line (Option.some.inj same)⟩

theorem normalizedUnits_append (a b : List (CString × CString)) :
    normalizedUnits (a ++ b) = normalizedUnits a ++ normalizedUnits b := List.map_append

theorem normalizedUnits_leaf (name value : CString) :
    normalizedUnits (leafUnits name value) = leafUnits name (normalizeLines value) := rfl

theorem normalizedUnits_element (start name inside behind : CString)
    (units : List (CString × CString)) :
    normalizedUnits (elementUnits start name inside behind units) =
      elementUnits start name (normalizeLines inside) (normalizeLines behind)
        (normalizedUnits units) := by
  rw [elementUnits, normalizedUnits_append, normalizedUnits_append]
  rfl

theorem normalizedUnits_flatMap {α β : Type} {items : List α} {units : α → List (CString × CString)}
    {other : β → List (CString × CString)} {f : α → β}
    (each : ∀ item ∈ items, normalizedUnits (units item) = other (f item)) :
    normalizedUnits (items.flatMap units) = (items.map f).flatMap other := by
  induction items with
  | nil => rfl
  | cons item items ih =>
    rw [List.forall_mem_cons] at each
    rw [List.flatMap_cons, normalizedUnits_append, each.1, ih each.2, List.map_cons,
      List.flatMap_cons]

theorem normalizeLines_eq_nil_iff {s : CString} : normalizeLines s = [] ↔ s = [] := by
  fun_cases normalizeLines s <;> simp

theorem mime_lines {mimeType : CString} (known : mimeType ∈ mimeTypes) : '\r' ∉ mimeType :=
  free_bare (mime_plain known).2 rfl

theorem normalizedUnits_fieldBody {field : ResultsetField} (known : field.Known) :
    normalizedUnits (fieldBody field) = fieldBody field.normalized := by
  cases field with
  | text fieldName fieldType value =>
    unfold ResultsetField.normalized fieldBody
    simp only [normalizedUnits_append, normalizedUnits_leaf, normalizeLines_xmlEscape]
  | blob fieldName fileName filePath fileUrl fileSize mimeType =>
    have type : normalizeLines "BLOB".toList = "BLOB".toList :=
      normalizeLines_same (by decide)
    have empty : normalizedUnits [(emptyTag "field_value".toList, [])] =
        [(emptyTag "field_value".toList, [])] := rfl
    have url : normalizedUnits (if fileUrl = [] then [] else
          leafUnits "file_url".toList (xmlEscape fileUrl)) =
        if normalizeLines fileUrl = [] then [] else
          leafUnits "file_url".toList (xmlEscape (normalizeLines fileUrl)) := by
      by_cases none : fileUrl = []
      · rw [if_pos none, if_pos (normalizeLines_eq_nil_iff.mpr none)]
        rfl
      · rw [if_neg none, if_neg (mt normalizeLines_eq_nil_iff.mp none), normalizedUnits_leaf,
          normalizeLines_xmlEscape]
    have size : normalizeLines (Nat.toDigits 10 (ub4 fileSize)) = Nat.toDigits 10 (ub4 fileSize) :=
      normalizeLines_same (digits_range (by decide))
    have nothing : normalizeLines [] = [] := rfl
    have mime : normalizeLines mimeType = mimeType := normalizeLines_same (mime_lines known.1)
    unfold ResultsetField.normalized fieldBody
    simp only [normalizedUnits_append, normalizedUnits_leaf, normalizedUnits_element,
      normalizeLines_xmlEscape, type, empty, url, size, mime, nothing]

theorem normalizedUnits_rows {rs : Resultset} (known : rs.Known) :
    normalizedUnits (rowsUnits rs) = rowsUnits rs.normalized := by
  refine normalizedUnits_flatMap fun row member => ?_
  rw [rowUnits, normalizedUnits_element, rowUnits]
  have fields : normalizedUnits (row.fields.flatMap fieldUnits) =
      (row.fields.map ResultsetField.normalized).flatMap fieldUnits := by
    refine normalizedUnits_flatMap fun field inside => ?_
    rw [fieldUnits, normalizedUnits_element, normalizedUnits_fieldBody (known row member field inside)]
    rfl
  rw [fields]
  rfl

end Lines

section Reading

theorem content_xmlEscape (s : CString) : Content (xmlEscape s) (charNodes s) := by
  refine content_flatMap ?_ s
  intro c path inside brackets
  have mark : xmlStep ⟨path, true, .text brackets⟩ '&' = some (⟨path, true, .reference []⟩, []) := by
    have other : '&' ≠ '<' := by decide
    simp only [xmlStep, if_neg other, if_neg inside, if_true]
    rfl
  have named : ∀ {name : CString} {d : Char},
      run xmlStep ⟨path, true, .reference []⟩ name = some (⟨path, true, .text 0⟩, [.char d]) →
      run xmlStep ⟨path, true, .text brackets⟩ ('&' :: name) =
        some (⟨path, true, .text 0⟩, [.char d]) := by
    intro name d read
    rw [run_cons_of mark, read]
    rfl
  rw [xmlEscapeChar]
  split_ifs with amp less great quot apos
  · subst amp
    exact ⟨0, named rfl⟩
  · subst less
    exact ⟨0, named rfl⟩
  · subst great
    exact ⟨0, named rfl⟩
  · subst quot
    exact ⟨0, named rfl⟩
  · subst apos
    exact ⟨0, named rfl⟩
  · have noEnd : ¬(c = '>' ∧ 2 ≤ brackets) := fun ends => great ends.1
    have taken : xmlStep ⟨path, true, .text brackets⟩ c =
        some (⟨path, true, .text (if c = ']' then brackets + 1 else 0)⟩, [.char c]) := by
      simp only [xmlStep, if_neg less, if_neg amp, if_neg inside, if_neg noEnd]
    exact ⟨_, run_cons_of taken⟩

/-- Text without any of the marks of markup. -/
theorem content_free {s : CString} (free : s.all markFree = true) : Content s (charNodes s) := by
  refine PlainText.content ⟨free_bare free rfl, free_bare free rfl, free_bare free rfl, ?_⟩
  intro found
  have member := found.subset (List.mem_cons_of_mem _ (List.mem_cons_of_mem _ List.mem_cons_self))
  exact absurd member (free_bare free rfl)

theorem digit_free {c : Char} (range : 48 ≤ c.toNat ∧ c.toNat ≤ 57) : markFree c = true := by
  simp only [markFree, Bool.and_eq_true, bne_iff_ne]
  refine ⟨⟨⟨?_, ?_⟩, ?_⟩, ?_⟩ <;>
  · rintro rfl
    exact absurd range (by decide)

theorem digits_free (n : Nat) : (Nat.toDigits 10 n).all markFree = true :=
  List.all_eq_true.mpr fun _ member => digit_free (digit_range member)

theorem content_digits (n : Nat) : Content (Nat.toDigits 10 n) (charNodes (Nat.toDigits 10 n)) :=
  content_free (digits_free n)

theorem content_mime {mimeType : CString} (known : mimeType ∈ mimeTypes) :
    Content mimeType (charNodes mimeType) := content_free (mime_plain known).2

theorem reads_fieldBody {field : ResultsetField} (known : field.Known) :
    Reads (unitsText (fieldBody field)) (fieldChildren field) := by
  cases field with
  | text fieldName fieldType value =>
    exact ((reads_leaf (element_tag (by simp [elementNames])) (content_xmlEscape fieldName)).units
      (reads_leaf (element_tag (by simp [elementNames])) (content_xmlEscape fieldType))).units
      (reads_leaf (element_tag (by simp [elementNames])) (content_xmlEscape value))
  | blob fieldName fileName filePath fileUrl fileSize mimeType =>
    have name : Reads (unitsText (leafUnits "field_name".toList (xmlEscape fieldName)))
        [leafNode "field_name".toList fieldName] :=
      reads_leaf (element_tag (by simp [elementNames])) (content_xmlEscape fieldName)
    have type : Reads (unitsText (leafUnits "field_type".toList "BLOB".toList))
        [leafNode "field_type".toList "BLOB".toList] :=
      reads_leaf (element_tag (by simp [elementNames])) (content_free rfl)
    have value : Reads (unitsText [(emptyTag "field_value".toList, [])])
        [leafNode "field_value".toList []] := by
      rw [unitsText_single, List.append_nil]
      exact reads_emptyTag (element_tag (by simp [elementNames])).named
    have file : Reads (unitsText (leafUnits "file_name".toList (xmlEscape fileName)))
        [leafNode "file_name".toList fileName] :=
      reads_leaf (element_tag (by simp [elementNames])) (content_xmlEscape fileName)
    have path : Reads (unitsText (leafUnits "file_path".toList (xmlEscape filePath)))
        [leafNode "file_path".toList filePath] :=
      reads_leaf (element_tag (by simp [elementNames])) (content_xmlEscape filePath)
    have url : Reads (unitsText (if fileUrl = [] then [] else
          leafUnits "file_url".toList (xmlEscape fileUrl)))
        (if fileUrl = [] then [] else [leafNode "file_url".toList fileUrl]) := by
      by_cases none : fileUrl = []
      · rw [if_pos none, if_pos none]
        exact .nil
      · rw [if_neg none, if_neg none]
        exact reads_leaf (element_tag (by simp [elementNames])) (content_xmlEscape fileUrl)
    have size : Reads (unitsText (leafUnits "file_size".toList (Nat.toDigits 10 (ub4 fileSize))))
        [leafNode "file_size".toList (Nat.toDigits 10 fileSize)] := by
      rw [ub4_of_lt known.2]
      exact reads_leaf (element_tag (by simp [elementNames])) (content_digits fileSize)
    have mime : Reads (unitsText (leafUnits "mime_type".toList mimeType))
        [leafNode "mime_type".toList mimeType] :=
      reads_leaf (element_tag (by simp [elementNames])) (content_mime known.1)
    have details := (((file.units path).units url).units size).units mime
    have tag := @element_tag "blob".toList (by simp [elementNames])
    have blob := reads_element tag (fun path inside => run_startTag tag.named (.inl inside) 0) .nil
      details .nil
    have whole := ((name.units type).units value).units blob
    refine Eq.mp (congrArg (Reads _) ?_) whole
    simp only [fieldChildren, List.append_assoc, List.cons_append, List.nil_append]

theorem reads_fieldUnits {field : ResultsetField} (known : field.Known) :
    Reads (unitsText (fieldUnits field)) (fieldNodes field) :=
  have tag := @element_tag "field".toList (by simp [elementNames])
  reads_element tag (fun path inside => run_startTag tag.named (.inl inside) 0) .nil
    (reads_fieldBody known) reads_newline

theorem bare_digits (n : Nat) : BareValue (Nat.toDigits 10 n) := by
  intro c member
  have range := digit_range member
  refine ⟨?_, ?_, ?_, ?_⟩
  · rintro rfl
    exact absurd range (by decide)
  · rintro rfl
    exact absurd range (by decide)
  · rintro rfl
    exact absurd range (by decide)
  · simp only [xmlBlank, Bool.or_eq_false_iff, beq_eq_false_iff_ne]
    refine ⟨⟨⟨?_, ?_⟩, ?_⟩, ?_⟩ <;>
    · rintro rfl
      exact absurd range (by decide)

theorem reads_rowUnits {row : ResultsetRow} (known : ∀ field ∈ row.fields, field.Known) :
    Reads (unitsText (rowUnits row)) (rowNodes row) := by
  have fields : Reads (unitsText (row.fields.flatMap fieldUnits)) (row.fields.flatMap fieldNodes) := by
    rw [unitsText_flatMap]
    exact Reads.flatMap fun field member => reads_fieldUnits (known field member)
  have tag := @element_tag "row".toList (by simp [elementNames])
  exact reads_element tag (fun path inside => run_attributeTag tag.named (by decide +kernel)
      (bare_digits row.recordNumber) inside 0) reads_newline fields reads_newline

theorem reads_rowsUnits {rs : Resultset} (known : rs.Known) :
    Reads (unitsText (rowsUnits rs)) (rs.records.flatMap rowNodes) := by
  rw [rowsUnits, unitsText_flatMap]
  exact Reads.flatMap fun row member => reads_rowUnits (known row member)

end Reading

end Units

end OciWrapper.Execute
