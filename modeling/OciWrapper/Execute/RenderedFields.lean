import OciWrapper.Execute.ResponseWriter

namespace OciWrapper.Execute

open OciWrapper.Text OciWrapper.Core OciWrapper.Markup
open OciWrapper.Dml (digit_range)
open OciWrapper.Audit (xmlAppends xmlTempSize xmlAppends_append xmlAppends_whole xmlAppends_cut
  xmlAppends_prefix)

section Fits

/-- Every call of `xml_append` for a field fits its buffer. -/
def Resultset.FieldsFit (rs : Resultset) : Prop :=
  ∀ row ∈ rs.records, ∀ field ∈ row.fields, ∀ piece ∈ fieldPieces field, piece.length < xmlTempSize

theorem rowStartPiece_fits {number : Nat} (int : number < 2 ^ 31) :
    (rowStartPiece number).length < xmlTempSize := by
  have digits : (Nat.toDigits 10 number).length ≤ 10 :=
    Nat.toDigits_length 10 number 10 (by decide) (by omega)
  have joins : ∀ {first last : CString}, first.length = 13 → last.length = 3 →
      (first ++ Nat.toDigits 10 number ++ last).length < xmlTempSize := by
    intro first last before after
    rw [List.length_append, List.length_append, before, after, xmlTempSize]
    omega
  exact joins rfl rfl

theorem rowPieces_fit {row : ResultsetRow} (int : row.recordNumber < 2 ^ 31)
    (fits : ∀ field ∈ row.fields, ∀ piece ∈ fieldPieces field, piece.length < xmlTempSize) :
    ∀ piece ∈ rowPieces row, piece.length < xmlTempSize := by
  have last : "</row>\n".toList.length < xmlTempSize := by decide
  intro piece member
  rw [rowPieces, List.mem_append, List.mem_append] at member
  rcases member with (first | inner) | end'
  · rw [List.mem_singleton.mp first]
    exact rowStartPiece_fits int
  · obtain ⟨field, there, inside⟩ := List.mem_flatMap.mp inner
    exact fits field there piece inside
  · rw [List.mem_singleton.mp end']
    exact last

variable {rs : DeliveredResultset}

theorem resultset_start : "<resultset>\n".toList = startTag "resultset".toList ++ ['\n'] :=
  rfl

theorem resultset_end : "</resultset>\n".toList = endTag "resultset".toList ++ ['\n'] :=
  rfl

theorem resultsetUnits_text (rs : Resultset) : unitsText (resultsetUnits rs) =
    startTag "resultset".toList ++ (['\n'] ++ unitsText (rowsUnits rs)) ++
      endTag "resultset".toList ++ ['\n'] := by
  rw [resultsetUnits, unitsText_element]
  simp only [List.append_assoc]

/-- When every field fits, all of the text is there. -/
theorem responseWriteXml_whole (fits : rs.FieldsFit) :
    rs.responseWriteXml = unitsText (resultsetUnits rs.toResultset) := by
  have first : "<resultset>\n".toList.length < xmlTempSize := by decide
  have last : "</resultset>\n".toList.length < xmlTempSize := by decide
  have pieces : ∀ piece ∈ rs.records.flatMap rowPieces, piece.length < xmlTempSize := by
    intro piece member
    obtain ⟨row, there, inside⟩ := List.mem_flatMap.mp member
    exact rowPieces_fit (rs.numbers row there) (fits row there) piece inside
  have all : ∀ piece ∈ ["<resultset>\n".toList] ++ rs.records.flatMap rowPieces ++
      ["</resultset>\n".toList], piece.length < xmlTempSize :=
    List.forall_mem_append.mpr ⟨List.forall_mem_append.mpr
      ⟨List.forall_mem_singleton.mpr first, pieces⟩, List.forall_mem_singleton.mpr last⟩
  rw [Resultset.responseWriteXml, xmlAppends_whole all, List.append_nil, List.flatten_append,
    List.flatten_append, List.flatten_singleton, List.flatten_singleton, rowsPieces_text,
    resultset_start, resultset_end, resultsetUnits_text]
  simp only [List.append_assoc]

/-- A field that does not fit breaks the rows off. -/
theorem responseWriteXml_broken (cut : ¬rs.FieldsFit) :
    ∃ front, front <+: unitsText (rowsUnits rs.toResultset) ∧
      rs.responseWriteXml = startTag "resultset".toList ++ (['\n'] ++ front) := by
  have first : "<resultset>\n".toList.length < xmlTempSize := by decide
  simp only [Resultset.FieldsFit, not_forall, Nat.not_lt] at cut
  obtain ⟨row, there, field, inside, piece, member, long⟩ := cut
  have large : ∃ piece ∈ ["<resultset>\n".toList] ++ rs.records.flatMap rowPieces,
      xmlTempSize ≤ piece.length := by
    refine ⟨piece, List.mem_append_right _ (List.mem_flatMap.mpr ⟨row, there, ?_⟩), long⟩
    exact List.mem_append_left _ (List.mem_append_right _
      (List.mem_flatMap.mpr ⟨field, inside, member⟩))
  refine ⟨xmlAppends (rs.records.flatMap rowPieces) [], ?_, ?_⟩
  · rw [← rowsPieces_text]
    exact xmlAppends_prefix _
  · rw [Resultset.responseWriteXml, xmlAppends_cut large,
      xmlAppends_append (List.forall_mem_singleton.mpr first), List.flatten_singleton,
      resultset_start, List.append_assoc]

end Fits

section Encodings

theorem encoded_xmlEscape (s : CString) : Encoded xmlChar (xmlEscape s) ↔ Encoded xmlChar s := by
  refine encoded_flatMap ?_ s
  intro c
  rw [xmlEscapeChar]
  split_ifs with amp less great quot apos
  · subst amp
    exact .inr (by decide +kernel)
  · subst less
    exact .inr (by decide +kernel)
  · subst great
    exact .inr (by decide +kernel)
  · subst quot
    exact .inr (by decide +kernel)
  · subst apos
    exact .inr (by decide +kernel)
  · exact .inl rfl

theorem encoded_digits (n : Nat) : Encoded xmlChar (Nat.toDigits 10 n) := by
  refine PlainBytes.encoded fun c member => ?_
  obtain ⟨low, high⟩ := digit_range member
  refine ⟨by omega, ?_⟩
  simp only [xmlChar, Bool.or_eq_true, Bool.and_eq_true, decide_eq_true_eq]
  omega

/-- The texts of the units. -/
def AllEncoded (units : List (CString × CString)) : Prop := ∀ u ∈ units, Encoded xmlChar u.2

theorem allEncoded_append {a b : List (CString × CString)} :
    AllEncoded (a ++ b) ↔ AllEncoded a ∧ AllEncoded b := List.forall_mem_append

theorem allEncoded_leaf {name value : CString} :
    AllEncoded (leafUnits name value) ↔ Encoded xmlChar value := by
  simp [AllEncoded, leafUnits]

theorem allEncoded_element {start name inside behind : CString}
    {units : List (CString × CString)} (inner : Encoded xmlChar inside)
    (outer : Encoded xmlChar behind) :
    AllEncoded (elementUnits start name inside behind units) ↔ AllEncoded units := by
  rw [elementUnits, allEncoded_append, allEncoded_append]
  simp [AllEncoded, inner, outer]

theorem encoded_newline : Encoded xmlChar ['\n'] := by decide +kernel

theorem allEncoded_fieldUnits {field : ResultsetField} (known : field.Known) :
    AllEncoded (fieldUnits field) ↔ ∀ text ∈ field.texts, Encoded xmlChar text := by
  rw [fieldUnits, allEncoded_element (encoded_nil xmlChar) encoded_newline]
  cases field with
  | text fieldName fieldType value =>
    simp only [fieldBody, allEncoded_append, allEncoded_leaf, encoded_xmlEscape,
      ResultsetField.texts, List.forall_mem_cons, List.not_mem_nil,
      false_imp_iff, implies_true, and_true, and_assoc]
  | blob fieldName fileName filePath fileUrl fileSize mimeType =>
    have type : Encoded xmlChar "BLOB".toList := by decide +kernel
    have empty : AllEncoded [(emptyTag "field_value".toList, [])] := by simp [AllEncoded]
    have url : AllEncoded (if fileUrl = [] then [] else
        leafUnits "file_url".toList (xmlEscape fileUrl)) ↔ Encoded xmlChar fileUrl := by
      by_cases none : fileUrl = []
      · rw [if_pos none, none]
        simp [AllEncoded]
      · rw [if_neg none, allEncoded_leaf, encoded_xmlEscape]
    simp only [fieldBody, allEncoded_append, allEncoded_leaf, encoded_xmlEscape, type, empty, url,
      allEncoded_element (encoded_nil xmlChar) (encoded_nil xmlChar), encoded_digits,
      (mime_plain known.1).1, ResultsetField.texts, List.forall_mem_cons, List.not_mem_nil,
      false_imp_iff, implies_true, and_true, and_assoc]

theorem allEncoded_flatMap {α : Type} {items : List α} {units : α → List (CString × CString)} :
    AllEncoded (items.flatMap units) ↔ ∀ item ∈ items, AllEncoded (units item) := by
  constructor
  · exact fun all item member u inside => all u (List.mem_flatMap.mpr ⟨item, member, inside⟩)
  · intro all u member
    obtain ⟨item, there, inside⟩ := List.mem_flatMap.mp member
    exact all item there u inside

theorem allEncoded_rowsUnits {rs : Resultset} (known : rs.Known) : AllEncoded (rowsUnits rs) ↔
    ∀ row ∈ rs.records, ∀ field ∈ row.fields, ∀ text ∈ field.texts, Encoded xmlChar text := by
  rw [rowsUnits, allEncoded_flatMap]
  refine forall₂_congr fun row member => ?_
  rw [rowUnits, allEncoded_element encoded_newline encoded_newline, allEncoded_flatMap]
  exact forall₂_congr fun field inside => allEncoded_fieldUnits (known row member field inside)

end Encodings

section Same

theorem charNodes_inj {a b : CString} (same : charNodes a = charNodes b) : a = b :=
  List.map_injective_iff.mpr (fun _ _ eq => by injection eq) same

theorem leafNode_inj {name a b : CString} (same : leafNode name a = leafNode name b) : a = b := by
  injection same with _ _ children
  exact charNodes_inj children

theorem texts_of_fieldNodes {field : ResultsetField}
    (same : fieldNodes field.normalized = fieldNodes field) :
    ∀ text ∈ field.texts, normalizeLines text = text := by
  have children : fieldChildren field.normalized = fieldChildren field := by
    injection same with node
    injection node
  cases field with
  | text fieldName fieldType value =>
    rw [ResultsetField.normalized, fieldChildren, fieldChildren] at children
    simp only [List.cons.injEq, and_true] at children
    obtain ⟨name, type, val⟩ := children
    simp only [ResultsetField.texts, List.forall_mem_cons, List.not_mem_nil, false_imp_iff,
      implies_true, and_true]
    exact ⟨leafNode_inj name, leafNode_inj type, leafNode_inj val⟩
  | blob fieldName fileName filePath fileUrl fileSize mimeType =>
    rw [ResultsetField.normalized, fieldChildren, fieldChildren] at children
    simp only [List.cons.injEq, and_true, true_and, Node.element.injEq, List.cons_append,
      List.nil_append] at children
    obtain ⟨name, file, path, rest⟩ := children
    have url : normalizeLines fileUrl = fileUrl := by
      by_cases none : fileUrl = []
      · rw [none]
        rfl
      · rw [if_neg none, if_neg (mt normalizeLines_eq_nil_iff.mp none), List.singleton_append,
          List.singleton_append, List.cons.injEq] at rest
        exact leafNode_inj rest.1
    simp only [ResultsetField.texts, List.forall_mem_cons, List.not_mem_nil, false_imp_iff,
      implies_true, and_true]
    exact ⟨leafNode_inj name, leafNode_inj file, leafNode_inj path, url⟩

/-- Where each item gives as many nodes as its image, the same nodes come from the same items. -/
theorem flatMap_map_same {α : Type} {nodes : α → List Node} {f : α → α} {items : List α}
    (size : ∀ item, (nodes (f item)).length = (nodes item).length)
    (same : (items.map f).flatMap nodes = items.flatMap nodes) :
    ∀ item ∈ items, nodes (f item) = nodes item := by
  induction items with
  | nil => exact fun item member => nomatch member
  | cons item items ih =>
    rw [List.map_cons, List.flatMap_cons, List.flatMap_cons] at same
    obtain ⟨head, tail⟩ := List.append_inj same (size item)
    exact List.forall_mem_cons.mpr ⟨head, ih tail⟩

theorem texts_of_rows {rs : Resultset}
    (same : rs.normalized.records.flatMap rowNodes = rs.records.flatMap rowNodes) :
    ∀ row ∈ rs.records, ∀ field ∈ row.fields, ∀ text ∈ field.texts, '\r' ∉ text := by
  intro row there field inside text member
  have rows := @flatMap_map_same _ rowNodes
    (fun row => ⟨row.recordNumber, row.fields.map ResultsetField.normalized⟩) _ (fun _ => rfl) same
    row there
  injection rows with node
  injection node with _ _ children
  injection children with _ fields
  have nodes := @flatMap_map_same _ fieldNodes ResultsetField.normalized _ (fun _ => rfl) fields
    field inside
  exact normalizeLines_eq_self_iff.mp (texts_of_fieldNodes nodes text member)

end Same

section Documents

theorem undeclared_tag {name : CString} (named : NameText name) (text : CString) :
    undeclared (startTag name ++ text) = startTag name ++ text := by
  obtain ⟨c, rest, rfl, first, -⟩ := named
  have other : ('?' == c) = false := by
    rw [beq_eq_false_iff_ne]
    rintro rfl
    exact absurd first (by decide)
  have start : xmlDeclaration = '<' :: '?' :: xmlDeclaration.drop 2 := rfl
  have apart : xmlDeclaration.isPrefixOf (startTag (c :: rest) ++ text) = false := by
    rw [start, startTag, List.cons_append, List.cons_append, List.isPrefixOf_cons_cons,
      List.cons_append, List.isPrefixOf_cons_cons, other, Bool.false_and, Bool.and_false]
  rw [undeclared, apart]
  rfl

theorem normalizeLines_broken {front whole : CString} (broken : front <+: whole) :
    normalizeLines front <+: normalizeLines whole := by
  fun_induction normalizeLines front generalizing whole with
  | case1 text ih =>
    obtain ⟨rest, rfl⟩ := broken
    rw [List.cons_append, List.cons_append, normalizeLines, List.cons_prefix_cons]
    exact ⟨rfl, ih (List.prefix_append text rest)⟩
  | case2 text single ih =>
    obtain ⟨rest, rfl⟩ := broken
    rw [List.cons_append]
    by_cases line : ∃ more, text ++ rest = '\n' :: more
    · obtain ⟨more, same⟩ := line
      cases text with
      | nil =>
        rw [same, normalizeLines, normalizeLines, List.cons_prefix_cons]
        exact ⟨rfl, List.nil_prefix⟩
      | cons c text =>
        cases same
        exact (single text rfl).elim
    · rw [normalizeLines.eq_2 _ fun more same => line ⟨more, same⟩, List.cons_prefix_cons]
      exact ⟨rfl, ih (List.prefix_append text rest)⟩
  | case3 c text _ other ih =>
    obtain ⟨rest, rfl⟩ := broken
    rw [List.cons_append, normalizeLines_cons fun same => other same, List.cons_prefix_cons]
    exact ⟨rfl, ih (List.prefix_append text rest)⟩
  | case4 => exact List.nil_prefix

theorem normalized_same {rs : Resultset}
    (lines : ∀ row ∈ rs.records, ∀ field ∈ row.fields, ∀ text ∈ field.texts, '\r' ∉ text) :
    rs.normalized = rs := by
  have fields : ∀ row ∈ rs.records, ∀ field ∈ row.fields, field.normalized = field := by
    intro row there field inside
    have each := lines row there field inside
    cases field with
    | text fieldName fieldType value =>
      simp only [ResultsetField.texts, List.forall_mem_cons] at each
      rw [ResultsetField.normalized, normalizeLines_same each.1, normalizeLines_same each.2.1,
        normalizeLines_same each.2.2.1]
    | blob fieldName fileName filePath fileUrl fileSize mimeType =>
      simp only [ResultsetField.texts, List.forall_mem_cons] at each
      rw [ResultsetField.normalized, normalizeLines_same each.1, normalizeLines_same each.2.1,
        normalizeLines_same each.2.2.1, normalizeLines_same each.2.2.2.1]
  have rows : rs.records.map (fun row => (⟨row.recordNumber,
      row.fields.map ResultsetField.normalized⟩ : ResultsetRow)) = rs.records := by
    refine (List.map_congr_left fun row there => ?_).trans (List.map_id rs.records)
    rw [(List.map_congr_left (fields row there)).trans (List.map_id row.fields)]
    rfl
  rw [Resultset.normalized, rows]

theorem DeliveredResultset.known (rs : DeliveredResultset) : rs.Known :=
  fun row there field inside => (rs.delivered row there field inside).known

theorem content_rows {rs : Resultset} (known : rs.Known) :
    Content (['\n'] ++ unitsText (rowsUnits rs)) (resultsetChildren rs) :=
  (reads_newline.append (reads_rowsUnits known)).content

theorem normalizeLines_resultset {rs : Resultset} (known : rs.Known) :
    normalizeLines (unitsText (resultsetUnits rs)) = unitsText (resultsetUnits rs.normalized) := by
  have whole := @normalizeLines_units _ (marks_resultsetUnits known) [] (by simp)
  rw [List.append_nil, normalizeLines, List.append_nil, resultsetUnits, normalizedUnits_element,
    normalizedUnits_rows known] at whole
  exact whole

theorem run_resultset {rs : Resultset} (known : rs.Known) :
    run xmlStep .start (unitsText (resultsetUnits rs)) =
      some (⟨[], true, .text 0⟩, (resultsetNode rs).events) := by
  have tag := @element_tag "resultset".toList (by simp [elementNames])
  rw [resultsetUnits_text]
  exact run_root tag.named (content_rows known)

theorem encoded_resultset {rs : Resultset} (known : rs.Known) :
    Encoded xmlChar (unitsText (resultsetUnits rs)) ↔
      ∀ row ∈ rs.records, ∀ field ∈ row.fields, ∀ text ∈ field.texts, Encoded xmlChar text := by
  rw [encoded_units (marks_resultsetUnits known), ← allEncoded_rowsUnits known]
  exact allEncoded_element encoded_newline encoded_newline

/-- Broken off, the rows leave their element open. -/
theorem broken_rows {rs : Resultset} (known : rs.Known) {front : CString}
    (broken : front <+: unitsText (rowsUnits rs)) {path : List CString} (inside : path ≠ []) :
    ∃ s events, run xmlStep ⟨path, true, .text 0⟩ (['\n'] ++ normalizeLines front) =
      some (s, events) ∧ path <:+ s.path ∧ s.rooted = true := by
  have rows := normalizeLines_broken broken
  have whole := @normalizeLines_units _ (marks_rowsUnits known) [] (by simp)
  rw [List.append_nil, normalizeLines, List.append_nil, normalizedUnits_rows known] at whole
  rw [whole] at rows
  exact (content_rows known.normalized).broken_off
    ((List.prefix_append_right_inj ['\n']).mpr rows) inside

/-- Broken off, the text is no document. -/
theorem broken_unread {rs : Resultset} (known : rs.Known) {front : CString}
    (broken : front <+: unitsText (rowsUnits rs)) {events : List Event} :
    ¬ReadsXml (startTag "resultset".toList ++ (['\n'] ++ front)) events := by
  have tag := @element_tag "resultset".toList (by simp [elementNames])
  rintro ⟨-, last, ⟨ended, -⟩, read⟩
  obtain ⟨s, inner, head, around, -⟩ :=
    broken_rows known broken (List.cons_ne_nil "resultset".toList [])
  have start : run xmlStep .start (startTag "resultset".toList) =
      some (⟨["resultset".toList], true, .text 0⟩, [.opened "resultset".toList []]) :=
    run_startTag tag.named (.inr rfl) 0
  have line : normalizeLines (['\n'] ++ front) = ['\n'] ++ normalizeLines front :=
    normalizeLines_front (by decide)
  rw [undeclared_tag tag.named, normalizeLines_front tag.opening.2.1, line,
    run_append_some start head] at read
  cases read
  rw [ended] at around
  exact absurd (List.suffix_nil.mp around) (List.cons_ne_nil _ [])

variable {rs : DeliveredResultset}

theorem undeclared_resultset (rs : Resultset) :
    undeclared (unitsText (resultsetUnits rs)) = unitsText (resultsetUnits rs) := by
  have tag := @element_tag "resultset".toList (by simp [elementNames])
  rw [resultsetUnits_text, List.append_assoc, List.append_assoc]
  exact undeclared_tag tag.named _

theorem renders_of_reads (reads : ReadsAs rs.responseWriteXml (resultsetNode rs.toResultset)) :
    ∀ row ∈ rs.records, ∀ field ∈ row.fields, field.Renders := by
  by_cases fits : rs.FieldsFit
  · obtain ⟨encoded, last, finished, read⟩ := reads
    rw [responseWriteXml_whole fits] at encoded read
    rw [undeclared_resultset, normalizeLines_resultset rs.known,
      run_resultset rs.known.normalized] at read
    have texts := (encoded_resultset rs.known).mp encoded
    have events : (resultsetNode rs.normalized).events ++ [] =
        (resultsetNode rs.toResultset).events ++ [] := by
      rw [List.append_nil, List.append_nil]
      exact congrArg Prod.snd (Option.some.inj read)
    obtain ⟨same, -⟩ := Node.events_inj events
    injection same with _ _ children
    injection children with _ rows
    have lines := texts_of_rows rows
    exact fun row there field inside => ⟨fits row there field inside, fun text member =>
      ⟨texts row there field inside text member, lines row there field inside text member⟩⟩
  · obtain ⟨front, broken, text⟩ := responseWriteXml_broken fits
    rw [text] at reads
    exact absurd reads (broken_unread rs.known broken)

theorem reads_of_renders (renders : ∀ row ∈ rs.records, ∀ field ∈ row.fields, field.Renders) :
    ReadsAs rs.responseWriteXml (resultsetNode rs.toResultset) := by
  have fits : rs.FieldsFit := fun row there field inside => (renders row there field inside).1
  have encoded := (encoded_resultset rs.known).mpr fun row there field inside text member =>
    ((renders row there field inside).2 text member).1
  have lines := @normalized_same rs.toResultset fun row there field inside text member =>
    ((renders row there field inside).2 text member).2
  rw [responseWriteXml_whole fits]
  refine ⟨encoded, ⟨[], true, .text 0⟩, ⟨rfl, rfl, 0, rfl⟩, ?_⟩
  rw [undeclared_resultset, normalizeLines_resultset rs.known, lines]
  exact run_resultset rs.known

/-- `response_write_xml` gives a document that reads as the result set when each field fits and holds
text for XML, and never otherwise. -/
theorem response_write_xml_iff (rs : DeliveredResultset) :
    ReadsAs rs.responseWriteXml (resultsetNode rs.toResultset) ↔
      ∀ row ∈ rs.records, ∀ field ∈ row.fields, field.Renders :=
  ⟨renders_of_reads, reads_of_renders⟩

/-- One row with one value. -/
def oneValue (value : CString) : DeliveredResultset where
  records := [⟨1, [.text ['A'] ['X'] value]⟩]
  numbers := by simp
  delivered := by simp [ResultsetField.Delivered]

theorem value_within (field : ResultField) :
    (xmlEscape field.value).length ≤ (xmlAddField field).length := by
  have within : ∀ a b c : CString, b.length ≤ (a ++ b ++ c).length := by
    intro a b c
    simp only [List.length_append]
    omega
  exact within _ _ _

theorem long_value_unread {value : CString} (long : xmlTempSize ≤ (xmlEscape value).length) :
    ¬ReadsAs (oneValue value).responseWriteXml (resultsetNode (oneValue value).toResultset) := by
  intro reads
  have field := renders_of_reads reads ⟨1, [.text ['A'] ['X'] value]⟩ List.mem_cons_self
    (.text ['A'] ['X'] value) List.mem_cons_self
  have fits := field.1 (xmlAddField ⟨['A'], ['X'], value⟩) List.mem_cons_self
  exact absurd fits (Nat.not_lt.mpr (long.trans (value_within ⟨['A'], ['X'], value⟩)))

theorem length_quotes (n : Nat) : (xmlEscape (List.replicate n '\'')).length = n * 6 := by
  induction n with
  | zero => rfl
  | succ n ih =>
    rw [xmlEscape] at ih
    rw [List.replicate_succ, xmlEscape, List.flatMap_cons, List.length_append, ih, Nat.succ_mul,
      Nat.add_comm]
    rfl

theorem quotes_break_document :
    ¬ReadsAs (oneValue (List.replicate 2000 '\'')).responseWriteXml
      (resultsetNode (oneValue (List.replicate 2000 '\'')).toResultset) := by
  refine long_value_unread ?_
  rw [length_quotes, xmlTempSize]
  decide

end Documents

end OciWrapper.Execute
