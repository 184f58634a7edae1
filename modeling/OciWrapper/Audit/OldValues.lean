import OciWrapper.Audit.ImageRows

namespace OciWrapper.Audit

open OciWrapper.Text OciWrapper.Core OciWrapper.Execute OciWrapper.Dml

/-- Each call of `xml_append` for the row fits its buffer. -/
def FieldsFit (cols : List ImageColumn) (row : ImageRow) : Prop :=
  ∀ col ∈ cols, ∀ piece ∈ cellAppends col (row (folded col.name)), piece.length < xmlTempSize

section Resultset

variable (cols : List ImageColumn)

theorem rowStart_fits {number : Nat} (int : number < 2 ^ 31) :
    (rowStart number).length < xmlTempSize := by
  have digits : (Nat.toDigits 10 number).length ≤ 10 :=
    Nat.toDigits_length 10 number 10 (by decide) (by omega)
  have joins : ∀ {first last : CString}, first.length = 13 → last.length = 3 →
      (first ++ Nat.toDigits 10 number ++ last).length < xmlTempSize := by
    intro first last before after
    rw [List.length_append, List.length_append, before, after, xmlTempSize]
    omega
  exact joins rfl rfl

theorem rowAppends_fits {number : Nat} {row : ImageRow} (int : number < 2 ^ 31)
    (fits : FieldsFit cols row) : ∀ piece ∈ rowAppends cols number row, piece.length < xmlTempSize := by
  intro piece member
  rcases List.mem_append.mp member with front | last
  · rcases List.mem_append.mp front with first | cells
    · rw [List.mem_singleton.mp first]
      exact rowStart_fits int
    · obtain ⟨col, inside, cell⟩ := List.mem_flatMap.mp cells
      exact fits col inside piece cell
  · rw [List.mem_singleton.mp last]
    decide

/-- What is left of a row with a field that does not fit. -/
theorem row_cut {number : Nat} {row : ImageRow} (int : number < 2 ^ 31)
    (cut : ¬FieldsFit cols row) (more : List CString) :
    ∃ s, xmlAppends (rowAppends cols number row ++ more) [] = s ∧ Absent "</row>".toList s ∧
      s.head? = some '<' := by
  let pieces := [rowStart number] ++ cols.flatMap fun col => cellAppends col (row (folded col.name))
  have long : ∃ piece ∈ pieces, xmlTempSize ≤ piece.length := by
    simp only [FieldsFit, not_forall, Nat.not_lt] at cut
    obtain ⟨col, inside, piece, member, long⟩ := cut
    exact ⟨piece, List.mem_append_right _ (List.mem_flatMap.mpr ⟨col, inside, member⟩), long⟩
  have split : rowAppends cols number row ++ more = pieces ++ (["</row>\n".toList] ++ more) := by
    rw [← List.append_assoc]
    rfl
  have body : pieces.flatten = rowBody cols number row := by
    rw [List.flatten_append, List.flatten_singleton, cells_flatten, rowBody]
  refine ⟨_, rfl, ?_, ?_⟩
  · obtain ⟨rest, whole⟩ := body ▸ xmlAppends_prefix pieces
    have absent := absent_rowBody cols number row
    rw [← whole] at absent
    rw [split, xmlAppends_cut long]
    exact absent.of_append
  · have first : pieces = rowStart number ::
        cols.flatMap fun col => cellAppends col (row (folded col.name)) := rfl
    rw [split, xmlAppends_cut long, first, xmlAppends, if_pos (rowStart_fits int)]
    rfl

/-- The rows up to the first that does not fit. -/
theorem rowsAppends_parts (rows : List (ImageRow × Nat)) (ints : ∀ entry ∈ rows, entry.2 < 2 ^ 31) :
    ∃ done later s, rows = done ++ later ∧ (later = [] ↔ ∀ entry ∈ rows, FieldsFit cols entry.1) ∧
      xmlAppends (rowsAppends cols rows ++ ["</resultset>\n".toList]) [] = rowLines cols done ++ s ∧
      Absent "</row>".toList s ∧ s.head? = some '<' := by
  induction rows with
  | nil =>
    refine ⟨[], [], "</resultset>\n".toList, rfl, by simp, ?_, by decide, rfl⟩
    rw [rowsAppends, List.flatMap_nil, List.nil_append, xmlAppends, if_pos (by decide)]
    exact List.append_nil _
  | cons entry rows ih =>
    rw [List.forall_mem_cons] at ints
    by_cases fits : FieldsFit cols entry.1
    · obtain ⟨done, later, s, rfl, whole, text, absent, opens⟩ := ih ints.2
      refine ⟨entry :: done, later, s, rfl, ?_, ?_, absent, opens⟩
      · rw [whole, List.forall_mem_cons]
        exact ⟨fun rest => ⟨fits, rest⟩, fun all => all.2⟩
      · rw [rowsAppends, List.flatMap_cons, List.append_assoc,
          xmlAppends_append (rowAppends_fits cols ints.1 fits), rowAppends_flatten, ← rowsAppends,
          text, rowLines, rowLines, List.flatMap_cons]
        simp only [List.append_assoc]
    · obtain ⟨s, text, absent, opens⟩ := row_cut cols ints.1 fits
        (rowsAppends cols rows ++ ["</resultset>\n".toList])
      refine ⟨[], entry :: rows, s, rfl, ?_, ?_, absent, opens⟩
      · constructor
        · intro none
          cases none
        · intro all
          exact absurd (all entry List.mem_cons_self) fits
      · rw [rowsAppends, List.flatMap_cons, List.append_assoc, ← rowsAppends, text]
        rfl

end Resultset

section Envelopes

def frontUnits : List (CString × CString) :=
  [("<?xml version=\"1.0\" encoding=\"UTF-8\"?>\n".toList, []), ("<output_xml>\n".toList, []),
    ("<execution_envelope>\n".toList, []), ("<sql_query>".toList, [])]

def midTags : List CString :=
  ["</sql_query>\n".toList, "<truncated>".toList, "</truncated>\n".toList,
    "</execution_envelope>\n".toList, "<resultset>\n".toList]

/-- What stands between the SQL text and the rows. -/
def midUnits (figures : QueryFigures) : List (CString × CString) :=
  [("</sql_query>\n".toList, []), ("<truncated>".toList, truncatedText figures),
    ("</truncated>\n".toList, []), ("</execution_envelope>\n".toList, []),
    ("<resultset>\n".toList, [])]

def documentHead (sql : CString) (figures : QueryFigures) : CString :=
  unitsText frontUnits ++ (sql ++ unitsText (midUnits figures))

variable (sql : CString) (figures : QueryFigures)

theorem headAppends_flatten :
    (headAppends sql figures).flatten ++ "<resultset>\n".toList = documentHead sql figures := by
  have joins : ∀ t₁ t₂ t₃ t₄ t₅ t₆ t₇ t₈ t₉ : CString,
      [t₁, t₂, t₃, t₄ ++ sql ++ t₅, t₆ ++ truncatedText figures ++ t₇, t₈].flatten ++ t₉ =
        unitsText [(t₁, []), (t₂, []), (t₃, []), (t₄, [])] ++ (sql ++
          unitsText [(t₅, []), (t₆, truncatedText figures), (t₇, []), (t₈, []), (t₉, [])]) := by
    intro t₁ t₂ t₃ t₄ t₅ t₆ t₇ t₈ t₉
    simp [unitsText]
  exact joins _ _ _ _ _ _ _ _ _

theorem made_midUnits : Made midTags (midUnits figures) := by
  have bare : '<' ∉ truncatedText figures := by
    rw [truncatedText]
    split <;> decide
  simp [Made, midUnits, midTags, bare]

/-- The head of the document leaves open what its SQL text does. -/
theorem absent_documentHead {needle : CString} (tag : Tag needle)
    (unlike : Unlike needle midTags = true) (absent : Absent needle (opened sql)) :
    Absent needle (opened (documentHead sql figures)) := by
  have row : Tag "<row ".toList := by decide
  have made := made_midUnits figures
  have mid := made.units (by decide)
  have front : TagUnits frontUnits := by
    rw [TagUnits, frontUnits]
    decide
  have apart : Differ "<row ".toList frontUnits := by
    rw [Differ, frontUnits]
    decide
  rw [opened, documentHead, row.skip_units front apart]
  cases found : strstr "<row ".toList sql with
  | none =>
    have nothing : strstr "<row ".toList (unitsText (midUnits figures)) = none :=
      row.absent_units mid (made.differ (by decide))
    rw [Absent.strstr_append found row (bracketed_unitsText mid), nothing]
    exact tag.absent_plain List.not_mem_nil
  | some q =>
    rw [opened, found] at absent
    rw [strstr_append_some found]
    exact absent.append tag (bracketed_unitsText mid) (tag.absent_units mid (made.differ unlike))

theorem endAppends_bracketed : Bracketed (xmlAppends (endAppends figures) []) := by
  have opening : Tag "<execution_envelope>\n".toList := by decide
  rw [endAppends, xmlAppends, if_pos (by decide)]
  exact opening.bracketed

def endTags : List CString :=
  ["<execution_envelope>\n".toList, "<num_rows>".toList, "</num_rows>\n".toList,
    "<execution_time_total>".toList, "</execution_time_total>\n".toList,
    "<fetch_batch_size>".toList, "</fetch_batch_size>\n".toList, "<blobs_extracted>".toList,
    "</blobs_extracted>\n".toList, "<clobs_extracted>".toList, "</clobs_extracted>\n".toList,
    "</execution_envelope>\n".toList, "</output_xml>\n".toList]

def figureUnits (figures : QueryFigures) : List (CString × CString) :=
  [("<execution_envelope>\n".toList, []),
    ("<num_rows>".toList, Nat.toDigits 10 figures.numRows), ("</num_rows>\n".toList, []),
    ("<execution_time_total>".toList, figures.elapsed), ("</execution_time_total>\n".toList, []),
    ("<fetch_batch_size>".toList, Nat.toDigits 10 figures.batchSize),
    ("</fetch_batch_size>\n".toList, []),
    ("<blobs_extracted>".toList, Nat.toDigits 10 figures.blobs), ("</blobs_extracted>\n".toList, []),
    ("<clobs_extracted>".toList, Nat.toDigits 10 figures.clobs), ("</clobs_extracted>\n".toList, []),
    ("</execution_envelope>\n".toList, []), ("</output_xml>\n".toList, [])]

theorem absent_endAppends : Absent "</row>".toList (xmlAppends (endAppends figures) []) := by
  have closing : Tag "</row>".toList := by decide
  have rows := digits_bare figures.numRows
  have batch := digits_bare figures.batchSize
  have blobs := digits_bare figures.blobs
  have clobs := digits_bare figures.clobs
  have made : Made endTags (figureUnits figures) := by
    simp [Made, figureUnits, endTags, rows, batch, blobs, clobs, figures.bare]
  have joins : ∀ t₁ t₂ t₃ t₄ t₅ t₆ t₇ t₈ t₉ u₁ u₂ u₃ u₄ a b c d e : CString,
      [t₁, t₂ ++ a ++ t₃, t₄ ++ b ++ t₅, t₆ ++ c ++ t₇, t₈ ++ d ++ t₉, u₁ ++ e ++ u₂, u₃,
        u₄].flatten = unitsText [(t₁, []), (t₂, a), (t₃, []), (t₄, b), (t₅, []), (t₆, c), (t₇, []),
          (t₈, d), (t₉, []), (u₁, e), (u₂, []), (u₃, []), (u₄, [])] := by
    intros
    simp [unitsText]
  have text : (endAppends figures).flatten = unitsText (figureUnits figures) :=
    joins _ _ _ _ _ _ _ _ _ _ _ _ _ _ _ _ _ _
  obtain ⟨rest, whole⟩ := xmlAppends_prefix (endAppends figures)
  have absent := closing.absent_units (made.units (by decide)) (made.differ (by decide))
  rw [← text, ← whole] at absent
  exact absent.of_append

theorem headAppends_fits (fits : (sqlPiece sql).length < xmlTempSize) :
    ∀ piece ∈ headAppends sql figures, piece.length < xmlTempSize := by
  have flag : (truncatedText figures).length ≤ 5 := by
    rw [truncatedText]
    split <;> decide
  have joins : ∀ {first last : CString}, first.length = 11 → last.length = 13 →
      (first ++ truncatedText figures ++ last).length < xmlTempSize := by
    intro first last before after
    rw [List.length_append, List.length_append, before, after, xmlTempSize]
    omega
  simp only [headAppends, List.forall_mem_cons, List.not_mem_nil, false_implies, implies_true,
    and_true]
  exact ⟨by decide, by decide, by decide, fits, joins rfl rfl, by decide⟩

/-- The document, up to the first row that does not fit. -/
theorem queryDocument_parts (cols : List ImageColumn) (rows : List ImageRow)
    (fits : (sqlPiece sql).length < xmlTempSize) (ints : rows.length < 2 ^ 31) :
    ∃ done later s, rows.zipIdx 1 = done ++ later ∧
      (later = [] ↔ ∀ row ∈ rows, FieldsFit cols row) ∧
      queryDocument sql cols rows figures =
        documentHead sql figures ++ (rowLines cols done ++ s) ∧
      Absent "</row>".toList s ∧ Bracketed s := by
  have numbers : ∀ entry ∈ rows.zipIdx 1, entry.2 < 2 ^ 31 := by
    intro entry member
    have last := List.snd_lt_add_of_mem_zipIdx member
    omega
  obtain ⟨done, later, s, split, whole, text, absent, opens⟩ :=
    rowsAppends_parts cols (rows.zipIdx 1) numbers
  have closing : Tag "</row>".toList := by decide
  refine ⟨done, later, s ++ xmlAppends (endAppends figures) [], split, ?_, ?_, ?_, ?_⟩
  · rw [whole]
    constructor
    · intro all row member
      have listed : row ∈ (rows.zipIdx 1).map Prod.fst := by rwa [List.zipIdx_map_fst]
      obtain ⟨entry, inside, rfl⟩ := List.mem_map.mp listed
      exact all entry inside
    · intro all entry member
      exact all entry.1 (List.fst_mem_of_mem_zipIdx member)
  · have opening : resultsetXml cols rows =
        "<resultset>\n".toList ++ (rowLines cols done ++ s) := by
      rw [resultsetXml, List.singleton_append, xmlAppends, if_pos (by decide), text]
    rw [queryDocument, xmlAppends_whole (headAppends_fits sql figures fits), opening,
      ← headAppends_flatten]
    simp only [List.append_assoc]
  · exact absent.append closing (endAppends_bracketed figures) (absent_endAppends figures)
  · have first : Bracketed s := .inr opens
    exact first.append (endAppends_bracketed figures)

end Envelopes

section Image

/-- The old value of each text that the database holds in the matched rows is that text. -/
def Returned (cols : List ImageColumn) (rows : List ImageRow) : Option BeforeImage → Prop
  | none => rows = []
  | some image => image.rowCount = rows.length ∧
      ∀ r c row col held, rows[r]? = some row → cols[c]? = some col →
        (row (folded col.name)).held = some held → (image.get r c).value = held

def fetchedImage (sql : CString) (cols : List ImageColumn) (rows : List ImageRow)
    (figures : QueryFigures) : Option BeforeImage :=
  auditTrailFetchBeforeImage (cols.map ImageColumn.name) (some (queryDocument sql cols rows figures))

/-- The SQL text is not cut, and where it looks like a row it neither ends nor fills it. -/
structure Clean (sql : CString) : Prop where
  fits : (sqlPiece sql).length < xmlTempSize
  row : Absent "</row>".toList (opened sql)
  field : Absent "<field>".toList (opened sql)

def Plain (s : CString) : Prop := ∀ c ∈ s, c ∉ ['&', '<', '>', '"', '\'']

instance (s : CString) : Decidable (Plain s) :=
  List.decidableBAll (fun c => c ∉ ['&', '<', '>', '"', '\'']) s

/-- The text put in the field is the one held, in full, without a character that is escaped; or it
is another one, the escape of which is the one held. -/
def Kept (put held : CString) : Prop :=
  strncpyField 4096 put = held ∧ Plain held ∨
    strncpyField 4096 put ≠ held ∧ xmlEscape (strncpyField 4096 put) = held

def ImageCell.Kept : ImageCell → Prop
  | .text put held => Audit.Kept put held
  | .blob _ => True

def RowKept (cols : List ImageColumn) (row : ImageRow) : Prop :=
  FieldsFit cols row ∧ ∀ col ∈ cols, (row (folded col.name)).Kept

variable {sql : CString} {cols : List ImageColumn} {rows : List ImageRow} {figures : QueryFigures}

theorem fetchedImage_eq (cols : List ImageColumn) (figures : QueryFigures) (clean : Clean sql) (ints : rows.length < 2 ^ 31) :
    ∃ done later, rows = done ++ later ∧ (later = [] ↔ ∀ row ∈ rows, FieldsFit cols row) ∧
      (fetchedImage sql cols rows figures = none ∧ done = [] ∨
        fetchedImage sql cols rows figures = some ⟨cols.length, done.map fun row =>
          cols.map fun col => shownOld (row (folded col.name))⟩) := by
  obtain ⟨done, later, s, split, whole, text, absent, bracket⟩ :=
    queryDocument_parts sql figures cols rows clean.fits ints
  have row : Tag "</row>".toList := by decide
  have field : Tag "<field>".toList := by decide
  have rowClean := absent_documentHead sql figures row (by decide) clean.row
  have fieldClean := absent_documentHead sql figures field (by decide) clean.field
  have counted := length_le_occurrences cols done (documentHead sql figures) s
  have parts : rows = done.map Prod.fst ++ later.map Prod.fst := by
    rw [← List.map_append, ← split, List.zipIdx_map_fst]
  refine ⟨done.map Prod.fst, later.map Prod.fst, parts, ?_, ?_⟩
  · rw [List.map_eq_nil_iff, whole]
  · rw [fetchedImage, auditTrailFetchBeforeImage, text, Option.bind_eq_bind, Option.bind_some]
    dsimp only
    split
    next nothing =>
      left
      refine ⟨rfl, ?_⟩
      rw [nothing, Nat.le_zero, List.length_eq_zero_iff] at counted
      rw [counted, List.map_nil]
    next =>
      right
      rw [rowTexts_rowLines cols done rowClean fieldClean absent bracket counted, List.length_map,
        List.map_map]
      rfl

theorem xmlEscape_eq_self_iff (s : CString) : xmlEscape s = s ↔ Plain s := by
  constructor
  · intro same c member special
    have long : s.length < (xmlEscape s).length := by
      clear same
      induction s with
      | nil => cases member
      | cons d s ih =>
        have most := (xmlEscapeChar_length d).1
        have rest : s.length ≤ (xmlEscape s).length := by
          clear ih member
          induction s with
          | nil => exact Nat.le_refl 0
          | cons e s ih =>
            have one := (xmlEscapeChar_length e).1
            rw [xmlEscape, List.flatMap_cons, List.length_append, ← xmlEscape, List.length_cons]
            omega
        rw [xmlEscape, List.flatMap_cons, List.length_append, ← xmlEscape, List.length_cons]
        rcases List.mem_cons.mp member with rfl | later
        · have grown : 1 < (xmlEscapeChar c).length := by
            simp only [List.mem_cons, List.not_mem_nil, or_false] at special
            rcases special with rfl | rfl | rfl | rfl | rfl <;> decide
          omega
        · have more := ih later
          omega
    rw [same] at long
    exact Nat.lt_irrefl _ long
  · intro plain
    induction s with
    | nil => rfl
    | cons c s ih =>
      rw [Plain, List.forall_mem_cons] at plain
      have single : xmlEscapeChar c = [c] := by
        have others := plain.1
        simp only [List.mem_cons, List.not_mem_nil, or_false, not_or] at others
        simp [xmlEscapeChar, others]
      rw [xmlEscape, List.flatMap_cons, ← xmlEscape, single, ih plain.2]
      rfl

theorem kept_iff (put held : CString) :
    Kept put held ↔ xmlEscape (strncpyField 4096 put) = held := by
  rw [Kept]
  constructor
  · rintro (⟨same, plain⟩ | ⟨-, escaped⟩)
    · rw [same]
      exact (xmlEscape_eq_self_iff held).mpr plain
    · exact escaped
  · intro escaped
    by_cases same : strncpyField 4096 put = held
    · rw [same] at escaped
      exact .inl ⟨same, (xmlEscape_eq_self_iff held).mp escaped⟩
    · exact .inr ⟨same, escaped⟩

theorem ImageCell.kept_iff (cell : ImageCell) :
    cell.Kept ↔ ∀ held, cell.held = some held → (shownOld cell).value = held := by
  cases cell with
  | text put held =>
    simp only [ImageCell.Kept, ImageCell.held, Option.some.injEq, forall_eq', shownOld, shownValue]
    exact Audit.kept_iff put held
  | blob => simp [ImageCell.Kept, ImageCell.held]

theorem returned_iff (clean : Clean sql) (ints : rows.length < 2 ^ 31) :
    Returned cols rows (fetchedImage sql cols rows figures) ↔ ∀ row ∈ rows, RowKept cols row := by
  obtain ⟨done, later, rfl, whole, image⟩ := fetchedImage_eq cols figures clean ints
  generalize fetchedImage sql cols (done ++ later) figures = fetched at image ⊢
  by_cases fits : ∀ row ∈ done ++ later, FieldsFit cols row
  · obtain rfl := whole.mpr fits
    rw [List.append_nil] at fits ⊢
    have values : (∀ row ∈ done, RowKept cols row) ↔
        ∀ row ∈ done, ∀ col ∈ cols, (row (folded col.name)).Kept :=
      ⟨fun all row member => (all row member).2, fun all row member => ⟨fits row member, all row member⟩⟩
    rcases image with ⟨rfl, rfl⟩ | rfl
    · rw [values]
      simp [Returned]
    · rw [values]
      constructor
      · rintro ⟨-, told⟩ row member col inside
        obtain ⟨r, found⟩ := List.mem_iff_getElem?.mp member
        obtain ⟨c, named⟩ := List.mem_iff_getElem?.mp inside
        refine (ImageCell.kept_iff _).mpr fun held holds => ?_
        have value := told r c row col held found named holds
        simpa [BeforeImage.get, found, named] using value
      · intro kept
        refine ⟨by simp [BeforeImage.rowCount], ?_⟩
        intro r c row col held found named holds
        have value := (ImageCell.kept_iff _).mp (kept row (List.mem_of_getElem? found) col
          (List.mem_of_getElem? named)) held holds
        simpa [BeforeImage.get, found, named] using value
  · have fewer : later ≠ [] := fun all => fits (whole.mp all)
    have short := List.length_pos_of_ne_nil fewer
    constructor
    · intro returned
      rcases image with ⟨rfl, rfl⟩ | rfl
      · exact absurd (List.append_eq_nil_iff.mp returned).2 fewer
      · have count := returned.1
        simp only [BeforeImage.rowCount, List.length_map, List.length_append] at count
        omega
    · intro kept
      exact (fits fun row member => (kept row member).1).elim

end Image

section Mistaken

variable {sql : CString} {cols : List ImageColumn} {rows : List ImageRow} {figures : QueryFigures}

/-- An element that a text holds is cut out of it whatever follows. -/
theorem element_append {opening closing s q : CString} (found : strstr opening s = some q)
    (ended : (strstr closing q).isSome = true) (z : CString) :
    ∃ text r, element opening closing (s ++ z) = some (text, r ++ z) := by
  obtain ⟨t, stop⟩ := Option.isSome_iff_exists.mp ended
  obtain ⟨w, rfl⟩ := strstr_suffix stop
  have room : closing.length ≤ t.length :=
    ((strstr_isSome_iff closing t).mp (by rw [strstr_self stop]; rfl)).length_le
  have longer := strstr_append_some (s := z) stop
  refine ⟨(w ++ t ++ z).take (w.length + closing.length), t.drop closing.length, ?_⟩
  have count : (w ++ t ++ z).length - (t ++ z).length + closing.length =
      w.length + closing.length := by
    simp only [List.length_append]
    omega
  rw [element, strstr_append_some found, Option.bind_eq_bind, Option.bind_some, longer,
    Option.bind_some]
  dsimp only
  rw [count, List.append_assoc w, ← List.drop_drop, List.drop_left,
    List.drop_append_of_le_length room]

theorem element_rowXml (cols : List ImageColumn) (number : Nat) (row : ImageRow) (p s : CString) :
    ∃ text r, element "<row ".toList "</row>".toList (p ++ (rowXml cols number row ++ s)) =
      some (text, r ++ s) := by
  obtain ⟨rest, starts⟩ := rowBody_starts cols number row
  have opening : Tag "<row ".toList := by decide
  obtain ⟨u, found⟩ := strstr_reaches opening p (rest ++ "</row>".toList)
  have ended : (strstr "</row>".toList
      (u ++ ("<row ".toList ++ (rest ++ "</row>".toList)))).isSome = true := by
    rw [strstr_isSome_iff]
    refine ⟨u ++ ("<row ".toList ++ rest), [], ?_⟩
    simp only [List.append_assoc, List.append_nil]
  have cut := element_append found ended s
  rw [rowXml, starts]
  simpa only [List.append_assoc] using cut

theorem length_le_rowTexts (cols : List ImageColumn) (rows : List (ImageRow × Nat)) {fuel : Nat}
    (p s : CString) (room : rows.length ≤ fuel) :
    rows.length ≤ (rowTexts fuel (p ++ (rowLines cols rows ++ s))).length := by
  induction rows generalizing p fuel with
  | nil => exact Nat.zero_le _
  | cons entry rows ih =>
    obtain ⟨fuel, rfl⟩ : ∃ n, fuel = n + 1 := by
      rw [List.length_cons] at room
      exact ⟨fuel - 1, by omega⟩
    have split : p ++ (rowLines cols (entry :: rows) ++ s) =
        p ++ (rowXml cols entry.2 entry.1 ++ (['\n'] ++ (rowLines cols rows ++ s))) := by
      simp only [rowLines, List.flatMap_cons, List.append_assoc]
    obtain ⟨text, r, cut⟩ := element_rowXml cols entry.2 entry.1 p
      (['\n'] ++ (rowLines cols rows ++ s))
    have later := ih (r ++ ['\n']) (Nat.le_of_succ_le_succ room)
    rw [split, rowTexts, cut]
    dsimp only
    rw [List.length_cons, List.length_cons, ← List.append_assoc]
    exact Nat.succ_le_succ later

/-- A row that the SQL text ends is returned as one more. -/
theorem row_in_sql (fits : (sqlPiece sql).length < xmlTempSize) (ints : rows.length < 2 ^ 31)
    (whole : ∀ row ∈ rows, FieldsFit cols row) (ended : ¬Absent "</row>".toList (opened sql)) :
    ¬Returned cols rows (fetchedImage sql cols rows figures) := by
  obtain ⟨done, later, s, split, all, text, -, -⟩ :=
    queryDocument_parts sql figures cols rows fits ints
  obtain rfl := all.mpr whole
  rw [List.append_nil] at split
  have counted : done.length = rows.length := by rw [← split, List.length_zipIdx]
  have row : Tag "<row ".toList := by decide
  have front : TagUnits frontUnits := by
    rw [TagUnits, frontUnits]
    decide
  have apart : Differ "<row ".toList frontUnits := by
    rw [Differ, frontUnits]
    decide
  cases found : strstr "<row ".toList sql with
  | none =>
    rw [opened, found] at ended
    exact absurd (by decide) ended
  | some q =>
    rw [opened, found, Option.getD_some, Absent, ← ne_eq, Option.ne_none_iff_isSome] at ended
    let z := unitsText (midUnits figures) ++ (rowLines cols done ++ s)
    have document : documentHead sql figures ++ (rowLines cols done ++ s) =
        (unitsText frontUnits ++ sql) ++ z := by
      simp only [documentHead, z, List.append_assoc]
    have reached : strstr "<row ".toList (unitsText frontUnits ++ sql) = some q := by
      rw [row.skip_units front apart, found]
    obtain ⟨r, u, cut⟩ := element_append reached ended z
    have more : done.length < occurrences "<row ".toList ((unitsText frontUnits ++ sql) ++ z) := by
      obtain ⟨w, head⟩ := strstr_suffix reached
      obtain ⟨tail, rfl⟩ := strstr_starts reached
      have first := occurrences_here row.ne_nil (tail ++ z)
      have rest := length_le_occurrences cols done (tail ++ unitsText (midUnits figures)) s
      have kept := occurrences_append "<row ".toList w ("<row ".toList ++ (tail ++ z))
      rw [← head]
      simp only [z, List.append_assoc] at first rest kept ⊢
      omega
    rw [fetchedImage, auditTrailFetchBeforeImage, text, document, Option.bind_eq_bind,
      Option.bind_some]
    dsimp only
    generalize occurrences "<row ".toList ((unitsText frontUnits ++ sql) ++ z) = fuel at *
    obtain ⟨fuel, rfl⟩ : ∃ n, fuel = n + 1 := ⟨fuel - 1, by omega⟩
    have later := length_le_rowTexts cols done (u ++ unitsText (midUnits figures)) s
      (Nat.le_of_lt_succ more)
    rw [if_neg (Nat.succ_ne_zero fuel), rowTexts, cut]
    intro returned
    have count := returned.1
    simp only [BeforeImage.rowCount, List.length_map, List.length_cons] at count
    simp only [z, List.append_assoc] at count later
    omega

theorem occurrences_absent {needle s : CString} (absent : Absent needle s) :
    occurrences needle s = 0 := by
  induction s with
  | nil => rfl
  | cons c s ih =>
    obtain ⟨starts, rest⟩ := absent_cons.mp absent
    rw [occurrences, if_neg (by rwa [List.isPrefixOf_iff_prefix]), ih rest]

/-- Nothing is returned when the SQL text is cut. -/
theorem sql_cut (cut : ¬(sqlPiece sql).length < xmlTempSize) (absent : Absent "<row ".toList sql)
    (filled : rows ≠ []) : ¬Returned cols rows (fetchedImage sql cols rows figures) := by
  have row : Tag "<row ".toList := by decide
  let pieces := ["<?xml version=\"1.0\" encoding=\"UTF-8\"?>\n".toList, "<output_xml>\n".toList,
    "<execution_envelope>\n".toList, sqlPiece sql]
  have long : ∃ piece ∈ pieces, xmlTempSize ≤ piece.length :=
    ⟨sqlPiece sql, by simp [pieces], Nat.not_lt.mp cut⟩
  have split : headAppends sql figures = pieces ++
      ["<truncated>".toList ++ truncatedText figures ++ "</truncated>\n".toList,
        "</execution_envelope>\n".toList] := rfl
  have front : TagUnits frontUnits := by
    rw [TagUnits, frontUnits]
    decide
  have apart : Differ "<row ".toList frontUnits := by
    rw [Differ, frontUnits]
    decide
  have flat : pieces.flatten = unitsText frontUnits ++ (sql ++ "</sql_query>\n".toList) := by
    have joins : ∀ t₁ t₂ t₃ t₄ t₅ : CString, [t₁, t₂, t₃, t₄ ++ sql ++ t₅].flatten =
        unitsText [(t₁, []), (t₂, []), (t₃, []), (t₄, [])] ++ (sql ++ t₅) := by
      intro t₁ t₂ t₃ t₄ t₅
      simp [unitsText]
    exact joins _ _ _ _ _
  have nothing : Absent "<row ".toList (xmlAppends pieces []) := by
    obtain ⟨rest, whole⟩ := xmlAppends_prefix pieces
    have all : Absent "<row ".toList pieces.flatten := by
      rw [flat, Absent, row.skip_units front apart]
      exact absent.append row (.inr rfl) (by decide)
    rw [← whole] at all
    exact all.of_append
  rw [fetchedImage, auditTrailFetchBeforeImage, queryDocument, split, xmlAppends_cut long,
    Option.bind_eq_bind, Option.bind_some]
  dsimp only
  rw [occurrences_absent nothing, if_pos rfl]
  exact filled

/-- The old values are the texts held, for a SELECT that looks like no row itself, exactly when each
field of the rows keeps its text. -/
theorem old_values_returned_iff (ints : rows.length < 2 ^ 31) :
    (Clean sql → (Returned cols rows (fetchedImage sql cols rows figures) ↔
      ∀ row ∈ rows, RowKept cols row)) ∧
    ((sqlPiece sql).length < xmlTempSize → (∀ row ∈ rows, FieldsFit cols row) →
      ¬Absent "</row>".toList (opened sql) →
        ¬Returned cols rows (fetchedImage sql cols rows figures)) ∧
    (¬(sqlPiece sql).length < xmlTempSize → Absent "<row ".toList sql → rows ≠ [] →
      ¬Returned cols rows (fetchedImage sql cols rows figures)) :=
  ⟨fun clean => returned_iff clean ints, fun fits whole ended => row_in_sql fits ints whole ended,
    sql_cut⟩

def nameColumn : ImageColumn where
  name := "name".toList
  reported := "NAME".toList
  typeName := "VARCHAR2".toList
  matched := by decide
  filled := by decide
  kept := by decide
  plain := by decide

def oneRow : QueryFigures where
  truncated := false
  numRows := 1
  elapsed := "0.001000".toList
  batchSize := 100
  blobs := 0
  clobs := 0
  bare := by decide

def nameSelect : CString := "SELECT name FROM T WHERE ID = '1'".toList

def nameRow (name : CString) : ImageRow := fun _ => .text name name

theorem old_values_returned_name : Returned [nameColumn] [nameRow "Ann".toList]
    (fetchedImage nameSelect [nameColumn] [nameRow "Ann".toList] oneRow) := by
  have fits : (xmlAddField (cellField nameColumn "Ann".toList)).length < xmlTempSize := by
    decide +kernel
  have clean : Clean nameSelect := ⟨by decide +kernel, by decide +kernel, by decide +kernel⟩
  have kept : ∀ row ∈ [nameRow "Ann".toList], RowKept [nameColumn] row := by
    intro row member
    rw [List.mem_singleton.mp member]
    constructor
    · intro col inside piece added
      rw [List.mem_singleton.mp inside, nameRow, cellAppends, List.mem_singleton] at added
      rw [added]
      exact fits
    · intro col inside
      exact .inl ⟨by decide, by decide⟩
  have ints : [nameRow "Ann".toList].length < 2 ^ 31 := by
    rw [List.length_singleton]
    exact Nat.one_lt_two_pow (by decide)
  have returned :=
    (@old_values_returned_iff nameSelect [nameColumn] [nameRow "Ann".toList] oneRow ints).1 clean
  rw [returned]
  exact kept

theorem escaped_value_is_returned : ¬Returned [nameColumn] [nameRow "a<b".toList]
    (fetchedImage nameSelect [nameColumn] [nameRow "a<b".toList] oneRow) := by
  have image : fetchedImage nameSelect [nameColumn] [nameRow "a<b".toList] oneRow =
      some ⟨1, [[⟨"a&lt;b".toList, false⟩]]⟩ := by decide +kernel
  rw [image]
  intro returned
  have value := returned.2 0 0 (nameRow "a<b".toList) nameColumn "a<b".toList rfl rfl rfl
  exact absurd value (by decide)

end Mistaken

end OciWrapper.Audit
