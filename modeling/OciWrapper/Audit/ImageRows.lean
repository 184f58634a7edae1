import OciWrapper.Audit.ImageFields

namespace OciWrapper.Audit

open OciWrapper.Text OciWrapper.Core OciWrapper.Execute OciWrapper.Dml

/-- The cells of a row, with their columns. -/
def rowCells (cols : List ImageColumn) (row : ImageRow) : List (ImageColumn × ImageCell) :=
  cols.map fun col => (col, row (folded col.name))

def rowStart (number : Nat) : CString :=
  "<row number=\"".toList ++ Nat.toDigits 10 number ++ "\">\n".toList

def rowBody (cols : List ImageColumn) (number : Nat) (row : ImageRow) : CString :=
  rowStart number ++ fieldLines (rowCells cols row)

def rowXml (cols : List ImageColumn) (number : Nat) (row : ImageRow) : CString :=
  rowBody cols number row ++ "</row>".toList

/-- A line for the end of each row. -/
def rowLines (cols : List ImageColumn) (rows : List (ImageRow × Nat)) : CString :=
  rows.flatMap fun entry => rowXml cols entry.2 entry.1 ++ ['\n']

/-- What a text leaves to the row behind it: from the first that looks like a row on. -/
def opened (s : CString) : CString := (strstr "<row ".toList s).getD []

section Rows

variable (cols : List ImageColumn) (number : Nat) (row : ImageRow)

theorem cells_flatten : (cols.flatMap fun col => cellAppends col (row (folded col.name))).flatten =
    fieldLines (rowCells cols row) := by
  induction cols with
  | nil => rfl
  | cons col cols ih =>
    rw [List.flatMap_cons, List.flatten_append, cell_line, ih]
    rfl

theorem rowAppends_flatten :
    (rowAppends cols number row).flatten = rowXml cols number row ++ ['\n'] := by
  have joins : ∀ (start : CString) (pieces : List CString) {last stop lines : CString},
      last = stop ++ ['\n'] → pieces.flatten = lines →
        ([start] ++ pieces ++ [last]).flatten = start ++ lines ++ stop ++ ['\n'] := by
    rintro start pieces _ stop _ rfl rfl
    simp
  exact joins (rowStart number) _ rfl (cells_flatten cols row)

def rowTags : List CString := "<row ".toList :: "</field>".toList :: (nameTags ++ bodyTags)

def rowUnits : List (CString × CString) :=
  ("<row ".toList, "number=\"".toList ++ Nat.toDigits 10 number ++ "\">\n".toList) ::
    (rowCells cols row).flatMap fun entry =>
      nameUnits entry.1 ++ bodyUnits entry.1 entry.2 ++ endUnits

theorem fieldLines_units (cells : List (ImageColumn × ImageCell)) : fieldLines cells =
    unitsText (cells.flatMap fun entry =>
      nameUnits entry.1 ++ bodyUnits entry.1 entry.2 ++ endUnits) := by
  induction cells with
  | nil => rfl
  | cons entry cells ih =>
    rw [List.flatMap_cons, unitsText_append, ← ih, ← cellAppends_flatten, cell_line]
    rfl

theorem rowBody_units : rowBody cols number row = unitsText (rowUnits cols number row) := by
  rw [rowBody, fieldLines_units, rowUnits, unitsText_cons]
  rfl

theorem made_rowUnits : Made rowTags (rowUnits cols number row) := by
  have digits := digits_bare number
  intro u member
  rcases List.mem_cons.mp member with rfl | inside
  · refine ⟨List.mem_cons_self, ?_⟩
    simp [digits]
  · obtain ⟨entry, -, inside⟩ := List.mem_flatMap.mp inside
    have ended : u ∈ endUnits → u.1 ∈ rowTags ∧ '<' ∉ u.2 := by
      intro last
      rw [List.mem_singleton.mp last]
      decide
    rcases List.mem_append.mp inside with front | last
    · rcases List.mem_append.mp front with name | body
      · have made := made_nameUnits entry.1 u name
        exact ⟨List.mem_cons_of_mem _ (List.mem_cons_of_mem _
          (List.mem_append_left bodyTags made.1)), made.2⟩
      · have made := made_bodyUnits entry.1 entry.2 u body
        exact ⟨List.mem_cons_of_mem _ (List.mem_cons_of_mem _
          (List.mem_append_right nameTags made.1)), made.2⟩
    · exact ended last

theorem absent_rowBody : Absent "</row>".toList (rowBody cols number row) := by
  have closing : Tag "</row>".toList := by decide
  have made := made_rowUnits cols number row
  rw [rowBody_units]
  exact closing.absent_units (made.units (by decide)) (made.differ (by decide))

theorem rowBody_starts : ∃ rest, rowBody cols number row = "<row ".toList ++ rest := by
  rw [rowBody_units, rowUnits, unitsText_cons, List.append_assoc]
  exact ⟨_, rfl⟩

/-- A row is cut out with what stands open before it. -/
theorem element_row {p s : CString} (clean : Absent "</row>".toList (opened p)) :
    element "<row ".toList "</row>".toList (p ++ (rowXml cols number row ++ s)) =
      some (opened p ++ rowXml cols number row, s) := by
  obtain ⟨rest, starts⟩ := rowBody_starts cols number row
  have opening : Tag "<row ".toList := by decide
  have closing : Tag "</row>".toList := by decide
  have bracket : Bracketed (rowBody cols number row ++ ("</row>".toList ++ s)) := by
    rw [starts, List.append_assoc]
    exact opening.bracketed
  have inside : strstr "</row>".toList
      ((opened p ++ rowBody cols number row) ++ ("</row>".toList ++ s)) =
        some ("</row>".toList ++ s) := by
    rw [List.append_assoc, clean.strstr_append closing bracket,
      (absent_rowBody cols number row).strstr_append closing closing.bracketed,
      strstr_here s closing]
  have split : p ++ (rowXml cols number row ++ s) =
      p ++ (rowBody cols number row ++ ("</row>".toList ++ s)) := by
    rw [rowXml, List.append_assoc]
  have parted : opened p ++ rowXml cols number row =
      (opened p ++ rowBody cols number row) ++ "</row>".toList := by
    rw [rowXml, List.append_assoc]
  rw [parted, split]
  cases found : strstr "<row ".toList p with
  | none =>
    have nothing : opened p = [] := by rw [opened, found, Option.getD_none]
    rw [nothing, List.nil_append] at inside ⊢
    refine element_eq ?_ inside
    rw [Absent.strstr_append found opening bracket, starts, List.append_assoc,
      strstr_here _ opening]
  | some q =>
    have rest : opened p = q := by rw [opened, found, Option.getD_some]
    rw [rest] at inside ⊢
    have whole := strstr_append_some (s := rowBody cols number row ++ ("</row>".toList ++ s)) found
    obtain ⟨front, rfl⟩ := strstr_suffix found
    rw [List.append_assoc, ← List.append_assoc q] at whole
    rw [List.append_assoc, ← List.append_assoc q]
    exact element_eq whole inside

/-- What is returned for a cell. -/
def shownOld (cell : ImageCell) : OldValue := ⟨shownValue cell, shownValue cell = []⟩

theorem findFieldValueInRow_rowXml {col : ImageColumn} (member : col ∈ cols) {p : CString}
    (clean : Absent "<field>".toList p) :
    findFieldValueInRow (p ++ rowXml cols number row) col.name =
      some (shownValue (row (folded col.name))) := by
  have opening : Tag "<field>".toList := by decide
  have start : Absent "<field>".toList (rowStart number) := by
    have other : Tag "<row ".toList := by decide
    have digits := digits_bare number
    have apart := opening.absent_other other (by decide)
      (p := "number=\"".toList ++ Nat.toDigits 10 number ++ "\">\n".toList) (by simp [digits])
    exact apart
  have bracket : Bracketed (rowStart number) := .inr rfl
  have split : p ++ rowXml cols number row =
      (p ++ rowStart number) ++ (fieldLines (rowCells cols row) ++ "</row>".toList) := by
    rw [rowXml, rowBody, List.append_assoc, List.append_assoc]
  have closing : Bracketed "</row>".toList := .inr rfl
  have room : (rowCells cols row).length < (p ++ rowXml cols number row).length + 1 := by
    have lines : ∀ cells, cells.length ≤ (fieldLines cells).length := by
      intro cells
      induction cells with
      | nil => exact Nat.le_refl 0
      | cons entry cells ih =>
        rw [fieldLines, List.flatMap_cons, List.length_append, ← fieldLines]
        simp only [List.length_append, List.length_cons]
        omega
    have enough := lines (rowCells cols row)
    rw [split]
    simp only [List.length_append]
    omega
  rw [findFieldValueInRow, split, findFieldLoop_fieldLines col.name (rowCells cols row)
    (clean.append opening bracket start) (by decide) closing (split ▸ room)]
  cases found : (rowCells cols row).find? fun entry => strcasecmp entry.1.reported col.name with
  | none =>
    have same := List.find?_eq_none.mp found _ (List.mem_map_of_mem member)
    exact absurd col.matched same
  | some entry =>
    obtain ⟨other, -, rfl⟩ := List.mem_map.mp (List.mem_of_find?_eq_some found)
    have named := List.find?_some found
    -- Two columns of one name hold the same cell.
    have same : folded other.name = folded col.name := by
      rw [← strcasecmp_iff.mp other.matched]
      exact strcasecmp_iff.mp named
    rw [Option.map_some, same]

theorem oldValueOf_rowXml {col : ImageColumn} (member : col ∈ cols) {p : CString}
    (clean : Absent "<field>".toList p) :
    oldValueOf (p ++ rowXml cols number row) col.name = shownOld (row (folded col.name)) := by
  rw [oldValueOf, findFieldValueInRow_rowXml cols number row member clean]
  rfl

end Rows

section Scan

variable (cols : List ImageColumn)

/-- The old values of the rows, whatever stands open before the first. -/
theorem rowTexts_rowLines (rows : List (ImageRow × Nat)) {p s : CString} {fuel : Nat}
    (rowClean : Absent "</row>".toList (opened p)) (fieldClean : Absent "<field>".toList (opened p))
    (behind : Absent "</row>".toList s) (bracket : Bracketed s) (room : rows.length ≤ fuel) :
    ((rowTexts fuel (p ++ (rowLines cols rows ++ s))).map fun text =>
        (cols.map ImageColumn.name).map (oldValueOf text)) =
      rows.map fun entry => cols.map fun col => shownOld (entry.1 (folded col.name)) := by
  have opening : Tag "<row ".toList := by decide
  have closing : Tag "</row>".toList := by decide
  induction rows generalizing p fuel with
  | nil =>
    cases fuel with
    | zero => rfl
    | succ fuel =>
      have nothing : element "<row ".toList "</row>".toList (p ++ s) = none := by
        rw [element]
        cases found : strstr "<row ".toList p with
        | none =>
          rw [Absent.strstr_append found opening bracket]
          cases later : strstr "<row ".toList s with
          | none => rfl
          | some t =>
            obtain ⟨front, rfl⟩ := strstr_suffix later
            have absent : strstr "</row>".toList t = none := behind.right
            rw [Option.bind_eq_bind, Option.bind_some, absent]
            rfl
        | some q =>
          have rest : opened p = q := by rw [opened, found, Option.getD_some]
          have absent : strstr "</row>".toList (q ++ s) = none :=
            (rest ▸ rowClean).append closing bracket behind
          rw [strstr_append_some found, Option.bind_eq_bind, Option.bind_some, absent]
          rfl
      have split : p ++ (rowLines cols [] ++ s) = p ++ s := rfl
      rw [split, rowTexts, nothing]
      rfl
  | cons entry rows ih =>
    obtain ⟨fuel, rfl⟩ : ∃ n, fuel = n + 1 := by
      rw [List.length_cons] at room
      exact ⟨fuel - 1, by omega⟩
    have split : p ++ (rowLines cols (entry :: rows) ++ s) =
        p ++ (rowXml cols entry.2 entry.1 ++ (['\n'] ++ (rowLines cols rows ++ s))) := by
      simp only [rowLines, List.flatMap_cons, List.append_assoc]
    have line : opened ['\n'] = [] := by decide
    have later := ih (p := ['\n']) (by rw [line]; decide) (by rw [line]; decide)
      (Nat.le_of_succ_le_succ room)
    rw [split, rowTexts, element_row cols entry.2 entry.1 rowClean]
    dsimp only
    rw [List.map_cons, List.map_cons, later, List.map_map]
    congr 1
    refine List.map_congr_left fun col member => ?_
    exact oldValueOf_rowXml cols entry.2 entry.1 member fieldClean

theorem occurrences_append (needle p s : CString) :
    occurrences needle s ≤ occurrences needle (p ++ s) := by
  induction p with
  | nil => exact Nat.le_refl _
  | cons c p ih =>
    rw [List.cons_append, occurrences]
    omega

theorem occurrences_here {needle : CString} (filled : needle ≠ []) (s : CString) :
    occurrences needle s < occurrences needle (needle ++ s) := by
  obtain ⟨c, n, rfl⟩ := List.exists_cons_of_ne_nil filled
  have starts : (c :: n).isPrefixOf (c :: (n ++ s)) = true :=
    List.isPrefixOf_iff_prefix.mpr (List.prefix_append (c :: n) s)
  have rest := occurrences_append (c :: n) n s
  rw [List.cons_append, occurrences, if_pos starts]
  omega

theorem length_le_occurrences (rows : List (ImageRow × Nat)) (p s : CString) :
    rows.length ≤ occurrences "<row ".toList (p ++ (rowLines cols rows ++ s)) := by
  refine Nat.le_trans ?_ (occurrences_append _ p _)
  induction rows with
  | nil => exact Nat.zero_le _
  | cons entry rows ih =>
    obtain ⟨rest, starts⟩ := rowBody_starts cols entry.2 entry.1
    have split : rowLines cols (entry :: rows) ++ s = "<row ".toList ++
        ((rest ++ "</row>".toList ++ ['\n']) ++ (rowLines cols rows ++ s)) := by
      rw [rowLines, List.flatMap_cons, rowXml, starts]
      simp only [rowLines, List.append_assoc]
    have opening : Tag "<row ".toList := by decide
    have more := occurrences_here opening.ne_nil
      ((rest ++ "</row>".toList ++ ['\n']) ++ (rowLines cols rows ++ s))
    have kept := occurrences_append "<row ".toList (rest ++ "</row>".toList ++ ['\n'])
      (rowLines cols rows ++ s)
    rw [split, List.length_cons]
    omega

end Scan

end OciWrapper.Audit
