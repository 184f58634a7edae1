import OciWrapper.Audit.SnapshotLast

namespace OciWrapper.Audit

open OciWrapper.Text

/-- What stands before the value of a field. -/
def headText (started : Bool) (name : CString) : CString :=
  (if started then ['|'] else []) ++ columnName name ++ ['=']

/-- The fields from the `n`th byte on: every value but the last is clear, and there is room for all
names and values. -/
def RowFits (destMax : Nat) : Bool → Nat → List (CString × CString) → Prop
  | _, _, [] => True
  | started, n, (name, val) :: fields =>
    n + (headText started name).length < destMax ∧
      if fields = [] then LastFits (destMax - 1 - (n + (headText started name).length)) val
      else (val ≠ [] → Clear val) ∧
        RowFits destMax true (n + (headText started name).length + (fieldText val).length) fields

/-- The fields are written, and no others are written like them. -/
def RowUnique (destMax : Nat) (started : Bool) (dest : CString) (names vals : List CString) : Prop :=
  ∃ out, serialiseLoop destMax started dest (names.zip vals) = some out ∧
    ∀ others : List CString, others.length = names.length →
      (∀ val ∈ others, val.length < auditMaxColValue) →
      serialiseLoop destMax started dest (names.zip others) = some out → others = vals

section Loop

variable {destMax : Nat} {started : Bool} {dest name : CString}

/-- A name that does not fit ends the text, whatever the values are. -/
theorem serialiseLoop_stop (full : ¬dest.length + (headText started name).length < destMax) :
    ∃ rest, (rest = [] ∨ (started = true ∧ rest = ['|'])) ∧ ∀ val fields,
      serialiseLoop destMax started dest ((name, val) :: fields) = some (dest ++ rest) := by
  by_cases separator : started = true ∧ destMax ≤ dest.length + 1
  · refine ⟨[], .inl rfl, fun val fields => ?_⟩
    rw [serialiseLoop, if_pos separator, List.append_nil]
  · cases started with
    | false =>
      refine ⟨[], .inl rfl, fun val fields => ?_⟩
      rw [serialiseLoop, if_neg separator]
      dsimp only
      rw [if_neg Bool.false_ne_true, if_pos, List.append_nil]
      simpa [headText, Nat.add_assoc] using full
    | true =>
      refine ⟨['|'], .inr ⟨rfl, rfl⟩, fun val fields => ?_⟩
      rw [serialiseLoop, if_neg separator]
      dsimp only
      rw [if_pos rfl, if_pos]
      simpa [headText, Nat.add_assoc, Nat.add_comm, Nat.add_left_comm] using full

theorem serialiseLoop_head (fits : dest.length + (headText started name).length < destMax)
    (val : CString) (fields : List (CString × CString)) :
    serialiseLoop destMax started dest ((name, val) :: fields) =
      match writeValue destMax (dest ++ headText started name) val with
      | none => none
      | some (dest, false) => some dest
      | some (dest, true) => serialiseLoop destMax true dest fields := by
  cases started
  · have room : ¬destMax ≤ dest.length + (columnName name).length + 1 := by
      simp only [headText, Bool.false_eq_true, if_false, List.nil_append, List.length_append,
        List.length_singleton] at fits
      omega
    have text : dest ++ headText false name = dest ++ columnName name ++ ['='] := by
      rw [headText, if_neg Bool.false_ne_true, List.nil_append, List.append_assoc]
    rw [text, serialiseLoop, if_neg (fun both => Bool.false_ne_true both.1)]
    dsimp only
    rw [if_neg Bool.false_ne_true]
    exact if_neg room
  · have room : ¬destMax ≤ (dest ++ ['|']).length + (columnName name).length + 1 ∧
        ¬destMax ≤ dest.length + 1 := by
      simp only [headText, if_true, List.length_append, List.length_singleton] at fits ⊢
      omega
    have text : dest ++ headText true name = dest ++ ['|'] ++ columnName name ++ ['='] := by
      rw [headText, if_pos rfl]
      simp only [List.append_assoc]
    rw [text, serialiseLoop, if_neg (fun both => room.2 both.2)]
    dsimp only
    rw [if_pos rfl]
    exact if_neg room.1

/-- The room that is left behind a name. -/
def roomAfter (destMax : Nat) (started : Bool) (n : Nat) (name : CString) : Nat :=
  destMax - 1 - (n + (headText started name).length)

theorem serialiseLoop_cell {val text : CString} {more : Bool}
    (fits : dest.length + (headText started name).length < destMax)
    (cell : Cell (roomAfter destMax started dest.length name) val text more)
    (fields : List (CString × CString)) :
    serialiseLoop destMax started dest ((name, val) :: fields) =
      if more then serialiseLoop destMax true (dest ++ headText started name ++ text) fields
      else some (dest ++ headText started name ++ text) := by
  have inside : (dest ++ headText started name).length < destMax := by
    rw [List.length_append]
    exact fits
  rw [roomAfter, ← List.length_append] at cell
  rw [serialiseLoop_head fits, cell.written inside]
  cases more <;> rfl

theorem exists_cell {val out : CString} {fields : List (CString × CString)}
    (fits : dest.length + (headText started name).length < destMax)
    (written : serialiseLoop destMax started dest ((name, val) :: fields) = some out) :
    ∃ text more, Cell (roomAfter destMax started dest.length name) val text more := by
  have inside : (dest ++ headText started name).length < destMax := by
    rw [List.length_append]
    exact fits
  rcases writeValue_spec inside val with ⟨none, -⟩ | ⟨text, more, cell, -⟩
  · rw [serialiseLoop_head fits, none] at written
    cases written
  · rw [List.length_append] at cell
    exact ⟨text, more, cell⟩

theorem serialiseLoop_grows {fields : List (CString × CString)} :
    ∀ {started : Bool} {dest out : CString},
      serialiseLoop destMax started dest fields = some out → ∃ rest, out = dest ++ rest := by
  induction fields with
  | nil =>
    intro started dest out written
    cases written
    exact ⟨[], (List.append_nil _).symm⟩
  | cons field fields ih =>
    intro started dest out written
    obtain ⟨name, val⟩ := field
    by_cases fits : dest.length + (headText started name).length < destMax
    · obtain ⟨text, more, cell⟩ := exists_cell fits written
      rw [serialiseLoop_cell fits cell] at written
      cases more with
      | false =>
        cases written
        exact ⟨headText started name ++ text, List.append_assoc _ _ _⟩
      | true =>
        obtain ⟨rest, rfl⟩ := ih written
        exact ⟨headText started name ++ text ++ rest, by simp only [List.append_assoc]⟩
    · obtain ⟨rest, -, stops⟩ := serialiseLoop_stop fits
      rw [stops] at written
      cases written
      exact ⟨rest, rfl⟩

theorem serialiseLoop_follows {fields : List (CString × CString)} {out : CString}
    (written : serialiseLoop destMax true dest fields = some out) :
    ∃ rest, out = dest ++ rest ∧ Follows true rest := by
  cases fields with
  | nil =>
    cases written
    exact ⟨[], (List.append_nil _).symm, .inl rfl⟩
  | cons field fields =>
    obtain ⟨name, val⟩ := field
    by_cases fits : dest.length + (headText true name).length < destMax
    · obtain ⟨text, more, cell⟩ := exists_cell fits written
      rw [serialiseLoop_cell fits cell] at written
      cases more with
      | false =>
        cases written
        exact ⟨headText true name ++ text, List.append_assoc _ _ _, .inr ⟨rfl, rfl⟩⟩
      | true =>
        obtain ⟨rest, rfl⟩ := serialiseLoop_grows written
        exact ⟨headText true name ++ text ++ rest, by simp only [List.append_assoc],
          .inr ⟨rfl, rfl⟩⟩
    · obtain ⟨rest, short, stops⟩ := serialiseLoop_stop fits
      rw [stops] at written
      cases written
      refine ⟨rest, rfl, short.imp id fun separator => ⟨rfl, ?_⟩⟩
      rw [separator.2]
      rfl

end Loop

section Rows

variable {destMax : Nat} {started : Bool} {dest name val : CString} {names vals : List CString}

theorem exists_other_value (val : CString) : ∃ other : CString, other ≠ val ∧
    other.length < auditMaxColValue := by
  by_cases empty : val = []
  · exact ⟨['a'], by rw [empty]; decide, by decide⟩
  · exact ⟨[], Ne.symm empty, by decide⟩

/-- Where the text does not depend on the values, others have it too. -/
theorem not_rowUnique {out : CString}
    (fixed : ∀ val fields, serialiseLoop destMax started dest ((name, val) :: fields) = some out)
    (small : ∀ v ∈ val :: vals, v.length < auditMaxColValue)
    (width : vals.length = names.length) :
    ¬RowUnique destMax started dest (name :: names) (val :: vals) := by
  rintro ⟨text, written, only⟩
  rw [List.zip_cons_cons, fixed] at written
  obtain ⟨other, different, short⟩ := exists_other_value val
  have same := only (other :: vals) (by rw [List.length_cons, List.length_cons, width])
    (fun v member => by
      rcases List.mem_cons.mp member with rfl | later
      · exact short
      · exact small v (List.mem_cons_of_mem val later))
    (by rw [List.zip_cons_cons, fixed, written])
  exact different (List.cons.inj same).1

variable (fits : dest.length + (headText started name).length < destMax)

include fits

theorem rowUnique_last_iff : RowUnique destMax started dest [name] [val] ↔
    CellUnique (roomAfter destMax started dest.length name) val := by
  have alone : ∀ {v text more}, Cell (roomAfter destMax started dest.length name) v text more →
      serialiseLoop destMax started dest [(name, v)] =
        some (dest ++ headText started name ++ text) := by
    intro v text more cell
    rw [serialiseLoop_cell fits cell]
    cases more <;> rfl
  constructor
  · rintro ⟨out, written, only⟩
    obtain ⟨text, more, cell⟩ := exists_cell fits written
    have same : out = dest ++ headText started name ++ text :=
      Option.some.inj (written.symm.trans (alone cell))
    refine ⟨text, more, cell, fun other more' small there => ?_⟩
    have equal := only [other] rfl (by simpa using small) (by rw [same]; exact alone there)
    exact (List.cons.inj equal).1
  · rintro ⟨text, more, cell, only⟩
    refine ⟨_, alone cell, fun others width small written => ?_⟩
    obtain ⟨other, rfl⟩ := List.length_eq_one_iff.mp width
    obtain ⟨text', more', there⟩ := exists_cell fits written
    have same := written.symm.trans (alone there)
    rw [Option.some.injEq, List.append_cancel_left_eq] at same
    subst same
    rw [only other more' (small other List.mem_cons_self) there]

theorem RowUnique.clear (unique : RowUnique destMax started dest (name :: names) (val :: vals))
    (small : ∀ v ∈ val :: vals, v.length < auditMaxColValue) (width : vals.length = names.length)
    (filled : val ≠ []) : Clear val := by
  obtain ⟨out, written, only⟩ := unique
  by_contra unclear
  obtain ⟨other, twin⟩ := exists_twin filled (small val List.mem_cons_self) unclear
  obtain ⟨text, more, cell⟩ := exists_cell fits written
  have again : serialiseLoop destMax started dest ((name :: names).zip (other :: vals)) =
      some out := by
    rw [← written]
    simp only [List.zip_cons_cons]
    rw [serialiseLoop_cell fits cell, serialiseLoop_cell fits (twin.cell filled cell)]
  have same := only (other :: vals) (by rw [List.length_cons, List.length_cons, width])
    (fun v member => by
      rcases List.mem_cons.mp member with rfl | later
      · exact twin.small
      · exact small v (List.mem_cons_of_mem val later)) again
  exact twin.different (List.cons.inj same).1

/-- A field with another behind it is whole in the text of a row that is told from all others. -/
theorem RowUnique.rest {next : CString} {following : List CString}
    (unique : RowUnique destMax started dest (name :: next :: names) (val :: following))
    (small : ∀ v ∈ val :: following, v.length < auditMaxColValue)
    (width : following.length = (next :: names).length) :
    RowUnique destMax true (dest ++ headText started name ++ fieldText val) (next :: names)
      following := by
  obtain ⟨out, written, only⟩ := unique
  obtain ⟨text, more, cell⟩ := exists_cell fits written
  have clear : val ≠ [] → Clear val :=
    RowUnique.clear fits ⟨out, written, only⟩ small width
  obtain ⟨second, others, rfl⟩ := List.exists_cons_of_ne_nil
    (List.ne_nil_of_length_pos (by rw [width]; exact Nat.succ_pos _) : following ≠ [])
  have step : ∀ tail, serialiseLoop destMax started dest ((name, val) :: tail) =
      if more then serialiseLoop destMax true (dest ++ headText started name ++ text) tail
      else some (dest ++ headText started name ++ text) := serialiseLoop_cell fits cell
  -- The values behind the first one decide about the text, so it is whole and more follows it.
  have open_end : ∀ {fixed : CString}, ¬∀ v tail, serialiseLoop destMax started dest
      ((name, val) :: (next, v) :: tail) = some fixed := by
    intro fixed always
    obtain ⟨other, different, short⟩ := exists_other_value second
    have same := only (val :: other :: others)
      (by simpa using width)
      (fun v member => by
        rcases List.mem_cons.mp member with rfl | later
        · exact small v List.mem_cons_self
        · rcases List.mem_cons.mp later with rfl | last
          · exact short
          · exact small v (List.mem_cons_of_mem _ (List.mem_cons_of_mem _ last)))
      (by
        rw [← written]
        simp only [List.zip_cons_cons, always])
    exact different (List.cons.inj (List.cons.inj same).2).1
  cases more with
  | false => exact (open_end fun v tail => step _).elim
  | true =>
    by_cases follows : (dest ++ headText started name ++ text).length +
        (headText true next).length < destMax
    · have least : 2 ≤ (headText true next).length := by
        simp [headText]
      have short : text.length < roomAfter destMax started dest.length name := by
        rw [roomAfter]
        simp only [List.length_append] at follows
        omega
      have whole : text = fieldText val := by
        cases cell with
        | null => rfl
        | plain filled bare =>
          rw [List.length_take] at short
          rw [fieldText, if_neg filled, if_neg bare, ← (clear filled).escaped]
          exact List.take_of_length_le (by omega)
        | quoted filled quote =>
          rw [fieldText, if_neg filled, if_pos quote, (clear filled).escaped]
        | cut filled quote two full =>
          rw [List.length_append, List.length_cons, List.length_take,
            List.length_singleton] at short
          omega
      subst whole
      simp only [List.zip_cons_cons] at written
      rw [step] at written
      refine ⟨out, written, fun others' width' small' written' => ?_⟩
      have same := only (val :: others') (by simpa using width')
        (fun v member => by
          rcases List.mem_cons.mp member with rfl | later
          · exact small v List.mem_cons_self
          · exact small' v later)
        (by
          rw [List.zip_cons_cons, step]
          exact written')
      exact (List.cons.inj same).2
    · obtain ⟨rest, -, stops⟩ := serialiseLoop_stop follows
      exact (open_end fun v tail => by rw [step]; exact stops v tail).elim

theorem RowUnique.cons (clear : val ≠ [] → Clear val)
    (short : (fieldText val).length < roomAfter destMax started dest.length name)
    (rest : RowUnique destMax true (dest ++ headText started name ++ fieldText val) names vals) :
    RowUnique destMax started dest (name :: names) (val :: vals) := by
  obtain ⟨out, written, only⟩ := rest
  have cell := whole_cell clear (Nat.le_of_lt short)
  refine ⟨out, by rw [List.zip_cons_cons, serialiseLoop_cell fits cell]; exact written, ?_⟩
  intro others width small again
  obtain ⟨other, others, rfl⟩ := List.exists_cons_of_ne_nil
    (List.ne_nil_of_length_pos (by rw [width]; exact Nat.succ_pos _) : others ≠ [])
  rw [List.zip_cons_cons] at again
  obtain ⟨text, more, there⟩ := exists_cell fits again
  rw [serialiseLoop_cell fits there] at again
  obtain ⟨tail, split, follows⟩ := serialiseLoop_follows written
  have ends : ∃ tail', out = dest ++ headText started name ++ text ++ tail' ∧ Follows more tail' := by
    cases more with
    | false =>
      cases again
      exact ⟨[], (List.append_nil _).symm, .inl rfl⟩
    | true => exact serialiseLoop_follows again
  obtain ⟨tail', split', follows'⟩ := ends
  have same : fieldText val ++ tail = text ++ tail' := by
    rw [split, List.append_assoc _ (fieldText val), List.append_assoc _ text] at split'
    exact List.append_cancel_left split'
  have first := there.told clear short follows follows' (small other List.mem_cons_self) same
  subst first
  obtain ⟨rfl, rfl⟩ := there.functional cell
  rw [only others (Nat.succ.inj width) (fun v member => small v (List.mem_cons_of_mem _ member))
    again]

end Rows

theorem rowUnique_iff (destMax : Nat) (names : List CString) :
    ∀ (started : Bool) (dest : CString) {vals : List CString}, vals.length = names.length →
      (∀ val ∈ vals, val.length < auditMaxColValue) →
      (RowUnique destMax started dest names vals ↔
        RowFits destMax started dest.length (names.zip vals)) := by
  induction names with
  | nil =>
    intro started dest vals width small
    rw [List.length_eq_zero_iff.mp width]
    refine iff_of_true ⟨dest, rfl, fun others width' _ _ => ?_⟩ trivial
    exact List.length_eq_zero_iff.mp width'
  | cons name names ih =>
    intro started dest vals width small
    obtain ⟨val, vals, rfl⟩ := List.exists_cons_of_ne_nil
      (List.ne_nil_of_length_pos (by rw [width]; exact Nat.succ_pos _) : vals ≠ [])
    have width' : vals.length = names.length := Nat.succ.inj width
    rw [List.zip_cons_cons, RowFits]
    by_cases fits : dest.length + (headText started name).length < destMax
    · rw [and_iff_right fits]
      cases names with
      | nil =>
        rw [List.length_eq_zero_iff.mp width', List.zip_nil_left, if_pos rfl,
          rowUnique_last_iff fits, roomAfter, cellUnique_iff (small val List.mem_cons_self)]
      | cons next names =>
        obtain ⟨second, following, rfl⟩ := List.exists_cons_of_ne_nil
          (List.ne_nil_of_length_pos (by rw [width']; exact Nat.succ_pos _) : vals ≠ [])
        have later : ∀ v ∈ second :: following, v.length < auditMaxColValue :=
          fun v member => small v (List.mem_cons_of_mem val member)
        have place : (dest ++ headText started name ++ fieldText val).length =
            dest.length + (headText started name).length + (fieldText val).length := by
          rw [List.length_append, List.length_append]
        have rest := ih true (dest ++ headText started name ++ fieldText val) width' later
        rw [List.zip_cons_cons, if_neg (List.cons_ne_nil _ _), ← List.zip_cons_cons, ← place, ← rest]
        constructor
        · intro unique
          exact ⟨RowUnique.clear fits unique small width', RowUnique.rest fits unique small width'⟩
        · rintro ⟨clear, unique⟩
          refine RowUnique.cons fits clear ?_ unique
          have room := rest.mp unique
          rw [List.zip_cons_cons, RowFits, place] at room
          have least : 2 ≤ (headText true next).length := by
            simp [headText]
          rw [roomAfter]
          omega
    · obtain ⟨rest, -, stops⟩ := serialiseLoop_stop fits
      exact iff_of_false (not_rowUnique stops small width') fun both => fits both.1

theorem fieldValue_text_length (field : FieldValue) : field.text.length ≤ field.value.length := by
  rw [FieldValue.text]
  split
  · exact Nat.zero_le _
  · exact Nat.le_refl _

/-- The text of a row is that of no other row exactly when its values are clear of blanks and line
breaks and both buffers have room for all of it. -/
theorem serialised_row_unique_iff {names : List CString} {row : List FieldValue} (destMax : Nat)
    (width : row.length = names.length)
    (small : ∀ field ∈ row, field.value.length < auditMaxColValue) :
    (∃ out, auditTrailSerialiseRow names row destMax = some out ∧
      ∀ other : List FieldValue, other.length = names.length →
        (∀ field ∈ other, field.value.length < auditMaxColValue) →
        auditTrailSerialiseRow names other destMax = some out →
        other.map FieldValue.text = row.map FieldValue.text) ↔
      2 ≤ destMax ∧ RowFits destMax false 0 (names.zip (row.map FieldValue.text)) := by
  have texts : ∀ {fields : List FieldValue},
      (∀ field ∈ fields, field.value.length < auditMaxColValue) →
      ∀ val ∈ fields.map FieldValue.text, val.length < auditMaxColValue := by
    intro fields bounded val member
    obtain ⟨field, inside, rfl⟩ := List.mem_map.mp member
    exact Nat.lt_of_le_of_lt (fieldValue_text_length field) (bounded field inside)
  have widths : (row.map FieldValue.text).length = names.length := by rw [List.length_map, width]
  have unique := rowUnique_iff destMax names false [] widths (texts small)
  rw [List.length_nil] at unique
  by_cases room : destMax < 2
  · refine iff_of_false ?_ fun both => by omega
    rintro ⟨out, written, -⟩
    rw [auditTrailSerialiseRow, if_pos room] at written
    cases written
  · rw [and_iff_right (by omega), ← unique]
    simp only [auditTrailSerialiseRow, if_neg room]
    constructor
    · rintro ⟨out, written, only⟩
      refine ⟨out, written, fun others width' small' again => ?_⟩
      have lifted : (others.map fun val => (⟨val, false⟩ : FieldValue)).map FieldValue.text =
          others := by
        rw [List.map_map]
        exact List.map_id' others
      have same := only (others.map fun val => ⟨val, false⟩) (by rw [List.length_map, width'])
        (fun field member => by
          obtain ⟨val, inside, rfl⟩ := List.mem_map.mp member
          exact small' val inside)
        (by rw [lifted]; exact again)
      rw [← same, lifted]
    · rintro ⟨out, written, only⟩
      exact ⟨out, written, fun other width' small' again =>
        only _ (by rw [List.length_map, width']) (texts small') again⟩

def noteNames : List CString := ["ID".toList, "NOTE".toList, "SEEN".toList]

def noteRow : List FieldValue :=
  [⟨"7".toList, false⟩, ⟨"a=<NULL>|\"b\"".toList, false⟩, ⟨"old".toList, true⟩]

theorem serialised_row_unique_note :
    auditTrailSerialiseRow noteNames noteRow (snapCap 3) =
      some "ID=7|NOTE=\"a=&lt;NULL&gt;|&quot;b&quot;\"|SEEN=<NULL>".toList ∧
    ∃ out, auditTrailSerialiseRow noteNames noteRow (snapCap 3) = some out ∧
      ∀ other : List FieldValue, other.length = noteNames.length →
        (∀ field ∈ other, field.value.length < auditMaxColValue) →
        auditTrailSerialiseRow noteNames other (snapCap 3) = some out →
        other.map FieldValue.text = noteRow.map FieldValue.text := by
  refine ⟨by decide +kernel, (serialised_row_unique_iff (snapCap 3) rfl (by decide)).mpr ?_⟩
  have clear : ∀ {val : CString}, (val.all fun c => decide ¬IsBlank c) = true →
      (escapedText val).length + 6 < escapedSize → Clear val := fun visible short =>
    ⟨fun c member => of_decide_eq_true (List.all_eq_true.mp visible c member), .inl short⟩
  have first : Clear "7".toList := clear (by decide) (by decide)
  have second : Clear "a=<NULL>|\"b\"".toList := clear (by decide) (by decide +kernel)
  refine ⟨by decide, by decide, ?_⟩
  rw [if_neg (by decide)]
  refine ⟨fun _ => first, by decide, ?_⟩
  rw [if_neg (by decide)]
  refine ⟨fun _ => second, by decide +kernel, ?_⟩
  rw [if_pos (by decide), LastFits, if_pos (by decide)]
  decide +kernel

/-- A line break in a value is written as a blank. -/
theorem line_break_is_lost :
    auditTrailSerialiseRow ["NOTE".toList] [⟨"a\nb".toList, false⟩] (snapCap 1) =
      auditTrailSerialiseRow ["NOTE".toList] [⟨"a b".toList, false⟩] (snapCap 1) ∧
    auditTrailSerialiseRow ["NOTE".toList] [⟨"a b".toList, false⟩] (snapCap 1) =
      some "NOTE=a b".toList ∧
    (⟨"a\nb".toList, false⟩ : FieldValue).text ≠ (⟨"a b".toList, false⟩ : FieldValue).text := by
  decide +kernel

end OciWrapper.Audit
