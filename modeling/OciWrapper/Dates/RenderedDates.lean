import OciWrapper.Dates.RenderedElements

namespace OciWrapper.Dates

open OciWrapper.Text

section Separators

/-- The characters of a separator that are not blanks. -/
def punctuation (run : CString) : Nat := (run.filter fun c => !isSpace c).length

def AlnumFirst (v : CString) : Prop := ∀ c rest, v = c :: rest → c.isAlphanum = true

variable {n : Nat} {run v : CString}

theorem skipSeparator_stop (n : Nat) (first : AlnumFirst v) : skipSeparator n v = v := by
  cases v with
  | nil => simp [skipSeparator]
  | cons c v => simp [skipSeparator, first c v rfl]

theorem skipSeparator_blank (n : Nat) {c : Char} (punct : c.isAlphanum = false)
    (blank : isSpace c = true) : skipSeparator n (c :: v) = skipSeparator n v := by
  cases n <;> simp [skipSeparator, punct, blank]

theorem skipSeparator_punct (n : Nat) {c : Char} (punct : c.isAlphanum = false)
    (solid : isSpace c = false) : skipSeparator (n + 1) (c :: v) = skipSeparator n v := by
  simp [skipSeparator, punct, solid]

/-- A separator skips a run with at most its own length of punctuation. -/
theorem skipSeparator_run (puncts : ∀ c ∈ run, c.isAlphanum = false) (first : AlnumFirst v)
    (fits : punctuation run ≤ n) : skipSeparator n (run ++ v) = v := by
  induction run generalizing n with
  | nil => exact skipSeparator_stop n first
  | cons c run ih =>
    have punct := puncts c List.mem_cons_self
    have later := fun d member => puncts d (List.mem_cons_of_mem c member)
    rw [List.cons_append]
    cases blank : isSpace c with
    | true =>
      rw [skipSeparator_blank n punct blank]
      apply ih later
      simpa [punctuation, blank] using fits
    | false =>
      have counted : punctuation (c :: run) = punctuation run + 1 := by simp [punctuation, blank]
      cases n with
      | zero => omega
      | succ n =>
        rw [skipSeparator_punct n punct blank]
        exact ih later (by omega)

/-- A run with more punctuation is not skipped to its end. -/
theorem skipSeparator_overrun (puncts : ∀ c ∈ run, c.isAlphanum = false)
    (exceeds : n < punctuation run) :
    ∃ c rest, skipSeparator n (run ++ v) = c :: rest ∧ c.isAlphanum = false ∧ isSpace c = false := by
  induction run generalizing n with
  | nil => cases exceeds
  | cons c run ih =>
    have punct := puncts c List.mem_cons_self
    have later := fun d member => puncts d (List.mem_cons_of_mem c member)
    rw [List.cons_append]
    cases blank : isSpace c with
    | true =>
      rw [skipSeparator_blank n punct blank]
      apply ih later
      simpa [punctuation, blank] using exceeds
    | false =>
      have counted : punctuation (c :: run) = punctuation run + 1 := by simp [punctuation, blank]
      cases n with
      | zero => exact ⟨c, run ++ v, by simp [skipSeparator, punct, blank], punct, blank⟩
      | succ n =>
        rw [skipSeparator_punct n punct blank]
        exact ih later (by omega)

theorem skipSeparator_dropWhile (n : Nat) (v : CString) :
    skipSeparator n (v.dropWhile isSpace) = skipSeparator n v := by
  induction v with
  | nil => rfl
  | cons c v ih =>
    rw [List.dropWhile_cons]
    cases blank : isSpace c with
    | false => rfl
    | true =>
      have punct : c.isAlphanum = false := by
        rw [isSpace_iff] at blank
        rw [Bool.eq_false_iff]
        intro alnum
        rw [Char.isAlphanum, Char.isAlpha, Bool.or_eq_true, Bool.or_eq_true, isUpper_iff,
          isLower_iff, isDigit_iff] at alnum
        omega
      rw [if_pos rfl, ih, skipSeparator_blank n punct blank]

/-- The limit that the element keeps of a separator is 63. -/
theorem separator_fits_iff (run : CString) :
    punctuation run ≤ (run.take elementTextMax).length ↔ punctuation run ≤ elementTextMax := by
  have short : punctuation run ≤ run.length := List.length_filter_le _ run
  rw [List.length_take]
  omega

end Separators

section Masks

variable {t : OracleDateTime} {pieces : List MaskPiece} {text : CString} {currentYear : Nat}

def FitsAll (pieces : List MaskPiece) : Prop :=
  ∀ run, .separator run ∈ pieces → punctuation run ≤ elementTextMax

def AllKnown (pieces : List MaskPiece) : Prop :=
  ∀ el, .element el ∈ pieces → ofDateTime el.kind = true

theorem AllKnown.tail {piece : MaskPiece} (known : AllKnown (piece :: pieces)) : AllKnown pieces :=
  fun el member => known el (List.mem_cons_of_mem piece member)

theorem FitsAll.tail {piece : MaskPiece} (fits : FitsAll (piece :: pieces)) : FitsAll pieces :=
  fun run member => fits run (List.mem_cons_of_mem piece member)

/-- Behind a separator stands an element, or nothing. -/
theorem rendered_alnumFirst {rest : List MaskPiece} (sound : Sound rest) (known : AllKnown rest)
    (next : rest = [] ∨ ∃ el others, rest = .element el :: others)
    (rendered : Renders t rest text) : AlnumFirst text := by
  rcases next with rfl | ⟨el, others, rfl⟩
  · cases rendered
    exact nofun
  · obtain ⟨shown, behind, rfl, here, -⟩ := rendered
    obtain ⟨data, width, -, -⟩ := sound
    obtain ⟨c, tail, rfl, alnum, -⟩ :=
      rendered_starts (known el List.mem_cons_self) data width here
    rintro d rest same
    cases same
    exact alnum

/-- Behind a month's name stands no other month. -/
theorem rendered_unlettered {rest : List MaskPiece} (sound : Sound rest) (known : AllKnown rest)
    (noMonth : ∀ el, .element el ∈ rest → el.kind ≠ .mon ∧ el.kind ≠ .month)
    (rendered : Renders t rest text) : Unlettered text := by
  cases rest with
  | nil =>
    cases rendered
    exact nofun
  | cons piece rest =>
    cases piece with
    | separator run =>
      obtain ⟨behind, rfl, -⟩ := rendered
      obtain ⟨full, puncts, -, -⟩ := sound
      cases run with
      | nil => exact absurd rfl full
      | cons c run =>
        rintro d tail same
        cases same
        have punct := puncts c List.mem_cons_self
        rw [Char.isAlphanum, Bool.or_eq_false_iff] at punct
        exact punct.1
    | element el =>
      obtain ⟨shown, behind, rfl, here, -⟩ := rendered
      obtain ⟨data, width, -, -⟩ := sound
      obtain ⟨notMon, notMonth⟩ := noMonth el List.mem_cons_self
      obtain ⟨c, tail, rfl, -, plain⟩ :=
        rendered_starts (known el List.mem_cons_self) data width here
      rintro d rest same
      cases same
      exact plain notMon notMonth

/-- An element at the head of the mask is read, and the rest of the mask against the rest. -/
theorem parseElements_element {el : FmtEl} (sound : Sound (.element el :: pieces))
    (known : AllKnown (.element el :: pieces)) {shown rest : CString}
    (here : RendersElement t el shown) (behind : Renders t pieces rest) (dt : DtParts) :
    parseElements currentYear ((MaskPiece.element el :: pieces).map MaskPiece.toElement)
        (shown ++ rest) dt =
      parseElements currentYear (pieces.map MaskPiece.toElement) rest (fillPart t dt el) := by
  obtain ⟨data, width, apart, later⟩ := sound
  have knownHere := known el List.mem_cons_self
  obtain ⟨c, tail, same, -, -⟩ := rendered_starts knownHere data width here
  have present : shown ++ rest ≠ [] := by simp [same]
  apply parseElements_cons _ present
  apply parseElement_rendered knownHere data width here
  intro month
  apply rendered_unlettered later known.tail _ behind
  intro other member
  have clash := apart other member
  constructor <;> intro kind <;> apply clash <;> rcases month with month | month <;>
    rw [Clash, month, kind] <;> exact ⟨rfl, rfl⟩

/-- Every element of the mask reads back what it shows. -/
theorem parseElements_rendered (sound : Sound pieces) (known : AllKnown pieces)
    (fits : FitsAll pieces) (rendered : Renders t pieces text) (dt : DtParts) :
    parseElements currentYear (pieces.map MaskPiece.toElement) text dt =
      .ok ([], (pieces.map MaskPiece.toElement).foldl (fillPart t) dt) := by
  induction pieces generalizing text dt with
  | nil =>
    cases rendered
    rfl
  | cons piece pieces ih =>
    cases piece with
    | separator run =>
      obtain ⟨rest, rfl, behind⟩ := rendered
      obtain ⟨full, puncts, next, later⟩ := sound
      have first := rendered_alnumFirst later known.tail next behind
      have short := (separator_fits_iff run).mpr (fits run List.mem_cons_self)
      have present : run ++ rest ≠ [] := by simp [full]
      have read : parseElement currentYear (MaskPiece.separator run).toElement (run ++ rest) dt =
          .ok (rest, dt) := by
        simp only [parseElement, MaskPiece.toElement, skipSeparator_run puncts first short]
      rw [List.map_cons, parseElements_cons _ present read, ih later known.tail fits.tail behind]
      rfl
    | element el =>
      obtain ⟨shown, rest, rfl, here, behind⟩ := rendered
      rw [parseElements_element sound known here behind, ih sound.2.2.2 known.tail fits.tail behind]
      rfl

/-- A separator with more punctuation than its element keeps stops the reading. -/
theorem parseElements_overrun (sound : Sound pieces) (known : AllKnown pieces)
    (exceeds : ¬ FitsAll pieces) (rendered : Renders t pieces text) (dt : DtParts) :
    ∀ left dt', parseElements currentYear (pieces.map MaskPiece.toElement) text dt =
      .ok (left, dt') → left.dropWhile isSpace ≠ [] := by
  induction pieces generalizing text dt with
  | nil => exact absurd (fun run member => nomatch member) exceeds
  | cons piece pieces ih =>
    cases piece with
    | separator run =>
      obtain ⟨rest, rfl, behind⟩ := rendered
      obtain ⟨full, puncts, next, later⟩ := sound
      have present : run ++ rest ≠ [] := by simp [full]
      by_cases short : punctuation run ≤ elementTextMax
      · have first := rendered_alnumFirst later known.tail next behind
        have read : parseElement currentYear (MaskPiece.separator run).toElement (run ++ rest) dt =
            .ok (rest, dt) := by
          simp only [parseElement, MaskPiece.toElement,
            skipSeparator_run puncts first ((separator_fits_iff run).mpr short)]
        rw [List.map_cons, parseElements_cons _ present read]
        apply ih later known.tail _ behind
        intro fits
        apply exceeds
        intro other member
        rcases List.mem_cons.mp member with same | inside
        · cases same
          exact short
        · exact fits other inside
      · have more : (run.take elementTextMax).length < punctuation run := by
          rw [← Nat.not_le, separator_fits_iff]
          exact short
        obtain ⟨c, tail, stopped, punct, blank⟩ := @skipSeparator_overrun _ _ rest puncts more
        have read : parseElement currentYear (MaskPiece.separator run).toElement (run ++ rest) dt =
            .ok (c :: tail, dt) := by
          simp only [parseElement, MaskPiece.toElement, stopped]
        rw [List.map_cons, parseElements_cons _ present read]
        rcases next with rfl | ⟨el, others, rfl⟩
        · intro left dt' ran
          cases ran
          simp [blank]
        · obtain ⟨reason, failed⟩ := @parseElement_punctuation el tail currentYear
            dt c (known.tail el List.mem_cons_self) later.1 punct
          intro left dt' ran
          simp only [List.map_cons, MaskPiece.toElement, parseElements, if_neg (List.cons_ne_nil c tail),
            failed, bind, Except.bind] at ran
          cases ran
    | element el =>
      obtain ⟨shown, rest, rfl, here, behind⟩ := rendered
      rw [parseElements_element sound known here behind]
      apply ih sound.2.2.2 known.tail _ behind
      intro fits
      apply exceeds
      intro run member
      rcases List.mem_cons.mp member with same | inside
      · cases same
      · exact fits run inside

end Masks

section Parts

variable {t : OracleDateTime} {els : List FmtEl} {dt : DtParts}

/-- A part is what the date and time has, once one of its elements was read. -/
theorem foldl_fillPart {α : Type} (part : DtParts → α) (value : α) (names : FmtEl → Bool)
    (one : ∀ dt el, part (fillPart t dt el) = if names el then value else part dt) :
    part (els.foldl (fillPart t) dt) = if els.any names then value else part dt := by
  induction els generalizing dt with
  | nil => rfl
  | cons el els ih =>
    rw [List.foldl_cons, ih, one, List.any_cons]
    cases names el <;> cases els.any names <;> rfl

theorem foldl_fraction (els : List FmtEl) (digits : Nat) (read : dt.frac = t.fraction.take digits) :
    (els.foldl (fillPart t) dt).frac = t.fraction.take
      (els.foldl (fun digits el => if el.kind = .ff then shownDigits el else digits) digits) := by
  induction els generalizing dt digits with
  | nil => exact read
  | cons el els ih =>
    rw [List.foldl_cons, List.foldl_cons]
    apply ih
    cases kind : el.kind <;> simp [fillPart, kind, read]

/-- The elements name a year, a month and a day. -/
structure NamesDay (els : List FmtEl) : Prop where
  year : ∃ el ∈ els, el.kind = .yyyy
  month : ∃ el ∈ els, el.kind = .mm ∨ el.kind = .mon ∨ el.kind = .month
  day : ∃ el ∈ els, el.kind = .dd

/-- The parts that were read are those that the mask shows. -/
theorem filled_parts (names : NamesDay els) :
    let dt := els.foldl (fillPart t) emptyParts
    InCalendar dt ∧ dt.hourIs12 = false ∧ dt.yearSet = true ∧ dt.monthSet = true ∧
      dt.daySet = true ∧
      ∀ isTimestamp, canonicalText dt isTimestamp = (t.shownBy els).canonicalForm isTimestamp := by
  intro dt
  have yearNamed : els.any (fun el => decide (el.kind = .yyyy)) = true := by
    obtain ⟨el, member, kind⟩ := names.year
    exact List.any_eq_true.mpr ⟨el, member, decide_eq_true kind⟩
  have monthNamed : els.any (fun el => decide (el.kind = .mm ∨ el.kind = .mon ∨ el.kind = .month)) =
      true := by
    obtain ⟨el, member, kind⟩ := names.month
    exact List.any_eq_true.mpr ⟨el, member, decide_eq_true kind⟩
  have dayNamed : els.any (fun el => decide (el.kind = .dd)) = true := by
    obtain ⟨el, member, kind⟩ := names.day
    exact List.any_eq_true.mpr ⟨el, member, decide_eq_true kind⟩
  have field {α : Type} (part : DtParts → α) (value : α) (names : FmtEl → Bool)
      (one : ∀ dt el, part (fillPart t dt el) = if names el then value else part dt) :
      part dt = if els.any names then value else part emptyParts :=
    foldl_fillPart part value names one
  have year : dt.year = t.year := by
    rw [field (·.year) t.year (fun el => decide (el.kind = .yyyy)), yearNamed, if_pos rfl]
    intro dt el
    cases kind : el.kind <;> simp [fillPart, kind]
  have yearSet : dt.yearSet = true := by
    rw [field (·.yearSet) true (fun el => decide (el.kind = .yyyy)), yearNamed, if_pos rfl]
    intro dt el
    cases kind : el.kind <;> simp [fillPart, kind]
  have month : dt.month = t.month := by
    rw [field (·.month) t.month (fun el => decide (el.kind = .mm ∨ el.kind = .mon ∨
      el.kind = .month)), monthNamed, if_pos rfl]
    intro dt el
    cases kind : el.kind <;> simp [fillPart, kind]
  have monthSet : dt.monthSet = true := by
    rw [field (·.monthSet) true (fun el => decide (el.kind = .mm ∨ el.kind = .mon ∨
      el.kind = .month)), monthNamed, if_pos rfl]
    intro dt el
    cases kind : el.kind <;> simp [fillPart, kind]
  have day : dt.day = t.day := by
    rw [field (·.day) t.day (fun el => decide (el.kind = .dd)), dayNamed, if_pos rfl]
    intro dt el
    cases kind : el.kind <;> simp [fillPart, kind]
  have daySet : dt.daySet = true := by
    rw [field (·.daySet) true (fun el => decide (el.kind = .dd)), dayNamed, if_pos rfl]
    intro dt el
    cases kind : el.kind <;> simp [fillPart, kind]
  have hour : dt.hour = (t.shownBy els).hour := by
    apply field (·.hour) t.hour (fun el => decide (el.kind = .hh24))
    intro dt el
    cases kind : el.kind <;> simp [fillPart, kind]
  have is24 : dt.hourIs12 = false := by
    rw [field (·.hourIs12) false (fun el => decide (el.kind = .hh24))]
    · exact ite_self false
    · intro dt el
      cases kind : el.kind <;> simp [fillPart, kind]
  have minute : dt.minute = (t.shownBy els).minute := by
    apply field (·.minute) t.minute (fun el => decide (el.kind = .mi))
    intro dt el
    cases kind : el.kind <;> simp [fillPart, kind]
  have second : dt.second = (t.shownBy els).second := by
    apply field (·.second) t.second (fun el => decide (el.kind = .ss))
    intro dt el
    cases kind : el.kind <;> simp [fillPart, kind]
  have frac : dt.frac = t.fraction.take (fractionDigits els) := foldl_fraction els 0 rfl
  have calendar := (t.shownBy els).parts_inCalendar
  refine ⟨⟨?_, ?_, ?_, ?_, ?_, ?_, ?_, ?_, ?_⟩, is24, yearSet, monthSet, daySet, fun isTimestamp => ?_⟩
  · exact year ▸ calendar.year
  · exact month ▸ calendar.month
  · exact day ▸ calendar.day
  · rw [year, month, day]
    exact calendar.inMonth
  · rw [year, month, day]
    exact calendar.outsideGap
  · exact hour ▸ calendar.hour
  · exact minute ▸ calendar.minute
  · exact second ▸ calendar.second
  · intro c member
    rw [frac] at member
    exact t.nanoseconds.2 c (List.mem_of_mem_take member)
  · have six : sixDigits dt.frac = (t.shownBy els).fraction.take 6 := by
      have length : (t.fraction.take (fractionDigits els)).length ≤ 9 := by
        rw [List.length_take, t.nanoseconds.1]
        omega
      rw [frac, sixDigits, OracleDateTime.shownBy, List.take_append, List.take_replicate]
      congr 2
      omega
    simp only [canonicalText, OracleDateTime.canonicalForm, year, month, day, hour, minute, second,
      six]
    rfl

end Parts

/-- Blanks at the head of the value belong to the separator at the head of the mask. -/
theorem parseElements_dropWhile {t : OracleDateTime} {pieces : List MaskPiece} {text : CString}
    (sound : Sound pieces) (known : AllKnown pieces) (rendered : Renders t pieces text)
    {el : FmtEl} (some : .element el ∈ pieces) (currentYear : Nat) (dt : DtParts) :
    parseElements currentYear (pieces.map MaskPiece.toElement) (text.dropWhile isSpace) dt =
      parseElements currentYear (pieces.map MaskPiece.toElement) text dt := by
  cases pieces with
  | nil => cases some
  | cons piece pieces =>
    cases piece with
    | separator run =>
      obtain ⟨rest, rfl, behind⟩ := rendered
      obtain ⟨full, puncts, next, later⟩ := sound
      rcases next with rfl | ⟨first, others, rfl⟩
      · simp at some
      obtain ⟨shown, tail, rfl, here, -⟩ := behind
      obtain ⟨c, shownTail, rfl, alnum, -⟩ :=
        rendered_starts (known.tail first List.mem_cons_self) later.1 later.2.1 here
      have present : (run ++ (c :: shownTail ++ tail)).dropWhile isSpace ≠ [] := by
        intro none
        have blank := List.dropWhile_eq_nil_iff.mp none c (by simp)
        rw [isSpace_iff] at blank
        rw [Char.isAlphanum, Char.isAlpha, Bool.or_eq_true, Bool.or_eq_true, isUpper_iff,
          isLower_iff, isDigit_iff] at alnum
        omega
      have nonempty : run ++ (c :: shownTail ++ tail) ≠ [] := by simp
      rw [List.map_cons, parseElements, if_neg present, parseElements, if_neg nonempty]
      simp only [MaskPiece.toElement, parseElement, skipSeparator_dropWhile]
    | element first =>
      obtain ⟨shown, rest, rfl, here, -⟩ := rendered
      obtain ⟨c, tail, rfl, alnum, -⟩ :=
        rendered_starts (known first List.mem_cons_self) sound.1 sound.2.1 here
      have solid : isSpace c = false := by
        rw [Bool.eq_false_iff]
        intro blank
        rw [isSpace_iff] at blank
        rw [Char.isAlphanum, Char.isAlpha, Bool.or_eq_true, Bool.or_eq_true, isUpper_iff,
          isLower_iff, isDigit_iff] at alnum
        omega
      rw [List.cons_append, List.dropWhile_cons, solid]
      rfl

/-- 29 February 2024, 10:05:09.123456789. -/
def leapDay : OracleDateTime where
  year := 2024
  month := 2
  day := 29
  hour := 10
  minute := 5
  second := 9
  fraction := ['1', '2', '3', '4', '5', '6', '7', '8', '9']
  yearRange := by decide
  inMonth := ⟨by decide, .inr (.inr ⟨rfl, .inr ⟨rfl, .inr ⟨by unfold IsJulian; omega,
    by unfold GregorianLeap; omega⟩⟩⟩)⟩
  outsideGap := by decide
  hourRange := by decide
  minuteRange := by decide
  secondRange := by decide
  nanoseconds := ⟨rfl, List.all_eq_true.mp (by decide)⟩

def compactElements : List FmtEl :=
  [⟨.dd, 0, "DD".toList⟩, ⟨.mon, 0, "MON".toList⟩, ⟨.yyyy, 0, "YYYY".toList⟩, ⟨.sep, 0, [' ']⟩,
    ⟨.ff, 3, "FF3".toList⟩, ⟨.hh24, 0, "HH24".toList⟩]

theorem compact_pieces : piecesOf "DDMonYYYY FF3HH24".toList =
    [.element ⟨.dd, 0, "DD".toList⟩, .element ⟨.mon, 0, "MON".toList⟩,
      .element ⟨.yyyy, 0, "YYYY".toList⟩, .separator [' '], .element ⟨.ff, 3, "FF3".toList⟩,
      .element ⟨.hh24, 0, "HH24".toList⟩] := by
  rfl

def longSeparator : CString := List.replicate 64 '-'

def longMask : CString := "YYYY".toList ++ longSeparator ++ "MM-DD".toList

end OciWrapper.Dates
