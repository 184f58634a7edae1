import OciWrapper.Dates.MaskPieces

namespace OciWrapper.Dates

open OciWrapper.Text

/-- A text that does not begin with a letter. -/
def Unlettered (v : CString) : Prop := ∀ c rest, v = c :: rest → c.isAlpha = false

theorem startsWith_append {word pre rest : CString} (letters : ∀ c ∈ word, c.isAlpha = true)
    (plain : Unlettered rest) : startsWith word (pre ++ rest) = startsWith word pre := by
  by_cases long : word.length ≤ pre.length
  · rw [startsWith, startsWith, List.take_append_of_le_length long]
  · have short : startsWith word pre = false := by
      rw [startsWith, strcasecmp, decide_eq_false_iff_not]
      intro same
      have length := congrArg List.length same
      simp only [List.length_map, List.length_take] at length
      omega
    rw [short, startsWith, strcasecmp, decide_eq_false_iff_not]
    intro same
    cases rest with
    | nil =>
      have length := congrArg List.length same
      simp only [List.append_nil, List.length_map, List.length_take] at length
      omega
    | cons c tail =>
      have inside : pre.length < word.length := by omega
      have here := congrArg (·[pre.length]?) same
      simp only [List.getElem?_map, List.getElem?_take, inside, if_true,
        List.getElem?_append_right (Nat.le_refl _), Nat.sub_self, List.getElem?_cons_zero,
        List.getElem?_eq_getElem inside, Option.map_some, Option.some_inj] at here
      have letter := letters _ (List.getElem_mem inside)
      have other := plain c tail rfl
      rw [← Char.isAlpha_toLower_eq_isAlpha, ← here, Char.isAlpha_toLower_eq_isAlpha, other] at letter
      cases letter

theorem startsWith_case {word a b : CString} (same : a.map Char.toLower = b.map Char.toLower) :
    startsWith word a = startsWith word b := by
  rw [startsWith, startsWith, strcasecmp, strcasecmp, List.map_take, List.map_take, same]

/-- The month whose name the text begins with, and the length of the name. -/
def monthMatch (v : CString) : Option (Nat × Nat) :=
  match monthFull.zipIdx.find? fun (name, _) => startsWith name.toList v with
  | some (name, m) => some (m + 1, name.length)
  | none =>
    (monthFull.zipIdx.find? fun (name, _) => startsWith (name.toList.take 3) v).map fun (_, m) =>
      (m + 1, 3)

theorem readMonthName_eq (v : CString) :
    readMonthName v = (monthMatch v).map fun (m, length) => (m, v.drop length) := by
  simp only [readMonthName, monthMatch]
  cases monthFull.zipIdx.find? fun (name, _) => startsWith name.toList v with
  | none =>
    simp only [Option.map_map]
    rfl
  | some found => rfl

/-- The search looks at the text through its beginnings only. -/
theorem monthMatch_congr {a b : CString}
    (same : ∀ word, (∀ c ∈ word, c.isAlpha = true) → startsWith word a = startsWith word b) :
    monthMatch a = monthMatch b := by
  have alphabetic : ∀ name ∈ monthFull, name.toList.all Char.isAlpha = true := by decide
  have letters : ∀ entry ∈ monthFull.zipIdx, ∀ c ∈ entry.1.toList, c.isAlpha = true :=
    fun entry member => List.all_eq_true.mp (alphabetic _ (List.fst_mem_of_mem_zipIdx member))
  have whole : (monthFull.zipIdx.find? fun (name, _) => startsWith name.toList a) =
      monthFull.zipIdx.find? fun (name, _) => startsWith name.toList b :=
    List.find?_congr fun entry member => same _ (letters entry member)
  have short : (monthFull.zipIdx.find? fun (name, _) => startsWith (name.toList.take 3) a) =
      monthFull.zipIdx.find? fun (name, _) => startsWith (name.toList.take 3) b :=
    List.find?_congr fun entry member =>
      same _ fun c inside => letters entry member c (List.mem_of_mem_take inside)
  rw [monthMatch, monthMatch, whole, short]

/-- A month's name, whole or cut to three letters, in any case, is read as that month. -/
theorem readMonthName_name {m : Nat} (index : m < 12) {name rest : CString}
    (spelled : strcasecmp name (monthFull.getD m "").toList = true ∨
      strcasecmp name ((monthFull.getD m "").toList.take 3) = true)
    (plain : Unlettered rest) : readMonthName (name ++ rest) = some (m + 1, rest) := by
  have whole : ∀ m < 12, monthMatch (monthFull.getD m "").toList =
      some (m + 1, (monthFull.getD m "").toList.length) := by decide +kernel
  have short : ∀ m < 12, monthMatch ((monthFull.getD m "").toList.take 3) =
      some (m + 1, ((monthFull.getD m "").toList.take 3).length) := by decide +kernel
  have found : monthMatch name = some (m + 1, name.length) := by
    rcases spelled with same | same
    · rw [strcasecmp, decide_eq_true_eq] at same
      have length := congrArg List.length same
      rw [List.length_map, List.length_map] at length
      rw [monthMatch_congr fun word _ => startsWith_case same, whole m index, length]
    · rw [strcasecmp, decide_eq_true_eq] at same
      have length := congrArg List.length same
      rw [List.length_map, List.length_map] at length
      rw [monthMatch_congr fun word _ => startsWith_case same, short m index, length]
  rw [readMonthName_eq, monthMatch_congr fun word letters => startsWith_append letters plain, found]
  simp

/-- The elements of a mask that names a date and a time of day on the clock of 24. -/
def ofDateTime : ElementKind → Bool
  | .sep | .yyyy | .mm | .mon | .month | .dd | .hh24 | .mi | .ss | .ff => true
  | _ => false

/-- The digits of the fraction that `FF` shows. -/
def shownDigits (el : FmtEl) : Nat := if el.ffDigits = 0 then 9 else el.ffDigits

def OracleDateTime.monthName (t : OracleDateTime) : CString :=
  (monthFull.getD (t.month - 1) "").toList

/-- The text of an element at its full width; a month's name may be in any case. -/
def RendersElement (t : OracleDateTime) (el : FmtEl) (text : CString) : Prop :=
  match el.kind with
  | .yyyy => text = padded 4 t.year
  | .mm => text = padded 2 t.month
  | .mon => strcasecmp text (t.monthName.take 3) = true
  | .month => strcasecmp text t.monthName = true
  | .dd => text = padded 2 t.day
  | .hh24 => text = padded 2 t.hour
  | .mi => text = padded 2 t.minute
  | .ss => text = padded 2 t.second
  | .ff => text = t.fraction.take (shownDigits el)
  | _ => text = []

/-- The date and time through a mask: its separators as they are, its elements rendered. -/
def Renders (t : OracleDateTime) : List MaskPiece → CString → Prop
  | [], text => text = []
  | .separator run :: pieces, text => ∃ rest, text = run ++ rest ∧ Renders t pieces rest
  | .element el :: pieces, text =>
    ∃ shown rest, text = shown ++ rest ∧ RendersElement t el shown ∧ Renders t pieces rest

/-- The digits of the fraction that the mask shows. -/
def fractionDigits (els : List FmtEl) : Nat :=
  els.foldl (fun digits el => if el.kind = .ff then shownDigits el else digits) 0

/-- What the mask shows of a date and time: the fields that are not in it are zero. -/
def OracleDateTime.shownBy (t : OracleDateTime) (els : List FmtEl) : OracleDateTime :=
  { t with
    hour := if els.any (·.kind = .hh24) then t.hour else 0
    minute := if els.any (·.kind = .mi) then t.minute else 0
    second := if els.any (·.kind = .ss) then t.second else 0
    fraction := t.fraction.take (fractionDigits els) ++
      List.replicate (9 - (t.fraction.take (fractionDigits els)).length) '0'
    hourRange := by
      have range := t.hourRange
      split <;> omega
    minuteRange := by
      have range := t.minuteRange
      split <;> omega
    secondRange := by
      have range := t.secondRange
      split <;> omega
    nanoseconds := by
      obtain ⟨length, digits⟩ := t.nanoseconds
      constructor
      · simp only [List.length_append, List.length_take, List.length_replicate, length]
        omega
      · intro c member
        rcases List.mem_append.mp member with shown | zero
        · exact digits c (List.mem_of_mem_take shown)
        · rw [List.eq_of_mem_replicate zero]
          rfl }

/-- What reading an element sets. -/
def fillPart (t : OracleDateTime) (dt : DtParts) (el : FmtEl) : DtParts :=
  match el.kind with
  | .yyyy => { dt with year := t.year, yearSet := true }
  | .mm | .mon | .month => { dt with month := t.month, monthSet := true }
  | .dd => { dt with day := t.day, daySet := true }
  | .hh24 => { dt with hour := t.hour, hourSet := true, hourIs12 := false }
  | .mi => { dt with minute := t.minute }
  | .ss => { dt with second := t.second }
  | .ff => { dt with frac := t.fraction.take (shownDigits el) }
  | _ => dt

section Elements

variable {t : OracleDateTime} {el : FmtEl} {text rest : CString} {currentYear : Nat} {dt : DtParts}

theorem OracleDateTime.month_index (t : OracleDateTime) :
    t.month - 1 < 12 ∧ t.month - 1 + 1 = t.month := by
  obtain ⟨month, -, -⟩ := (inMonth_iff _ _ _).mp t.inMonth
  omega

theorem parseElement_month (kind : el.kind = .mon ∨ el.kind = .month)
    (rendered : RendersElement t el text) (plain : Unlettered rest) :
    parseElement currentYear el (text ++ rest) dt =
      .ok (rest, { dt with month := t.month, monthSet := true }) := by
  obtain ⟨index, same⟩ := t.month_index
  have read : readMonthName (text ++ rest) = some (t.month, rest) := by
    rw [← same]
    apply readMonthName_name index _ plain
    rcases kind with kind | kind
    · simp only [RendersElement, kind] at rendered
      exact .inr rendered
    · simp only [RendersElement, kind] at rendered
      exact .inl rendered
  rcases kind with kind | kind <;> simp only [parseElement, kind, readMonth, read]

/-- An element reads back what it shows. -/
theorem parseElement_rendered (known : ofDateTime el.kind = true) (data : el.kind ≠ .sep)
    (width : el.ffDigits ≤ 9) (rendered : RendersElement t el text)
    (plain : el.kind = .mon ∨ el.kind = .month → Unlettered rest) :
    parseElement currentYear el (text ++ rest) dt = .ok (rest, fillPart t dt el) := by
  have calendar := t.parts_inCalendar
  have year : t.year < 10 ^ 4 := Nat.lt_of_le_of_lt t.yearRange.2 (by omega)
  have month : t.month < 10 ^ 2 := Nat.lt_of_le_of_lt calendar.month.2 (by omega)
  have day : t.day < 10 ^ 2 := Nat.lt_of_le_of_lt calendar.day.2 (by omega)
  have hour : t.hour < 10 ^ 2 := Nat.lt_of_le_of_lt t.hourRange (by omega)
  have minute : t.minute < 10 ^ 2 := Nat.lt_of_le_of_lt t.minuteRange (by omega)
  have second : t.second < 10 ^ 2 := Nat.lt_of_le_of_lt t.secondRange (by omega)
  obtain ⟨kind, digits, name⟩ := el
  cases kind with
  | sep => exact absurd rfl data
  | yyyy =>
    cases rendered
    exact parseElement_yyyy year
  | mm =>
    cases rendered
    exact parseElement_mm month
  | mon => exact parseElement_month (.inl rfl) rendered (plain (.inl rfl))
  | month => exact parseElement_month (.inr rfl) rendered (plain (.inr rfl))
  | dd =>
    cases rendered
    exact parseElement_dd day
  | hh24 =>
    cases rendered
    exact parseElement_hh24 hour
  | mi =>
    cases rendered
    exact parseElement_mi minute
  | ss =>
    cases rendered
    exact parseElement_ss second
  | ff =>
    cases rendered
    have shown : shownDigits ⟨.ff, digits, name⟩ = if digits = 0 then 9 else digits := rfl
    have range : 0 < (if digits = 0 then 9 else digits) ∧
        (if digits = 0 then 9 else digits) ≤ 9 := by
      dsimp only at width
      split <;> omega
    have length : (t.fraction.take (if digits = 0 then 9 else digits)).length =
        if digits = 0 then 9 else digits := by
      rw [List.length_take, t.nanoseconds.1]
      omega
    have numeric : ∀ c ∈ t.fraction.take (if digits = 0 then 9 else digits), c.isDigit = true :=
      fun c member => t.nanoseconds.2 c (List.mem_of_mem_take member)
    have all := leadingDigits_append rest length numeric
    have full : t.fraction.take (if digits = 0 then 9 else digits) ≠ [] := by
      intro none
      rw [none, List.length_nil] at length
      omega
    simp only [parseElement, fillPart, shown, all, full, if_false, List.drop_left]
  | lit | rrrr | yy | rr | hh12 | ampm => cases known

/-- An element shows a letter or digit first, and a digit unless it is a month's name. -/
theorem rendered_starts (known : ofDateTime el.kind = true) (data : el.kind ≠ .sep)
    (width : el.ffDigits ≤ 9) (rendered : RendersElement t el text) :
    ∃ c tail, text = c :: tail ∧ c.isAlphanum = true ∧
      (el.kind ≠ .mon → el.kind ≠ .month → c.isAlpha = false) := by
  have number : ∀ width n : Nat, 0 < width → n < 10 ^ width → text = padded width n →
      ∃ c tail, text = c :: tail ∧ c.isAlphanum = true ∧
        (el.kind ≠ .mon → el.kind ≠ .month → c.isAlpha = false) := by
    rintro width n wide small rfl
    obtain ⟨c, tail, same, digit⟩ := startsNumeric_padded [] wide small
    rw [List.append_nil] at same
    exact ⟨c, tail, same, isAlphanum_of_isDigit digit, fun _ _ => not_alpha_of_isDigit digit⟩
  have named : ∀ name : CString, name ∈ monthFull.map (·.toList) ∨
      name ∈ monthFull.map (·.toList.take 3) → el.kind = .mon ∨ el.kind = .month →
      strcasecmp text name = true → ∃ c tail, text = c :: tail ∧ c.isAlphanum = true ∧
        (el.kind ≠ .mon → el.kind ≠ .month → c.isAlpha = false) := by
    intro name listed kind same
    have alphabetic : ∀ name ∈ monthFull.map (·.toList) ++ monthFull.map (·.toList.take 3),
        ((name.head?.map Char.isAlpha).getD false) = true := by decide +kernel
    have letter := alphabetic name (List.mem_append.mpr listed)
    rw [strcasecmp, decide_eq_true_eq] at same
    cases name with
    | nil => cases letter
    | cons d name =>
      cases text with
      | nil => cases same
      | cons c tail =>
        rw [List.map_cons, List.map_cons, List.cons.injEq] at same
        have letter : d.isAlpha = true := letter
        refine ⟨c, tail, rfl, ?_, ?_⟩
        · rw [Char.isAlphanum, ← Char.isAlpha_toLower_eq_isAlpha, same.1,
            Char.isAlpha_toLower_eq_isAlpha, letter, Bool.true_or]
        · rintro notMon notMonth
          rcases kind with kind | kind
          · exact absurd kind notMon
          · exact absurd kind notMonth
  have calendar := t.parts_inCalendar
  have member : monthFull.getD (t.month - 1) "" ∈ monthFull := by
    have index := t.month_index.1
    rw [List.getD_eq_getElem _ _ index]
    exact List.getElem_mem index
  obtain ⟨kind, digits, name⟩ := el
  cases kind with
  | sep => exact absurd rfl data
  | yyyy => exact number 4 t.year (by omega) (Nat.lt_of_le_of_lt t.yearRange.2 (by omega)) rendered
  | mm => exact number 2 t.month (by omega) (Nat.lt_of_le_of_lt calendar.month.2 (by omega)) rendered
  | mon => exact named _ (.inr (List.mem_map.mpr ⟨_, member, rfl⟩)) (.inl rfl) rendered
  | month => exact named _ (.inl (List.mem_map.mpr ⟨_, member, rfl⟩)) (.inr rfl) rendered
  | dd => exact number 2 t.day (by omega) (Nat.lt_of_le_of_lt calendar.day.2 (by omega)) rendered
  | hh24 => exact number 2 t.hour (by omega) (Nat.lt_of_le_of_lt t.hourRange (by omega)) rendered
  | mi => exact number 2 t.minute (by omega) (Nat.lt_of_le_of_lt t.minuteRange (by omega)) rendered
  | ss => exact number 2 t.second (by omega) (Nat.lt_of_le_of_lt t.secondRange (by omega)) rendered
  | ff =>
    obtain ⟨length, numeric⟩ := t.nanoseconds
    have some : 0 < shownDigits ⟨.ff, digits, name⟩ := by
      rw [shownDigits]
      split <;> omega
    cases rendered
    cases fraction : t.fraction with
    | nil =>
      rw [fraction] at length
      cases length
    | cons c tail =>
      have digit := numeric c (fraction ▸ List.mem_cons_self)
      obtain ⟨n, same⟩ := Nat.exists_eq_succ_of_ne_zero (Nat.ne_of_gt some)
      rw [same, List.take_succ_cons]
      exact ⟨c, _, rfl, isAlphanum_of_isDigit digit, fun _ _ => not_alpha_of_isDigit digit⟩
  | lit | rrrr | yy | rr | hh12 | ampm => cases known

/-- Punctuation where an element is due is an error. -/
theorem parseElement_punctuation {c : Char} (known : ofDateTime el.kind = true)
    (data : el.kind ≠ .sep) (punct : c.isAlphanum = false) :
    ∃ reason, parseElement currentYear el (c :: rest) dt = .error reason := by
  rw [Char.isAlphanum, Bool.or_eq_false_iff] at punct
  obtain ⟨alpha, digit⟩ := punct
  have noDigits : ∀ width, leadingDigits width (c :: rest) = [] := by
    intro width
    cases width <;> simp [leadingDigits, digit]
  have noNumber : ∀ width, readNumber width (c :: rest) = .error nonNumeric := by
    intro width
    rw [readNumber, if_pos (noDigits width)]
  have noMonth : readMonthName (c :: rest) = none := by
    have plain : Unlettered (c :: rest) := by
      rintro d tail same
      cases same
      exact alpha
    have nothing : monthMatch [] = none := by decide +kernel
    rw [readMonthName_eq, ← List.nil_append (c :: rest),
      monthMatch_congr fun word letters => startsWith_append letters plain, nothing]
    rfl
  obtain ⟨kind, digits, name⟩ := el
  cases kind with
  | sep => exact absurd rfl data
  | mm => exact ⟨nonNumeric, by simp [parseElement, alpha, noNumber, bind, Except.bind]⟩
  | mon | month => exact ⟨badMonth, by simp [parseElement, readMonth, noMonth]⟩
  | ff => exact ⟨nonNumeric, by simp [parseElement, noDigits]⟩
  | yyyy | dd | hh24 | mi | ss =>
    exact ⟨nonNumeric, by simp [parseElement, noNumber, bind, Except.bind]⟩
  | lit | rrrr | yy | rr | hh12 | ampm => cases known

end Elements

end OciWrapper.Dates
