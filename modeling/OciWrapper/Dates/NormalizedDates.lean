import OciWrapper.Dates.OracleCalendar

namespace OciWrapper.Dates

open OciWrapper.Text

def invalidArguments : DateNormError × CString := (.badArg, "invalid arguments".toList)

/-- `date_normalize` with the buffer behind `out`, of `outSize` bytes; `NULL` is `none`. -/
def dateNormalizeInto (value mask : Option CString) (isTimestamp : Bool) (out : Option CString)
    (outSize : Nat) (today : Today) : Except (DateNormError × CString) Unit × Option CString :=
  match value, out with
  | some value, some _ =>
    if outSize < dateNormalizeOutMax then (.error invalidArguments, out)
    else
      match dateNormalize value (mask.getD []) isTimestamp today with
      | .error reason => (.error reason, out)
      | .ok tmp => (.ok (), some (tmp.take (outSize - 1)))
  | _, _ => (.error invalidArguments, out)

/-- A text in the layout of a pattern, in which every `0` stands for a digit. -/
def HasLayout (pattern text : CString) : Prop :=
  List.Forall₂ (fun p c => if p = '0' then c.isDigit = true else c = p) pattern text

def dateLayout : CString := "0000-00-00 00:00:00".toList
def timestampLayout : CString := "0000-00-00 00:00:00.000000".toList

theorem HasLayout.append {pattern pattern' text text' : CString} (first : HasLayout pattern text)
    (later : HasLayout pattern' text') : HasLayout (pattern ++ pattern') (text ++ text') :=
  List.rel_append first later

theorem HasLayout.mark {p : Char} {pattern text : CString} (fixed : p ≠ '0')
    (rest : HasLayout pattern text) : HasLayout (p :: pattern) (p :: text) := by
  apply List.Forall₂.cons _ rest
  rw [if_neg fixed]

theorem HasLayout.digits {text : CString} (numeric : ∀ c ∈ text, c.isDigit = true) :
    HasLayout (List.replicate text.length '0') text := by
  induction text with
  | nil => exact .nil
  | cons c text ih =>
    apply List.Forall₂.cons
    · rw [if_pos rfl]
      exact numeric c List.mem_cons_self
    · exact ih fun d member => numeric d (List.mem_cons_of_mem c member)

theorem HasLayout.padded {width n : Nat} (wide : 0 < width) (small : n < 10 ^ width) :
    HasLayout (List.replicate width '0') (padded width n) := by
  have digits := HasLayout.digits (padded_isDigit width n)
  rwa [padded_length wide small] at digits

theorem OracleDateTime.canonicalForm_layout (t : OracleDateTime) (isTimestamp : Bool) :
    HasLayout (if isTimestamp then timestampLayout else dateLayout)
      (t.canonicalForm isTimestamp) := by
  obtain ⟨month, day, days⟩ := (inMonth_iff _ _ _).mp t.inMonth
  have calendar := t.parts_inCalendar
  have year : HasLayout (List.replicate 4 '0') (padded 4 t.year) := by
    apply HasLayout.padded (by omega)
    have := t.yearRange
    omega
  have two {n : Nat} (small : n < 100) : HasLayout (List.replicate 2 '0') (padded 2 n) :=
    HasLayout.padded (by omega) small
  have months := two (Nat.lt_of_le_of_lt month.2 (by omega))
  have daysOf := two (Nat.lt_of_le_of_lt (calendar.day.2 : t.day ≤ 31) (by omega))
  have hours := two (Nat.lt_of_le_of_lt t.hourRange (by omega))
  have minutes := two (Nat.lt_of_le_of_lt t.minuteRange (by omega))
  have seconds := two (Nat.lt_of_le_of_lt t.secondRange (by omega))
  have dash : ('-' : Char) ≠ '0' := by decide
  have blank : (' ' : Char) ≠ '0' := by decide
  have colon : (':' : Char) ≠ '0' := by decide
  have toDay := (year.append (months.mark dash)).append (daysOf.mark dash)
  have toSecond := ((toDay.append (hours.mark blank)).append (minutes.mark colon)).append
    (seconds.mark colon)
  rw [canonicalForm]
  cases isTimestamp with
  | false =>
    have nothing : HasLayout [] [] := .nil
    exact toSecond.append nothing
  | true =>
    have six : (t.fraction.take 6).length = 6 := by
      rw [List.length_take, t.nanoseconds.1]
      rfl
    have fraction : HasLayout (List.replicate 6 '0') (t.fraction.take 6) := by
      have numeric : ∀ c ∈ t.fraction.take 6, c.isDigit = true :=
        fun c member => t.nanoseconds.2 c (List.mem_of_mem_take member)
      have digits := HasLayout.digits numeric
      rwa [six] at digits
    have dot : ('.' : Char) ≠ '0' := by decide
    exact toSecond.append (fraction.mark dot)

/-- On success the buffer holds the canonical form of a date and time of Oracle's calendar; on
every other result it is as it was. -/
theorem dateNormalizeInto_out (value mask : Option CString) (isTimestamp : Bool)
    (out : Option CString) (outSize : Nat) (today : Today) :
    let result := dateNormalizeInto value mask isTimestamp out outSize today
    (result.1 = .ok () → ∃ t : OracleDateTime,
      result.2 = some (t.canonicalForm isTimestamp) ∧
      HasLayout (if isTimestamp then timestampLayout else dateLayout)
        (t.canonicalForm isTimestamp) ∧
      (t.canonicalForm isTimestamp).length = if isTimestamp then 26 else 19) ∧
    ∀ reason, result.1 = .error reason → result.2 = out := by
  have unchanged : ∀ reason, let result := (Except.error reason, out)
      (result.1 = .ok () → ∃ t : OracleDateTime,
        result.2 = some (t.canonicalForm isTimestamp) ∧
        HasLayout (if isTimestamp then timestampLayout else dateLayout)
          (t.canonicalForm isTimestamp) ∧
        (t.canonicalForm isTimestamp).length = if isTimestamp then 26 else 19) ∧
      ∀ reason : DateNormError × CString, result.1 = .error reason → result.2 = out :=
    fun reason => ⟨(nomatch ·), fun _ _ => rfl⟩
  unfold dateNormalizeInto
  split
  next value buffer =>
    by_cases small : outSize < dateNormalizeOutMax
    · rw [if_pos small]
      exact unchanged _
    · rw [if_neg small]
      cases ran : dateNormalize value (mask.getD []) isTimestamp today with
      | error reason => exact unchanged reason
      | ok tmp =>
        obtain ⟨parts, calendar, same⟩ := dateNormalize_ok ran
        obtain ⟨t, form⟩ := canonicalText_form calendar isTimestamp
        have short := (dateNormalize_length ran).2
        have layout := t.canonicalForm_layout isTimestamp
        constructor
        · intro ended
          refine ⟨t, ?_, layout, ?_⟩
          · dsimp only
            rw [List.take_of_length_le (by omega), same, form]
          · rw [← layout.length_eq]
            cases isTimestamp <;> rfl
        · intro reason failed
          cases failed
  · exact unchanged _

end OciWrapper.Dates
