import OciWrapper.Audit.SnapshotValues

namespace OciWrapper.Audit

open OciWrapper.Text

/-- No value that differs only in its last character leaves the same bytes. -/
def LastTold (room : Nat) (val : CString) : Prop :=
  ∀ other text more more', other.length = val.length → other.dropLast = val.dropLast →
    Cell room val text more → Cell room other text more' → other = val

/-- The bytes left for the last value tell it from all others. -/
def LastFits (room : Nat) (val : CString) : Prop :=
  if val = [] then 0 < room
  else Clear val ∧
    if NeedsQuote val then
      (escapedText val).length + 1 = room ∨ (escapedText val).length + 2 < room ∨
        (val.length + 1 = auditMaxColValue ∧ 2 ≤ room ∧ LastTold room val)
    else (escapedText val).length < room ∨
      (val.length + 1 = auditMaxColValue ∧ LastTold room val)

def CellUnique (room : Nat) (val : CString) : Prop :=
  ∃ text more, Cell room val text more ∧
    ∀ other more', other.length < auditMaxColValue → Cell room other text more' → other = val

section Last

variable {room : Nat} {val other text : CString} {more : Bool}

theorem Twin.cell (twin : Twin val other) (filled : val ≠ []) (cell : Cell room val text more) :
    Cell room other text more := by
  cases cell with
  | null | nullLost => exact (filled rfl).elim
  | plain _ bare =>
    rw [← twin.escaped]
    exact .plain twin.filled (mt twin.kind.mp bare)
  | quoteLost _ quote full => exact .quoteLost twin.filled (twin.kind.mpr quote) full
  | quoted _ quote fits =>
    rw [← twin.escaped] at fits ⊢
    exact .quoted twin.filled (twin.kind.mpr quote) fits
  | unclosed _ quote full =>
    rw [← twin.escaped] at full ⊢
    exact .unclosed twin.filled (twin.kind.mpr quote) full
  | cut _ quote least full =>
    rw [← twin.escaped] at full ⊢
    exact .cut twin.filled (twin.kind.mpr quote) least full

theorem CellUnique.clear (unique : CellUnique room val) (filled : val ≠ [])
    (small : val.length < auditMaxColValue) : Clear val := by
  obtain ⟨text, more, cell, only⟩ := unique
  by_contra unclear
  obtain ⟨other, twin⟩ := exists_twin filled small unclear
  exact twin.different (only other more twin.small (twin.cell filled cell))

/-- A value that can be longer is not told from the longer one where it reaches the end. -/
theorem longer_escaped (clear : Clear val) (short : val.length + 1 < auditMaxColValue) :
    escapedValue (val ++ ['&']) = escapedText val ++ "&amp;".toList := by
  have fits : escapedText (val ++ ['&']) = escapedText val ++ "&amp;".toList := by
    rw [escapedText_append, escapedText_singleton]
    rfl
  rw [← fits]
  refine auditXmlEscape_whole _ ?_
  have five : "&amp;".toList.length = 5 := rfl
  rw [fits, List.length_append, five]
  rcases clear.2 with room | ⟨full, -⟩
  · omega
  · omega

theorem longer_needsQuote : NeedsQuote (val ++ ['&']) ↔ NeedsQuote val := by
  rw [needsQuote_append, or_iff_left (by decide)]

theorem longer_ne : val ++ ['&'] ≠ val := by
  intro equal
  have lengths := congrArg List.length equal
  rw [List.length_append, List.length_singleton] at lengths
  omega

theorem CellUnique.bare_fits (unique : CellUnique room val) (clear : Clear val)
    (bare : ¬NeedsQuote val) (filled : val ≠ []) (small : val.length < auditMaxColValue)
    (full : room ≤ (escapedText val).length) :
    val.length + 1 = auditMaxColValue ∧ LastTold room val := by
  obtain ⟨text, more, cell, only⟩ := unique
  obtain ⟨rfl, rfl⟩ := (Cell.plain filled bare).functional cell
  refine ⟨?_, ?_⟩
  · by_contra short
    have longer : Cell room (val ++ ['&']) ((escapedValue val).take room) true := by
      have written := longer_escaped clear (by omega)
      have same : (escapedValue val).take room = (escapedValue (val ++ ['&'])).take room := by
        rw [written, List.take_append_of_le_length full, clear.escaped]
      rw [same]
      exact .plain (by simp) (mt longer_needsQuote.mp bare)
    refine longer_ne (only _ _ ?_ longer)
    rw [List.length_append, List.length_singleton]
    omega
  · intro other text more more' lengths _ here there
    obtain ⟨rfl, rfl⟩ := here.functional cell
    exact only other more' (lengths ▸ small) there

theorem CellUnique.quoted_fits (unique : CellUnique room val) (clear : Clear val)
    (quote : NeedsQuote val) (filled : val ≠ []) (small : val.length < auditMaxColValue)
    (closed : (escapedText val).length + 1 ≠ room) (full : room ≤ (escapedText val).length + 2) :
    val.length + 1 = auditMaxColValue ∧ 2 ≤ room ∧ LastTold room val := by
  have least := List.length_pos_of_ne_nil (escapedText_ne_nil filled)
  have bound : auditMaxColValue = 32768 := rfl
  obtain ⟨text, more, cell, only⟩ := unique
  have written : 2 ≤ room ∧
      text = '"' :: (escapedText val).take (room - 2) ++ ['"'] ∧ more = true := by
    have same := clear.escaped
    cases cell with
    | null | nullLost => exact (filled rfl).elim
    | plain _ bare => exact (bare quote).elim
    | quoteLost _ _ none =>
      refine (filled (only [] false (by simp [bound]) (.nullLost (by omega))).symm).elim
    | quoted _ _ fits =>
      rw [same] at fits
      have whole : (escapedText val).take (room - 2) = escapedText val :=
        List.take_of_length_le (by omega)
      exact ⟨by omega, by rw [whole, same], rfl⟩
    | unclosed _ _ short =>
      rw [same] at short
      exact (closed short).elim
    | cut _ _ two => exact ⟨two, by rw [same], rfl⟩
  obtain ⟨two, rfl, rfl⟩ := written
  refine ⟨?_, two, ?_⟩
  · by_contra short
    have shown := longer_escaped clear (by omega)
    have longer : Cell room (val ++ ['&'])
        ('"' :: (escapedText val).take (room - 2) ++ ['"']) true := by
      have same : (escapedText val).take (room - 2) =
          (escapedValue (val ++ ['&'])).take (room - 2) := by
        rw [shown, List.take_append_of_le_length (by omega)]
      have five : "&amp;".toList.length = 5 := rfl
      rw [same]
      refine .cut (by simp) (longer_needsQuote.mpr quote) two ?_
      rw [shown, List.length_append, five]
      omega
    refine longer_ne (only _ _ ?_ longer)
    rw [List.length_append, List.length_singleton]
    omega
  · intro other text more more' lengths _ here there
    obtain ⟨rfl, rfl⟩ := here.functional cell
    exact only other more' (lengths ▸ small) there

theorem CellUnique.lastFits (unique : CellUnique room val)
    (small : val.length < auditMaxColValue) : LastFits room val := by
  rw [LastFits]
  split
  next empty =>
    subst empty
    rw [Nat.pos_iff_ne_zero]
    rintro rfl
    obtain ⟨text, more, cell, only⟩ := unique
    have lost : Cell 0 [] [] false := .nullLost (by omega)
    obtain ⟨rfl, rfl⟩ := lost.functional cell
    have other : Cell 0 ['a'] [] true := .plain (by decide) (by decide)
    cases only ['a'] true (by decide) other
  next filled =>
    have clear := unique.clear filled small
    refine ⟨clear, ?_⟩
    split
    next quote =>
      by_cases closed : (escapedText val).length + 1 = room
      · exact .inl closed
      · by_cases fits : (escapedText val).length + 2 < room
        · exact .inr (.inl fits)
        · exact .inr (.inr (unique.quoted_fits clear quote filled small closed (by omega)))
    next bare =>
      by_cases fits : (escapedText val).length < room
      · exact .inl fits
      · exact .inr (unique.bare_fits clear bare filled small (by omega))

/-- A value can end in another character that is quoted alike and needs no more room. -/
theorem exists_other_last (c : Char) : ∃ d, d ≠ c ∧ (NeedsQuote [d] ↔ NeedsQuote [c]) ∧
    ((auditEscapeChar d).length = (auditEscapeChar c).length ∨
      (4 ≤ (auditEscapeChar d).length ∧ (auditEscapeChar d).length ≤ (auditEscapeChar c).length)) := by
  have unmarked : ∀ {e : Char}, e ≠ '|' → e ≠ '=' → ¬NeedsQuote [e] := by
    intro e pipe equals
    simp [NeedsQuote, Ne.symm pipe, Ne.symm equals]
  by_cases special : c ∈ escapedSpecials
  · have wide := (escape_special special).2
    have apart : ¬NeedsQuote [c] := of_special (P := fun c => ¬NeedsQuote [c]) (by decide) special
    by_cases less : c = '<'
    · exact ⟨'>', by rw [less]; decide, iff_of_false (by decide) apart, .inr ⟨by decide, wide⟩⟩
    · exact ⟨'<', Ne.symm less, iff_of_false (by decide) apart, .inr ⟨by decide, wide⟩⟩
  · have narrow : (auditEscapeChar c).length = 1 := by
      by_cases broken : c = '\n' ∨ c = '\r'
      · rw [auditEscapeChar, if_pos broken]
        rfl
      · rw [escape_plain special broken]
        rfl
    by_cases pipe : c = '|'
    · exact ⟨'=', by rw [pipe]; decide, by rw [pipe]; decide, .inl (by rw [narrow]; decide)⟩
    · by_cases equals : c = '='
      · exact ⟨'|', by rw [equals]; decide, by rw [equals]; decide, .inl (by rw [narrow]; decide)⟩
      · by_cases letter : c = 'a'
        · exact ⟨'b', by rw [letter]; decide, by rw [letter]; decide, .inl (by rw [narrow]; decide)⟩
        · exact ⟨'a', Ne.symm letter, iff_of_false (by decide) (unmarked pipe equals),
            .inl (by rw [narrow]; decide)⟩

theorem other_last {u : CString} {c : Char} (clear : Clear (u ++ [c])) :
    ∃ d, d ≠ c ∧ (NeedsQuote (u ++ [d]) ↔ NeedsQuote (u ++ [c])) ∧
      escapedValue (u ++ [d]) = escapedText u ++ auditEscapeChar d ∧
      ((auditEscapeChar d).length = (auditEscapeChar c).length ∨
        4 ≤ (auditEscapeChar d).length) := by
  obtain ⟨d, different, kind, width⟩ := exists_other_last c
  have room : (escapedText (u ++ [c])).length < escapedSize := by
    rcases clear.2 with short | ⟨-, short⟩
    · omega
    · exact short
  rw [escapedText_append, escapedText_singleton, List.length_append] at room
  have parts : escapedText (u ++ [d]) = escapedText u ++ auditEscapeChar d := by
    rw [escapedText_append, escapedText_singleton]
  refine ⟨d, different, ?_, ?_, width.imp id And.left⟩
  · rw [needsQuote_append, needsQuote_append, kind]
  · rw [← parts]
    refine auditXmlEscape_whole _ ?_
    rw [parts, List.length_append]
    rcases width with same | ⟨-, less⟩
    · omega
    · omega

theorem LastTold.shown_bare {u : CString} {c : Char} (told : LastTold room (u ++ [c]))
    (clear : Clear (u ++ [c])) (bare : ¬NeedsQuote (u ++ [c])) : (escapedText u).length < room := by
  by_contra hidden
  obtain ⟨d, different, kind, shown, -⟩ := other_last clear
  have here : Cell room (u ++ [c]) ((escapedText u).take room) true := by
    have same : (escapedText u).take room = (escapedValue (u ++ [c])).take room := by
      rw [clear.escaped, escapedText_append, List.take_append_of_le_length (by omega)]
    rw [same]
    exact .plain (by simp) bare
  have there : Cell room (u ++ [d]) ((escapedText u).take room) true := by
    have same : (escapedText u).take room = (escapedValue (u ++ [d])).take room := by
      rw [shown, List.take_append_of_le_length (by omega)]
    rw [same]
    exact .plain (by simp) (mt kind.mp bare)
  have equal := told (u ++ [d]) _ _ _ (by simp) (by simp) here there
  exact different (List.cons.inj (List.append_cancel_left equal)).1

theorem LastTold.shown_quoted {u : CString} {c : Char} (told : LastTold room (u ++ [c]))
    (clear : Clear (u ++ [c])) (quote : NeedsQuote (u ++ [c])) (two : 2 ≤ room)
    (full : room ≤ (escapedText (u ++ [c])).length) : (escapedText u).length < room - 2 := by
  by_contra hidden
  obtain ⟨d, different, kind, shown, width⟩ := other_last clear
  have here : Cell room (u ++ [c]) ('"' :: (escapedText u).take (room - 2) ++ ['"']) true := by
    have same : (escapedText u).take (room - 2) = (escapedValue (u ++ [c])).take (room - 2) := by
      rw [clear.escaped, escapedText_append, List.take_append_of_le_length (by omega)]
    rw [same]
    exact .cut (by simp) quote two (by rw [clear.escaped]; exact full)
  have there : Cell room (u ++ [d]) ('"' :: (escapedText u).take (room - 2) ++ ['"']) true := by
    have same : (escapedText u).take (room - 2) = (escapedValue (u ++ [d])).take (room - 2) := by
      rw [shown, List.take_append_of_le_length (by omega)]
    rw [same]
    refine .cut (by simp) (kind.mpr quote) two ?_
    rw [escapedText_append, escapedText_singleton, List.length_append] at full
    rw [shown, List.length_append]
    omega
  have equal := told (u ++ [d]) _ _ _ (by simp) (by simp) here there
  exact different (List.cons.inj (List.append_cancel_left equal)).1

/-- A value whose first bytes are those of one of the full length differs from it in its last
character only. -/
theorem same_start {u : CString} {c : Char} {n : Nat} (clear : Clear (u ++ [c]))
    (long : u.length + 2 = auditMaxColValue) (small : other.length < auditMaxColValue)
    (shown : (escapedText u).length < n)
    (same : (escapedValue other).take n = (escapedText (u ++ [c])).take n) :
    other.length = (u ++ [c]).length ∧ other.dropLast = (u ++ [c]).dropLast := by
  obtain ⟨kept, lost, rfl, written, -, -⟩ := escapedValue_split other
  have width := (escape_length c).1
  have start : escapedText u ++ ((auditEscapeChar c).take (n - (escapedText u).length) ++
      (escapedText kept).drop n) = escapedText kept := by
    rw [written, escapedText_append, escapedText_singleton, List.take_append,
      List.take_of_length_le (l := escapedText u) (by omega)] at same
    rw [← List.append_assoc, ← same, List.take_append_drop]
  obtain ⟨more, rfl, rest⟩ := escapedText_prefix
    (fun e member => clear.1 e (List.mem_append_left [c] member)) start
  cases more with
  | nil =>
    have lengths := congrArg List.length rest
    simp only [escapedText, List.flatMap_nil, List.length_nil, List.length_append,
      List.length_take] at lengths shown
    omega
  | cons d more =>
    simp only [List.length_append, List.length_cons] at small
    have one : more = [] := List.eq_nil_of_length_eq_zero (by omega)
    have none : lost = [] := List.eq_nil_of_length_eq_zero (by omega)
    subst one none
    simp

theorem Cell.bare_unique {other : CString} {more : Bool} (clear : Clear val)
    (filled : val ≠ []) (bare : ¬NeedsQuote val)
    (long : val.length + 1 = auditMaxColValue) (told : LastTold room val)
    (full : room ≤ (escapedText val).length) (small : other.length < auditMaxColValue)
    (there : Cell room other ((escapedText val).take room) more) : other = val := by
  obtain ⟨u, c, rfl⟩ := (List.eq_nil_or_concat' val).resolve_left filled
  have shown := told.shown_bare clear bare
  have here : Cell room (u ++ [c]) ((escapedText (u ++ [c])).take room) true := by
    rw [← clear.escaped]
    exact .plain filled bare
  have visible : (escapedText (u ++ [c])).take room ≠ [] := by
    intro empty
    have cut := congrArg List.length empty
    rw [List.length_take, List.length_nil] at cut
    omega
  have kinds : kindOf (u ++ [c]) = kindOf other :=
    Option.some.inj ((here.kind visible).symm.trans (there.kind visible))
  rw [kindOf, if_neg filled, if_neg bare, kindOf] at kinds
  rw [List.length_append, List.length_singleton] at long
  generalize written : (escapedText (u ++ [c])).take room = text at here there
  cases there with
  | null => cases kinds
  | nullLost => cases kinds
  | plain other_filled other_bare =>
    obtain ⟨lengths, starts⟩ := same_start clear (by omega) small shown written.symm
    exact told other _ _ _ lengths starts here (.plain other_filled other_bare)
  | quoteLost other_filled quote | quoted other_filled quote | unclosed other_filled quote
  | cut other_filled quote =>
    rw [if_neg other_filled, if_pos quote] at kinds
    cases kinds

theorem cut_cell (clear : Clear val) (filled : val ≠ []) (quote : NeedsQuote val) (two : 2 ≤ room)
    (full : room ≤ (escapedText val).length + 2) (closed : (escapedText val).length + 1 ≠ room) :
    Cell room val ('"' :: (escapedText val).take (room - 2) ++ ['"']) true := by
  by_cases fits : (escapedText val).length + 2 = room
  · have whole : (escapedText val).take (room - 2) = escapedText val :=
      List.take_of_length_le (by omega)
    rw [whole, ← clear.escaped]
    exact .quoted filled quote (by rw [clear.escaped]; omega)
  · rw [← clear.escaped]
    exact .cut filled quote two (by rw [clear.escaped]; omega)

theorem Cell.cut_unique {other : CString} {more : Bool} (clear : Clear val)
    (filled : val ≠ []) (quote : NeedsQuote val)
    (long : val.length + 1 = auditMaxColValue) (two : 2 ≤ room) (told : LastTold room val)
    (full : room ≤ (escapedText val).length + 2) (closed : (escapedText val).length + 1 ≠ room)
    (small : other.length < auditMaxColValue)
    (there : Cell room other ('"' :: (escapedText val).take (room - 2) ++ ['"']) more) :
    other = val := by
  obtain ⟨u, c, rfl⟩ := (List.eq_nil_or_concat' val).resolve_left filled
  have width := (escape_length c).1
  have parts : (escapedText (u ++ [c])).length =
      (escapedText u).length + (auditEscapeChar c).length := by
    rw [escapedText_append, escapedText_singleton, List.length_append]
  have here := cut_cell clear filled quote two full closed
  have shown : (escapedText u).length < room - 2 := by
    by_cases fits : (escapedText (u ++ [c])).length + 2 = room
    · omega
    · exact told.shown_quoted clear quote two (by omega)
  have kinds : kindOf (u ++ [c]) = kindOf other :=
    Option.some.inj ((here.kind (List.cons_ne_nil _ _)).symm.trans
      (there.kind (List.cons_ne_nil _ _)))
  rw [kindOf, if_neg filled, if_pos quote, kindOf] at kinds
  rw [List.length_append, List.length_singleton] at long
  have free : '"' ∉ (escapedText (u ++ [c])).take (room - 2) := fun member =>
    (escapedText_free _).1 (List.mem_of_mem_take member)
  have starts : ∀ same : (escapedValue other).take (room - 2) =
      (escapedText (u ++ [c])).take (room - 2), ∀ more', Cell room other
        ('"' :: (escapedText (u ++ [c])).take (room - 2) ++ ['"']) more' → other = u ++ [c] := by
    intro same more' cell
    obtain ⟨lengths, first⟩ := same_start clear (by omega) small shown same
    exact told other _ _ _ lengths first here cell
  have again := there
  generalize written : '"' :: (escapedText (u ++ [c])).take (room - 2) ++ ['"'] = text at there
  cases there with
  | null => cases kinds
  | nullLost => cases kinds
  | plain other_filled other_bare =>
    rw [if_neg other_filled, if_neg other_bare] at kinds
    cases kinds
  | quoteLost => cases written
  | quoted _ _ fits =>
    have same : (escapedText (u ++ [c])).take (room - 2) = escapedValue other :=
      List.append_cancel_right (List.cons.inj written).2
    refine starts ?_ _ again
    rw [← same, List.take_take, Nat.min_self]
  | unclosed =>
    refine ((escapedValue_free other).1 ?_).elim
    rw [← (List.cons.inj written).2]
    exact List.mem_append_right _ List.mem_cons_self
  | cut =>
    refine starts ?_ _ again
    exact (List.append_cancel_right (List.cons.inj written).2).symm

theorem whole_cell (clear : val ≠ [] → Clear val) (fits : (fieldText val).length ≤ room) :
    Cell room val (fieldText val) true := by
  rw [fieldText] at fits ⊢
  split
  next empty =>
    subst empty
    rw [if_pos rfl] at fits
    exact .null fits
  next filled =>
    have same := (clear filled).escaped
    rw [if_neg filled] at fits
    split
    next quote =>
      rw [if_pos quote, List.length_append, List.length_cons, List.length_singleton] at fits
      rw [← same]
      exact .quoted filled quote (by rw [same]; exact fits)
    next bare =>
      rw [if_neg bare] at fits
      have whole : (escapedValue val).take room = escapedText val := by
        rw [same]
        exact List.take_of_length_le fits
      rw [← whole]
      exact .plain filled bare

theorem whole_unique (clear : val ≠ [] → Clear val) (short : (fieldText val).length < room) :
    CellUnique room val := by
  refine ⟨_, true, whole_cell clear (Nat.le_of_lt short), ?_⟩
  intro other more small there
  exact there.told clear short (.inl rfl) (.inl rfl) small rfl

theorem null_unique (least : 0 < room) : CellUnique room [] := by
  by_cases fits : 6 < room
  · exact whole_unique (fun filled => (filled rfl).elim) (by rw [fieldText, if_pos rfl]; exact fits)
  · have kinds : ∀ {other text more}, Cell room other text more → text = "<NULL>".toList →
        other = [] := by
      rintro other _ more cell rfl
      have kind := cell.kind (by decide)
      by_contra filled
      rw [kindOf, if_neg filled] at kind
      split at kind <;> cases kind
    by_cases written : 6 ≤ room
    · exact ⟨_, true, .null written, fun other more _ there => kinds there rfl⟩
    · refine ⟨[], false, .nullLost (by omega), ?_⟩
      intro other more _ there
      generalize none : ([] : CString) = text at there
      cases there with
      | null => cases none
      | nullLost => rfl
      | plain filled =>
        have cut := congrArg List.length none
        have size := List.length_pos_of_ne_nil (escapedValue_ne_nil filled)
        rw [List.length_take, List.length_nil] at cut
        omega
      | quoteLost _ _ full => omega
      | quoted | unclosed | cut => cases none

theorem unclosed_unique (clear : Clear val) (filled : val ≠ []) (quote : NeedsQuote val)
    (full : (escapedText val).length + 1 = room) : CellUnique room val := by
  have here : Cell room val ('"' :: escapedText val) false := by
    rw [← clear.escaped]
    exact .unclosed filled quote (by rw [clear.escaped]; exact full)
  refine ⟨_, false, here, ?_⟩
  intro other more small there
  have kinds : kindOf val = kindOf other :=
    Option.some.inj ((here.kind (List.cons_ne_nil _ _)).symm.trans
      (there.kind (List.cons_ne_nil _ _)))
  rw [kindOf, if_neg filled, if_pos quote, kindOf] at kinds
  have open_end : ∀ {s : CString}, escapedText val ≠ s ++ ['"'] := by
    intro s same
    refine (escapedText_free val).1 ?_
    rw [same]
    exact List.mem_append_right s List.mem_cons_self
  generalize written : '"' :: escapedText val = text at there
  cases there with
  | null => cases kinds
  | nullLost => cases kinds
  | plain other_filled other_bare =>
    rw [if_neg other_filled, if_neg other_bare] at kinds
    cases kinds
  | quoteLost => cases written
  | quoted => exact (open_end (List.cons.inj written).2).elim
  | unclosed => exact clear.unique small (List.cons.inj written).2.symm
  | cut => exact (open_end (List.cons.inj written).2).elim

theorem LastFits.cellUnique (fits : LastFits room val) : CellUnique room val := by
  rw [LastFits] at fits
  split at fits
  next empty =>
    subst empty
    exact null_unique fits
  next filled =>
    obtain ⟨clear, fits⟩ := fits
    split at fits
    next quote =>
      have length : (fieldText val).length = (escapedText val).length + 2 := by
        rw [fieldText, if_neg filled, if_pos quote, List.length_append, List.length_cons,
          List.length_singleton]
      by_cases closed : (escapedText val).length + 1 = room
      · exact unclosed_unique clear filled quote closed
      · by_cases short : (escapedText val).length + 2 < room
        · exact whole_unique (fun _ => clear) (by omega)
        · obtain ⟨long, two, told⟩ := (fits.resolve_left closed).resolve_left short
          refine ⟨_, true, cut_cell clear filled quote two (by omega) closed, ?_⟩
          intro other more small there
          exact there.cut_unique clear filled quote long two told (by omega) closed small
    next bare =>
      have length : (fieldText val).length = (escapedText val).length := by
        rw [fieldText, if_neg filled, if_neg bare]
      by_cases short : (escapedText val).length < room
      · exact whole_unique (fun _ => clear) (by omega)
      · obtain ⟨long, told⟩ := fits.resolve_left short
        refine ⟨(escapedText val).take room, true, ?_, ?_⟩
        · rw [← clear.escaped]
          exact .plain filled bare
        · intro other more small there
          exact there.bare_unique clear filled bare long told (by omega) small

theorem cellUnique_iff (small : val.length < auditMaxColValue) :
    CellUnique room val ↔ LastFits room val :=
  ⟨fun unique => unique.lastFits small, LastFits.cellUnique⟩

end Last

end OciWrapper.Audit
