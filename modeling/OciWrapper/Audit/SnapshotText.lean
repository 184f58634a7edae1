import OciWrapper.Audit.AuditTrailManager
import OciWrapper.Core.XmlHelper

namespace OciWrapper.Audit

open OciWrapper.Text OciWrapper.Core

/-- `AUDIT_MAX_COL_VALUE`. -/
def auditMaxColValue : Nat := 32768

def auditEscapeChar (c : Char) : CString :=
  if c = '\n' ∨ c = '\r' then [' '] else xmlEscapeChar c

/-- `audit_xml_escape`, with `wi`. -/
def auditXmlEscape (destMax : Nat) : Nat → CString → CString
  | _, [] => []
  | wi, c :: s =>
    if wi < destMax - 1 ∧ wi + (auditEscapeChar c).length < destMax then
      auditEscapeChar c ++ auditXmlEscape destMax (wi + (auditEscapeChar c).length) s
    else []

/-- `sizeof(escaped)`. -/
def escapedSize : Nat := auditMaxColValue + 64

def escapedValue (val : CString) : CString := auditXmlEscape escapedSize 0 val

def NeedsQuote (val : CString) : Prop := '|' ∈ val ∨ '=' ∈ val

instance (val : CString) : Decidable (NeedsQuote val) := inferInstanceAs (Decidable (_ ∨ _))

/-- The `memcpy` of an escaped value, which keeps `reserve` bytes where the value does not fit; none
where `elen` wraps. -/
def copyEscaped (destMax reserve : Nat) (dest escaped : CString) : Option CString :=
  if dest.length + escaped.length < destMax then some (dest ++ escaped)
  else if destMax < dest.length + reserve then none
  else some (dest ++ escaped.take (destMax - dest.length - reserve))

/-- The value of a field behind its name, and whether the loop goes on. -/
def writeValue (destMax : Nat) (dest val : CString) : Option (CString × Bool) :=
  if val = [] then
    if destMax ≤ dest.length + 6 then some (dest, false) else some (dest ++ "<NULL>".toList, true)
  else if NeedsQuote val then
    if destMax ≤ dest.length + 1 then some (dest, false)
    else do
      let dest ← copyEscaped destMax 2 (dest ++ ['"']) (escapedValue val)
      if destMax ≤ dest.length + 1 then some (dest, false) else some (dest ++ ['"'], true)
  else do
    let dest ← copyEscaped destMax 1 dest (escapedValue val)
    some (dest, true)

def columnName (name : CString) : CString := if name = [] then "UNKNOWN".toList else name

/-- The loop of `audit_trail_serialise_row` over the columns and the values they have. -/
def serialiseLoop (destMax : Nat) : Bool → CString → List (CString × CString) → Option CString
  | _, dest, [] => some dest
  | started, dest, (name, val) :: fields =>
    if started = true ∧ destMax ≤ dest.length + 1 then some dest
    else
      let dest := if started then dest ++ ['|'] else dest
      if destMax ≤ dest.length + (columnName name).length + 1 then some dest
      else
        match writeValue destMax (dest ++ columnName name ++ ['=']) val with
        | none => none
        | some (dest, false) => some dest
        | some (dest, true) => serialiseLoop destMax true dest fields

/-- `audit_trail_serialise_row`; without a text where the buffer is too small for any, and where a
copy runs over its end. -/
def auditTrailSerialiseRow (colNames : List CString) (row : List FieldValue) (destMax : Nat) :
    Option CString :=
  if destMax < 2 then none
  else serialiseLoop destMax false [] (colNames.zip (row.map FieldValue.text))

/-- `snap_cap` of `audit_trail_insert_snapshot`. -/
def snapCap (colCount : Nat) : Nat := colCount * (128 + 1 + auditMaxColValue + 8) + 64

section Escaping

def escapedSpecials : List Char := ['&', '<', '>', '"', '\'']

def IsBlank (c : Char) : Prop := c = ' ' ∨ c = '\n' ∨ c = '\r'

instance (c : Char) : Decidable (IsBlank c) := inferInstanceAs (Decidable (_ ∨ _ ∨ _))

def escapedText (s : CString) : CString := s.flatMap auditEscapeChar

theorem escape_plain {c : Char} (plain : c ∉ escapedSpecials) (unbroken : ¬(c = '\n' ∨ c = '\r')) :
    auditEscapeChar c = [c] := by
  simp only [escapedSpecials, List.mem_cons, List.not_mem_nil, or_false, not_or] at plain
  obtain ⟨amp, lt, gt, quot, apos⟩ := plain
  rw [auditEscapeChar, if_neg unbroken, xmlEscapeChar, if_neg amp, if_neg lt, if_neg gt,
    if_neg quot, if_neg apos]

theorem escape_length (c : Char) :
    0 < (auditEscapeChar c).length ∧ (auditEscapeChar c).length ≤ 6 := by
  rw [auditEscapeChar, xmlEscapeChar]
  split_ifs <;> simp

/-- A property of the five special characters, by going through them. -/
theorem of_special {P : Char → Prop} [DecidablePred P]
    (table : escapedSpecials.all (fun c => decide (P c)) = true) {c : Char}
    (special : c ∈ escapedSpecials) : P c :=
  of_decide_eq_true (List.all_eq_true.mp table c special)

theorem escape_special {c : Char} (special : c ∈ escapedSpecials) :
    (auditEscapeChar c).head? = some '&' ∧ 4 ≤ (auditEscapeChar c).length :=
  of_special (P := fun c => (auditEscapeChar c).head? = some '&' ∧ 4 ≤ (auditEscapeChar c).length)
    (by decide) special

theorem escape_head (c : Char) : (auditEscapeChar c).head? =
    some (if c ∈ escapedSpecials then '&' else if c = '\n' ∨ c = '\r' then ' ' else c) := by
  split
  next special => exact (escape_special special).1
  next plain =>
    split
    next broken => rw [auditEscapeChar, if_pos broken]; rfl
    next unbroken => rw [escape_plain plain unbroken]; rfl

theorem head_append_left {a b : CString} (filled : 0 < a.length) : (a ++ b).head? = a.head? := by
  cases a with
  | nil => cases filled
  | cons => rfl

/-- The first bytes tell which character is escaped, unless it is a blank. -/
theorem escape_inj {c c' : Char} {rest rest' : CString} (visible : ¬IsBlank c)
    (same : auditEscapeChar c ++ rest = auditEscapeChar c' ++ rest') : c = c' := by
  have heads := congrArg List.head? same
  rw [head_append_left (escape_length c).1, head_append_left (escape_length c').1, escape_head,
    escape_head, Option.some.injEq] at heads
  rw [IsBlank, not_or] at visible
  by_cases special : c ∈ escapedSpecials
  · by_cases special' : c' ∈ escapedSpecials
    · have starts := congrArg (List.take 3) same
      rw [List.take_append_of_le_length (by have := escape_special special; omega),
        List.take_append_of_le_length (by have := escape_special special'; omega)] at starts
      have table : escapedSpecials.all (fun a => decide (escapedSpecials.all (fun b =>
          decide ((auditEscapeChar a).take 3 = (auditEscapeChar b).take 3 → a = b)) = true)) =
          true := by decide
      exact of_special (of_special table special) special' starts
    · rw [if_pos special, if_neg special'] at heads
      split at heads
      · exact absurd heads (by decide)
      · exact (special' (heads ▸ by decide)).elim
  · rw [if_neg special, if_neg visible.2] at heads
    split at heads
    · exact (special (heads ▸ by decide)).elim
    · split at heads
      · exact (visible.1 heads).elim
      · exact heads

theorem escape_free (c : Char) : '"' ∉ auditEscapeChar c ∧ '<' ∉ auditEscapeChar c := by
  by_cases special : c ∈ escapedSpecials
  · exact of_special (P := fun c => '"' ∉ auditEscapeChar c ∧ '<' ∉ auditEscapeChar c)
      (by decide) special
  · by_cases broken : c = '\n' ∨ c = '\r'
    · rw [auditEscapeChar, if_pos broken]
      decide
    · rw [escape_plain special broken, List.mem_singleton, List.mem_singleton]
      constructor
      · rintro rfl
        exact special (by decide)
      · rintro rfl
        exact special (by decide)

theorem escape_pipe {c : Char} (pipe : '|' ∈ auditEscapeChar c) : c = '|' := by
  by_cases special : c ∈ escapedSpecials
  · exact (of_special (P := fun c => '|' ∉ auditEscapeChar c) (by decide) special pipe).elim
  · by_cases broken : c = '\n' ∨ c = '\r'
    · rw [auditEscapeChar, if_pos broken] at pipe
      exact absurd pipe (by decide)
    · rw [escape_plain special broken, List.mem_singleton] at pipe
      exact pipe.symm

theorem escapedText_free (s : CString) : '"' ∉ escapedText s ∧ '<' ∉ escapedText s := by
  simp only [escapedText, List.mem_flatMap, not_exists, not_and]
  exact ⟨fun c _ => (escape_free c).1, fun c _ => (escape_free c).2⟩

theorem escapedText_pipe {s : CString} (free : '|' ∉ s) : '|' ∉ escapedText s := by
  rw [escapedText, List.mem_flatMap]
  rintro ⟨c, member, pipe⟩
  exact free (escape_pipe pipe ▸ member)

theorem escapedText_append (s t : CString) :
    escapedText (s ++ t) = escapedText s ++ escapedText t := List.flatMap_append

theorem escapedText_singleton (c : Char) : escapedText [c] = auditEscapeChar c := by
  rw [escapedText, List.flatMap_singleton]

theorem escapedText_ne_nil {s : CString} (filled : s ≠ []) : escapedText s ≠ [] := by
  cases s with
  | nil => exact (filled rfl).elim
  | cons c s =>
    intro empty
    have lengths := congrArg List.length empty
    rw [escapedText, List.flatMap_cons, List.length_append] at lengths
    have least := (escape_length c).1
    rw [List.length_nil] at lengths
    omega

/-- A text that begins with an escaped text without blanks is the escape of a longer one. -/
theorem escapedText_prefix {s t rest : CString} (visible : ∀ c ∈ s, ¬IsBlank c)
    (same : escapedText s ++ rest = escapedText t) : ∃ u, t = s ++ u ∧ rest = escapedText u := by
  induction s generalizing t with
  | nil => exact ⟨t, rfl, same⟩
  | cons c s ih =>
    cases t with
    | nil =>
      exact (escapedText_ne_nil (List.cons_ne_nil c s) (List.append_eq_nil_iff.mp same).1).elim
    | cons c' t =>
      rw [escapedText, escapedText, List.flatMap_cons, List.flatMap_cons, List.append_assoc] at same
      have first := escape_inj (visible c List.mem_cons_self) same
      subst first
      obtain ⟨u, rfl, rest'⟩ := ih (fun d member => visible d (List.mem_cons_of_mem c member))
        (List.append_cancel_left same)
      exact ⟨u, rfl, rest'⟩

variable {destMax : Nat}

theorem auditXmlEscape_whole (s : CString) :
    ∀ {wi : Nat}, wi + (escapedText s).length < destMax →
      auditXmlEscape destMax wi s = escapedText s := by
  induction s with
  | nil =>
    intro wi _
    rfl
  | cons c s ih =>
    intro wi room
    rw [escapedText, List.flatMap_cons, List.length_append, ← escapedText] at room
    have least := (escape_length c).1
    rw [auditXmlEscape, if_pos ⟨by omega, by omega⟩, ih (by omega), escapedText, escapedText,
      List.flatMap_cons]

/-- The escape ends before a character that does not fit. -/
theorem auditXmlEscape_split (s : CString) :
    ∀ {wi : Nat}, wi < destMax → ∃ kept lost, s = kept ++ lost ∧
      auditXmlEscape destMax wi s = escapedText kept ∧ wi + (escapedText kept).length < destMax ∧
      ∀ c ∈ lost.head?, destMax ≤ wi + (escapedText kept).length + (auditEscapeChar c).length := by
  induction s with
  | nil =>
    intro wi room
    exact ⟨[], [], rfl, rfl, room, fun c absent => by cases absent⟩
  | cons c s ih =>
    intro wi room
    rw [auditXmlEscape]
    split
    next fits =>
      obtain ⟨kept, lost, rfl, same, short, over'⟩ := ih fits.2
      refine ⟨c :: kept, lost, rfl, ?_, ?_, ?_⟩
      · rw [same, escapedText, escapedText, List.flatMap_cons]
      · rw [escapedText, List.flatMap_cons, List.length_append, ← escapedText]
        omega
      · intro d first
        have bound := over' d first
        rw [escapedText, List.flatMap_cons, List.length_append, ← escapedText]
        omega
    next full =>
      refine ⟨[], c :: s, rfl, rfl, room, ?_⟩
      intro d first
      cases first
      have least := (escape_length c).1
      simp only [escapedText, List.flatMap_nil, List.length_nil]
      omega

/-- A last character that does not fit changes nothing. -/
theorem auditXmlEscape_drop_last (s : CString) (d : Char) :
    ∀ {wi : Nat}, destMax ≤ wi + (escapedText s).length + (auditEscapeChar d).length →
      auditXmlEscape destMax wi (s ++ [d]) = auditXmlEscape destMax wi s := by
  induction s with
  | nil =>
    intro wi full
    simp only [escapedText, List.flatMap_nil, List.length_nil] at full
    have over' : ¬(wi < destMax - 1 ∧ wi + (auditEscapeChar d).length < destMax) := by omega
    rw [List.nil_append, auditXmlEscape.eq_2, if_neg over', auditXmlEscape]
  | cons c s ih =>
    intro wi full
    rw [escapedText, List.flatMap_cons, List.length_append, ← escapedText] at full
    rw [List.cons_append, auditXmlEscape, auditXmlEscape, ih (by omega)]

end Escaping

end OciWrapper.Audit
