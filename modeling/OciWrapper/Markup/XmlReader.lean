import OciWrapper.Markup.Encoding
import OciWrapper.Text.Numerals
import OciWrapper.Text.Utf8Bytes

namespace OciWrapper.Markup

open OciWrapper.Text

/-- A character of XML 1.0. -/
def xmlChar (n : ℕ) : Bool :=
  n = 9 || n = 10 || n = 13 || (32 ≤ n && n ≤ 0xD7FF) || (0xE000 ≤ n && n ≤ 0xFFFD) ||
    (0x10000 ≤ n && n ≤ 0x10FFFF)

/-- The bytes of any character beyond ASCII may stand in a name. -/
def nameStart (c : Char) : Bool := c.isAlpha || c == '_' || c == ':' || decide (0x80 ≤ c.toNat)

def nameChar (c : Char) : Bool := nameStart c || c.isDigit || c == '-' || c == '.'

def xmlBlank (c : Char) : Bool := c == ' ' || c == '\t' || c == '\n' || c == '\r'

/-- The value of the digits of a character reference. -/
def referenceValue (base : ℕ) (digits : CString) : ℕ :=
  digits.foldl (fun n c => n * base +
    (if c.isDigit then c.toNat - 48 else if c.isLower then c.toNat - 87 else c.toNat - 55)) 0

def numberedText (base : ℕ) (digit : Char → Bool) (digits : CString) : Option CString :=
  if digits ≠ [] ∧ digits.all digit ∧ xmlChar (referenceValue base digits) then
    some (codeBytes (referenceValue base digits))
  else none

def hexDigit (c : Char) : Bool :=
  c.isDigit || decide ('a' ≤ c ∧ c ≤ 'f') || decide ('A' ≤ c ∧ c ≤ 'F')

/-- What a reference stands for, by what is between its `&` and its `;`. -/
def referenceText : CString → Option CString
  | ['l', 't'] => some ['<']
  | ['g', 't'] => some ['>']
  | ['a', 'm', 'p'] => some ['&']
  | ['q', 'u', 'o', 't'] => some ['"']
  | ['a', 'p', 'o', 's'] => some ['\'']
  | '#' :: 'x' :: digits => numberedText 16 hexDigit digits
  | '#' :: digits => numberedText 10 Char.isDigit digits
  | _ => none

abbrev Attributes := List (CString × CString)

/-- What a reader of XML reports. -/
inductive Event
  | opened (name : CString) (attributes : Attributes)
  | char (c : Char)
  | closed

/-- Where in the markup a reader of XML stands. -/
inductive Mode
  | text (brackets : ℕ)
  | reference (name : CString)
  | markup
  | declared (seen : CString)
  | comment (dashes : ℕ)
  | cdata (brackets : ℕ)
  | instruction (target : CString)
  | instructionText (mark : Bool)
  | instructionEnd
  | endName (name : CString)
  | endBlank (name : CString)
  | startName (name : CString)
  | inTag (tag : CString) (attributes : Attributes) (spaced : Bool)
  | attributeName (tag : CString) (attributes : Attributes) (key : CString)
  | attributeEquals (tag : CString) (attributes : Attributes) (key : CString)
  | attributeQuote (tag : CString) (attributes : Attributes) (key : CString)
  | attributeValue (tag : CString) (attributes : Attributes) (key : CString) (double : Bool)
      (value : CString)
  | attributeReference (tag : CString) (attributes : Attributes) (key : CString) (double : Bool)
      (value name : CString)
  | closing (tag : CString) (attributes : Attributes)

/-- A reader of XML, with the names of the open elements, the innermost first. -/
structure XmlState where
  path : List CString
  rooted : Bool
  mode : Mode

namespace XmlState

def start : XmlState := ⟨[], false, .text 0⟩

def Finished (s : XmlState) : Prop := s.path = [] ∧ s.rooted = true ∧ ∃ brackets, s.mode = .text brackets

/-- To another place of the markup, with nothing to report. -/
def goto (s : XmlState) (mode : Mode) : Option (XmlState × List Event) :=
  some ({ s with mode := mode }, [])

def openElement (s : XmlState) (tag : CString) (attributes : Attributes) :
    Option (XmlState × List Event) :=
  some (⟨tag :: s.path, true, .text 0⟩, [.opened tag attributes])

def closeElement (s : XmlState) (name : CString) : Option (XmlState × List Event) :=
  match s.path with
  | [] => none
  | top :: rest => if top = name then some (⟨rest, s.rooted, .text 0⟩, [.closed]) else none

/-- The character behind a complete name or value in a start tag. -/
def tagEnd (s : XmlState) (tag : CString) (attributes : Attributes) (c : Char) :
    Option (XmlState × List Event) :=
  if c = '>' then s.openElement tag attributes
  else if c = '/' then s.goto (.closing tag attributes)
  else if xmlBlank c then s.goto (.inTag tag attributes true)
  else none

end XmlState

def commentOpening : CString := ['-', '-']

def cdataOpening : CString := ['[', 'C', 'D', 'A', 'T', 'A', '[']

/-- One byte of XML 1.0 without a document type. -/
def xmlStep (s : XmlState) (c : Char) : Option (XmlState × List Event) :=
  match s.mode with
  | .text brackets =>
    if c = '<' then s.goto .markup
    else if s.path = [] then if xmlBlank c then some (s, []) else none
    else if c = '&' then s.goto (.reference [])
    else if c = '>' ∧ 2 ≤ brackets then none
    else some ({ s with mode := .text (if c = ']' then brackets + 1 else 0) }, [.char c])
  | .reference name =>
    if c = ';' then
      (referenceText name).map fun text => ({ s with mode := .text 0 }, text.map .char)
    else if nameChar c ∨ c = '#' then s.goto (.reference (name ++ [c]))
    else none
  | .markup =>
    if c = '/' then s.goto (.endName [])
    else if c = '!' then s.goto (.declared [])
    else if c = '?' then s.goto (.instruction [])
    else if nameStart c ∧ (s.path ≠ [] ∨ s.rooted = false) then s.goto (.startName [c])
    else none
  | .declared seen =>
    if seen ++ [c] = commentOpening then s.goto (.comment 0)
    else if seen ++ [c] = cdataOpening ∧ s.path ≠ [] then s.goto (.cdata 0)
    else if (seen ++ [c]).isPrefixOf commentOpening ∨ (seen ++ [c]).isPrefixOf cdataOpening then
      s.goto (.declared (seen ++ [c]))
    else none
  | .comment dashes =>
    if 2 ≤ dashes then if c = '>' then s.goto (.text 0) else none
    else s.goto (.comment (if c = '-' then dashes + 1 else 0))
  | .cdata brackets =>
    if c = ']' then
      if brackets < 2 then s.goto (.cdata (brackets + 1)) else some (s, [.char ']'])
    else if c = '>' ∧ brackets = 2 then s.goto (.text 0)
    else some ({ s with mode := .cdata 0 }, (List.replicate brackets ']' ++ [c]).map .char)
  | .instruction target =>
    if target = [] then if nameStart c then s.goto (.instruction [c]) else none
    else if nameChar c then s.goto (.instruction (target ++ [c]))
    else if target.map Char.toLower = ['x', 'm', 'l'] then none
    else if c = '?' then s.goto .instructionEnd
    else if xmlBlank c then s.goto (.instructionText false)
    else none
  | .instructionText mark =>
    if c = '>' ∧ mark then s.goto (.text 0) else s.goto (.instructionText (c == '?'))
  | .instructionEnd => if c = '>' then s.goto (.text 0) else none
  | .endName name =>
    if name = [] then if nameStart c then s.goto (.endName [c]) else none
    else if c = '>' then s.closeElement name
    else if nameChar c then s.goto (.endName (name ++ [c]))
    else if xmlBlank c then s.goto (.endBlank name)
    else none
  | .endBlank name =>
    if c = '>' then s.closeElement name else if xmlBlank c then some (s, []) else none
  | .startName name =>
    if nameChar c then s.goto (.startName (name ++ [c])) else s.tagEnd name [] c
  | .inTag tag attributes spaced =>
    if nameStart c ∧ spaced then s.goto (.attributeName tag attributes [c])
    else s.tagEnd tag attributes c
  | .attributeName tag attributes key =>
    if nameChar c then s.goto (.attributeName tag attributes (key ++ [c]))
    else if c = '=' then s.goto (.attributeQuote tag attributes key)
    else if xmlBlank c then s.goto (.attributeEquals tag attributes key)
    else none
  | .attributeEquals tag attributes key =>
    if c = '=' then s.goto (.attributeQuote tag attributes key)
    else if xmlBlank c then some (s, [])
    else none
  | .attributeQuote tag attributes key =>
    if c = '"' then s.goto (.attributeValue tag attributes key true [])
    else if c = '\'' then s.goto (.attributeValue tag attributes key false [])
    else if xmlBlank c then some (s, [])
    else none
  | .attributeValue tag attributes key double value =>
    if c = (if double then '"' else '\'') then
      if key ∈ attributes.map Prod.fst then none
      else s.goto (.inTag tag (attributes ++ [(key, value)]) false)
    else if c = '<' then none
    else if c = '&' then s.goto (.attributeReference tag attributes key double value [])
    else s.goto (.attributeValue tag attributes key double
      (value ++ [if xmlBlank c then ' ' else c]))
  | .attributeReference tag attributes key double value name =>
    if c = ';' then
      (referenceText name).map fun text =>
        ({ s with mode := .attributeValue tag attributes key double (value ++ text) }, [])
    else if nameChar c ∨ c = '#' then
      s.goto (.attributeReference tag attributes key double value (name ++ [c]))
    else none
  | .closing tag attributes =>
    if c = '>' then
      some ({ s with rooted := true, mode := .text 0 }, [.opened tag attributes, .closed])
    else none

/-- Every way to end a line becomes a newline. -/
def normalizeLines : CString → CString
  | '\r' :: '\n' :: text => '\n' :: normalizeLines text
  | '\r' :: text => '\n' :: normalizeLines text
  | c :: text => c :: normalizeLines text
  | [] => []

def xmlDeclaration : CString := "<?xml version=\"1.0\" encoding=\"UTF-8\"?>".toList

/-- The document behind its declaration, which it may leave out. -/
def undeclared (bytes : CString) : CString :=
  if xmlDeclaration.isPrefixOf bytes then bytes.drop xmlDeclaration.length else bytes

/-- The events of a well-formed document. -/
def ReadsXml (bytes : CString) (events : List Event) : Prop :=
  Encoded xmlChar bytes ∧ ∃ last : XmlState, last.Finished ∧
    run xmlStep .start (normalizeLines (undeclared bytes)) = some (last, events)

/-- A part of a document: a byte of its text, or an element. -/
inductive Node
  | char (c : Char)
  | element (name : CString) (attributes : Attributes) (children : List Node)

mutual

def Node.events : Node → List Event
  | .char c => [.char c]
  | .element name attributes children =>
    .opened name attributes :: (nodesEvents children ++ [.closed])

def nodesEvents : List Node → List Event
  | [] => []
  | node :: nodes => node.events ++ nodesEvents nodes

end

/-- The document is well-formed, and its root is this element. -/
def ReadsAs (bytes : CString) (root : Node) : Prop := ReadsXml bytes root.events

mutual

/-- The contents of the elements of a name, but for those within an element that is called `within`. -/
def Node.outside (within name : CString) : Node → List (List Node)
  | .char _ => []
  | .element found _ children => (if found = name then [children] else []) ++
    if found = within then [] else nodesOutside within name children

def nodesOutside (within name : CString) : List Node → List (List Node)
  | [] => []
  | node :: nodes => node.outside within name ++ nodesOutside within name nodes

end

section Steps

/-- What an event does to the open elements. -/
def track (path : List CString) : Event → List CString
  | .opened name _ => name :: path
  | .char _ => path
  | .closed => path.tail

theorem goto_eq_some {s next : XmlState} {mode : Mode} {events : List Event}
    (taken : s.goto mode = some (next, events)) : next = { s with mode := mode } ∧ events = [] := by
  cases taken
  exact ⟨rfl, rfl⟩

theorem track_chars (path : List CString) (text : CString) :
    (text.map Event.char).foldl track path = path := by
  induction text with
  | nil => rfl
  | cons c text ih => exact ih

theorem tagEnd_path {s next : XmlState} {tag : CString} {attributes : Attributes} {c : Char}
    {events : List Event} (taken : s.tagEnd tag attributes c = some (next, events)) :
    next.path = events.foldl track s.path := by
  rw [XmlState.tagEnd] at taken
  split_ifs at taken
  all_goals
    cases taken
    rfl

theorem closeElement_path {s next : XmlState} {name : CString} {events : List Event}
    (taken : s.closeElement name = some (next, events)) :
    next.path = events.foldl track s.path := by
  rw [XmlState.closeElement] at taken
  split at taken
  next => cases taken
  next top rest path =>
    split_ifs at taken
    cases taken
    rw [path]
    rfl

/-- The open elements follow from what is reported. -/
theorem xmlStep_path {s next : XmlState} {c : Char} {events : List Event}
    (taken : xmlStep s c = some (next, events)) : next.path = events.foldl track s.path := by
  obtain ⟨path, rooted, mode⟩ := s
  cases mode with
  | reference name =>
    simp only [xmlStep] at taken
    split_ifs at taken
    · obtain ⟨text, -, same⟩ := Option.map_eq_some_iff.mp taken
      cases same
      exact (track_chars path text).symm
    · cases taken
      rfl
  | cdata brackets =>
    simp only [xmlStep] at taken
    split_ifs at taken
    all_goals cases taken
    · rfl
    · rfl
    · rfl
    · exact (track_chars path _).symm
  | endName name =>
    simp only [xmlStep] at taken
    split_ifs at taken
    · cases taken
      rfl
    · exact closeElement_path taken
    all_goals
      cases taken
      rfl
  | endBlank name =>
    simp only [xmlStep] at taken
    split_ifs at taken
    · exact closeElement_path taken
    · cases taken
      rfl
  | startName name =>
    simp only [xmlStep] at taken
    split_ifs at taken
    · cases taken
      rfl
    · exact tagEnd_path taken
  | inTag tag attributes spaced =>
    simp only [xmlStep] at taken
    split_ifs at taken
    · cases taken
      rfl
    · exact tagEnd_path taken
  | attributeReference tag attributes key double value name =>
    simp only [xmlStep] at taken
    split_ifs at taken
    · obtain ⟨text, -, same⟩ := Option.map_eq_some_iff.mp taken
      cases same
      rfl
    · cases taken
      rfl
  | text | markup | declared | comment | instruction | instructionText | instructionEnd
  | attributeName | attributeEquals | attributeQuote | attributeValue | closing =>
    simp only [xmlStep] at taken
    split_ifs at taken
    all_goals
      cases taken
      rfl

theorem path_run {text : CString} {s last : XmlState} {events : List Event}
    (read : run xmlStep s text = some (last, events)) : last.path = events.foldl track s.path := by
  induction text generalizing s events with
  | nil =>
    cases read
    rfl
  | cons c text ih =>
    obtain ⟨next, first, later, taken, rest, rfl⟩ := run_cons_eq_some.mp read
    rw [List.foldl_append, ← xmlStep_path taken]
    exact ih rest

/-- The root stays read. -/
theorem xmlStep_rooted {s next : XmlState} {c : Char} {events : List Event}
    (taken : xmlStep s c = some (next, events)) (root : s.rooted = true) : next.rooted = true := by
  obtain ⟨path, rooted, mode⟩ := s
  cases root
  cases mode with
  | reference | attributeReference =>
    simp only [xmlStep] at taken
    split_ifs at taken
    · obtain ⟨text, -, same⟩ := Option.map_eq_some_iff.mp taken
      cases same
      rfl
    · cases taken
      rfl
  | endName | endBlank =>
    simp only [xmlStep, XmlState.closeElement] at taken
    split_ifs at taken
    any_goals
      cases taken
      rfl
    all_goals
      split at taken
      · cases taken
      · split_ifs at taken
        cases taken
        rfl
  | text | markup | declared | comment | cdata | instruction | instructionText | instructionEnd
  | startName | inTag | attributeName | attributeEquals | attributeQuote | attributeValue
  | closing =>
    simp only [xmlStep, XmlState.tagEnd] at taken
    split_ifs at taken
    all_goals
      cases taken
      rfl

theorem rooted_run {text : CString} {s last : XmlState} {events : List Event}
    (read : run xmlStep s text = some (last, events)) (root : s.rooted = true) :
    last.rooted = true :=
  @run_keeps _ _ xmlStep (fun s => s.rooted = true)
    (fun _ _ _ _ taken kept => xmlStep_rooted taken kept) _ _ _ _ read root

end Steps

section Counts

/-- What a reader holds back of the text. -/
def Mode.held : Mode → ℕ
  | .reference name => name.length
  | .cdata brackets => brackets
  | _ => 0

def Event.chars : Event → ℕ
  | .char _ => 1
  | _ => 0

theorem sum_chars (text : CString) : ((text.map Event.char).map Event.chars).sum = text.length := by
  induction text with
  | nil => rfl
  | cons c text ih =>
    simp only [List.map_cons, List.sum_cons, Event.chars, ih, List.length_cons]
    omega

theorem length_codeBytes_le (n : ℕ) : (codeBytes n).length ≤ 4 := by
  rw [codeBytes, List.length_map]
  split_ifs <;> simp

theorem referenceValue_digit {base : ℕ} {c : Char} (digit : hexDigit c = true) :
    referenceValue base [c] < 0x80 := by
  simp only [referenceValue, List.foldl_cons, List.foldl_nil, Nat.zero_mul, Nat.zero_add]
  simp only [hexDigit, Bool.or_eq_true, decide_eq_true_eq, Char.le_def, UInt32.le_iff_toNat_le] at digit
  split_ifs with number lower
  · rw [isDigit_iff] at number
    exact (Nat.sub_le _ _).trans_lt (by omega)
  · rw [isLower_iff] at lower
    exact (Nat.sub_le _ _).trans_lt (by omega)
  · have high : c.toNat ≤ 102 := by
      rcases digit with (number' | small) | large
      · exact absurd number' number
      · exact small.2
      · exact large.2.trans (by decide)
    exact (Nat.sub_le _ _).trans_lt (by omega)

theorem numberedText_length {base : ℕ} {digit : Char → Bool} {digits text : CString}
    (hex : ∀ c, digit c = true → hexDigit c = true)
    (found : numberedText base digit digits = some text) : text.length ≤ digits.length + 2 := by
  rw [numberedText] at found
  split_ifs at found with sound
  cases found
  obtain ⟨filled, all, -⟩ := sound
  have most := length_codeBytes_le (referenceValue base digits)
  match digits, filled with
  | [c], _ =>
    have small := @referenceValue_digit base c
      (hex c (List.all_eq_true.mp all c List.mem_cons_self))
    rw [codeBytes, if_pos small]
    exact Nat.le_add_left 1 2
  | c :: d :: digits, _ =>
    simp only [List.length_cons]
    omega

/-- A reference is no shorter than what it stands for. -/
theorem referenceText_length {name text : CString} (found : referenceText name = some text) :
    text.length ≤ name.length + 1 := by
  have decimal : ∀ c : Char, c.isDigit = true → hexDigit c = true := by
    intro c digit
    rw [hexDigit, digit]
    rfl
  rw [referenceText.eq_def] at found
  split at found
  case h_6 digits =>
    have bound := numberedText_length (fun _ hex => hex) found
    simp only [List.length_cons]
    omega
  case h_7 digits _ =>
    have bound := numberedText_length decimal found
    simp only [List.length_cons]
    omega
  case h_8 => cases found
  all_goals
    cases found
    simp

/-- A byte is reported at most once. -/
theorem xmlStep_chars {s next : XmlState} {c : Char} {events : List Event}
    (taken : xmlStep s c = some (next, events)) :
    next.mode.held + (events.map Event.chars).sum ≤ s.mode.held + 1 := by
  obtain ⟨path, rooted, mode⟩ := s
  cases mode with
  | reference name =>
    simp only [xmlStep] at taken
    split_ifs at taken
    · obtain ⟨text, found, same⟩ := Option.map_eq_some_iff.mp taken
      cases same
      have bound := referenceText_length found
      simp only [Mode.held, sum_chars]
      omega
    · cases taken
      simp [Mode.held]
  | cdata brackets =>
    simp only [xmlStep] at taken
    split_ifs at taken
    all_goals cases taken
    · simp [Mode.held]
    · simp [Mode.held, Event.chars]
    · simp [Mode.held]
    · simp only [Mode.held, sum_chars, List.length_append, List.length_replicate,
        List.length_singleton]
      omega
  | endName name =>
    simp only [xmlStep, XmlState.closeElement] at taken
    split_ifs at taken
    · cases taken
      simp [Mode.held]
    · split at taken
      · cases taken
      · split_ifs at taken
        cases taken
        simp [Mode.held, Event.chars]
    all_goals
      cases taken
      simp [Mode.held]
  | endBlank name =>
    simp only [xmlStep, XmlState.closeElement] at taken
    split_ifs at taken
    · split at taken
      · cases taken
      · split_ifs at taken
        cases taken
        simp [Mode.held, Event.chars]
    · cases taken
      simp [Mode.held]
  | attributeReference tag attributes key double value name =>
    simp only [xmlStep] at taken
    split_ifs at taken
    · obtain ⟨text, -, same⟩ := Option.map_eq_some_iff.mp taken
      cases same
      simp [Mode.held]
    · cases taken
      simp [Mode.held]
  | text | markup | declared | comment | instruction | instructionText | instructionEnd
  | startName | inTag | attributeName | attributeEquals | attributeQuote | attributeValue
  | closing =>
    simp only [xmlStep, XmlState.tagEnd] at taken
    split_ifs at taken
    all_goals
      cases taken
      simp [Mode.held, Event.chars]

theorem chars_run {text : CString} {s last : XmlState} {events : List Event}
    (read : run xmlStep s text = some (last, events)) :
    last.mode.held + (events.map Event.chars).sum ≤ s.mode.held + text.length := by
  have bound := @run_weight_le _ _ xmlStep (fun _ => 1) (fun s => s.mode.held) Event.chars
    (fun s c next events taken => xmlStep_chars taken) _ _ _ _ read
  rwa [List.map_const', List.sum_replicate, smul_eq_mul, Nat.mul_one] at bound

end Counts

section Swallowing

/-- No `>` of the text ends a comment, a CDATA section or an instruction that began before it. -/
def guarded : Char → CString → Bool
  | _, [] => true
  | d, c :: text => (c ≠ '>' || !(d == '-' || d == ']' || d == '?')) && guarded c text

/-- Between the marks of a comment, a CDATA section or an instruction, behind the byte `d`. -/
def Mode.Swallows (d : Char) : Mode → Prop
  | .comment dashes => dashes = 0 ∨ d = '-'
  | .cdata brackets => brackets < 2 ∨ d = ']'
  | .instruction _ => True
  | .instructionText mark => mark = false ∨ d = '?'
  | .instructionEnd => d = '?'
  | _ => False

theorem guarded_append {d : Char} {before after : CString} (first : guarded d before = true)
    (second : guarded '-' after = true) : guarded d (before ++ after) = true := by
  induction before generalizing d with
  | nil =>
    cases after with
    | nil => rfl
    | cons c after =>
      simp only [guarded, Bool.and_eq_true, Bool.or_eq_true, decide_eq_true_eq] at second
      simp only [List.nil_append, guarded, second.2, Bool.and_true, Bool.or_eq_true,
        decide_eq_true_eq]
      left
      rcases second.1 with other | same
      · exact other
      · cases same
  | cons c before ih =>
    simp only [guarded, Bool.and_eq_true] at first
    simp only [List.cons_append, guarded, Bool.and_eq_true]
    exact ⟨first.1, ih first.2⟩

theorem guarded_front {d : Char} {before after : CString}
    (all : guarded d (before ++ after) = true) : guarded d before = true := by
  induction before generalizing d with
  | nil => rfl
  | cons c before ih =>
    simp only [List.cons_append, guarded, Bool.and_eq_true] at all
    simp only [guarded, Bool.and_eq_true]
    exact ⟨all.1, ih all.2⟩

theorem swallows_step {s next : XmlState} {d c : Char} {events : List Event}
    (swallows : s.mode.Swallows d)
    (guard : (c ≠ '>' || !(d == '-' || d == ']' || d == '?')) = true)
    (taken : xmlStep s c = some (next, events)) : next.mode.Swallows c := by
  simp only [Bool.or_eq_true, decide_eq_true_eq, Bool.not_eq_true', Bool.or_eq_false_iff,
    beq_eq_false_iff_ne] at guard
  obtain ⟨path, rooted, mode⟩ := s
  cases mode with
  | comment dashes =>
    simp only [Mode.Swallows] at swallows
    simp only [xmlStep] at taken
    split_ifs at taken with two close dash
    · rcases guard with other | ⟨⟨other, -⟩, -⟩
      · exact absurd close other
      · rcases swallows with none | same
        · omega
        · exact absurd same other
    · cases taken
      exact .inr dash
    · cases taken
      exact .inl rfl
  | cdata brackets =>
    simp only [Mode.Swallows] at swallows
    simp only [xmlStep] at taken
    split_ifs at taken with bracket few close
    · cases taken
      exact .inr bracket
    · cases taken
      exact .inr bracket
    · rcases guard with other | ⟨⟨-, other⟩, -⟩
      · exact absurd close.1 other
      · rcases swallows with few | same
        · omega
        · exact absurd same other
    · cases taken
      exact .inl (by decide)
  | instruction target =>
    simp only [xmlStep] at taken
    split_ifs at taken with _ _ _ _ mark
    · cases taken
      exact trivial
    · cases taken
      exact trivial
    · cases taken
      exact mark
    · cases taken
      exact .inl rfl
  | instructionText mark =>
    simp only [Mode.Swallows] at swallows
    simp only [xmlStep] at taken
    split_ifs at taken with close
    · rcases guard with other | ⟨-, other⟩
      · exact absurd close.1 other
      · rcases swallows with none | same
        · rw [none] at close
          exact absurd close.2 (by decide)
        · exact absurd same other
    · cases taken
      by_cases question : c = '?'
      · exact .inr question
      · exact .inl (beq_eq_false_iff_ne.mpr question)
  | instructionEnd =>
    simp only [xmlStep] at taken
    split_ifs at taken with close
    rcases guard with other | ⟨-, other⟩
    · exact absurd close other
    · exact absurd swallows other
  | text | reference | markup | declared | endName | endBlank | startName | inTag | attributeName
  | attributeEquals | attributeQuote | attributeValue | attributeReference | closing =>
    exact swallows.elim

theorem swallows_run {text : CString} {s last : XmlState} {d : Char} {events : List Event}
    (swallows : s.mode.Swallows d) (guard : guarded d text = true)
    (read : run xmlStep s text = some (last, events)) : ∃ d, last.mode.Swallows d := by
  induction text generalizing s d events with
  | nil =>
    cases read
    exact ⟨d, swallows⟩
  | cons c text ih =>
    obtain ⟨next, first, later, taken, rest, -⟩ := run_cons_eq_some.mp read
    simp only [guarded, Bool.and_eq_true] at guard
    exact ih (swallows_step swallows guard.1 taken) guard.2 rest

/-- Inside of markup, a `<` is refused, but for the places that do not look at it. -/
theorem less_step {s next : XmlState} {events : List Event}
    (inside : ∀ brackets, s.mode ≠ .text brackets)
    (taken : xmlStep s '<' = some (next, events)) : next.mode.Swallows '<' := by
  have noName : nameChar '<' = false := by decide
  have noStart : nameStart '<' = false := by decide
  have noBlank : xmlBlank '<' = false := by decide
  obtain ⟨path, rooted, mode⟩ := s
  cases mode with
  | text brackets => exact absurd rfl (inside brackets)
  | comment dashes =>
    simp only [xmlStep] at taken
    split_ifs at taken with two close dash
    · cases close
    · cases dash
    · cases taken
      exact .inl rfl
  | cdata brackets =>
    simp only [xmlStep] at taken
    split_ifs at taken with bracket few close
    · cases bracket
    · cases bracket
    · cases close.1
    · cases taken
      exact .inl (by decide)
  | instructionText mark =>
    simp only [xmlStep] at taken
    split_ifs at taken with close
    · cases close.1
    · cases taken
      exact .inl rfl
  | declared seen =>
    have other : ∀ pattern : CString, '<' ∉ pattern →
        (seen ++ ['<']).isPrefixOf pattern = false := by
      intro pattern missing
      rw [Bool.eq_false_iff]
      intro front
      exact missing ((List.isPrefixOf_iff_prefix.mp front).subset
        (List.mem_append_right seen List.mem_cons_self))
    have noComment := other commentOpening (by decide)
    have noCdata := other cdataOpening (by decide)
    have differs : ∀ pattern : CString, '<' ∉ pattern → seen ++ ['<'] ≠ pattern :=
      fun pattern missing same =>
        missing (same ▸ List.mem_append_right seen List.mem_cons_self)
    simp [xmlStep, noComment, noCdata, differs commentOpening (by decide),
      differs cdataOpening (by decide)] at taken
  | attributeValue tag attributes key double value =>
    have noQuote : '<' ≠ (if double then '"' else '\'') := by cases double <;> decide
    simp [xmlStep, noQuote] at taken
  | reference | markup | instruction | instructionEnd | endName | endBlank | startName | inTag
  | attributeName | attributeEquals | attributeQuote | attributeReference | closing =>
    simp [xmlStep, XmlState.tagEnd, noName, noStart, noBlank] at taken

/-- A text that goes on with a `<` inside of markup is not finished by what is guarded. -/
theorem unfinished_run {text : CString} {s last : XmlState} {events : List Event}
    (inside : ∀ brackets, s.mode ≠ .text brackets) (guard : guarded '<' text = true)
    (read : run xmlStep s ('<' :: text) = some (last, events)) : ¬last.Finished := by
  obtain ⟨next, first, later, taken, rest, -⟩ := run_cons_eq_some.mp read
  obtain ⟨d, swallows⟩ := swallows_run (less_step inside taken) guard rest
  rintro ⟨-, -, brackets, mode⟩
  rw [mode] at swallows
  exact swallows

end Swallowing

end OciWrapper.Markup
