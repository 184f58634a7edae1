import OciWrapper.Markup.XmlReader

namespace OciWrapper.Markup

open OciWrapper.Text

section Lines

example : normalizeLines ['a', '\r', '\n', '\r', 'b'] = ['a', '\n', '\n', 'b'] := by
  simp [normalizeLines]

theorem normalizeLines_cons {c : Char} {text : CString} (other : c ≠ '\r') :
    normalizeLines (c :: text) = c :: normalizeLines text := by
  rw [normalizeLines.eq_def]
  split
  · rename_i same
    cases same
    exact absurd rfl other
  · rename_i same
    cases same
    exact absurd rfl other
  · rename_i same
    cases same
    rfl
  · rename_i same
    cases same

theorem normalizeLines_front {front text : CString} (none : '\r' ∉ front) :
    normalizeLines (front ++ text) = front ++ normalizeLines text := by
  induction front with
  | nil => rfl
  | cons c front ih =>
    rw [List.mem_cons, not_or] at none
    rw [List.cons_append, normalizeLines_cons (Ne.symm none.1), ih none.2, List.cons_append]

theorem normalizeLines_same {text : CString} (none : '\r' ∉ text) : normalizeLines text = text := by
  have front := @normalizeLines_front text [] none
  rwa [normalizeLines, List.append_nil] at front

theorem normalizeLines_bare (text : CString) : '\r' ∉ normalizeLines text := by
  fun_induction normalizeLines text with
  | case1 text ih => simpa using ih
  | case2 text _ ih => simpa using ih
  | case3 c text _ other ih =>
    rw [List.mem_cons, not_or]
    exact ⟨fun same => other same.symm, ih⟩
  | case4 => simp

theorem normalizeLines_eq_self_iff {text : CString} :
    normalizeLines text = text ↔ '\r' ∉ text :=
  ⟨fun same => same ▸ normalizeLines_bare text, normalizeLines_same⟩

theorem length_normalizeLines_le (text : CString) : (normalizeLines text).length ≤ text.length := by
  fun_induction normalizeLines text with
  | case1 text ih =>
    simp only [List.length_cons]
    omega
  | case2 text _ ih =>
    simp only [List.length_cons]
    omega
  | case3 c text _ _ ih =>
    simp only [List.length_cons]
    omega
  | case4 => exact Nat.le_refl _

theorem mem_normalizeLines {c : Char} (line : c ≠ '\n') (back : c ≠ '\r') (text : CString) :
    c ∈ normalizeLines text ↔ c ∈ text := by
  fun_induction normalizeLines text with
  | case1 text ih => simp [ih, line, back]
  | case2 text _ ih => simp [ih, line, back]
  | case3 d text _ _ ih => simp [ih]
  | case4 => rfl

/-- A text that does not start with a newline is normalised apart. -/
theorem normalizeLines_append {before after : CString} (apart : after.head? ≠ some '\n') :
    normalizeLines (before ++ after) = normalizeLines before ++ normalizeLines after := by
  fun_induction normalizeLines before with
  | case1 text ih => rw [List.cons_append, List.cons_append, normalizeLines, ih, List.cons_append]
  | case2 text single ih =>
    rw [List.cons_append, List.cons_append, ← ih]
    have noLine : ∀ rest, text ++ after = '\n' :: rest → False := by
      intro rest same
      cases text with
      | nil =>
        rw [List.nil_append] at same
        rw [same] at apart
        exact apart rfl
      | cons d text =>
        cases same
        exact single text rfl
    exact normalizeLines.eq_2 (text ++ after) noLine
  | case3 c text _ other ih =>
    rw [List.cons_append, normalizeLines_cons (fun same => other same), ih, List.cons_append]
  | case4 => rfl

/-- Rewriting the bytes leaves the line ends as they are, where it leaves them alone. -/
theorem normalizeLines_flatMap {write : Char → CString} (line : write '\n' = ['\n'])
    (back : write '\r' = ['\r']) (bare : ∀ c, c ≠ '\r' → c ≠ '\n' → '\r' ∉ write c ∧
      write c ≠ [] ∧ (write c).head? ≠ some '\n') (text : CString) :
    normalizeLines (text.flatMap write) = (normalizeLines text).flatMap write := by
  fun_induction normalizeLines text with
  | case1 text ih =>
    rw [List.flatMap_cons, List.flatMap_cons, back, line, List.flatMap_cons, line, ← ih]
    rfl
  | case2 text single ih =>
    rw [List.flatMap_cons, back, List.flatMap_cons, line, ← ih]
    have noLine : ∀ rest, text.flatMap write = '\n' :: rest → False := by
      intro rest same
      cases text with
      | nil => cases same
      | cons d text =>
        by_cases newline : d = '\n'
        · subst newline
          exact single text rfl
        · rw [List.flatMap_cons] at same
          by_cases again : d = '\r'
          · subst again
            rw [back] at same
            cases same
          · obtain ⟨-, filled, first⟩ := bare d again newline
            cases letters : write d with
            | nil => exact filled letters
            | cons e letters' =>
              rw [letters] at same first
              cases same
              exact first rfl
    exact normalizeLines.eq_2 _ noLine
  | case3 c text _ other ih =>
    rw [List.flatMap_cons, List.flatMap_cons, ← ih]
    by_cases newline : c = '\n'
    · subst newline
      rw [line]
      exact normalizeLines_cons (by decide)
    · obtain ⟨none, -⟩ := bare c (fun same => other same) newline
      exact normalizeLines_front none
  | case4 => rfl

/-- Lines are normalised without bringing a mark before a `>`. -/
theorem guarded_normalizeLines {text : CString} : ∀ {d : Char}, guarded d text = true →
    guarded d (normalizeLines text) = true := by
  fun_induction normalizeLines text with
  | case1 text ih =>
    intro d guard
    simp only [guarded, Bool.and_eq_true] at guard ⊢
    exact ⟨rfl, ih guard.2.2⟩
  | case2 text _ ih =>
    intro d guard
    simp only [guarded, Bool.and_eq_true] at guard ⊢
    have loose : guarded '\n' text = true := by
      cases text with
      | nil => rfl
      | cons c text =>
        simp only [guarded, Bool.and_eq_true] at guard ⊢
        exact ⟨by simp, guard.2.2⟩
    exact ⟨rfl, ih loose⟩
  | case3 c text _ _ ih =>
    intro d guard
    simp only [guarded, Bool.and_eq_true] at guard ⊢
    exact ⟨guard.1, ih guard.2⟩
  | case4 => exact fun _ => rfl

end Lines

/-- A name of plain bytes. -/
def NameText (name : CString) : Prop :=
  ∃ c rest, name = c :: rest ∧ nameStart c = true ∧ ∀ d ∈ rest, nameChar d = true

instance (name : CString) : Decidable (NameText name) :=
  match name with
  | [] => isFalse fun ⟨_, _, same, _⟩ => nomatch same
  | c :: rest => decidable_of_iff (nameStart c = true ∧ rest.all nameChar = true) <| by
      rw [List.all_eq_true]
      constructor
      · exact fun ⟨first, others⟩ => ⟨c, rest, rfl, first, others⟩
      · rintro ⟨_, _, ⟨⟩, first, others⟩
        exact ⟨first, others⟩

/-- Behind its start tag, the text reads as these nodes. -/
def Content (text : CString) (nodes : List Node) : Prop :=
  ∀ path, path ≠ [] → ∃ brackets, run xmlStep ⟨path, true, .text 0⟩ text =
    some (⟨path, true, .text brackets⟩, nodesEvents nodes)

/-- The text reads as these nodes, and is apart from what follows. -/
def Reads (text : CString) (nodes : List Node) : Prop :=
  ∀ path, path ≠ [] → run xmlStep ⟨path, true, .text 0⟩ text =
    some (⟨path, true, .text 0⟩, nodesEvents nodes)

section Reading

theorem nodesEvents_append (before after : List Node) :
    nodesEvents (before ++ after) = nodesEvents before ++ nodesEvents after := by
  induction before with
  | nil => rfl
  | cons node before ih =>
    rw [List.cons_append, nodesEvents, nodesEvents, ih, List.append_assoc]

theorem nodesEvents_chars (text : CString) :
    nodesEvents (text.map .char) = text.map .char := by
  induction text with
  | nil => rfl
  | cons c text ih =>
    rw [List.map_cons, nodesEvents, ih]
    rfl

theorem Reads.content {text : CString} {nodes : List Node} (reads : Reads text nodes) :
    Content text nodes := fun path inside => ⟨0, reads path inside⟩

theorem Reads.nil : Reads [] [] := fun _ _ => rfl

theorem Reads.append {before after : CString} {nodes more : List Node}
    (first : Reads before nodes) (second : Reads after more) :
    Reads (before ++ after) (nodes ++ more) := by
  intro path inside
  rw [nodesEvents_append]
  exact run_append_some (first path inside) (second path inside)

theorem Reads.flatMap {α : Type} {items : List α} {text : α → CString} {nodes : α → List Node}
    (each : ∀ item ∈ items, Reads (text item) (nodes item)) :
    Reads (items.flatMap text) (items.flatMap nodes) := by
  induction items with
  | nil => exact .nil
  | cons item items ih =>
    rw [List.forall_mem_cons] at each
    rw [List.flatMap_cons, List.flatMap_cons]
    exact each.1.append (ih each.2)

theorem reads_newline : Reads ['\n'] [.char '\n'] := by
  intro path inside
  simp [run, xmlStep, inside, nodesEvents, Node.events]

/-- Bytes that are read one for one, behind any others. -/
theorem content_flatMap {write : Char → CString}
    (each : ∀ (c : Char) (path : List CString), path ≠ [] → ∀ brackets, ∃ after,
      run xmlStep ⟨path, true, .text brackets⟩ (write c) =
        some (⟨path, true, .text after⟩, [.char c])) (text : CString) :
    Content (text.flatMap write) (text.map .char) := by
  intro path inside
  rw [nodesEvents_chars]
  generalize 0 = brackets
  induction text generalizing brackets with
  | nil => exact ⟨brackets, rfl⟩
  | cons c text ih =>
    obtain ⟨middle, first⟩ := each c path inside brackets
    obtain ⟨after, second⟩ := ih middle
    exact ⟨after, run_append_some first second⟩

section Plain

variable {s last : XmlState} {text : CString} {events : List Event}

/-- Without `<` and `&`, text is all there is. -/
theorem plain_run (inside : s.path ≠ []) {brackets : ℕ} (mode : s.mode = .text brackets)
    (plain : ∀ c ∈ text, c ≠ '<' ∧ c ≠ '&')
    (read : run xmlStep s text = some (last, events)) :
    events = text.map .char ∧ ∃ brackets, last = ⟨s.path, s.rooted, .text brackets⟩ := by
  induction text generalizing s brackets events with
  | nil =>
    cases read
    exact ⟨rfl, brackets, mode ▸ rfl⟩
  | cons c text ih =>
    obtain ⟨noLess, noAmp⟩ := plain c List.mem_cons_self
    obtain ⟨next, first, later, taken, rest, rfl⟩ := run_cons_eq_some.mp read
    rw [xmlStep, mode] at taken
    simp only [if_neg noLess, if_neg noAmp, if_neg inside] at taken
    split_ifs at taken
    all_goals
      cases taken
      obtain ⟨rfl, after⟩ := @ih ⟨s.path, s.rooted, .text _⟩ _ inside _ rfl
        (fun d member => plain d (List.mem_cons_of_mem c member)) rest
      exact ⟨rfl, after⟩

theorem section_end_iff {brackets : ℕ} {c : Char} (noBracket : c ≠ ']')
    (noEnd : ¬(c = '>' ∧ 2 ≤ brackets)) :
    [']', ']', '>'] <:+: List.replicate brackets ']' ++ c :: text ↔ [']', ']', '>'] <:+: text := by
  induction brackets with
  | zero =>
    rw [List.replicate_zero, List.nil_append, List.infix_cons_iff, List.cons_prefix_cons]
    exact ⟨fun found => found.resolve_left fun front => noBracket front.1.symm, Or.inr⟩
  | succ n ih =>
    have step := ih fun ends => noEnd ⟨ends.1, by omega⟩
    rw [List.replicate_succ, List.cons_append, List.infix_cons_iff, step, List.cons_prefix_cons]
    refine ⟨fun found => found.resolve_left fun ⟨_, front⟩ => ?_, Or.inr⟩
    match n with
    | 0 => exact noBracket (List.cons_prefix_cons.mp front).1.symm
    | 1 =>
      have second := (List.cons_prefix_cons.mp front).2
      exact noEnd ⟨(List.cons_prefix_cons.mp second).1.symm, by omega⟩
    | n + 2 =>
      have second := (List.cons_prefix_cons.mp front).2
      exact absurd (List.cons_prefix_cons.mp second).1 (by decide)

/-- Text is read where it has no end of a CDATA section. -/
theorem plain_run_iff {path : List CString} {rooted : Bool} (inside : path ≠ [])
    (plain : ∀ c ∈ text, c ≠ '<' ∧ c ≠ '&') (brackets : ℕ) :
    (∃ out, run xmlStep ⟨path, rooted, .text brackets⟩ text = some out) ↔
      ¬[']', ']', '>'] <:+: List.replicate brackets ']' ++ text := by
  induction text generalizing brackets with
  | nil =>
    refine ⟨fun _ found => ?_, fun _ => ⟨_, rfl⟩⟩
    have member := found.subset (List.mem_cons_of_mem _ (List.mem_cons_of_mem _ List.mem_cons_self))
    rw [List.append_nil] at member
    exact absurd (List.eq_of_mem_replicate member) (by decide)
  | cons c text ih =>
    obtain ⟨noLess, noAmp⟩ := plain c List.mem_cons_self
    have later := ih fun d member => plain d (List.mem_cons_of_mem c member)
    have taken : xmlStep ⟨path, rooted, .text brackets⟩ c =
        if c = '>' ∧ 2 ≤ brackets then none
        else some (⟨path, rooted, .text (if c = ']' then brackets + 1 else 0)⟩, [.char c]) := by
      simp only [xmlStep, if_neg noLess, if_neg noAmp, if_neg inside]
    by_cases ends : c = '>' ∧ 2 ≤ brackets
    · rw [if_pos ends] at taken
      refine iff_of_false ?_ (not_not.mpr ?_)
      · rintro ⟨out, read⟩
        rw [run_cons_none taken] at read
        cases read
      · obtain ⟨rfl, enough⟩ := ends
        obtain ⟨more, rfl⟩ := Nat.exists_eq_add_of_le' enough
        refine ⟨List.replicate more ']', text, ?_⟩
        rw [List.replicate_add]
        simp [List.replicate]
    · rw [if_neg ends] at taken
      have rest : (∃ out, run xmlStep ⟨path, rooted, .text brackets⟩ (c :: text) = some out) ↔
          ∃ out, run xmlStep ⟨path, rooted, .text (if c = ']' then brackets + 1 else 0)⟩ text =
            some out := by
        rw [run_cons_of taken]
        simp only [Option.map_eq_some_iff]
        constructor
        · rintro ⟨_, out, read, _⟩
          exact ⟨out, read⟩
        · rintro ⟨out, read⟩
          exact ⟨_, out, read, rfl⟩
      rw [rest]
      by_cases bracket : c = ']'
      · subst bracket
        rw [if_pos rfl, later, List.replicate_succ', List.append_assoc]
        rfl
      · rw [if_neg bracket, later, section_end_iff bracket ends]
        rfl

end Plain

end Reading

def startTag (name : CString) : CString := '<' :: (name ++ ['>'])

def endTag (name : CString) : CString := '<' :: '/' :: (name ++ ['>'])

def emptyTag (name : CString) : CString := '<' :: (name ++ ['/', '>'])

/-- A start tag with one attribute. -/
def attributeTag (name key value : CString) : CString :=
  '<' :: (name ++ ' ' :: (key ++ '=' :: '"' :: (value ++ ['"', '>'])))

section Tags

variable {path : List CString} {rooted : Bool} {name : CString}

theorem run_startName {rest : CString} (named : ∀ c ∈ rest, nameChar c = true) (seen : CString) :
    run xmlStep ⟨path, rooted, .startName seen⟩ rest =
      some (⟨path, rooted, .startName (seen ++ rest)⟩, []) := by
  induction rest generalizing seen with
  | nil => rw [List.append_nil, run_nil]
  | cons c rest ih =>
    rw [List.forall_mem_cons] at named
    have taken : xmlStep ⟨path, rooted, .startName seen⟩ c =
        some (⟨path, rooted, .startName (seen ++ [c])⟩, []) := if_pos named.1
    rw [run_cons_of taken, ih named.2, List.append_assoc]
    rfl

/-- A `<` and a name. -/
theorem run_tagName (named : NameText name) (room : path ≠ [] ∨ rooted = false) (brackets : ℕ) :
    run xmlStep ⟨path, rooted, .text brackets⟩ ('<' :: name) =
      some (⟨path, rooted, .startName name⟩, []) := by
  obtain ⟨c, rest, rfl, first, others⟩ := named
  have noSlash : c ≠ '/' := fun same => absurd (same ▸ first) (by decide)
  have noBang : c ≠ '!' := fun same => absurd (same ▸ first) (by decide)
  have noMark : c ≠ '?' := fun same => absurd (same ▸ first) (by decide)
  have opening : xmlStep ⟨path, rooted, .text brackets⟩ '<' =
      some (⟨path, rooted, .markup⟩, []) := rfl
  have start : xmlStep ⟨path, rooted, .markup⟩ c = some (⟨path, rooted, .startName [c]⟩, []) := by
    simp only [xmlStep, if_neg noSlash, if_neg noBang, if_neg noMark, if_pos (And.intro first room)]
    rfl
  rw [run_cons_of opening, run_cons_of start, run_startName others]
  rfl

theorem run_startTag (named : NameText name) (room : path ≠ [] ∨ rooted = false) (brackets : ℕ) :
    run xmlStep ⟨path, rooted, .text brackets⟩ (startTag name) =
      some (⟨name :: path, true, .text 0⟩, [.opened name []]) := by
  have close : run xmlStep ⟨path, rooted, .startName name⟩ ['>'] =
      some (⟨name :: path, true, .text 0⟩, [.opened name []]) := rfl
  exact run_append_some (run_tagName named room brackets) close

theorem run_emptyTag (named : NameText name) (inside : path ≠ []) (brackets : ℕ) :
    run xmlStep ⟨path, true, .text brackets⟩ (emptyTag name) =
      some (⟨path, true, .text 0⟩, [.opened name [], .closed]) := by
  have close : run xmlStep ⟨path, true, .startName name⟩ ['/', '>'] =
      some (⟨path, true, .text 0⟩, [.opened name [], .closed]) := rfl
  exact run_append_some (run_tagName named (.inl inside) brackets) close

theorem run_endName {rest : CString} (named : ∀ c ∈ rest, nameChar c = true) {seen : CString}
    (some' : seen ≠ []) : run xmlStep ⟨path, rooted, .endName seen⟩ rest =
      some (⟨path, rooted, .endName (seen ++ rest)⟩, []) := by
  induction rest generalizing seen with
  | nil => rw [List.append_nil, run_nil]
  | cons c rest ih =>
    rw [List.forall_mem_cons] at named
    have noClose : c ≠ '>' := fun same => absurd (same ▸ named.1) (by decide)
    have taken : xmlStep ⟨path, rooted, .endName seen⟩ c =
        some (⟨path, rooted, .endName (seen ++ [c])⟩, []) := by
      simp only [xmlStep, if_neg some', if_neg noClose, if_pos named.1]
      rfl
    rw [run_cons_of taken, ih named.2 (List.append_ne_nil_of_right_ne_nil seen (by simp)),
      List.append_assoc]
    rfl

theorem run_endTag (named : NameText name) (brackets : ℕ) :
    run xmlStep ⟨name :: path, rooted, .text brackets⟩ (endTag name) =
      some (⟨path, rooted, .text 0⟩, [.closed]) := by
  obtain ⟨c, rest, rfl, first, others⟩ := named
  have opening : xmlStep ⟨(c :: rest) :: path, rooted, .text brackets⟩ '<' =
      some (⟨(c :: rest) :: path, rooted, .markup⟩, []) := rfl
  have slash : xmlStep ⟨(c :: rest) :: path, rooted, .markup⟩ '/' =
      some (⟨(c :: rest) :: path, rooted, .endName []⟩, []) := rfl
  have start : xmlStep ⟨(c :: rest) :: path, rooted, .endName []⟩ c =
      some (⟨(c :: rest) :: path, rooted, .endName [c]⟩, []) := by
    simp only [xmlStep, if_true, if_pos first]
    rfl
  have close : run xmlStep ⟨(c :: rest) :: path, rooted, .endName (c :: rest)⟩ ['>'] =
      some (⟨path, rooted, .text 0⟩, [.closed]) := by
    simp [run, xmlStep, XmlState.closeElement]
  have name : run xmlStep ⟨(c :: rest) :: path, rooted, .text brackets⟩
      ('<' :: '/' :: c :: rest) = some (⟨(c :: rest) :: path, rooted, .endName (c :: rest)⟩, []) := by
    rw [run_cons_of opening, run_cons_of slash, run_cons_of start,
      run_endName others (List.cons_ne_nil c [])]
    rfl
  exact run_append_some name close

/-- What an end tag closes has its name. -/
theorem run_endTag_named {last : XmlState} {events : List Event} (named : NameText name)
    {brackets : ℕ} (read : run xmlStep ⟨path, rooted, .text brackets⟩ (endTag name) =
      some (last, events)) : ∃ rest, path = name :: rest := by
  obtain ⟨c, rest, rfl, first, others⟩ := named
  have opening : xmlStep ⟨path, rooted, .text brackets⟩ '<' = some (⟨path, rooted, .markup⟩, []) :=
    rfl
  have slash : xmlStep ⟨path, rooted, .markup⟩ '/' = some (⟨path, rooted, .endName []⟩, []) := rfl
  have start : xmlStep ⟨path, rooted, .endName []⟩ c = some (⟨path, rooted, .endName [c]⟩, []) := by
    simp only [xmlStep, if_true, if_pos first]
    rfl
  rw [endTag, run_cons_of opening, run_cons_of slash, List.cons_append, run_cons_of start] at read
  obtain ⟨_, inner, -⟩ := Option.map_eq_some_iff.mp read
  obtain ⟨_, inner, -⟩ := Option.map_eq_some_iff.mp inner
  obtain ⟨⟨end', shown⟩, inner, -⟩ := Option.map_eq_some_iff.mp inner
  obtain ⟨_, _, _, head, tail, -⟩ := run_append_eq_some.mp inner
  rw [run_endName others (List.cons_ne_nil c [])] at head
  cases head
  obtain ⟨_, _, _, taken, -, -⟩ := run_cons_eq_some.mp tail
  simp only [xmlStep, XmlState.closeElement] at taken
  cases path with
  | nil => simp at taken
  | cons top outer =>
    by_cases same : top = c :: rest
    · exact ⟨outer, congrArg (· :: outer) same⟩
    · simp [same] at taken

/-- Markup begins the same behind any text. -/
theorem run_less (brackets : ℕ) (rest : CString) :
    run xmlStep ⟨path, rooted, .text brackets⟩ ('<' :: rest) =
      run xmlStep ⟨path, rooted, .text 0⟩ ('<' :: rest) := rfl

theorem run_attributeName {tag : CString} {rest : CString}
    (named : ∀ c ∈ rest, nameChar c = true) (seen : CString) :
    run xmlStep ⟨path, rooted, .attributeName tag [] seen⟩ rest =
      some (⟨path, rooted, .attributeName tag [] (seen ++ rest)⟩, []) := by
  induction rest generalizing seen with
  | nil => rw [List.append_nil, run_nil]
  | cons c rest ih =>
    rw [List.forall_mem_cons] at named
    have taken : xmlStep ⟨path, rooted, .attributeName tag [] seen⟩ c =
        some (⟨path, rooted, .attributeName tag [] (seen ++ [c])⟩, []) := if_pos named.1
    rw [run_cons_of taken, ih named.2, List.append_assoc]
    rfl

/-- A value that is written into an attribute as it is. -/
def BareValue (value : CString) : Prop :=
  ∀ c ∈ value, c ≠ '"' ∧ c ≠ '<' ∧ c ≠ '&' ∧ xmlBlank c = false

theorem run_attributeValue {tag key : CString} {value : CString} (bare : BareValue value)
    (seen : CString) : run xmlStep ⟨path, rooted, .attributeValue tag [] key true seen⟩ value =
      some (⟨path, rooted, .attributeValue tag [] key true (seen ++ value)⟩, []) := by
  induction value generalizing seen with
  | nil => rw [List.append_nil, run_nil]
  | cons c value ih =>
    obtain ⟨noQuote, noLess, noAmp, noBlank⟩ := bare c List.mem_cons_self
    have taken : xmlStep ⟨path, rooted, .attributeValue tag [] key true seen⟩ c =
        some (⟨path, rooted, .attributeValue tag [] key true (seen ++ [c])⟩, []) := by
      simp [xmlStep, noQuote, noLess, noAmp, noBlank, XmlState.goto]
    rw [run_cons_of taken, ih (fun d member => bare d (List.mem_cons_of_mem c member)),
      List.append_assoc]
    rfl

theorem run_attributeTag {key value : CString} (named : NameText name) (keyed : NameText key)
    (bare : BareValue value) (inside : path ≠ []) (brackets : ℕ) :
    run xmlStep ⟨path, true, .text brackets⟩ (attributeTag name key value) =
      some (⟨name :: path, true, .text 0⟩, [.opened name [(key, value)]]) := by
  obtain ⟨c, rest, rfl, first, others⟩ := keyed
  have noBlank : nameChar ' ' = false := by decide
  have blank : xmlStep ⟨path, true, .startName name⟩ ' ' =
      some (⟨path, true, .inTag name [] true⟩, []) := by
    simp [xmlStep, noBlank, XmlState.tagEnd, XmlState.goto, xmlBlank]
  have start : xmlStep ⟨path, true, .inTag name [] true⟩ c =
      some (⟨path, true, .attributeName name [] [c]⟩, []) := if_pos ⟨first, rfl⟩
  have equals : run xmlStep ⟨path, true, .attributeName name [] (c :: rest)⟩ ['=', '"'] =
      some (⟨path, true, .attributeValue name [] (c :: rest) true []⟩, []) := rfl
  have close : run xmlStep ⟨path, true, .attributeValue name [] (c :: rest) true value⟩ ['"', '>'] =
      some (⟨name :: path, true, .text 0⟩, [.opened name [(c :: rest, value)]]) := rfl
  have tail : run xmlStep ⟨path, true, .startName name⟩
      (' ' :: (c :: rest ++ '=' :: '"' :: (value ++ ['"', '>']))) =
      some (⟨name :: path, true, .text 0⟩, [.opened name [(c :: rest, value)]]) := by
    have body := run_append_some equals
      (run_append_some (run_attributeValue bare []) close)
    have all := run_append_some (run_attributeName others [c]) body
    rw [run_cons_of blank, List.cons_append, run_cons_of start]
    exact congrArg (Option.map _) (congrArg (Option.map _) all)
  exact run_append_some (run_tagName named (.inl inside) brackets) tail

theorem Content.element {text : CString} {nodes : List Node} (named : NameText name)
    (content : Content text nodes) :
    Reads (startTag name ++ text ++ endTag name) [.element name [] nodes] := by
  intro path inside
  obtain ⟨brackets, read⟩ := content (name :: path) (List.cons_ne_nil name path)
  have start := run_startTag named (.inl inside : path ≠ [] ∨ true = false) 0
  have whole := run_append_some (run_append_some start read) (run_endTag named brackets)
  rw [whole, nodesEvents, nodesEvents, Node.events, List.append_nil]
  rfl

theorem Content.attributed {text key value : CString} {nodes : List Node} (named : NameText name)
    (keyed : NameText key) (bare : BareValue value) (content : Content text nodes) :
    Reads (attributeTag name key value ++ text ++ endTag name)
      [.element name [(key, value)] nodes] := by
  intro path inside
  obtain ⟨brackets, read⟩ := content (name :: path) (List.cons_ne_nil name path)
  have start := run_attributeTag named keyed bare inside 0
  have whole := run_append_some (run_append_some start read) (run_endTag named brackets)
  rw [whole, nodesEvents, nodesEvents, Node.events, List.append_nil]
  rfl

theorem reads_emptyTag (named : NameText name) : Reads (emptyTag name) [.element name [] []] := by
  intro path inside
  rw [run_emptyTag named inside, nodesEvents, nodesEvents, Node.events, nodesEvents]
  rfl

end Tags

/-- Text that is read as it is. -/
structure PlainText (text : CString) : Prop where
  less : '<' ∉ text
  amp : '&' ∉ text
  line : '\r' ∉ text
  cdata : ¬[']', ']', '>'] <:+: text

theorem PlainText.content {text : CString} (plain : PlainText text) :
    Content text (text.map .char) := by
  intro path inside
  have bare : ∀ c ∈ text, c ≠ '<' ∧ c ≠ '&' := fun c member =>
    ⟨fun same => plain.less (same ▸ member), fun same => plain.amp (same ▸ member)⟩
  obtain ⟨out, read⟩ := (@plain_run_iff text path true inside bare 0).mpr plain.cdata
  obtain ⟨last, events⟩ := out
  obtain ⟨rfl, brackets, rfl⟩ := @plain_run ⟨path, true, .text 0⟩ _ _ _ inside 0 rfl bare read
  rw [nodesEvents_chars]
  exact ⟨brackets, read⟩

section Splices

variable {s last : XmlState} {text : CString} {events : List Event}

theorem chars_front {text : CString} {events later more : List Event}
    (same : events ++ later = text.map Event.char ++ .closed :: more)
    (fewer : (events.map Event.chars).sum < text.length) :
    ∃ front : CString, events = front.map Event.char ∧ front.length < text.length := by
  induction events generalizing text with
  | nil => exact ⟨[], rfl, fewer⟩
  | cons event events ih =>
    cases text with
    | nil => cases fewer
    | cons c text =>
      rw [List.cons_append, List.map_cons, List.cons_append, List.cons_eq_cons] at same
      obtain ⟨rfl, rest⟩ := same
      simp only [List.map_cons, List.sum_cons, Event.chars, List.length_cons] at fewer
      obtain ⟨front, rfl, size⟩ := ih rest (by omega)
      exact ⟨c :: front, rfl, Nat.succ_lt_succ size⟩

theorem chars_closed {front text : CString} {later more : List Event}
    (same : front.map Event.char ++ .closed :: later = text.map .char ++ .closed :: more) :
    front = text := by
  induction front generalizing text with
  | nil =>
    cases text with
    | nil => rfl
    | cons c text => cases same
  | cons c front ih =>
    cases text with
    | nil => cases same
    | cons d text =>
      rw [List.map_cons, List.cons_append, List.map_cons, List.cons_append, List.cons_eq_cons] at same
      obtain ⟨first, rest⟩ := same
      cases first
      rw [ih rest]

/-- A byte that starts markup in a text. -/
theorem exists_markup {text : CString} (markup : ¬∀ c ∈ text, c ≠ '<' ∧ c ≠ '&') :
    ∃ front c rest, text = front ++ c :: rest ∧ (∀ d ∈ front, d ≠ '<' ∧ d ≠ '&') ∧
      (c = '<' ∨ c = '&') := by
  induction text with
  | nil => exact absurd (fun c member => nomatch member) markup
  | cons c text ih =>
    by_cases here : c = '<' ∨ c = '&'
    · exact ⟨[], c, text, rfl, (fun d member => nomatch member), here⟩
    · rw [not_or] at here
      have later : ¬∀ d ∈ text, d ≠ '<' ∧ d ≠ '&' := fun all =>
        markup (List.forall_mem_cons.mpr ⟨here, all⟩)
      obtain ⟨front, d, rest, rfl, plain, mark⟩ := ih later
      exact ⟨c :: front, d, rest, rfl, List.forall_mem_cons.mpr ⟨here, plain⟩, mark⟩

/-- Markup is reported in fewer bytes. -/
theorem markup_run (inside : s.path ≠ []) (mode : s.mode = .text 0)
    (markup : ¬∀ c ∈ text, c ≠ '<' ∧ c ≠ '&')
    (read : run xmlStep s text = some (last, events)) :
    (events.map Event.chars).sum < text.length := by
  obtain ⟨front, c, rest, rfl, plain, mark⟩ := exists_markup markup
  obtain ⟨middle, first, later, head, tail, rfl⟩ := run_append_eq_some.mp read
  obtain ⟨rfl, brackets, rfl⟩ := plain_run inside mode plain head
  obtain ⟨next, one, after, taken, ends, rfl⟩ := run_cons_eq_some.mp tail
  have nothing : next.mode.held = 0 ∧ one = [] := by
    rcases mark with rfl | rfl
    · simp only [xmlStep, if_true] at taken
      cases taken
      exact ⟨rfl, rfl⟩
    · have other : '&' ≠ '<' := by decide
      simp only [xmlStep, if_neg other, if_neg inside, if_true] at taken
      cases taken
      exact ⟨rfl, rfl⟩
  obtain ⟨held, rfl⟩ := nothing
  have bound := chars_run ends
  rw [held] at bound
  simp only [List.map_append, List.sum_append, sum_chars, List.nil_append, List.length_append,
    List.length_cons]
  omega

/-- A text put into an element of a finished document is only decoded as itself when it is read as it
is. -/
theorem plain_of_decoded {name after : CString} {path : List CString} {events more : List Event}
    (named : NameText name) (guard : guarded '-' (endTag name ++ after) = true)
    (read : run xmlStep ⟨name :: path, true, .text 0⟩ (normalizeLines text ++ (endTag name ++ after)) =
      some (last, events)) (finished : last.Finished)
    (decoded : events = text.map .char ++ .closed :: more) : PlainText text := by
  have inside : name :: path ≠ [] := List.cons_ne_nil name path
  obtain ⟨middle, first, later, head, tail, rfl⟩ := run_append_eq_some.mp read
  have size := length_normalizeLines_le text
  have tag : endTag name ++ after = '<' :: '/' :: (name ++ ['>'] ++ after) := rfl
  have closing : ∀ brackets, middle = ⟨name :: path, true, .text brackets⟩ →
      ∃ rest, later = .closed :: rest := by
    rintro brackets rfl
    obtain ⟨_, one, rest, taken, -, joined⟩ := run_append_eq_some.mp tail
    rw [run_endTag named] at taken
    cases taken
    exact ⟨rest, joined⟩
  by_cases bare : ∀ c ∈ normalizeLines text, c ≠ '<' ∧ c ≠ '&'
  · obtain ⟨rfl, brackets, state⟩ := @plain_run
      ⟨name :: path, true, .text 0⟩ _ _ _ inside 0 rfl bare head
    obtain ⟨rest, rfl⟩ := closing brackets state
    have same := chars_closed decoded
    refine ⟨?_, ?_, normalizeLines_eq_self_iff.mp same, ?_⟩
    · exact fun member => (bare '<' (same.symm ▸ member)).1 rfl
    · exact fun member => (bare '&' (same.symm ▸ member)).2 rfl
    · have fine := (@plain_run_iff _ (name :: path) true inside bare 0).mp ⟨_, head⟩
      rw [same] at fine
      exact fine
  · have fewer := @markup_run ⟨name :: path, true, .text 0⟩ _ _ _ inside rfl bare head
    obtain ⟨front, rfl, short⟩ := chars_front decoded (fewer.trans_le size)
    have samePath : middle.path = name :: path :=
      (path_run head).trans (track_chars (name :: path) front)
    by_cases mode : ∃ brackets, middle.mode = .text brackets
    · obtain ⟨brackets, mode⟩ := mode
      have root : middle.rooted = true := rooted_run head rfl
      have state : middle = ⟨name :: path, true, .text brackets⟩ := by
        obtain ⟨_, _, _⟩ := middle
        cases samePath
        cases root
        cases mode
        rfl
      obtain ⟨rest, rfl⟩ := closing brackets state
      rw [chars_closed decoded] at short
      exact absurd short (Nat.lt_irrefl _)
    · rw [tag] at tail
      have ended : guarded '<' ('/' :: (name ++ ['>'] ++ after)) = true := by
        rw [tag, guarded, Bool.and_eq_true] at guard
        exact guard.2
      exact absurd finished
        (unfinished_run (fun brackets same => mode ⟨brackets, same⟩) ended tail)

end Splices

section Nodes

theorem events_opened {root : Node} {name : CString} {attributes : Attributes} {later : List Event}
    (same : root.events = .opened name attributes :: later) :
    ∃ children, root = .element name attributes children ∧
      nodesEvents children ++ [.closed] = later := by
  cases root with
  | char c => cases same
  | element found others children =>
    cases same
    exact ⟨children, rfl, rfl⟩

theorem nodes_char_cons {nodes : List Node} {c : Char} {later more : List Event}
    (same : nodesEvents nodes ++ .closed :: more = .char c :: later) :
    ∃ rest, nodes = .char c :: rest ∧ nodesEvents rest ++ .closed :: more = later := by
  cases nodes with
  | nil => cases same
  | cons node rest =>
    cases node with
    | char d =>
      cases same
      exact ⟨rest, rfl, rfl⟩
    | element => cases same

theorem nodes_opened_cons {nodes : List Node} {name : CString} {attributes : Attributes}
    {later more : List Event}
    (same : nodesEvents nodes ++ .closed :: more = .opened name attributes :: later) :
    ∃ children rest, nodes = .element name attributes children :: rest ∧
      nodesEvents children ++ .closed :: (nodesEvents rest ++ .closed :: more) = later := by
  cases nodes with
  | nil => cases same
  | cons node rest =>
    cases node with
    | char d => cases same
    | element found others children =>
      rw [nodesEvents, Node.events, List.cons_append, List.cons_append, List.cons_eq_cons] at same
      obtain ⟨first, same⟩ := same
      cases first
      refine ⟨children, rest, rfl, ?_⟩
      rw [← same]
      simp only [List.append_assoc, List.cons_append, List.nil_append]

mutual

theorem Node.events_inj : ∀ {a b : Node} {later more : List Event},
    a.events ++ later = b.events ++ more → a = b ∧ later = more
  | .char c, .char d, later, more, same => by
    cases same
    exact ⟨rfl, rfl⟩
  | .char c, .element .., later, more, same => by cases same
  | .element .., .char d, later, more, same => by cases same
  | .element name attributes children, .element other others nodes, later, more, same => by
    rw [Node.events, Node.events, List.cons_append, List.cons_append, List.cons_eq_cons,
      List.append_assoc, List.append_assoc] at same
    obtain ⟨first, same⟩ := same
    cases first
    obtain ⟨rfl, rfl⟩ := nodesEvents_inj same
    exact ⟨rfl, rfl⟩

theorem nodesEvents_inj : ∀ {as bs : List Node} {later more : List Event},
    nodesEvents as ++ .closed :: later = nodesEvents bs ++ .closed :: more →
      as = bs ∧ later = more
  | [], [], later, more, same => by
    cases same
    exact ⟨rfl, rfl⟩
  | [], .char _ :: bs, later, more, same => by cases same
  | [], .element .. :: bs, later, more, same => by cases same
  | .char _ :: as, [], later, more, same => by cases same
  | .element .. :: as, [], later, more, same => by cases same
  | a :: as, b :: bs, later, more, same => by
    rw [nodesEvents, nodesEvents, List.append_assoc, List.append_assoc] at same
    obtain ⟨rfl, others⟩ := Node.events_inj same
    obtain ⟨rfl, rfl⟩ := nodesEvents_inj others
    exact ⟨rfl, rfl⟩

end

/-- A document has one root. -/
theorem ReadsAs.unique {bytes : CString} {root other : Node} (first : ReadsAs bytes root)
    (second : ReadsAs bytes other) : root = other := by
  obtain ⟨-, last, -, read⟩ := first
  obtain ⟨-, end', -, again⟩ := second
  rw [read] at again
  have same : root.events ++ [] = other.events ++ [] := by
    rw [List.append_nil, List.append_nil]
    exact congrArg Prod.snd (Option.some.inj again)
  exact (Node.events_inj same).1

theorem prefix_append_cases {events before after : List Event} (front : events <+: before ++ after) :
    events <+: before ∨ ∃ rest, events = before ++ rest ∧ rest <+: after := by
  rcases Nat.le_total events.length before.length with short | long
  · exact .inl (List.prefix_of_prefix_length_le front (List.prefix_append before after) short)
  · obtain ⟨rest, rfl⟩ := List.prefix_of_prefix_length_le (List.prefix_append before after) front long
    exact .inr ⟨rest, rfl, (List.prefix_append_right_inj before).mp front⟩

mutual

theorem Node.track_events : ∀ (node : Node) (path : List CString),
    node.events.foldl track path = path
  | .char _, _ => rfl
  | .element name attributes children, path => by
    rw [Node.events, List.foldl_cons, List.foldl_append, nodes_track_events children]
    rfl

theorem nodes_track_events : ∀ (nodes : List Node) (path : List CString),
    (nodesEvents nodes).foldl track path = path
  | [], _ => rfl
  | node :: nodes, path => by
    rw [nodesEvents, List.foldl_append, node.track_events, nodes_track_events nodes]

end

mutual

theorem Node.track_front : ∀ (node : Node) {path : List CString} {events : List Event},
    events <+: node.events → path <:+ events.foldl track path
  | .char c, path, [], _ => List.suffix_refl path
  | .char c, path, event :: events, front => by
    rw [Node.events, List.cons_prefix_cons, List.prefix_nil] at front
    obtain ⟨rfl, rfl⟩ := front
    exact List.suffix_refl path
  | .element name attributes children, path, [], _ => List.suffix_refl path
  | .element name attributes children, path, event :: events, front => by
    rw [Node.events, List.cons_prefix_cons] at front
    obtain ⟨rfl, front⟩ := front
    rw [List.foldl_cons]
    rcases List.prefix_concat_iff.mp front with rfl | inner
    · rw [List.foldl_append, nodes_track_events]
      exact List.suffix_refl path
    · exact (List.suffix_cons name path).trans (nodes_track_front children inner)

/-- Within a part of a document, the elements around it stay open. -/
theorem nodes_track_front : ∀ (nodes : List Node) {path : List CString} {events : List Event},
    events <+: nodesEvents nodes → path <:+ events.foldl track path
  | [], path, events, front => by
    rw [nodesEvents, List.prefix_nil] at front
    rw [front]
    exact List.suffix_refl path
  | node :: nodes, path, events, front => by
    rcases prefix_append_cases front with inner | ⟨rest, rfl, inner⟩
    · exact node.track_front inner
    · rw [List.foldl_append, node.track_events]
      exact nodes_track_front nodes inner

end

/-- Broken off, a part of a document leaves open what was open before it. -/
theorem Content.broken_off {text front : CString} {nodes : List Node} (content : Content text nodes)
    (broken : front <+: text) {path : List CString} (inside : path ≠ []) :
    ∃ s events, run xmlStep ⟨path, true, .text 0⟩ front = some (s, events) ∧ path <:+ s.path ∧
      s.rooted = true := by
  obtain ⟨rest, rfl⟩ := broken
  obtain ⟨brackets, read⟩ := content path inside
  obtain ⟨s, events, later, head, -, joined⟩ := run_append_eq_some.mp read
  refine ⟨s, events, head, ?_, rooted_run head rfl⟩
  rw [path_run head]
  exact nodes_track_front nodes ⟨later, joined.symm⟩

theorem run_root {name text : CString} {nodes : List Node} (named : NameText name)
    (content : Content text nodes) :
    run xmlStep .start (startTag name ++ text ++ endTag name ++ ['\n']) =
      some (⟨[], true, .text 0⟩, (Node.element name [] nodes).events) := by
  obtain ⟨brackets, read⟩ := content [name] (List.cons_ne_nil name [])
  have start : run xmlStep .start (startTag name) = some (⟨[name], true, .text 0⟩, [.opened name []]) :=
    run_startTag named (.inr rfl) 0
  have end' : run xmlStep ⟨[], true, .text 0⟩ ['\n'] = some (⟨[], true, .text 0⟩, []) := rfl
  have whole := run_append_some
    (run_append_some (run_append_some start read) (run_endTag named brackets)) end'
  rw [whole, List.append_nil, Node.events]
  rfl

end Nodes

end OciWrapper.Markup
