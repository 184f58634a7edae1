import OciWrapper.Markup.XmlTexts
import OciWrapper.Text.Tags

namespace OciWrapper.Markup

open OciWrapper.Text

/-- Markup that nothing around it changes. -/
def MarkTag (tag : CString) : Prop :=
  tag.head? = some '<' ∧ '\r' ∉ tag ∧ guarded '-' tag = true ∧ PlainBytes xmlChar tag

instance (tag : CString) : Decidable (MarkTag tag) := inferInstanceAs (Decidable (_ ∧ _))

/-- A name whose tags nothing around them changes. -/
structure TagName (name : CString) : Prop where
  named : NameText name
  opening : MarkTag (startTag name)
  ending : MarkTag (endTag name)
  empty : MarkTag (emptyTag name)

instance (name : CString) : Decidable (TagName name) :=
  decidable_of_iff (NameText name ∧ MarkTag (startTag name) ∧ MarkTag (endTag name) ∧
      MarkTag (emptyTag name))
    ⟨fun ⟨named, opening, ending, empty⟩ => ⟨named, opening, ending, empty⟩,
      fun tag => ⟨tag.named, tag.opening, tag.ending, tag.empty⟩⟩

/-- Markup, each with a text behind it that ends none. -/
def MarkUnits (units : List (CString × CString)) : Prop := ∀ u ∈ units, MarkTag u.1 ∧ '>' ∉ u.2

theorem MarkUnits.append {a b : List (CString × CString)} (first : MarkUnits a)
    (second : MarkUnits b) : MarkUnits (a ++ b) := List.forall_mem_append.mpr ⟨first, second⟩

theorem MarkUnits.flatMap {α : Type} {items : List α} {units : α → List (CString × CString)}
    (each : ∀ item ∈ items, MarkUnits (units item)) : MarkUnits (items.flatMap units) := by
  intro u member
  obtain ⟨item, there, inside⟩ := List.mem_flatMap.mp member
  exact each item there u inside

/-- The units with the line ends of their texts normalised. -/
def normalizedUnits (units : List (CString × CString)) : List (CString × CString) :=
  units.map fun u => (u.1, normalizeLines u.2)

section Units

variable {units : List (CString × CString)}

theorem units_head (marks : MarkUnits units) (rest : CString)
    (first : rest.head? ≠ some '\n') : (unitsText units ++ rest).head? ≠ some '\n' := by
  cases units with
  | nil => exact first
  | cons u units =>
    have opens := (marks u List.mem_cons_self).1.1
    rw [unitsText_cons, List.append_assoc, List.append_assoc, List.head?_append, opens]
    exact fun same => absurd (Option.some.inj same) (by decide)

theorem normalizeLines_units (marks : MarkUnits units) {rest : CString}
    (first : rest.head? ≠ some '\n') : normalizeLines (unitsText units ++ rest) =
      unitsText (normalizedUnits units) ++ normalizeLines rest := by
  induction units with
  | nil => rfl
  | cons u units ih =>
    rw [MarkUnits, List.forall_mem_cons] at marks
    obtain ⟨⟨tag, -⟩, others⟩ := marks
    rw [unitsText_cons, List.append_assoc, List.append_assoc, normalizeLines_front tag.2.1,
      normalizeLines_append (units_head others rest first), ih others]
    simp only [normalizedUnits, List.map_cons, unitsText_cons, List.append_assoc]

theorem guarded_bare {d : Char} {text : CString} (bare : '>' ∉ text) : guarded d text = true := by
  induction text generalizing d with
  | nil => rfl
  | cons c text ih =>
    rw [List.mem_cons, not_or] at bare
    simp only [guarded, Bool.and_eq_true, Bool.or_eq_true, decide_eq_true_eq]
    exact ⟨.inl (Ne.symm bare.1), ih bare.2⟩

theorem guarded_units (marks : MarkUnits units) : guarded '-' (unitsText units) = true := by
  induction units with
  | nil => rfl
  | cons u units ih =>
    rw [MarkUnits, List.forall_mem_cons] at marks
    obtain ⟨⟨tag, bare⟩, others⟩ := marks
    rw [unitsText_cons]
    exact guarded_append (guarded_append tag.2.2.1 (guarded_bare bare)) (ih others)

theorem MarkTag.ne_nil {tag : CString} (mark : MarkTag tag) : tag ≠ [] := by
  rintro rfl
  cases mark.1

/-- Marked texts are UTF-8 together when each of them is. -/
theorem encoded_units (marks : MarkUnits units) :
    Encoded xmlChar (unitsText units) ↔ ∀ u ∈ units, Encoded xmlChar u.2 := by
  induction units with
  | nil => simp [unitsText]
  | cons u units ih =>
    rw [MarkUnits, List.forall_mem_cons] at marks
    obtain ⟨⟨tag, -⟩, others⟩ := marks
    have rest := ih others
    rw [unitsText_cons, List.append_assoc, encoded_after_plain tag.2.2.2, List.forall_mem_cons,
      ← rest]
    cases units with
    | nil => simp [unitsText]
    | cons v units =>
      have next := (others v List.mem_cons_self).1
      rw [unitsText_cons, List.append_assoc, encoded_before_plain next.2.2.2 next.ne_nil,
        encoded_after_plain next.2.2.2]

end Units

/-- An element with nothing but text. -/
def leafUnits (name value : CString) : List (CString × CString) :=
  [(startTag name, value), (endTag name, [])]

/-- An element around others, with what stands behind its two tags. -/
def elementUnits (start name inside behind : CString) (units : List (CString × CString)) :
    List (CString × CString) :=
  [(start, inside)] ++ units ++ [(endTag name, behind)]

theorem reads_leaf {name value : CString} {nodes : List Node} (tag : TagName name)
    (content : Content value nodes) :
    Reads (unitsText (leafUnits name value)) [.element name [] nodes] := by
  have text : unitsText (leafUnits name value) = startTag name ++ value ++ endTag name := by
    simp [unitsText, leafUnits]
  rw [text]
  exact content.element tag.named

theorem reads_element {start name inside behind : CString} {attributes : Attributes}
    {units : List (CString × CString)} {insideNodes nodes behindNodes : List Node}
    (tag : TagName name) (opens : ∀ path, path ≠ [] →
      run xmlStep ⟨path, true, .text 0⟩ start =
        some (⟨name :: path, true, .text 0⟩, [.opened name attributes]))
    (first : Reads inside insideNodes) (content : Reads (unitsText units) nodes)
    (last : Reads behind behindNodes) : Reads (unitsText (elementUnits start name inside behind units))
      (.element name attributes (insideNodes ++ nodes) :: behindNodes) := by
  have text : unitsText (elementUnits start name inside behind units) =
      start ++ (inside ++ unitsText units) ++ endTag name ++ behind := by
    simp [unitsText, elementUnits]
  intro path filled
  have body := (first.append content) (name :: path) (List.cons_ne_nil name path)
  have whole := run_append_some (run_append_some (run_append_some (opens path filled) body)
    (run_endTag tag.named 0)) (last path filled)
  rw [text, whole, nodesEvents, Node.events]
  simp only [List.cons_append, List.nil_append, List.append_assoc]

theorem Reads.units {a b : List (CString × CString)} {nodes more : List Node}
    (first : Reads (unitsText a) nodes) (second : Reads (unitsText b) more) :
    Reads (unitsText (a ++ b)) (nodes ++ more) := by
  rw [unitsText_append]
  exact first.append second

theorem markUnits_leaf {name value : CString} (tag : TagName name) (bare : '>' ∉ value) :
    MarkUnits (leafUnits name value) := by
  simp [MarkUnits, leafUnits, tag.opening, tag.ending, bare]

theorem markUnits_element {start name inside behind : CString}
    {units : List (CString × CString)} (tag : TagName name) (first : MarkTag start)
    (inner : '>' ∉ inside) (outer : '>' ∉ behind) (marks : MarkUnits units) :
    MarkUnits (elementUnits start name inside behind units) := by
  have front : MarkUnits [(start, inside)] := by simp [MarkUnits, first, inner]
  have back : MarkUnits [(endTag name, behind)] := by simp [MarkUnits, tag.ending, outer]
  exact (front.append marks).append back

end OciWrapper.Markup
