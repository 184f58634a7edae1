import OciWrapper.Text.Chars

namespace OciWrapper.Text

/-- The text with each of its quotes doubled. -/
def doubled : CString → CString
  | [] => []
  | c :: s => if c = '\'' then c :: c :: doubled s else c :: doubled s

/-- The literal of a statement for the text. -/
def literal (s : CString) : CString := '\'' :: doubled s ++ ['\'']

/-- The text of a literal, read behind its first quote, and what follows the literal. -/
def literalBody : CString → Option (CString × CString)
  | [] => none
  | [c] => if c = '\'' then some ([], []) else none
  | c :: d :: s =>
    if c = '\'' then
      if d = '\'' then (literalBody s).map fun (value, rest) => ('\'' :: value, rest)
      else some ([], d :: s)
    else (literalBody (d :: s)).map fun (value, rest) => (c :: value, rest)

def readLiteral : CString → Option (CString × CString)
  | [] => none
  | c :: s => if c = '\'' then literalBody s else none

/-- Wherever it stands, but before another quote, the text reads as a literal of the value. -/
def Denotes (text value : CString) : Prop :=
  ∀ rest, rest.head? ≠ some '\'' → readLiteral (text ++ rest) = some (value, rest)

theorem doubled_length (s : CString) : (doubled s).length = s.length + s.count '\'' := by
  induction s with
  | nil => rfl
  | cons c s ih =>
    rw [doubled]
    split
    next quote =>
      subst quote
      rw [List.length_cons, List.length_cons, ih, List.length_cons, List.count_cons_self]
      omega
    next other =>
      rw [List.length_cons, ih, List.length_cons, List.count_cons_of_ne other]
      omega

theorem literal_length (s : CString) : (literal s).length = s.length + s.count '\'' + 2 := by
  rw [literal, List.cons_append, List.length_cons, List.length_append, doubled_length]
  rfl

theorem literalBody_complete {rest : CString} (apart : rest.head? ≠ some '\'') (value : CString) :
    literalBody (doubled value ++ '\'' :: rest) = some (value, rest) := by
  induction value with
  | nil =>
    cases rest with
    | nil => rfl
    | cons d rest =>
      have other : d ≠ '\'' := fun same => apart (by rw [same]; rfl)
      simp [doubled, literalBody, other]
  | cons c value ih =>
    rw [doubled]
    split
    next quote =>
      subst quote
      simp [literalBody, ih]
    next other =>
      cases tail : doubled value ++ '\'' :: rest with
      | nil => exact (List.append_ne_nil_of_right_ne_nil _ (List.cons_ne_nil _ _) tail).elim
      | cons d s =>
        rw [tail] at ih
        rw [List.cons_append, tail, literalBody, if_neg other, ih]
        rfl

theorem literalBody_sound {s value rest : CString} (read : literalBody s = some (value, rest)) :
    s = doubled value ++ '\'' :: rest := by
  induction s using literalBody.induct generalizing value with
  | case1 => cases read
  | case2 => cases read; rfl
  | case3 c other => simp [literalBody, other] at read
  | case4 s ih =>
    simp only [literalBody, if_true, Option.map_eq_some_iff, Prod.exists, Prod.mk.injEq] at read
    obtain ⟨body, tail, found, rfl, rfl⟩ := read
    rw [ih found]
    rfl
  | case5 d s other =>
    simp only [literalBody, if_true, if_neg other, Option.some.injEq, Prod.mk.injEq] at read
    obtain ⟨rfl, rfl⟩ := read
    rfl
  | case6 c d s other ih =>
    simp only [literalBody, if_neg other, Option.map_eq_some_iff, Prod.exists, Prod.mk.injEq]
      at read
    obtain ⟨body, tail, found, rfl, rfl⟩ := read
    rw [ih found, doubled, if_neg other]
    rfl

/-- Doubling its quotes is the one way to write a text as a literal. -/
theorem denotes_iff {text value : CString} : Denotes text value ↔ text = literal value := by
  constructor
  · intro reads
    have read := reads [] (by simp)
    rw [List.append_nil] at read
    cases text with
    | nil => cases read
    | cons c s =>
      rw [readLiteral] at read
      split at read
      next quote => rw [quote, literalBody_sound read, literal, List.cons_append]
      next => cases read
  · intro same rest apart
    rw [same, literal, List.cons_append, List.cons_append, readLiteral, if_pos rfl,
      List.append_assoc]
    exact literalBody_complete apart value

end OciWrapper.Text
