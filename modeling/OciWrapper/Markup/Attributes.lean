import OciWrapper.Markup.Machines

namespace OciWrapper.Markup

open OciWrapper.Text

/-- Where a reader of `name=value;` pairs stands. -/
inductive PairPlace
  | name (seen : CString)
  | value (name : CString)
  | bare (name seen : CString)
  | braced (name seen : CString)
  | brace (name seen : CString)

/-- One byte of a list of pairs. A value in braces ends with a brace that is not doubled. -/
def pairStep : PairPlace → Char → Option (PairPlace × List (CString × CString))
  | .name seen, c =>
    if c = '=' then if seen = [] then none else some (.value seen, [])
    else if c = ';' then if seen = [] then some (.name [], []) else none
    else some (.name (seen ++ [c]), [])
  | .value name, c =>
    if c = '\x7b' then some (.braced name [], [])
    else if c = ';' then some (.name [], [(name, [])])
    else some (.bare name [c], [])
  | .bare name seen, c =>
    if c = ';' then some (.name [], [(name, seen)]) else some (.bare name (seen ++ [c]), [])
  | .braced name seen, c =>
    if c = '\x7d' then some (.brace name seen, []) else some (.braced name (seen ++ [c]), [])
  | .brace name seen, c =>
    if c = '\x7d' then some (.braced name (seen ++ ['\x7d']), [])
    else if c = ';' then some (.name [], [(name, seen)])
    else none

/-- The pairs of a text in which each is closed. -/
def ReadsPairs (text : CString) (pairs : List (CString × CString)) : Prop :=
  run pairStep (.name []) text = some (.name [], pairs)

def doubledBrace (c : Char) : CString := if c = '\x7d' then ['\x7d', '\x7d'] else [c]

/-- A value in braces, with its closing braces doubled. -/
def bracedValue (value : CString) : CString := '\x7b' :: (value.flatMap doubledBrace ++ ['\x7d'])

def bracedPair (name value : CString) : CString := name ++ '=' :: (bracedValue value ++ [';'])

def barePair (name value : CString) : CString := name ++ '=' :: (value ++ [';'])

theorem ReadsPairs.append {first last : CString} {pairs more : List (CString × CString)}
    (front : ReadsPairs first pairs) (back : ReadsPairs last more) :
    ReadsPairs (first ++ last) (pairs ++ more) := run_append_some front back

/-- A name of pairs. -/
def PairName (name : CString) : Prop := name ≠ [] ∧ '=' ∉ name ∧ ';' ∉ name

instance (name : CString) : Decidable (PairName name) := inferInstanceAs (Decidable (_ ∧ _))

section Pairs

variable {name value : CString}

theorem run_pairName {rest : CString} (noEquals : '=' ∉ rest) (noEnd : ';' ∉ rest)
    (seen : CString) : run pairStep (.name seen) rest = some (.name (seen ++ rest), []) := by
  induction rest generalizing seen with
  | nil => rw [List.append_nil, run_nil]
  | cons c rest ih =>
    rw [List.mem_cons, not_or] at noEquals noEnd
    have taken : pairStep (.name seen) c = some (.name (seen ++ [c]), []) := by
      rw [pairStep, if_neg (Ne.symm noEquals.1), if_neg (Ne.symm noEnd.1)]
    rw [run_cons_of taken, ih noEquals.2 noEnd.2, List.append_assoc]
    rfl

/-- Up to the value. -/
theorem run_pairStart (named : PairName name) :
    run pairStep (.name []) (name ++ ['=']) = some (.value name, []) := by
  have equals : run pairStep (.name name) ['='] = some (.value name, []) := by
    simp [run, pairStep, named.1]
  exact run_append_some (run_pairName named.2.1 named.2.2 []) equals

theorem run_bare (noEnd : ';' ∉ value) (seen : CString) :
    run pairStep (.bare name seen) value = some (.bare name (seen ++ value), []) := by
  induction value generalizing seen with
  | nil => rw [List.append_nil, run_nil]
  | cons c value ih =>
    rw [List.mem_cons, not_or] at noEnd
    have taken : pairStep (.bare name seen) c = some (.bare name (seen ++ [c]), []) :=
      if_neg (Ne.symm noEnd.1)
    rw [run_cons_of taken, ih noEnd.2, List.append_assoc]
    rfl

/-- A value without braces is read up to its first semicolon. -/
theorem run_barePair {c : Char} (named : PairName name) (opens : c ≠ '\x7b') (more : c ≠ ';')
    (noEnd : ';' ∉ value) : ReadsPairs (barePair name (c :: value)) [(name, c :: value)] := by
  have first : pairStep (.value name) c = some (.bare name [c], []) := by
    rw [pairStep, if_neg opens, if_neg more]
  have last : run pairStep (.bare name (c :: value)) [';'] =
      some (.name [], [(name, c :: value)]) := rfl
  have tail : run pairStep (.value name) (c :: (value ++ [';'])) =
      some (.name [], [(name, c :: value)]) := by
    rw [run_cons_of first, run_append_some (run_bare noEnd [c]) last]
    rfl
  have whole := run_append_some (run_pairStart named) tail
  rwa [List.append_assoc] at whole

theorem run_doubled (c : Char) (seen : CString) :
    run pairStep (.braced name seen) (doubledBrace c) = some (.braced name (seen ++ [c]), []) := by
  by_cases brace : c = '\x7d'
  · subst brace
    rfl
  · have taken : pairStep (.braced name seen) c = some (.braced name (seen ++ [c]), []) :=
      if_neg brace
    rw [doubledBrace, if_neg brace, run_cons_of taken]
    rfl

theorem run_braced (value seen : CString) :
    run pairStep (.braced name seen) (value.flatMap doubledBrace) =
      some (.braced name (seen ++ value), []) := by
  induction value generalizing seen with
  | nil => rw [List.append_nil, List.flatMap_nil, run_nil]
  | cons c value ih =>
    rw [List.flatMap_cons, run_append_some (run_doubled c seen) (ih (seen ++ [c])),
      List.append_assoc]
    rfl

/-- Any value is read back from its braces. -/
theorem run_bracedPair (named : PairName name) (value : CString) :
    ReadsPairs (bracedPair name value) [(name, value)] := by
  have first : pairStep (.value name) '\x7b' = some (.braced name [], []) := rfl
  have last : run pairStep (.braced name value) ['\x7d', ';'] = some (.name [], [(name, value)]) := rfl
  have tail : run pairStep (.value name) (bracedValue value ++ [';']) =
      some (.name [], [(name, value)]) := by
    have body := run_append_some (run_braced value []) last
    rw [bracedValue, List.cons_append, run_cons_of first, List.append_assoc]
    exact congrArg (Option.map _) body
  have whole := run_append_some (run_pairStart named) tail
  rwa [List.append_assoc] at whole

end Pairs

end OciWrapper.Markup
