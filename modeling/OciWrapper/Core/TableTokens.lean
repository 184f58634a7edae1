import OciWrapper.Core.SelectQuery

namespace OciWrapper.Core

open OciWrapper.Text

/-- No blank at either end. -/
def Tidy (s : CString) : Prop := s.head? ≠ some ' ' ∧ s.getLast? ≠ some ' '

theorem isBlank_iff {c : Char} : isBlank c = true ↔ c = ' ' := by
  simp [isBlank]

theorem dropBlanks_tidy {s : CString} (leading : s.head? ≠ some ' ') : s.dropWhile isBlank = s := by
  cases s with
  | nil => rfl
  | cons c s =>
    have other : isBlank c = false := by
      rw [Bool.eq_false_iff, ne_eq, isBlank_iff]
      rintro rfl
      exact leading rfl
    rw [List.dropWhile_cons_of_neg (by simp [other])]

theorem stripBlanks_tidy {s : CString} (trailing : s.getLast? ≠ some ' ') :
    stripTrailing isBlank s = s := by
  rw [stripTrailing, dropBlanks_tidy (by rwa [List.head?_reverse]), List.reverse_reverse]

theorem stripBlanks_concat (s : CString) :
    stripTrailing isBlank (s ++ [' ']) = stripTrailing isBlank s := by
  simp [stripTrailing, isBlank]

theorem trimToken_tidy {s : CString} (tidy : Tidy s) : trimToken s = s := by
  rw [trimToken, dropBlanks_tidy tidy.1, stripBlanks_tidy tidy.2]

theorem mem_dropBlanks {c : Char} (other : c ≠ ' ') {s : CString} (member : c ∈ s) :
    c ∈ s.dropWhile isBlank := by
  induction s with
  | nil => exact member
  | cons d s ih =>
    rw [List.dropWhile_cons]
    split
    · rename_i blank
      rcases List.mem_cons.mp member with same | later
      · exact absurd (same.trans (isBlank_iff.mp blank)) other
      · exact ih later
    · exact member

theorem mem_stripBlanks {c : Char} (other : c ≠ ' ') {s : CString} (member : c ∈ s) :
    c ∈ stripTrailing isBlank s := by
  rw [stripTrailing, List.mem_reverse]
  exact mem_dropBlanks other (List.mem_reverse.mpr member)

/-- Trimming leaves every character but blanks. -/
theorem mem_trimToken {c : Char} (other : c ≠ ' ') {s : CString} (member : c ∈ s) :
    c ∈ trimToken s :=
  mem_stripBlanks other (mem_dropBlanks other member)

/-- A blank in front of a token and one behind it are trimmed. -/
theorem trimToken_blanks {s : CString} (tidy : Tidy s) (nonempty : s ≠ []) (before after : Bool) :
    trimToken ((if before then [' '] else []) ++ s ++ if after then [' '] else []) = s := by
  obtain ⟨c, s, rfl⟩ := List.exists_cons_of_ne_nil nonempty
  have leading : ∀ more, ((c :: s) ++ more).dropWhile isBlank = (c :: s) ++ more :=
    fun more => dropBlanks_tidy (by simpa using tidy.1)
  have front : ((if before then [' '] else []) ++ (c :: s) ++ if after then [' '] else []).dropWhile
      isBlank = (c :: s) ++ if after then [' '] else [] := by
    cases before
    · rw [if_neg Bool.false_ne_true, List.nil_append, leading]
    · rw [if_pos rfl, List.append_assoc, List.singleton_append,
        List.dropWhile_cons_of_pos (by rfl), leading]
  rw [trimToken, front]
  cases after
  · rw [if_neg Bool.false_ne_true, List.append_nil, stripBlanks_tidy tidy.2]
  · rw [if_pos rfl, stripBlanks_concat, stripBlanks_tidy tidy.2]

theorem splitAtChar_append {c : Char} {before : CString} (absent : c ∉ before) (rest : CString) :
    splitAtChar c (before ++ c :: rest) = some (before, rest) := by
  have passes : ∀ d ∈ before, (d != c) = true := by
    intro d member
    rw [bne_iff_ne]
    rintro rfl
    exact absent member
  rw [splitAtChar, List.dropWhile_append_of_pos passes, List.takeWhile_append_of_pos passes]
  simp

theorem splitAtChar_none {c : Char} {s : CString} (absent : c ∉ s) : splitAtChar c s = none := by
  have passes : ∀ d ∈ s, (d != c) = true := by
    intro d member
    rw [bne_iff_ne]
    rintro rfl
    exact absent member
  rw [splitAtChar, List.dropWhile_eq_nil_iff.mpr passes]

theorem isNameChar_iff {c : Char} :
    isNameChar c = true ↔ c ≠ ' ' ∧ c ≠ ',' ∧ c ≠ '(' ∧ c ≠ ')' ∧ c ≠ '.' := by
  simp [isNameChar]

namespace TableRef

variable (t : TableRef)

theorem owner_plain : ∀ c ∈ t.owner, isNameChar c = true := by
  have plain := t.plain
  simp only [List.all_append, Bool.and_eq_true, List.all_eq_true] at plain
  exact plain.1.1

theorem name_plain : ∀ c ∈ t.name, isNameChar c = true := by
  have plain := t.plain
  simp only [List.all_append, Bool.and_eq_true, List.all_eq_true] at plain
  exact plain.1.2

theorem called_plain : ∀ c ∈ t.called, isNameChar c = true := by
  have plain := t.plain
  simp only [List.all_append, Bool.and_eq_true, List.all_eq_true] at plain
  exact plain.2

/-- Of the punctuation only the point stands in the name, and only the blank in the text. -/
theorem mem_qualified {c : Char} (member : c ∈ t.qualified) : c = '.' ∨ isNameChar c = true := by
  unfold qualified at member
  split at member
  · exact .inr (t.name_plain c member)
  · rcases List.mem_append.mp member with owner | rest
    · exact .inr (t.owner_plain c owner)
    · rcases List.mem_cons.mp rest with rfl | name
      · exact .inl rfl
      · exact .inr (t.name_plain c name)

theorem mem_text {c : Char} (member : c ∈ t.text) :
    c = ' ' ∨ c = '.' ∨ isNameChar c = true := by
  unfold text aliasText at member
  rcases List.mem_append.mp member with name | called
  · exact .inr (t.mem_qualified name)
  · split at called
    · cases called
    · rcases List.mem_cons.mp called with rfl | called
      · exact .inl rfl
      · rcases List.mem_append.mp called with asText | called
        · split at asText
          · have letters : ("AS ".toList.all fun c => c == ' ' || isNameChar c) = true := by
              decide +kernel
            rcases Bool.or_eq_true_iff.mp (List.all_eq_true.mp letters c asText) with blank | plain
            · exact .inl (beq_iff_eq.mp blank)
            · exact .inr (.inr plain)
          · cases asText
        · exact .inr (.inr (t.called_plain c called))

theorem blank_not_mem_qualified : ' ' ∉ t.qualified := by
  intro member
  rcases t.mem_qualified member with point | plain
  · cases point
  · exact absurd plain (by decide)

theorem not_mem_text {c : Char} (blank : c ≠ ' ') (point : c ≠ '.') (other : isNameChar c = false) :
    c ∉ t.text := by
  intro member
  rcases t.mem_text member with same | same | plain
  · exact blank same
  · exact point same
  · rw [other] at plain
    cases plain

theorem hasParenthesis_text : hasParenthesis t.text = false := by
  have opening := t.not_mem_text (c := '(') (by decide) (by decide) (by decide)
  have closing := t.not_mem_text (c := ')') (by decide) (by decide) (by decide)
  simp [hasParenthesis, opening, closing]

theorem qualified_ne_nil : t.qualified ≠ [] := by
  unfold qualified
  split
  · exact t.named
  · simp

theorem qualified_tidy : Tidy t.qualified := by
  constructor
  · intro first
    exact t.blank_not_mem_qualified (List.mem_of_mem_head? first)
  · intro last
    exact t.blank_not_mem_qualified (List.mem_of_mem_getLast? last)

theorem called_tidy : Tidy t.called := by
  have absent : ' ' ∉ t.called := fun member => absurd (t.called_plain _ member) (by decide)
  exact ⟨fun first => absent (List.mem_of_mem_head? first),
    fun last => absent (List.mem_of_mem_getLast? last)⟩

theorem text_ne_nil : t.text ≠ [] := by
  simp [text, t.qualified_ne_nil]

theorem text_tidy : Tidy t.text := by
  constructor
  · rw [text, List.head?_append_of_ne_nil _ t.qualified_ne_nil]
    exact t.qualified_tidy.1
  · unfold text aliasText
    split
    · rw [List.append_nil]
      exact t.qualified_tidy.2
    · rename_i renamed
      have last := t.called_tidy.2
      rw [List.getLast?_append_of_ne_nil _ (by simp), List.getLast?_cons_of_ne_nil (by simp [renamed]),
        List.getLast?_append_of_ne_nil _ renamed]
      exact last

/-- The word AS stands in the reference only in front of the new name, and the
    reference fits the buffers for a token. -/
structure Reads : Prop where
  qualified : quiet ["AS"] none t.qualified t.aliasText = true
  called : t.withAs = false → quiet ["AS"] (some ' ') t.called [] = true
  short : t.text.length < 511

end TableRef

theorem asKeyword_words : ∀ kw ∈ ["AS"], kw.toList.head?.any isWordChar = true := by decide

/-- The two ways to rename and the plain name are told apart. -/
theorem splitAlias_text {t : TableRef} (reads : t.Reads) :
    splitAlias t.text = (t.qualified, t.called) := by
  have qualified := reads.qualified
  have called := reads.called
  unfold splitAlias TableRef.text TableRef.aliasText
  unfold TableRef.aliasText at qualified
  by_cases renamed : t.called = []
  · rw [if_pos renamed] at qualified ⊢
    have absent : findKeyword (t.qualified ++ []) "AS" = none := by
      rw [findKeyword, findKeywordFrom_quiet (List.mem_singleton.mpr rfl) qualified]
      rfl
    rw [absent]
    rw [List.append_nil, splitAtChar_none t.blank_not_mem_qualified, renamed]
  · rw [if_neg renamed] at qualified ⊢
    cases withAs : t.withAs with
    | true =>
      simp only [withAs, if_true] at qualified ⊢
      have found : findKeyword (t.qualified ++ ' ' :: ("AS ".toList ++ t.called)) "AS" =
          some (t.qualified ++ [' '], "AS ".toList ++ t.called) := by
        have silent : quiet ["AS"] none (t.qualified ++ [' ']) ("AS ".toList ++ t.called) = true :=
          quiet_append qualified (quiet_blank asKeyword_words _ _)
        have here : findKeywordFrom "AS".toList (some ' ') ("AS ".toList ++ t.called) =
            some ([], "AS ".toList ++ t.called) := rfl
        have passed := findKeywordFrom_quiet (List.mem_singleton.mpr rfl) silent
        rw [lastChar_concat, here] at passed
        rw [findKeyword, show t.qualified ++ ' ' :: ("AS ".toList ++ t.called) =
          (t.qualified ++ [' ']) ++ ("AS ".toList ++ t.called) by simp, passed]
        simp
      rw [found]
      have trimmed : trimToken (t.qualified ++ [' ']) = t.qualified := by
        simpa using trimToken_blanks t.qualified_tidy t.qualified_ne_nil false true
      have behind : (("AS ".toList ++ t.called).drop 2).dropWhile isBlank = t.called := by
        show (' ' :: t.called).dropWhile isBlank = t.called
        rw [List.dropWhile_cons_of_pos (by rfl), dropBlanks_tidy t.called_tidy.1]
      simp only [trimmed, behind]
    | false =>
      simp only [withAs, Bool.false_eq_true, if_false, List.nil_append] at qualified ⊢
      have absent : findKeyword (t.qualified ++ ' ' :: t.called) "AS" = none := by
        have blank : quiet ["AS"] (lastChar none t.qualified) ([' '] ++ t.called) [] = true :=
          quiet_append (quiet_blank asKeyword_words _ _) (by
            rw [show lastChar (lastChar none t.qualified) [' '] = some ' ' from rfl]
            exact called withAs)
        have silent : quiet ["AS"] none (t.qualified ++ ([' '] ++ t.called)) [] = true :=
          quiet_append (by simpa using qualified) blank
        have passed := findKeywordFrom_quiet (List.mem_singleton.mpr rfl) silent
        rw [List.append_nil] at passed
        rw [findKeyword, show t.qualified ++ ' ' :: t.called =
          t.qualified ++ ([' '] ++ t.called) by simp, passed]
        rfl
      rw [absent]
      simp only [splitAtChar_append t.blank_not_mem_qualified]
      rw [trimToken_tidy t.qualified_tidy, dropBlanks_tidy t.called_tidy.1]

theorem splitOwner_qualified (t : TableRef) :
    splitOwner t.qualified =
      if 64 ≤ t.owner.length then none else some (t.owner, t.name.take 127) := by
  have noPoint : '.' ∉ t.name := fun member => absurd (t.name_plain _ member) (by decide)
  unfold TableRef.qualified splitOwner
  by_cases bare : t.owner = []
  · rw [if_pos bare, splitAtChar_none noPoint, bare]
    rfl
  · have point : '.' ∉ t.owner := fun member => absurd (t.owner_plain _ member) (by decide)
    have someOwner : t.owner.length ≠ 0 := fun zero => bare (List.length_eq_zero_iff.mp zero)
    rw [if_neg bare, splitAtChar_append point]
    simp [someOwner]

/-- The object that a reference becomes, and that its owner's length may forbid. -/
def TableRef.object? (t : TableRef) : Option ObjectRef :=
  if 64 ≤ t.owner.length then none
  else some { owner := t.owner, objectName := t.name.take 127, aliasName := t.called.take 63 }

theorem parseTableToken_text {t : TableRef} (reads : t.Reads) :
    parseTableToken t.text = t.object? := by
  have whole : t.text.take 511 = t.text := List.take_of_length_le (by have := reads.short; omega)
  have cut : Tidy (t.name.take 127) := by
    have absent : ' ' ∉ t.name.take 127 :=
      fun member => absurd (t.name_plain _ (List.mem_of_mem_take member)) (by decide)
    exact ⟨fun first => absent (List.mem_of_mem_head? first),
      fun last => absent (List.mem_of_mem_getLast? last)⟩
  have someName : t.name.take 127 ≠ [] := by simp [t.named]
  unfold parseTableToken TableRef.object?
  rw [if_neg (by simp [t.text_ne_nil, t.hasParenthesis_text]), whole, splitAlias_text reads]
  simp only [splitOwner_qualified]
  by_cases long : 64 ≤ t.owner.length
  · simp [long]
  · simp [long, trimToken_tidy cut, someName]

theorem parseTableToken_parenthesis {token : CString} (shown : hasParenthesis token = true) :
    parseTableToken token = none := by
  rw [parseTableToken, if_pos (.inr shown)]

namespace Source

/-- What the extractor makes of a source that it takes for one token. -/
def object? (s : Source) : Option ObjectRef := s.table?.bind TableRef.object?

theorem text_ne_nil (s : Source) : s.text ≠ [] := by
  cases s with
  | table t => exact t.text_ne_nil
  | subquery inside called => exact List.cons_ne_nil _ _

theorem parseTableToken_text {s : Source} (reads : ∀ t, s.table? = some t → t.Reads) :
    parseTableToken s.text = s.object? := by
  cases s with
  | table t => exact Core.parseTableToken_text (reads t rfl)
  | subquery inside called => exact parseTableToken_parenthesis (by simp [text, hasParenthesis])

end Source

/-- The objects found, while there is room for them. -/
def addObject (maxObjects : Nat) (objects : List ObjectRef) (object : Option ObjectRef) :
    List ObjectRef :=
  if objects.length < maxObjects then objects ++ object.toList else objects

theorem addTable_text {s : Source} (reads : ∀ t, s.table? = some t → t.Reads) (maxObjects : Nat)
    (objects : List ObjectRef) :
    addTable maxObjects objects s.text = addObject maxObjects objects s.object? := by
  unfold addTable addObject
  rw [Source.parseTableToken_text reads]
  by_cases room : objects.length < maxObjects
  · rw [if_pos ⟨s.text_ne_nil, room⟩, if_pos room]
    cases s.object? <;> simp
  · rw [if_neg fun both => room both.2, if_neg room]

theorem addTable_parenthesis {token : CString} (shown : hasParenthesis token = true)
    (maxObjects : Nat) (objects : List ObjectRef) :
    addTable maxObjects objects token = objects := by
  unfold addTable
  rw [parseTableToken_parenthesis shown]
  split <;> rfl

theorem addTable_nil (maxObjects : Nat) (objects : List ObjectRef) :
    addTable maxObjects objects [] = objects := by
  simp [addTable]

/-- Adding one after the other keeps the first objects that there are. -/
theorem foldl_addObject (maxObjects : Nat) (found : List (Option ObjectRef)) :
    ∀ objects : List ObjectRef, objects.length ≤ maxObjects →
      found.foldl (addObject maxObjects) objects =
        (objects ++ found.filterMap id).take maxObjects := by
  induction found with
  | nil =>
    intro objects fits
    simp [List.take_of_length_le fits]
  | cons object found ih =>
    intro objects fits
    rw [List.foldl_cons]
    by_cases room : objects.length < maxObjects
    · have grown : (objects ++ object.toList).length ≤ maxObjects := by
        cases object <;> simp <;> omega
      rw [addObject, if_pos room, ih _ grown]
      cases object <;> simp
    · have full : objects.length = maxObjects := by omega
      rw [addObject, if_neg room, ih objects fits]
      rw [List.take_append_of_le_length (by omega), List.take_append_of_le_length (by omega)]

/-- The text of the source is one token of a comma list. -/
def Source.OneToken (s : Source) : Prop := ',' ∉ s.text ∧ s.text.getLast? ≠ some ' '

theorem Source.text_tidy {s : Source} (token : s.OneToken) : Tidy s.text := by
  refine ⟨?_, token.2⟩
  cases s with
  | table t => exact t.text_tidy.1
  | subquery inside called => exact fun first => by cases first

theorem Source.table_oneToken (t : TableRef) : (Source.table t).OneToken :=
  ⟨t.not_mem_text (by decide) (by decide) (by decide), t.text_tidy.2⟩

/-- The tokens of a comma list are its sources, up to the limit. -/
theorem splitOnComma_sources (others : List (Comma × Source)) :
    ∀ (n : Nat) (first : Source) (blank : Bool),
      (∀ s ∈ first :: others.map Prod.snd, s.OneToken) →
      splitOnComma n ((if blank then [' '] else []) ++ (first.text ++ listText others)) =
        ((first :: others.map Prod.snd).map Source.text).take n := by
  induction others with
  | nil =>
    intro n first blank tokens
    have token := tokens first List.mem_cons_self
    have tidy := Source.text_tidy token
    cases n with
    | zero => rfl
    | succ n =>
      have leading : ((if blank then [' '] else []) ++ first.text).dropWhile isBlank =
          first.text := by
        cases blank
        · exact dropBlanks_tidy tidy.1
        · rw [if_pos rfl, List.singleton_append, List.dropWhile_cons_of_pos (by rfl),
            dropBlanks_tidy tidy.1]
      obtain ⟨c, more, text⟩ := List.exists_cons_of_ne_nil first.text_ne_nil
      simp only [listText, List.flatMap_nil, List.append_nil, splitOnComma, leading]
      rw [text]
      simp only
      rw [← text, splitAtChar_none token.1]
      simp [trimToken_tidy tidy]
  | cons other others ih =>
    intro n first blank tokens
    obtain ⟨comma, source⟩ := other
    have token := tokens first List.mem_cons_self
    have tidy := Source.text_tidy token
    cases n with
    | zero => rfl
    | succ n =>
      have rest := ih n source comma.after fun s member => tokens s (List.mem_cons_of_mem _ member)
      have leading : ∀ more, ((if blank then [' '] else []) ++ (first.text ++ more)).dropWhile
          isBlank = first.text ++ more := by
        intro more
        have starts : (first.text ++ more).head? ≠ some ' ' := by
          rw [List.head?_append_of_ne_nil _ first.text_ne_nil]
          exact tidy.1
        cases blank
        · exact dropBlanks_tidy starts
        · rw [if_pos rfl, List.singleton_append, List.dropWhile_cons_of_pos (by rfl),
            dropBlanks_tidy starts]
      have cut : splitAtChar ',' (first.text ++ listText ((comma, source) :: others)) =
          some (first.text ++ (if comma.before then [' '] else []),
            (if comma.after then [' '] else []) ++ (source.text ++ listText others)) := by
        have absent : ',' ∉ first.text ++ (if comma.before then [' '] else []) := by
          intro member
          rcases List.mem_append.mp member with inText | inBlank
          · exact token.1 inText
          · split at inBlank <;> simp at inBlank
        have split := splitAtChar_append absent
          ((if comma.after then [' '] else []) ++ (source.text ++ listText others))
        rw [← split]
        simp [listText, Comma.text]
      have trimmed : trimToken (first.text ++ (if comma.before then [' '] else [])) = first.text := by
        simpa using trimToken_blanks tidy first.text_ne_nil false comma.before
      obtain ⟨c, more, text⟩ := List.exists_cons_of_ne_nil
        (List.append_ne_nil_of_left_ne_nil first.text_ne_nil
          (listText ((comma, source) :: others)))
      simp only [splitOnComma, leading]
      rw [text]
      simp only
      rw [← text, cut]
      simp only [trimmed, rest]
      simp

end OciWrapper.Core
