import OciWrapper.Mssql.SqlShape

namespace OciWrapper.Mssql

open OciWrapper.Text

section Positions

variable {α : Type} {P Q : List α → α → Prop}

/-- Some element meets `P` together with what stands before it. -/
def Somewhere (P : List α → α → Prop) (l : List α) : Prop :=
  ∃ before x after, l = before ++ x :: after ∧ P before x

/-- The last element meets `P` together with what stands before it. -/
def AtEnd (P : List α → α → Prop) (l : List α) : Prop :=
  ∃ before x, l = before ++ [x] ∧ P before x

theorem not_somewhere_nil : ¬Somewhere P [] := by
  rintro ⟨before, x, after, split, -⟩
  cases before <;> cases split

theorem not_atEnd_nil : ¬AtEnd P [] := by
  rintro ⟨before, x, split, -⟩
  cases before <;> cases split

theorem atEnd_concat {l : List α} {x : α} : AtEnd P (l ++ [x]) ↔ P l x := by
  constructor
  · rintro ⟨before, y, split, holds⟩
    obtain ⟨rfl, same⟩ := List.append_inj' split rfl
    cases same
    exact holds
  · intro holds
    exact ⟨l, x, rfl, holds⟩

theorem somewhere_concat {l : List α} {x : α} :
    Somewhere P (l ++ [x]) ↔ Somewhere P l ∨ P l x := by
  constructor
  · rintro ⟨before, y, after, split, holds⟩
    rcases List.eq_nil_or_concat after with rfl | ⟨after, z, rfl⟩
    · obtain ⟨rfl, same⟩ := List.append_inj' split rfl
      cases same
      exact Or.inr holds
    · rw [List.concat_eq_append, ← List.cons_append, ← List.append_assoc] at split
      obtain ⟨rfl, -⟩ := List.append_inj' split rfl
      exact Or.inl ⟨before, y, after, rfl, holds⟩
  · rintro (⟨before, y, after, rfl, holds⟩ | holds)
    · exact ⟨before, y, after ++ [x], by rw [List.append_assoc, List.cons_append], holds⟩
    · exact ⟨l, x, [], rfl, holds⟩

theorem Somewhere.mono {l : List α} (found : Somewhere P l)
    (weaker : ∀ before x, P before x → Q before x) : Somewhere Q l := by
  obtain ⟨before, x, after, rfl, holds⟩ := found
  exact ⟨before, x, after, rfl, weaker before x holds⟩

theorem Somewhere.index {l : List α} (found : Somewhere P l) :
    ∃ i x, l[i]? = some x ∧ P (l.take i) x := by
  obtain ⟨before, x, after, rfl, holds⟩ := found
  refine ⟨before.length, x, ?_, ?_⟩
  · rw [List.getElem?_append_right (Nat.le_refl _), Nat.sub_self, List.getElem?_cons_zero]
  · rwa [List.take_left]

theorem Somewhere.append {l : List α} (found : Somewhere P l) (rest : List α) :
    Somewhere P (l ++ rest) := by
  obtain ⟨before, x, after, rfl, holds⟩ := found
  exact ⟨before, x, after ++ rest, by rw [List.append_assoc, List.cons_append], holds⟩

theorem AtEnd.mono {l : List α} (found : AtEnd P l)
    (weaker : ∀ before x, P before x → Q before x) : AtEnd Q l := by
  obtain ⟨before, x, rfl, holds⟩ := found
  exact ⟨before, x, rfl, weaker before x holds⟩

end Positions

section Clauses

def TopToken.is (t : TopToken) (name : String) : Bool :=
  match t with
  | .word w => isKeyword w name
  | _ => false

def TopToken.isNumber : TopToken → Bool
  | .word (c :: _) => c.isDigit
  | _ => false

/-- Behind a dot that is not that of a number, a word is a part of a name. -/
def Qualified (before : List TopToken) : Prop :=
  AtEnd (fun b t => t = .punct '.' ∧ ¬AtEnd (fun _ n => n.isNumber = true) b) before

/-- Behind a comma or an operator, too, a word is not the `OFFSET` of a clause. -/
def Operand (before : List TopToken) : Prop :=
  Qualified before ∨ AtEnd (fun _ t => ∃ c, t = .punct c ∧ c ≠ '.' ∧ c ≠ ')') before

/-- `BY` right behind an `ORDER`, where no keyword is `named`. -/
def OrderBy (named : List TopToken → Prop) (before : List TopToken) (t : TopToken) : Prop :=
  t.is "BY" = true ∧ AtEnd (fun b o => o.is "ORDER" = true ∧ ¬named b) before

/-- `OFFSET` behind an `ORDER BY` that has something to order by. -/
def Offset (named operand : List TopToken → Prop) (before : List TopToken) (t : TopToken) :
    Prop :=
  t.is "OFFSET" = true ∧ ¬operand before ∧ Somewhere (OrderBy named) before ∧
    ¬AtEnd (OrderBy fun _ => False) before

/-- The `ROW` or `ROWS` of an `OFFSET`. -/
def OffsetRows (named operand : List TopToken → Prop) (before : List TopToken) (t : TopToken) :
    Prop :=
  (t.is "ROW" = true ∨ t.is "ROWS" = true) ∧ ¬named before ∧
    Somewhere (Offset named operand) before

def words : List TopToken → List CString
  | [] => []
  | .word w :: tokens => w :: words tokens
  | _ :: tokens => words tokens

/-- The words start as those of `SELECT [ALL|DISTINCT] TOP`. -/
def wordsStartTop : List CString → Bool
  | first :: second :: rest =>
    isKeyword first "SELECT" && (isKeyword second "TOP" ||
      (isKeyword second "ALL" || isKeyword second "DISTINCT") &&
        rest.head?.any (isKeyword · "TOP"))
  | _ => false

/-- The statement is `SELECT [ALL|DISTINCT] TOP`. -/
def statesTop : List TopToken → Bool
  | .punct ';' :: tokens => statesTop tokens
  | .word first :: .word second :: rest =>
    isKeyword first "SELECT" && (isKeyword second "TOP" ||
      (isKeyword second "ALL" || isKeyword second "DISTINCT") && rest.head?.any (·.is "TOP"))
  | _ => false

/-- The flags that speak of clauses are those of the query. -/
structure SqlShape.Reports (shape : SqlShape) (tokens : List TopToken) : Prop where
  orderBy : shape.orderBy = true ↔ Somewhere (OrderBy Qualified) tokens
  offset : shape.offset = true ↔ Somewhere (OffsetRows Qualified Operand) tokens
  startsTop : shape.startsTop = true ↔ statesTop tokens = true

/-- No clause is there only by parts of names, by operands or by words with another token
between them. -/
structure NothingMistaken (tokens : List TopToken) : Prop where
  orderBy : Somewhere (OrderBy fun _ => False) tokens → Somewhere (OrderBy Qualified) tokens
  offset : Somewhere (OffsetRows (fun _ => False) fun _ => False) tokens →
    Somewhere (OffsetRows Qualified Operand) tokens
  startsTop : wordsStartTop (words tokens) = true → statesTop tokens = true

end Clauses

section Scan

/-- What the scan makes of a top-level token. -/
def ShapeState.outer (st : ShapeState) : TopToken → ShapeState
  | .word w => st.word w
  | _ => st.interrupt

/-- The scan of the tokens is that of the top level. -/
theorem foldl_outer : ∀ (tokens : List SqlToken) (st : ShapeState),
    (st.depth ≠ 0 → st.afterOrder = false ∧ st.afterBy = false) →
    { tokens.foldl ShapeState.token st with depth := 0 } =
      (topLevel st.depth tokens).foldl ShapeState.outer { st with depth := 0 } := by
  intro tokens
  induction tokens with
  | nil =>
    rintro st -
    rfl
  | cons t tokens ih =>
    rintro ⟨depth, afterOrder, seenOrder, seenOffset, pending, afterBy, topWords, firstSelect,
      quantifier, top⟩ quiet
    cases depth with
    | zero =>
      cases t with
      | word w => exact ih _ fun inside => absurd rfl inside
      | quoted => exact ih _ fun inside => absurd rfl inside
      | opening => exact ih _ fun _ => ⟨rfl, rfl⟩
      | closing => exact ih _ fun inside => absurd rfl inside
      | punct c => exact ih _ fun inside => absurd rfl inside
    | succ depth =>
      obtain ⟨noOrder, noBy⟩ := quiet (Nat.succ_ne_zero depth)
      cases noOrder
      cases noBy
      cases t with
      | word w => exact ih _ fun _ => ⟨rfl, rfl⟩
      | quoted => exact ih _ fun _ => ⟨rfl, rfl⟩
      | opening => exact ih _ fun _ => ⟨rfl, rfl⟩
      | closing => exact ih _ fun _ => ⟨rfl, rfl⟩
      | punct c => exact ih _ fun _ => ⟨rfl, rfl⟩

theorem words_concat (tokens : List TopToken) (t : TopToken) :
    words (tokens ++ [t]) = words tokens ++ words [t] := by
  induction tokens with
  | nil => rfl
  | cons u tokens ih =>
    cases u with
    | word w => exact congrArg (w :: ·) ih
    | quoted => exact ih
    | group => exact ih
    | punct c => exact ih

theorem top_not_quantifier {w : CString} (quantifier : isKeyword w "ALL" = true ∨
    isKeyword w "DISTINCT" = true) : isKeyword w "TOP" = false := by
  simp only [isKeyword, strcasecmp, decide_eq_true_eq] at quantifier
  simp only [isKeyword, strcasecmp, decide_eq_false_iff_not]
  intro top
  rcases quantifier with same | same
  · exact absurd (same.symm.trans top) (by decide)
  · exact absurd (same.symm.trans top) (by decide)

/-- The scan's counters of words say how the words start. -/
structure CountsWords (st : ShapeState) (ws : List CString) : Prop where
  topWords : st.topWords = ws.length
  firstSelect : st.firstSelect = ws.head?.any (isKeyword · "SELECT")
  quantifier : st.quantifier = (st.firstSelect && (ws.drop 1).head?.any fun w =>
    isKeyword w "ALL" || isKeyword w "DISTINCT")
  top : st.top = wordsStartTop ws

theorem CountsWords.word {st : ShapeState} {ws : List CString} (counts : CountsWords st ws)
    (w : CString) : CountsWords (st.word w) (ws ++ [w]) := by
  obtain ⟨topWords, firstSelect, quantifier, top⟩ := counts
  match ws with
  | [] =>
    simp only [List.head?_nil, Option.any_none] at firstSelect
    rw [firstSelect] at quantifier
    constructor
    · simp [ShapeState.word, topWords]
    · simp [ShapeState.word, topWords]
    · simp [ShapeState.word, topWords, quantifier]
    · simp [ShapeState.word, topWords, quantifier, top, wordsStartTop]
  | [a] =>
    simp only [List.head?_cons, Option.any_some] at firstSelect
    simp only [List.drop_one, List.tail_cons, List.head?_nil, Option.any_none,
      Bool.and_false] at quantifier
    constructor
    · simp [ShapeState.word, topWords]
    · simp [ShapeState.word, topWords, firstSelect]
    · cases all : (isKeyword w "ALL" || isKeyword w "DISTINCT") with
      | false => simp [ShapeState.word, topWords, quantifier, all]
      | true =>
        have other := top_not_quantifier ((Bool.or_eq_true _ _).mp all)
        simp [ShapeState.word, topWords, quantifier, all, other]
    · simp [ShapeState.word, topWords, quantifier, top, firstSelect, wordsStartTop]
  | [a, b] =>
    simp only [List.head?_cons, Option.any_some] at firstSelect
    simp only [List.drop_one, List.tail_cons, List.head?_cons, Option.any_some] at quantifier
    constructor
    · simp [ShapeState.word, topWords]
    · simp [ShapeState.word, topWords, firstSelect]
    · simp [ShapeState.word, topWords, quantifier]
    · simp only [ShapeState.word, topWords, quantifier, top, firstSelect, wordsStartTop,
        List.cons_append, List.nil_append, List.head?_cons, List.head?_nil, Option.any_some,
        Option.any_none, List.length_cons, List.length_nil]
      generalize isKeyword a "SELECT" = select
      generalize isKeyword b "TOP" = second
      generalize (isKeyword b "ALL" || isKeyword b "DISTINCT") = quantified
      generalize isKeyword w "TOP" = third
      revert select second quantified third
      decide
  | a :: b :: c :: ws =>
    simp only [List.head?_cons, Option.any_some] at firstSelect
    simp only [List.drop_one, List.tail_cons, List.head?_cons, Option.any_some] at quantifier
    constructor
    · simp [ShapeState.word, topWords]
    · simp [ShapeState.word, topWords, firstSelect]
    · simp [ShapeState.word, topWords, quantifier]
    · simp [ShapeState.word, topWords, top, wordsStartTop]

/-- What the scan has seen in the tokens. -/
structure Describes (st : ShapeState) (tokens : List TopToken) : Prop where
  afterOrder : st.afterOrder = true ↔ AtEnd (fun _ t => t.is "ORDER" = true) tokens
  afterBy : st.afterBy = true ↔ AtEnd (OrderBy fun _ => False) tokens
  seenOrder : st.seenOrder = true ↔ Somewhere (OrderBy fun _ => False) tokens
  pending : st.offsetPending = true ↔
    Somewhere (Offset (fun _ => False) fun _ => False) tokens
  seenOffset : st.seenOffset = true ↔
    Somewhere (OffsetRows (fun _ => False) fun _ => False) tokens
  counts : CountsWords st (words tokens)

theorem orderBy_iff {before : List TopToken} {t : TopToken} :
    OrderBy (fun _ => False) before t ↔
      t.is "BY" = true ∧ AtEnd (fun _ o => o.is "ORDER" = true) before := by
  simp only [OrderBy, not_false_eq_true, and_true]

theorem Describes.interrupt {st : ShapeState} {tokens : List TopToken}
    (known : Describes st tokens) {t : TopToken} (bare : ∀ name, t.is name = false)
    (noWord : words [t] = []) : Describes st.interrupt (tokens ++ [t]) := by
  obtain ⟨-, -, seenOrder, pending, seenOffset, counts⟩ := known
  constructor
  · simp [ShapeState.interrupt, atEnd_concat, bare]
  · simp [ShapeState.interrupt, atEnd_concat, bare, OrderBy]
  · simp [ShapeState.interrupt, somewhere_concat, bare, OrderBy, ← seenOrder]
  · simp [ShapeState.interrupt, somewhere_concat, bare, Offset, ← pending]
  · simp [ShapeState.interrupt, somewhere_concat, bare, OffsetRows, ← seenOffset]
  · rw [words_concat, noWord, List.append_nil]
    exact ⟨counts.topWords, counts.firstSelect, counts.quantifier, counts.top⟩

theorem Describes.word {st : ShapeState} {tokens : List TopToken}
    (known : Describes st tokens) (w : CString) :
    Describes (st.word w) (tokens ++ [.word w]) := by
  obtain ⟨afterOrder, afterBy, seenOrder, pending, seenOffset, counts⟩ := known
  have isBy : (st.afterOrder && isKeyword w "BY") = true ↔
      OrderBy (fun _ => False) tokens (.word w) := by
    rw [Bool.and_eq_true, afterOrder, orderBy_iff, and_comm]
    exact Iff.rfl
  have isOffset : (st.seenOrder && !st.afterBy && isKeyword w "OFFSET") = true ↔
      Offset (fun _ => False) (fun _ => False) tokens (.word w) := by
    rw [Bool.and_eq_true, Bool.and_eq_true, seenOrder, Bool.not_eq_true', Bool.eq_false_iff,
      ne_eq, afterBy]
    constructor
    · rintro ⟨⟨found, further⟩, same⟩
      exact ⟨same, not_false, found, further⟩
    · rintro ⟨same, -, found, further⟩
      exact ⟨⟨found, further⟩, same⟩
  have isRows : (st.offsetPending && (isKeyword w "ROW" || isKeyword w "ROWS")) = true ↔
      OffsetRows (fun _ => False) (fun _ => False) tokens (.word w) := by
    rw [Bool.and_eq_true, Bool.or_eq_true, pending]
    constructor
    · rintro ⟨found, same⟩
      exact ⟨same, not_false, found⟩
    · rintro ⟨same, -, found⟩
      exact ⟨found, same⟩
  constructor
  · rw [atEnd_concat]
    exact Iff.rfl
  · rw [atEnd_concat]
    exact isBy
  · rw [somewhere_concat, ← seenOrder, ← isBy, ← Bool.or_eq_true]
    exact Iff.rfl
  · rw [somewhere_concat, ← pending, ← isOffset, ← Bool.or_eq_true]
    exact Iff.rfl
  · rw [somewhere_concat, ← seenOffset, ← isRows, ← Bool.or_eq_true]
    exact Iff.rfl
  · rw [words_concat]
    exact counts.word w

theorem describes_start : Describes .start [] := by
  constructor
  · exact iff_of_false Bool.false_ne_true not_atEnd_nil
  · exact iff_of_false Bool.false_ne_true not_atEnd_nil
  · exact iff_of_false Bool.false_ne_true not_somewhere_nil
  · exact iff_of_false Bool.false_ne_true not_somewhere_nil
  · exact iff_of_false Bool.false_ne_true not_somewhere_nil
  · exact ⟨rfl, rfl, rfl, rfl⟩

theorem describes_foldl (tokens : List TopToken) :
    Describes (tokens.foldl ShapeState.outer .start) tokens := by
  induction tokens using List.reverseRecOn with
  | nil => exact describes_start
  | append_singleton tokens t ih =>
    rw [List.foldl_append, List.foldl_cons, List.foldl_nil]
    cases t with
    | word w => exact ih.word w
    | quoted => exact ih.interrupt (fun _ => rfl) rfl
    | group => exact ih.interrupt (fun _ => rfl) rfl
    | punct c => exact ih.interrupt (fun _ => rfl) rfl

/-- Every lexing of a text gives its flags, by the top level alone. -/
theorem mssqlSqlShape_of_lexes {sql : CString} {tokens : List SqlToken} {ends : Bool}
    (lexed : Lexes sql tokens ends) :
    let seen := (topLevel 0 tokens).foldl ShapeState.outer .start
    mssqlSqlShape sql = ⟨seen.seenOrder, seen.seenOffset, seen.top, ends⟩ := by
  intro seen
  have outer := foldl_outer tokens .start fun inside => absurd rfl inside
  have flags := congrArg
    (fun st : ShapeState => SqlShape.mk st.seenOrder st.seenOffset st.top ends) outer
  rw [mssqlSqlShape, shapeScan_of_lexes lexed .start (Nat.lt_succ_self _)]
  exact flags

end Scan

section Flags

theorem qualified_of_name {before : List TopToken} {t : TopToken} (name : t.isNumber = false) :
    Qualified (before ++ [t] ++ [.punct '.']) := by
  refine ⟨_, _, rfl, rfl, ?_⟩
  rw [atEnd_concat, name]
  exact Bool.false_ne_true

theorem orderBy_weaken {before : List TopToken} {t : TopToken}
    (found : OrderBy Qualified before t) : OrderBy (fun _ => False) before t :=
  ⟨found.1, found.2.mono fun _ _ holds => ⟨holds.1, not_false⟩⟩

theorem offset_weaken {before : List TopToken} {t : TopToken}
    (found : Offset Qualified Operand before t) :
    Offset (fun _ => False) (fun _ => False) before t := by
  obtain ⟨same, -, ordered, further⟩ := found
  exact ⟨same, not_false, ordered.mono fun _ _ => orderBy_weaken, further⟩

theorem offsetRows_weaken {before : List TopToken} {t : TopToken}
    (found : OffsetRows Qualified Operand before t) :
    OffsetRows (fun _ => False) (fun _ => False) before t := by
  obtain ⟨same, -, offset⟩ := found
  exact ⟨same, not_false, offset.mono fun _ _ => offset_weaken⟩

theorem wordsStartTop_of_states : ∀ {tokens : List TopToken}, statesTop tokens = true →
    wordsStartTop (words tokens) = true := by
  intro tokens states
  induction tokens using statesTop.induct with
  | case1 tokens ih => exact ih states
  | case2 first second rest =>
    rw [statesTop, Bool.and_eq_true, Bool.or_eq_true, Bool.and_eq_true] at states
    obtain ⟨select, top | ⟨quantifier, top⟩⟩ := states
    · simp only [words, wordsStartTop, select, top, Bool.true_or, Bool.and_self]
    · cases rest with
      | nil => cases top
      | cons t rest =>
        cases t with
        | word w =>
          have top : isKeyword w "TOP" = true := top
          simp only [words, wordsStartTop, select, quantifier, top, List.head?_cons,
            Option.any_some, Bool.or_true, Bool.and_self]
        | quoted => cases top
        | group => cases top
        | punct c => cases top
  | case3 tokens noEmpty noWords =>
    rw [statesTop] at states
    · cases states
    · exact noEmpty
    · exact noWords

theorem Lexes.wordThen {w s : CString} {tokens : List SqlToken} {ends : Bool}
    (whole : (w != [] && w.all msWordChar && !s.head?.any msWordChar &&
      s.head? != some '\'') = true) (rest : Lexes s tokens ends) :
    Lexes (w ++ s) (.word w :: tokens) ends := by
  simp only [Bool.and_eq_true, bne_iff_ne, ne_eq, List.all_eq_true, Bool.not_eq_true'] at whole
  obtain ⟨⟨⟨filled, chars⟩, stop⟩, noQuote⟩ := whole
  refine .word filled chars ?_ (fun both => noQuote both.2) rest
  intro c head
  rw [head] at stop
  exact stop

theorem Lexes.markThen {c : Char} {s : CString} {tokens : List SqlToken} {ends : Bool}
    (plain : c = '.' ∨ c = ',') (rest : Lexes s tokens ends) :
    Lexes (c :: s) (.punct c :: tokens) ends := by
  rcases plain with rfl | rfl
  · exact .punct ⟨by decide, by decide, by decide, by decide, by decide⟩
      (fun both => absurd both.1 (by decide)) (fun both => absurd both.1 (by decide)) rest
  · exact .punct ⟨by decide, by decide, by decide, by decide, by decide⟩
      (fun both => absurd both.1 (by decide)) (fun both => absurd both.1 (by decide)) rest

end Flags

end OciWrapper.Mssql
