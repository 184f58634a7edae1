import OciWrapper.Core.TableTokens

namespace OciWrapper.Core

open OciWrapper.Text

/-- A keyword in front of the text is a word of its own. -/
def opens (s : CString) : Bool := !s.head?.any isWordChar

/-- In the texts of the joins the extractor finds no keywords but theirs, and only a
    join with a condition has a comma behind it. -/
def JoinsPlain : List Join → Prop
  | [] => True
  | j :: joins =>
    quiet joinStopKws none j.source.text (j.rest ++ joinsText joins) = true ∧
    (match j.condition with
      | none => j.following = []
      | some (keyword, pieces) =>
        opens (spell pieces ++ listText j.following ++ joinsText joins) = true ∧
          quiet joinKws none (keyword.text.toList ++ (spell pieces ++ listText j.following))
            (joinsText joins) = true) ∧
    JoinsPlain joins

/-- From the keyword of the first join on. -/
def cursorAt (joins : List Join) : CString := (joinsText joins).drop 1

theorem joinsText_cons (j : Join) (joins : List Join) :
    joinsText (j :: joins) = ' ' :: cursorAt (j :: joins) := by
  simp [joinsText, cursorAt, Join.text]

theorem cursorAt_cons (j : Join) (joins : List Join) :
    cursorAt (j :: joins) = j.keyword.text.toList ++
      (' ' :: (j.source.text ++ (j.rest ++ joinsText joins))) := by
  simp [joinsText, cursorAt, Join.text]

theorem joinKws_words : ∀ kw ∈ joinKws, kw.toList ≠ [] := by decide

theorem joinKws_start : ∀ kw ∈ joinKws, kw.toList.head?.any isWordChar = true := by decide

theorem joinStopKws_words : ∀ kw ∈ joinStopKws, kw.toList ≠ [] := by decide

theorem joinStopKws_start : ∀ kw ∈ joinStopKws, kw.toList.head?.any isWordChar = true := by
  decide

theorem JoinKeyword.mem_joinKws (k : JoinKeyword) : k.text ∈ joinKws := by
  cases k <;> decide

/-- Behind a blank a keyword stands as a word wherever its text does. -/
theorem beginsKeyword_text (kw : CString) {rest : CString} (separated : opens rest = true) :
    beginsKeyword kw (some ' ') (kw ++ rest) = true := by
  have blank : isWordChar ' ' = false := by decide
  simp only [opens, Bool.not_eq_true'] at separated
  simp [beginsKeyword, blank, separated]

theorem matchJoinKw_text (k : JoinKeyword) (rest : CString) :
    matchJoinKw (k.text.toList ++ ' ' :: rest) = some k.text := by
  cases k <;> rfl

theorem Source.text_noBlank (s : Source) (more : CString) :
    (' ' :: (s.text ++ more)).dropWhile isBlank = s.text ++ more := by
  have starts : (s.text ++ more).head? ≠ some ' ' := by
    rw [List.head?_append_of_ne_nil _ s.text_ne_nil]
    cases s with
    | table t => exact t.text_tidy.1
    | subquery inside called => exact fun first => by cases first
  rw [List.dropWhile_cons_of_pos (by rfl), dropBlanks_tidy starts]

/-- The token cut out for a source is the source, or a subquery that is passed over. -/
theorem addTable_cut {s : Source} (reads : ∀ t, s.table? = some t → t.Reads) (maxObjects : Nat)
    (objects : List ObjectRef) :
    addTable maxObjects objects
        (if 0 < (s.text ++ [' ']).length ∧ (s.text ++ [' ']).length < 512 then
          trimToken (s.text ++ [' ']) else []) =
      addObject maxObjects objects s.object? ∧
    addTable maxObjects objects (trimToken (s.text.take 511)) =
      addObject maxObjects objects s.object? := by
  cases s with
  | table t =>
    have short := (reads t rfl).short
    have trimmed : trimToken (t.text ++ [' ']) = t.text := by
      simpa using trimToken_blanks t.text_tidy t.text_ne_nil false true
    have added := addTable_text reads maxObjects objects
    rw [if_pos (by simp [Source.text]; omega), Source.text, trimmed,
      List.take_of_length_le (by omega), trimToken_tidy t.text_tidy]
    exact ⟨added, added⟩
  | subquery inside called =>
    have skipped : ∀ text, hasParenthesis (trimToken ('(' :: text)) = true := by
      intro text
      have kept : '(' ∈ trimToken ('(' :: text) := mem_trimToken (by decide) List.mem_cons_self
      simp [hasParenthesis, kept]
    have nothing : addObject maxObjects objects (Source.subquery inside called).object? = objects := by
      simp [addObject, Source.object?, Source.table?]
    rw [nothing]
    constructor
    · split
      · exact addTable_parenthesis (skipped _) _ _
      · exact addTable_nil _ _
    · exact addTable_parenthesis (skipped _) _ _

/-- One round of the join loop takes the source of the join and goes on at the next. -/
theorem joinTable_text {j : Join} {joins : List Join} (plain : JoinsPlain (j :: joins))
    (reads : ∀ t, j.source.table? = some t → t.Reads) (maxObjects : Nat)
    (objects : List ObjectRef) :
    let found := joinTable (j.source.text ++ (j.rest ++ joinsText joins))
    addTable maxObjects objects found.1 = addObject maxObjects objects j.source.object? ∧
      found.2 = if joins = [] then none else some (cursorAt joins) := by
  obtain ⟨quietSource, condition, -⟩ := plain
  obtain ⟨cut, whole⟩ := addTable_cut reads maxObjects objects
  cases given : j.condition with
  | none =>
    have alone : j.rest = [] := by
      simp only [given] at condition
      simp [Join.rest, given, condition, listText]
    rw [alone, List.nil_append] at quietSource ⊢
    cases joins with
    | nil =>
      have none : earliestKeyword j.source.text joinStopKws = none := earliestKeyword_none quietSource
      simp only [joinsText, List.flatMap_nil, List.append_nil, joinTable, none]
      exact ⟨whole, rfl⟩
    | cons next joins =>
      have found : earliestKeyword ((j.source.text ++ [' ']) ++ cursorAt (next :: joins))
          joinStopKws = some (j.source.text ++ [' '], cursorAt (next :: joins)) := by
        rw [joinsText_cons] at quietSource
        have listed : next.keyword.text ∈ joinStopKws :=
          List.mem_append_left _ next.keyword.mem_joinKws
        refine earliestKeyword_found listed joinStopKws_words
          (quiet_append quietSource (quiet_blank joinStopKws_start _ _)) ?_
        rw [lastChar_concat, cursorAt_cons]
        exact beginsKeyword_text _ rfl
      have other : ("ON".toList.isPrefixOf (cursorAt (next :: joins)) ||
          "USING".toList.isPrefixOf (cursorAt (next :: joins))) = false := by
        rw [cursorAt_cons]
        cases next.keyword <;> rfl
      rw [joinsText_cons, show j.source.text ++ ' ' :: cursorAt (next :: joins) =
        (j.source.text ++ [' ']) ++ cursorAt (next :: joins) by simp]
      simp only [joinTable, found, other]
      exact ⟨cut, rfl⟩
  | some condition' =>
    obtain ⟨keyword, pieces⟩ := condition'
    simp only [given] at condition
    obtain ⟨separated, quietRest⟩ := condition
    have rest : j.rest = ' ' :: (keyword.text.toList ++ (spell pieces ++ listText j.following)) := by
      simp [Join.rest, given]
    have member : keyword.text ∈ joinStopKws := by cases keyword <;> decide
    have stopsAt : ∀ more, ("ON".toList.isPrefixOf (keyword.text.toList ++ more) ||
        "USING".toList.isPrefixOf (keyword.text.toList ++ more)) = true := by
      intro more
      cases keyword <;> rfl
    generalize spell pieces ++ listText j.following = inside at separated quietRest rest
    rw [rest] at quietSource ⊢
    have found : earliestKeyword ((j.source.text ++ [' ']) ++
        (keyword.text.toList ++ (inside ++ joinsText joins))) joinStopKws =
        some (j.source.text ++ [' '], keyword.text.toList ++ (inside ++ joinsText joins)) := by
      refine earliestKeyword_found member joinStopKws_words
        (quiet_append (by simpa using quietSource) (quiet_blank joinStopKws_start _ _)) ?_
      rw [lastChar_concat]
      exact beginsKeyword_text _ separated
    rw [show j.source.text ++ (' ' :: (keyword.text.toList ++ inside) ++ joinsText joins) =
      (j.source.text ++ [' ']) ++ (keyword.text.toList ++ (inside ++ joinsText joins)) by simp]
    simp only [joinTable, found, stopsAt, if_true]
    refine ⟨cut, ?_⟩
    cases joins with
    | nil =>
      have none : earliestKeyword (keyword.text.toList ++ inside) joinKws = none :=
        earliestKeyword_none quietRest
      simp [joinsText, none]
    | cons next joins =>
      have next' : earliestKeyword ((keyword.text.toList ++ inside ++ [' ']) ++
          cursorAt (next :: joins)) joinKws =
          some (keyword.text.toList ++ inside ++ [' '], cursorAt (next :: joins)) := by
        rw [joinsText_cons] at quietRest
        refine earliestKeyword_found next.keyword.mem_joinKws joinKws_words
          (quiet_append quietRest (quiet_blank joinKws_start _ _)) ?_
        rw [lastChar_concat, cursorAt_cons]
        exact beginsKeyword_text _ rfl
      rw [joinsText_cons, show keyword.text.toList ++ (inside ++ ' ' :: cursorAt (next :: joins)) =
        (keyword.text.toList ++ inside ++ [' ']) ++ cursorAt (next :: joins) by simp, next']
      rfl

theorem joinLoop_joins {maxObjects : Nat} (joins : List Join) :
    ∀ (fuel : Nat) (objects : List ObjectRef), joins ≠ [] → joins.length ≤ fuel →
      JoinsPlain joins → (∀ j ∈ joins, ∀ t, j.source.table? = some t → t.Reads) →
      joinLoop maxObjects fuel objects (cursorAt joins) =
        (joins.map fun j => j.source.object?).foldl (addObject maxObjects) objects := by
  induction joins with
  | nil => exact fun _ _ some => absurd rfl some
  | cons j joins ih =>
    intro fuel objects _ enough plain reads
    cases fuel with
    | zero => simp at enough
    | succ fuel =>
      have length : j.keyword.text.length = j.keyword.text.toList.length := by
        rw [String.length_toList]
      obtain ⟨added, next⟩ := joinTable_text plain (reads j List.mem_cons_self) maxObjects objects
      rw [joinLoop, cursorAt_cons, matchJoinKw_text]
      simp only
      rw [length, List.drop_left, Source.text_noBlank, next, added]
      by_cases last : joins = []
      · subst last
        rfl
      · rw [if_neg last]
        exact ih fuel _ last (by simp at enough; omega) plain.2.2
          fun j member => reads j (List.mem_cons_of_mem _ member)

theorem joins_length_le (joins : List Join) : 2 * joins.length ≤ (joinsText joins).length := by
  induction joins with
  | nil => exact Nat.le_refl _
  | cons j joins ih =>
    have text : 2 ≤ j.text.length := by
      simp only [Join.text, List.length_cons, List.length_append]
      omega
    simp only [joinsText, List.flatMap_cons, List.length_append, List.length_cons] at ih ⊢
    omega

namespace Query

/-- What `normalise_sql` keeps behind the FROM list: the keyword of the tail and a part
    of its text. -/
def KeepsTail (q : Query) (rest : CString) : Prop :=
  match q.tail with
  | none => rest = []
  | some (keyword, pieces) =>
    opens (spell pieces) = true ∧
      ∃ more, more <+: spell pieces ∧ rest = ' ' :: (keyword.text.toList ++ more)

/-- The text reads as the query, and `normalise_sql` keeps it to the end of the FROM list. -/
structure Spells (q : Query) (sql rest : CString) : Prop where
  whole : normaliseSql sql (sql.length + 2) = some q.text
  kept : normaliseSql sql normSqlMax = some (q.front ++ rest)
  tail : q.KeepsTail rest

/-- The keywords that the extractor finds in the FROM list and in front of it are those
    of the query. -/
structure Plain (q : Query) (rest : CString) : Prop where
  ownFrom : quiet ["FROM"] none q.selectText ("FROM ".toList ++ (q.fromText ++ rest)) = true
  separated : (lastChar none q.selectText).any isWordChar = false
  stops : quiet fromStopKws none q.fromText rest = true
  base : quiet joinKws none q.baseText (joinsText q.joins) = true
  joins : JoinsPlain q.joins
  tokens : ∀ s ∈ q.base, s.OneToken
  references : ∀ s ∈ q.base ++ q.joins.map Join.source, ∀ t, s.table? = some t → t.Reads
  ends : q.fromText.getLast? ≠ some ' '

/-- A parenthesis stands in front of the first FROM, among the fields that are looked at. -/
def ParenthesisFirst (q : Query) (rest : CString) : Prop :=
  ∃ before found, findKeyword (q.front ++ rest) "FROM" = some (before, found) ∧
    hasParenthesis (before.drop 7) = true ∧ before.count ',' < sqlDepMaxFields

/-- The references that become objects: in the FROM list before the first join and right
    behind a join keyword, as far as there is room and the owner is not too long. -/
def shown (q : Query) : List TableRef :=
  (((q.base.take sqlDepMaxObjects ++ q.joins.map Join.source).filterMap Source.table?).filter
    fun t => t.owner.length < 64).take sqlDepMaxObjects

/-- One of them names the table, with at most 127 characters. -/
def Shows (q : Query) (t : TableRef) : Prop :=
  ∃ s ∈ q.shown, s.owner = t.owner ∧ s.name.take 127 = t.name

end Query

/-- The table is in the list that the extraction returns. -/
def DependencyList.Lists (deps : DependencyList) (t : TableRef) : Prop :=
  ∃ object ∈ deps.objects, object.owner = t.owner ∧ object.objectName = t.name

theorem extractFromNormalised_spec {norm : CString} {deps : DependencyList}
    (accepted : extractFromNormalised norm = some deps) :
    ∃ before found, findKeyword norm "FROM" = some (before, found) ∧
      deps.objects = extractJoinTables (fromClause found) sqlDepMaxObjects ∧
      parseFields (singleTableRef deps.objects) 1
        (splitOnComma sqlDepMaxFields (stripTrailing isBlank (before.drop 7))) [] =
          some deps.fields := by
  unfold extractFromNormalised at accepted
  split at accepted
  · cases accepted
  · split at accepted
    · cases accepted
    · rename_i before found located
      split at accepted
      · cases accepted
      · dsimp only at accepted
        split at accepted
        · cases accepted
        · split at accepted
          · cases accepted
          · split at accepted
            · cases accepted
            · split at accepted
              · cases accepted
              · rename_i fields parsed
                cases accepted
                exact ⟨before, found, located, rfl, parsed⟩

theorem fromStopKws_words : ∀ kw ∈ fromStopKws, kw.toList ≠ [] := by decide

theorem fromStopKws_start : ∀ kw ∈ fromStopKws, kw.toList.head?.any isWordChar = true := by decide

theorem opens_of_start {text more : CString} (separated : opens text = true) (part : more <+: text) :
    opens more = true := by
  obtain ⟨rest, rfl⟩ := part
  cases more with
  | nil => rfl
  | cons c more => exact separated

theorem Query.fromText_split (q : Query) : ∃ more, q.fromText = q.first.text ++ more :=
  ⟨listText q.others ++ joinsText q.joins, by simp [fromText, baseText]⟩

/-- The FROM clause that the extractor cuts out is the FROM list of the query. -/
theorem fromClause_text {q : Query} {rest : CString} (plain : q.Plain rest)
    (tail : q.KeepsTail rest) : fromClause ("FROM ".toList ++ (q.fromText ++ rest)) = q.fromText := by
  have body : (("FROM ".toList ++ (q.fromText ++ rest)).drop 4).dropWhile isBlank =
      q.fromText ++ rest := by
    show (' ' :: (q.fromText ++ rest)).dropWhile isBlank = _
    obtain ⟨more, from'⟩ := q.fromText_split
    rw [from', List.append_assoc, Source.text_noBlank]
  unfold fromClause
  rw [body]
  unfold Query.KeepsTail at tail
  split at tail
  · subst tail
    have none : earliestKeyword (q.fromText ++ []) fromStopKws = none := by
      rw [List.append_nil]
      exact earliestKeyword_none plain.stops
    simp only [none]
    rw [List.append_nil]
    refine trimToken_tidy ⟨?_, plain.ends⟩
    obtain ⟨more, from'⟩ := q.fromText_split
    rw [from', List.head?_append_of_ne_nil _ q.first.text_ne_nil]
    cases q.first with
    | table t => exact t.text_tidy.1
    | subquery inside called => exact fun first => by cases first
  · rename_i keyword pieces given
    obtain ⟨separated, more, part, rfl⟩ := tail
    have found : earliestKeyword ((q.fromText ++ [' ']) ++ (keyword.text.toList ++ more))
        fromStopKws = some (q.fromText ++ [' '], keyword.text.toList ++ more) := by
      have member : keyword.text ∈ fromStopKws := by cases keyword <;> decide
      refine earliestKeyword_found member fromStopKws_words
        (quiet_append (by simpa using plain.stops) (quiet_blank fromStopKws_start _ _)) ?_
      rw [lastChar_concat]
      exact beginsKeyword_text _ (opens_of_start separated part)
    rw [show q.fromText ++ ' ' :: (keyword.text.toList ++ more) =
      (q.fromText ++ [' ']) ++ (keyword.text.toList ++ more) by simp]
    simp only [found]
    rw [stripBlanks_concat, stripBlanks_tidy plain.ends]

theorem addTables_base {q : Query} {rest : CString} (plain : q.Plain rest) :
    addTables sqlDepMaxObjects [] q.baseText =
      ((q.base.take sqlDepMaxObjects).map Source.object?).foldl (addObject sqlDepMaxObjects) [] := by
  have split : splitOnComma sqlDepMaxObjects q.baseText =
      (q.base.map Source.text).take sqlDepMaxObjects := by
    simpa [Query.base, Query.baseText] using
      splitOnComma_sources q.others sqlDepMaxObjects q.first false plain.tokens
  have each : ∀ (sources : List Source) (objects : List ObjectRef), sources ⊆ q.base →
      (sources.map Source.text).foldl (addTable sqlDepMaxObjects) objects =
        (sources.map Source.object?).foldl (addObject sqlDepMaxObjects) objects := by
    intro sources
    induction sources with
    | nil => exact fun _ _ => rfl
    | cons s sources ih =>
      intro objects within
      have mine := plain.references s (List.mem_append_left _ (within List.mem_cons_self))
      rw [List.map_cons, List.map_cons, List.foldl_cons, List.foldl_cons, addTable_text mine]
      exact ih _ fun t member => within (List.mem_cons_of_mem _ member)
  rw [addTables, split, ← List.map_take]
  exact each _ [] (List.take_subset _ _)

theorem listText_getLast (others : List (Comma × Source)) :
    ∀ first : Source, (∀ s ∈ first :: others.map Prod.snd, s.OneToken) →
      (first.text ++ listText others).getLast? ≠ some ' ' := by
  induction others with
  | nil =>
    intro first tokens
    simpa [listText] using (tokens first List.mem_cons_self).2
  | cons other others ih =>
    intro first tokens
    obtain ⟨comma, source⟩ := other
    have rest := ih source fun s member => tokens s (List.mem_cons_of_mem _ member)
    have some : source.text ++ listText others ≠ [] :=
      List.append_ne_nil_of_left_ne_nil source.text_ne_nil _
    rw [show first.text ++ listText ((comma, source) :: others) =
      (first.text ++ comma.text) ++ (source.text ++ listText others) by simp [listText],
      List.getLast?_append_of_ne_nil _ some]
    exact rest

theorem baseText_tidy {q : Query} {rest : CString} (plain : q.Plain rest) : Tidy q.baseText := by
  refine ⟨?_, listText_getLast q.others q.first plain.tokens⟩
  rw [Query.baseText, List.head?_append_of_ne_nil _ q.first.text_ne_nil]
  exact (Source.text_tidy (plain.tokens q.first List.mem_cons_self)).1

/-- The objects are the sources, in their order, that are plain names. -/
theorem extractJoinTables_text {q : Query} {rest : CString} (plain : q.Plain rest) :
    extractJoinTables q.fromText sqlDepMaxObjects =
      ((q.base.take sqlDepMaxObjects ++ q.joins.map Join.source).filterMap Source.object?).take
        sqlDepMaxObjects := by
  have all : extractJoinTables q.fromText sqlDepMaxObjects =
      ((q.base.take sqlDepMaxObjects ++ q.joins.map Join.source).map Source.object?).foldl
        (addObject sqlDepMaxObjects) [] := by
    have quietBase := plain.base
    have tidy := baseText_tidy plain
    rw [List.map_append, List.foldl_append, ← addTables_base plain]
    unfold extractJoinTables
    cases joins : q.joins with
    | nil =>
      rw [joins] at quietBase
      have none : earliestKeyword q.fromText joinKws = none := by
        rw [Query.fromText, joins, joinsText, List.flatMap_nil, List.append_nil]
        exact earliestKeyword_none quietBase
      rw [none, Query.fromText, joins]
      simp [joinsText]
    | cons j joins' =>
      rw [joins, joinsText_cons] at quietBase
      have found : earliestKeyword q.fromText joinKws =
          some (q.baseText ++ [' '], cursorAt (j :: joins')) := by
        have text : q.fromText = (q.baseText ++ [' ']) ++ cursorAt (j :: joins') := by
          rw [Query.fromText, joins, joinsText_cons]
          simp
        rw [text]
        refine earliestKeyword_found j.keyword.mem_joinKws joinKws_words
          (quiet_append quietBase (quiet_blank joinKws_start _ _)) ?_
        rw [lastChar_concat, cursorAt_cons]
        exact beginsKeyword_text _ rfl
      have trimmed : trimToken (q.baseText ++ [' ']) = q.baseText := by
        have some : q.baseText ≠ [] := List.append_ne_nil_of_left_ne_nil q.first.text_ne_nil _
        simpa using trimToken_blanks tidy some false true
      have enough : (j :: joins').length ≤ (cursorAt (j :: joins')).length := by
        have total := joins_length_le (j :: joins')
        rw [joinsText_cons] at total
        simp only [List.length_cons] at total ⊢
        omega
      rw [found]
      simp only [trimmed]
      rw [joinLoop_joins _ _ _ (List.cons_ne_nil _ _) enough (joins ▸ plain.joins) ?_,
        List.map_map]
      · rfl
      · intro other member
        refine plain.references other.source (List.mem_append_right _ ?_)
        rw [joins]
        exact List.mem_map_of_mem member
  rw [all, foldl_addObject _ _ _ (Nat.zero_le _)]
  simp [List.filterMap_map]

/-- The objects list exactly the tables that the query shows. -/
theorem lists_iff_shows {q : Query} {deps : DependencyList}
    (objects : deps.objects =
      ((q.base.take sqlDepMaxObjects ++ q.joins.map Join.source).filterMap Source.object?).take
        sqlDepMaxObjects) (t : TableRef) : deps.Lists t ↔ q.Shows t := by
  let objectOf (s : TableRef) : ObjectRef :=
    { owner := s.owner, objectName := s.name.take 127, aliasName := s.called.take 63 }
  have same : deps.objects = q.shown.map objectOf := by
    rw [objects, Query.shown, List.map_take]
    congr 1
    generalize q.base.take sqlDepMaxObjects ++ q.joins.map Join.source = sources
    induction sources with
    | nil => rfl
    | cons s sources ih =>
      cases s with
      | subquery inside called =>
        rw [List.filterMap_cons_none rfl, List.filterMap_cons_none rfl]
        exact ih
      | table s =>
        by_cases long : 64 ≤ s.owner.length
        · simpa [Source.object?, Source.table?, TableRef.object?, long, Nat.not_lt.mpr long] using ih
        · simpa [Source.object?, Source.table?, TableRef.object?, long, Nat.not_le.mp long, objectOf]
            using ih
  simp only [DependencyList.Lists, Query.Shows, same, List.mem_map, exists_exists_and_eq_and]
  rfl

theorem hasParenthesis_iff {s : CString} : hasParenthesis s = true ↔ '(' ∈ s ∨ ')' ∈ s := by
  simp [hasParenthesis]

theorem splitAtChar_some {c : Char} {s before rest : CString}
    (split : splitAtChar c s = some (before, rest)) : s = before ++ c :: rest ∧ c ∉ before := by
  unfold splitAtChar at split
  have whole := List.takeWhile_append_dropWhile (p := (· != c)) (l := s)
  cases back : s.dropWhile (· != c) with
  | nil => simp [back] at split
  | cons d rest' =>
    rw [back] at split whole
    cases split
    have same : d = c := by
      have head := List.head?_dropWhile_not (· != c) s
      rw [back] at head
      simpa using head
    subst same
    refine ⟨whole.symm, fun member => ?_⟩
    have passed := List.mem_takeWhile_imp member
    simp at passed

/-- A parenthesis is in one of the tokens, if its comma list is looked at as a whole. -/
theorem splitOnComma_parenthesis (n : Nat) : ∀ s : CString, hasParenthesis s = true →
    s.count ',' < n → ∃ token ∈ splitOnComma n s, hasParenthesis token = true := by
  have trimmed : ∀ {s : CString}, hasParenthesis s = true → hasParenthesis (trimToken s) = true := by
    intro s shown
    rw [hasParenthesis_iff] at shown ⊢
    exact shown.imp (mem_trimToken (by decide)) (mem_trimToken (by decide))
  induction n with
  | zero => exact fun _ _ few => absurd few (Nat.not_lt_zero _)
  | succ n ih =>
    intro s shown few
    have kept : hasParenthesis (s.dropWhile isBlank) = true := by
      rw [hasParenthesis_iff] at shown ⊢
      exact shown.imp (mem_dropBlanks (by decide)) (mem_dropBlanks (by decide))
    have fewer : (s.dropWhile isBlank).count ',' < n + 1 :=
      Nat.lt_of_le_of_lt ((List.dropWhile_sublist _).count_le _) few
    rw [splitOnComma]
    cases body : s.dropWhile isBlank with
    | nil => simp [body, hasParenthesis] at kept
    | cons c p =>
      rw [body] at kept fewer
      simp only
      cases split : splitAtChar ',' (c :: p) with
      | none => exact ⟨_, List.mem_singleton.mpr rfl, trimmed kept⟩
      | some halves =>
        obtain ⟨token, rest⟩ := halves
        obtain ⟨text, -⟩ := splitAtChar_some split
        rw [text] at kept fewer
        have here : hasParenthesis token = true ∨ hasParenthesis rest = true := by
          simpa [hasParenthesis_iff, or_or_or_comm] using kept
        rcases here with inToken | later
        · exact ⟨_, List.mem_cons_self, trimmed inToken⟩
        · have less : rest.count ',' < n := by
            simp only [List.count_append, List.count_cons_self] at fewer
            omega
          obtain ⟨other, member, found⟩ := ih rest later less
          exact ⟨other, List.mem_cons_of_mem _ member, found⟩

theorem parseFields_parenthesis {single : Option CString} (tokens : List CString) :
    ∀ (pos : Nat) (fields parsed : List FieldRef),
      parseFields single pos tokens fields = some parsed →
        ∀ token ∈ tokens, hasParenthesis token = false := by
  induction tokens with
  | nil => exact fun _ _ _ _ _ none => by cases none
  | cons token tokens ih =>
    intro pos fields parsed accepted other member
    rw [parseFields] at accepted
    split at accepted
    · rename_i empty
      rcases List.mem_cons.mp member with rfl | later
      · rw [empty]
        rfl
      · exact ih _ _ _ accepted other later
    · split at accepted
      · cases accepted
      · rename_i field read
        split at accepted
        · cases accepted
        · rcases List.mem_cons.mp member with rfl | later
          · unfold parseFieldToken at read
            split at read
            · rename_i star
              rw [star]
              rfl
            · split at read
              · cases read
              · rename_i absent
                exact Bool.eq_false_iff.mpr absent
          · exact ih _ _ _ accepted other later

/-- A parenthesis in front of the first FROM has the text rejected. -/
theorem parenthesisFirst_rejected {q : Query} {rest : CString} (first : q.ParenthesisFirst rest) :
    extractFromNormalised (q.front ++ rest) = none := by
  obtain ⟨before, found, located, shown, few⟩ := first
  cases accepted : extractFromNormalised (q.front ++ rest) with
  | none => rfl
  | some deps =>
    obtain ⟨before', found', same, -, parsed⟩ := extractFromNormalised_spec accepted
    rw [located] at same
    cases same
    have kept : hasParenthesis (stripTrailing isBlank (before.drop 7)) = true := by
      rw [hasParenthesis_iff] at shown ⊢
      exact shown.imp (mem_stripBlanks (by decide)) (mem_stripBlanks (by decide))
    have fewer : (stripTrailing isBlank (before.drop 7)).count ',' < sqlDepMaxFields := by
      refine Nat.lt_of_le_of_lt ?_ few
      rw [stripTrailing, List.count_reverse]
      refine ((List.dropWhile_sublist _).count_le _).trans ?_
      rw [List.count_reverse]
      exact (List.drop_sublist _ _).count_le _
    obtain ⟨token, member, inside⟩ := splitOnComma_parenthesis _ _ kept fewer
    have outside := parseFields_parenthesis _ _ _ _ parsed token member
    rw [inside] at outside
    cases outside

def tableNamed (name called : String) (plain : (name.toList ++ called.toList).all isNameChar = true)
    (named : name.toList ≠ []) : TableRef where
  owner := []
  name := name.toList
  called := called.toList
  withAs := false
  named := named
  plain := plain

def t1 : TableRef := tableNamed "T1" "A" (by decide) (by decide)
def t2 : TableRef := tableNamed "T2" "B" (by decide) (by decide)
def t3 : TableRef := tableNamed "T3" "" (by decide) (by decide)

/-- `SELECT * FROM T1 A JOIN T2 B ON A.X = B.X` with a tail. -/
def joinQuery (following : List (Comma × Source)) (tail : Option (TailKeyword × List Piece)) :
    Query where
  fields := [.text "* ".toList]
  first := .table t1
  others := []
  joins := [⟨.join, .table t2, some (.on, [.text " A.X = B.X".toList]), following⟩]
  tail := tail

def joinSql : CString := "select * from t1 a  join t2 b on a.x = b.x;".toList

theorem joinQuery_plain : (joinQuery [] none).Plain [] := by
  have reads : ∀ t ∈ [t1, t2], t.Reads := by
    intro t member
    rcases List.mem_pair.mp member with rfl | rfl
    · exact ⟨by decide +kernel, fun _ => by decide +kernel, by decide +kernel⟩
    · exact ⟨by decide +kernel, fun _ => by decide +kernel, by decide +kernel⟩
  refine ⟨by decide +kernel, by decide +kernel, by decide +kernel, by decide +kernel, ?_, ?_, ?_,
    by decide +kernel⟩
  · exact ⟨by decide +kernel, ⟨by decide +kernel, by decide +kernel⟩, trivial⟩
  · intro s member
    rw [List.mem_singleton.mp member]
    exact Source.table_oneToken t1
  · intro s member t named
    rcases List.mem_pair.mp member with rfl | rfl
    · cases named
      exact reads t1 List.mem_cons_self
    · cases named
      exact reads t2 (List.mem_cons_of_mem _ List.mem_cons_self)

def subquerySql : CString :=
  "select * from t1 a join t2 b on a.x = b.x where a.x in (select y from t3)".toList

def commaSql : CString := "select * from t1 a join t2 b on a.x = b.x, t3".toList

def subqueryTail : Option (TailKeyword × List Piece) :=
  some (.where, [.text " A.X IN (SELECT Y FROM ".toList, .table t3, .text ")".toList])

end OciWrapper.Core
