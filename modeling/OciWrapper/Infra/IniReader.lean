import OciWrapper.Text.Chars

namespace OciWrapper.Infra

open OciWrapper.Text

/-- `fgets` with room for `room` bytes: the line, with its newline, and what follows. -/
def fgets : Nat → CString → CString × CString
  | 0, s => ([], s)
  | _ + 1, [] => ([], [])
  | room + 1, c :: s =>
    if c = '\n' then ([c], s) else (c :: (fgets room s).1, (fgets room s).2)

/-- The loop over `fgets`; every turn takes a byte of the file. -/
def fgetsLoop (room : Nat) : Nat → CString → List CString
  | 0, _ => []
  | _ + 1, [] => []
  | fuel + 1, s => (fgets room s).1 :: fgetsLoop room fuel (fgets room s).2

def iniTrim (str : CString) : CString := (str.dropWhile isSpace).rdropWhile isSpace

/-- Whether an inline comment starts here; `prev` is the byte before. -/
def startsComment (prev : Option Char) (cp : CString) : Bool :=
  let after_space := prev.any isSpace
  (cp.head? == some '#' && (prev.isNone || after_space)) ||
    (cp.take 2 == ['/', '/'] && after_space)

def cutComment (prev : Option Char) : CString → CString
  | [] => []
  | c :: rest =>
    if startsComment prev (c :: rest) then [] else c :: cutComment (some c) rest

def stripInlineComment (value : CString) : CString := (cutComment none value).rdropWhile isSpace

structure IniEntry where
  name : CString
  value : CString

def iniEntry (line : CString) : Option IniEntry :=
  let p := iniTrim line
  if p.head? = some '#' ∨ p.take 2 = ['/', '/'] then none
  else if '=' ∈ p then
    some ⟨iniTrim (p.takeWhile (· ≠ '=')),
      stripInlineComment (iniTrim (p.dropWhile (· ≠ '=')).tail)⟩
  else none

/-- The reading loop of `load_ini`, and of the loaders of the consumers. -/
def iniRead (file : CString) : List IniEntry :=
  (fgetsLoop 1023 file.length file).filterMap iniEntry

/-- What stands behind a value. -/
inductive IniTrail where
  | blanks (gap : CString)
  | hash (gap text : CString)
  | slashes (gap text : CString)

def IniTrail.text : IniTrail → CString
  | .blanks gap => gap
  | .hash gap text => gap ++ '#' :: text
  | .slashes gap text => gap ++ '/' :: '/' :: text

/-- A line of a file as an administrator writes it. -/
inductive IniLine where
  | blank (gap : CString)
  | comment (gap : CString) (slashes : Bool) (text : CString)
  | setting (entry : IniEntry) (lead before after : CString) (trail : IniTrail)

namespace IniLine

def text : IniLine → CString
  | .blank gap => gap
  | .comment gap slashes text => gap ++ (if slashes then ['/', '/'] else ['#']) ++ text
  | .setting entry lead before after trail =>
    lead ++ (entry.name ++ before ++ '=' :: (after ++ (entry.value ++ trail.text)))

def entry : IniLine → Option IniEntry
  | .setting entry _ _ _ _ => some entry
  | _ => none

end IniLine

def Blank (s : CString) : Prop := ∀ c ∈ s, isSpace c = true

/-- A text with no blank at either end. -/
def Tight (s : CString) : Prop :=
  (∀ c, s.head? = some c → isSpace c = false) ∧ ∀ c, s.getLast? = some c → isSpace c = false

/-- Names and values that a line can hold. -/
structure IniEntry.Plain (entry : IniEntry) : Prop where
  named : entry.name ≠ []
  name : Tight entry.name
  noEquals : '=' ∉ entry.name
  noHash : entry.name.head? ≠ some '#'
  noSlashes : entry.name.take 2 ≠ ['/', '/']
  value : Tight entry.value
  noComment : cutComment none entry.value = entry.value

/-- A comment is set off from a value by a blank; before a value that is missing only `#` starts
one. -/
def IniTrail.Plain (value : CString) : IniTrail → Prop
  | .blanks gap => Blank gap
  | .hash gap _ => Blank gap ∧ (value ≠ [] → gap ≠ [])
  | .slashes gap _ => Blank gap ∧ value ≠ [] ∧ gap ≠ []

def IniLine.Plain : IniLine → Prop
  | .blank gap => Blank gap
  | .comment gap _ _ => Blank gap
  | .setting entry lead before after trail =>
    entry.Plain ∧ Blank lead ∧ Blank before ∧ Blank after ∧ trail.Plain entry.value

section Trims

theorem rdropWhile_append_cons {p : Char → Bool} (before after : CString) {c : Char}
    (stays : p c = false) :
    (before ++ c :: after).rdropWhile p = before ++ c :: after.rdropWhile p := by
  induction after using List.reverseRecOn with
  | nil =>
    rw [List.rdropWhile_nil, List.rdropWhile_concat_neg]
    rw [stays]
    exact Bool.false_ne_true
  | append_singleton after d ih =>
    rw [← List.cons_append, ← List.append_assoc, List.rdropWhile_concat, List.rdropWhile_concat]
    split
    · exact ih
    · simp

theorem rdropWhile_blank {s gap : CString} (blank : Blank gap) :
    (s ++ gap).rdropWhile isSpace = s.rdropWhile isSpace := by
  induction gap using List.reverseRecOn with
  | nil => rw [List.append_nil]
  | append_singleton gap c ih =>
    rw [← List.append_assoc, List.rdropWhile_concat_pos _ _ _ (blank c (by simp))]
    exact ih fun d member => blank d (List.mem_append_left _ member)

theorem dropWhile_blank {s gap : CString} (blank : Blank gap) :
    (gap ++ s).dropWhile isSpace = s.dropWhile isSpace := by
  induction gap with
  | nil => rfl
  | cons c gap ih =>
    rw [List.cons_append, List.dropWhile_cons_of_pos (blank c List.mem_cons_self)]
    exact ih fun d member => blank d (List.mem_cons_of_mem c member)

theorem dropWhile_tight {s : CString} (first : ∀ c, s.head? = some c → isSpace c = false) :
    s.dropWhile isSpace = s := by
  cases s with
  | nil => rfl
  | cons c s =>
    rw [List.dropWhile_cons_of_neg]
    rw [first c rfl]
    exact Bool.false_ne_true

theorem rdropWhile_tight {s : CString} (last : ∀ c, s.getLast? = some c → isSpace c = false) :
    s.rdropWhile isSpace = s := by
  rw [List.rdropWhile_eq_self_iff]
  intro some blank
  rw [last _ (List.getLast?_eq_some_getLast some)] at blank
  cases blank

theorem iniTrim_tight {s : CString} (tight : Tight s) : iniTrim s = s := by
  rw [iniTrim, dropWhile_tight tight.1, rdropWhile_tight tight.2]

theorem iniTrim_blank {s gap : CString} (blank : Blank gap) : iniTrim (s ++ gap) = iniTrim s := by
  rw [iniTrim, iniTrim, List.dropWhile_append]
  split
  · rename_i empty
    have nothing : gap.dropWhile isSpace = [] := by
      rw [List.dropWhile_eq_nil_iff]
      exact blank
    rw [nothing, List.isEmpty_iff.mp empty]
  · exact rdropWhile_blank blank

theorem blank_rtakeWhile (s : CString) : Blank (s.rtakeWhile isSpace) := by
  intro c member
  exact List.mem_rtakeWhile_imp member

theorem iniTrim_rdropWhile (s : CString) : iniTrim (s.rdropWhile isSpace) = iniTrim s := by
  have whole : s.rdropWhile isSpace ++ s.rtakeWhile isSpace = s :=
    List.rdropWhile_append_rtakeWhile
  rw [← iniTrim_blank (blank_rtakeWhile s), whole]

theorem head_rdropWhile {s : CString} {c : Char} (first : (s.rdropWhile isSpace).head? = some c) :
    s.head? = some c := by
  obtain ⟨rest, whole⟩ := List.rdropWhile_prefix (p := isSpace) (l := s)
  rw [← whole, List.head?_append, first]
  rfl

/-- What a trim leaves has no blank at either end. -/
theorem tight_iniTrim (s : CString) : Tight (iniTrim s) := by
  constructor
  · intro c first
    have before := head_rdropWhile first
    have stays := List.head?_dropWhile_not isSpace s
    rw [before] at stays
    exact stays
  · intro c last
    rw [iniTrim] at last
    have some : (s.dropWhile isSpace).rdropWhile isSpace ≠ [] := by
      intro nothing
      rw [nothing] at last
      cases last
    have stays := List.rdropWhile_last_not isSpace (s.dropWhile isSpace) some
    rw [List.getLast?_eq_some_getLast some] at last
    cases last
    exact Bool.eq_false_iff.mpr stays

end Trims

section Comments

theorem startsComment_space {prev : Option Char} {g : Char} (blank : isSpace g = true)
    (rest : CString) : startsComment prev (g :: rest) = false := by
  have hash : g ≠ '#' := by rintro rfl; cases blank
  have slash : g ≠ '/' := by rintro rfl; cases blank
  simp [startsComment, hash, slash]

/-- Whether a comment starts does not depend on what stands behind a blank. -/
theorem startsComment_append (prev : Option Char) (c : Char) (s rest : CString) {g : Char}
    (blank : isSpace g = true) :
    startsComment prev (c :: s ++ g :: rest) = startsComment prev (c :: s) := by
  have slash : g ≠ '/' := by rintro rfl; cases blank
  cases s with
  | nil => simp [startsComment, slash]
  | cons d s => simp [startsComment]

/-- The byte that a scan has before it behind `s`. -/
def lastOr (prev : Option Char) (s : CString) : Option Char := s.foldl (fun _ c => some c) prev

theorem cutComment_append {s : CString} {prev : Option Char} (clean : cutComment prev s = s)
    {g : Char} (blank : isSpace g = true) (rest : CString) :
    cutComment prev (s ++ g :: rest) = s ++ cutComment (lastOr prev s) (g :: rest) := by
  induction s generalizing prev with
  | nil => rfl
  | cons c s ih =>
    have goes : startsComment prev (c :: s) = false := by
      by_contra starts
      rw [cutComment, if_pos (by simpa using starts)] at clean
      cases clean
    rw [cutComment, if_neg (by simp [goes])] at clean
    have same := startsComment_append prev c s rest blank
    rw [List.cons_append] at same
    rw [List.cons_append, cutComment, same, goes, if_neg Bool.false_ne_true,
      ih (List.cons.inj clean).2]
    rfl

theorem cutComment_gap {gap mark : CString} (blank : Blank gap)
    (starts : ∀ g, isSpace g = true → startsComment (some g) mark = true) (prev : Option Char)
    (after : prev.any isSpace = true ∨ gap ≠ []) (some_mark : mark ≠ []) :
    cutComment prev (gap ++ mark) = gap := by
  induction gap generalizing prev with
  | nil =>
    have spaced := after.resolve_right (by simp)
    cases prev with
    | none => cases spaced
    | some g =>
      cases mark with
      | nil => exact absurd rfl some_mark
      | cons c mark =>
        rw [List.nil_append, cutComment, if_pos (starts g spaced)]
  | cons g gap ih =>
    have first := blank g List.mem_cons_self
    rw [List.cons_append, cutComment, startsComment_space first, if_neg Bool.false_ne_true,
      ih (fun c member => blank c (List.mem_cons_of_mem g member)) (some g) (Or.inl first)]

theorem cutComment_starts (s : CString) (prev : Option Char) : cutComment prev s <+: s := by
  induction s generalizing prev with
  | nil => exact List.prefix_refl _
  | cons c s ih =>
    rw [cutComment]
    split
    · exact List.nil_prefix
    · exact List.cons_prefix_cons.mpr ⟨rfl, ih (some c)⟩

/-- What is cut off before a comment has no comment, and no part from its front has. -/
theorem cutComment_front {s front : CString} {prev : Option Char}
    (part : front <+: cutComment prev s) : cutComment prev front = front := by
  induction s generalizing prev front with
  | nil =>
    rw [List.prefix_nil.mp part]
    rfl
  | cons c s ih =>
    rw [cutComment] at part
    split at part
    · rw [List.prefix_nil.mp part]
      rfl
    · rename_i goes
      cases front with
      | nil => rfl
      | cons d front =>
        obtain ⟨rfl, part⟩ := List.cons_prefix_cons.mp part
        have still : startsComment prev (d :: front) = false := by
          by_contra starts
          apply goes
          have whole := part.trans (cutComment_starts s (some d))
          obtain ⟨rest, rfl⟩ := whole
          simp only [Bool.not_eq_false] at starts
          simp only [startsComment, List.head?_cons, Bool.or_eq_true] at starts ⊢
          refine starts.imp_right fun slashes => ?_
          cases front with
          | nil => simp at slashes
          | cons e front => simpa using slashes
        rw [cutComment, still, if_neg Bool.false_ne_true, ih part]

end Comments

section Lines

theorem fgets_append (room : Nat) (s : CString) : (fgets room s).1 ++ (fgets room s).2 = s := by
  induction room generalizing s with
  | zero => rfl
  | succ room ih =>
    cases s with
    | nil => rfl
    | cons c s =>
      rw [fgets]
      split
      · rfl
      · exact congrArg (c :: ·) (ih s)

/-- Every byte of the file is in a line. -/
theorem fgetsLoop_flatten (room fuel : Nat) (s : CString) (enough : s.length ≤ fuel) :
    (fgetsLoop (room + 1) fuel s).flatten = s := by
  induction fuel generalizing s with
  | zero => rw [List.length_eq_zero_iff.mp (Nat.le_zero.mp enough), fgetsLoop, List.flatten_nil]
  | succ fuel ih =>
    cases s with
    | nil => rfl
    | cons c s =>
      have shorter : (fgets (room + 1) (c :: s)).2.length ≤ s.length := by
        rw [fgets]
        split
        · exact Nat.le_refl _
        · have lengths := congrArg List.length (fgets_append room s)
          rw [List.length_append] at lengths
          dsimp only
          omega
      have bound : (fgets (room + 1) (c :: s)).2.length ≤ fuel := by
        rw [List.length_cons] at enough
        omega
      rw [fgetsLoop, List.flatten_cons, ih _ bound, fgets_append]
      exact List.cons_ne_nil c s

theorem fgets_line {line : CString} (noNewline : '\n' ∉ line) (room : Nat)
    (fits : line.length < room) (rest : CString) :
    fgets room (line ++ '\n' :: rest) = (line ++ ['\n'], rest) := by
  induction line generalizing room with
  | nil =>
    obtain ⟨left, rfl⟩ : ∃ left, room = left + 1 := ⟨room - 1, by simp at fits; omega⟩
    simp [fgets]
  | cons c line ih =>
    obtain ⟨left, rfl⟩ : ∃ left, room = left + 1 := ⟨room - 1, by simp at fits; omega⟩
    have other : c ≠ '\n' := fun same => noNewline (same ▸ List.mem_cons_self)
    have tail := ih (fun member => noNewline (List.mem_cons_of_mem c member)) left
      (by simpa using fits)
    rw [List.cons_append, fgets, if_neg other, tail]
    rfl

theorem fgetsLoop_lines {room : Nat} (lines : List CString)
    (fit : ∀ line ∈ lines, '\n' ∉ line ∧ line.length < room) (fuel : Nat)
    (enough : ((lines.map (· ++ ['\n'])).flatten).length ≤ fuel) :
    fgetsLoop room fuel (lines.map (· ++ ['\n'])).flatten = lines.map (· ++ ['\n']) := by
  induction lines generalizing fuel with
  | nil => cases fuel <;> rfl
  | cons line lines ih =>
    obtain ⟨noNewline, short⟩ := fit line List.mem_cons_self
    simp only [List.map_cons, List.flatten_cons, List.length_append, List.length_singleton]
      at enough ⊢
    obtain ⟨left, rfl⟩ : ∃ left, fuel = left + 1 := ⟨fuel - 1, by omega⟩
    have first := fgets_line noNewline room short ((lines.map (· ++ ['\n'])).flatten)
    rw [List.append_assoc, List.singleton_append]
    cases whole : line ++ '\n' :: (lines.map (· ++ ['\n'])).flatten with
    | nil => simp at whole
    | cons c s =>
      rw [fgetsLoop, ← whole, first]
      · rw [ih (fun l member => fit l (List.mem_cons_of_mem line member)) left (by omega)]
      · simp

theorem blank_newline : Blank ['\n'] := by
  intro c member
  rw [List.mem_singleton.mp member]
  rfl

theorem startsWith_value {value : CString} (tight : Tight value) (some : value ≠ [])
    (rest : CString) : (value ++ rest).dropWhile isSpace = value ++ rest := by
  apply dropWhile_tight
  intro c first
  rw [List.head?_append_of_ne_nil _ some] at first
  exact tight.1 c first

theorem iniTrim_marked {value gap : CString} (tight : Tight value) (some : value ≠ []) {m : Char}
    (solid : isSpace m = false) (text : CString) :
    iniTrim (value ++ (gap ++ m :: text)) = value ++ (gap ++ m :: text.rdropWhile isSpace) := by
  rw [iniTrim, startsWith_value tight some, ← List.append_assoc,
    rdropWhile_append_cons _ _ solid, List.append_assoc]

/-- A comment that follows a value is cut off with the blanks before it. -/
theorem strip_marked {value gap mark : CString} (tight : Tight value)
    (clean : cutComment none value = value) (blank : Blank gap) (apart : gap ≠ [])
    (marked : mark ≠ []) (starts : ∀ g, isSpace g = true → startsComment (some g) mark = true) :
    stripInlineComment (value ++ (gap ++ mark)) = value := by
  obtain ⟨g, rest, rfl⟩ := List.exists_cons_of_ne_nil apart
  have first := blank g List.mem_cons_self
  rw [stripInlineComment, List.cons_append, cutComment_append clean first, ← List.cons_append,
    cutComment_gap blank starts _ (Or.inr apart) marked, rdropWhile_blank blank,
    rdropWhile_tight tight.2]

/-- The text behind the `=` of a setting. -/
theorem stripInlineComment_value {entry : IniEntry} (plain : entry.Plain) {trail : IniTrail}
    (set : trail.Plain entry.value) {after : CString} (blank : Blank after) :
    stripInlineComment (iniTrim (after ++ (entry.value ++ (trail.text ++ ['\n'])))) =
      entry.value := by
  have start : iniTrim (after ++ (entry.value ++ (trail.text ++ ['\n']))) =
      iniTrim (entry.value ++ trail.text) := by
    rw [iniTrim, dropWhile_blank blank, ← iniTrim, ← List.append_assoc, iniTrim_blank blank_newline]
  rw [start]
  cases trail with
  | blanks gap =>
    have gapBlank : Blank gap := set
    rw [IniTrail.text, iniTrim_blank gapBlank, iniTrim_tight plain.value, stripInlineComment,
      plain.noComment, rdropWhile_tight plain.value.2]
  | hash gap text =>
    obtain ⟨gapBlank, apart⟩ := set
    rw [IniTrail.text]
    by_cases missing : entry.value = []
    · rw [missing, List.nil_append, iniTrim, dropWhile_blank gapBlank,
        List.dropWhile_cons_of_neg (by decide)]
      have stays := rdropWhile_append_cons (p := isSpace) [] text (c := '#') rfl
      rw [List.nil_append, List.nil_append] at stays
      rw [stays, stripInlineComment, cutComment, if_pos (by simp [startsComment])]
      rfl
    · rw [iniTrim_marked plain.value missing rfl]
      exact strip_marked plain.value plain.noComment gapBlank (apart missing) (by simp)
        fun g space => by simp [startsComment, space]
  | slashes gap text =>
    obtain ⟨gapBlank, some, apart⟩ := set
    have stays := rdropWhile_append_cons (p := isSpace) [] text (c := '/') rfl
    rw [List.nil_append, List.nil_append] at stays
    rw [IniTrail.text, iniTrim_marked plain.value some rfl, stays]
    exact strip_marked plain.value plain.noComment gapBlank apart (by simp)
      fun g space => by simp [startsComment, space]

theorem iniEntry_line {line : IniLine} (plain : line.Plain) :
    iniEntry (line.text ++ ['\n']) = line.entry := by
  cases line with
  | blank gap =>
    have nothing : iniTrim (gap ++ ['\n']) = [] := by
      have gapBlank : Blank gap := plain
      rw [iniTrim_blank blank_newline, ← List.nil_append gap, iniTrim_blank gapBlank]
      rfl
    simp [iniEntry, IniLine.text, IniLine.entry, nothing]
  | comment gap slashes text =>
    have gapBlank : Blank gap := plain
    have kept : iniTrim (gap ++ (if slashes then ['/', '/'] else ['#']) ++ text ++ ['\n']) =
        (if slashes then ['/', '/'] else ['#']) ++ text.rdropWhile isSpace := by
      rw [iniTrim_blank blank_newline, iniTrim, List.append_assoc, dropWhile_blank gapBlank]
      cases slashes with
      | false =>
        have stays := rdropWhile_append_cons (p := isSpace) [] text (c := '#') rfl
        simpa [isSpace] using stays
      | true =>
        have stays := rdropWhile_append_cons (p := isSpace) ['/'] text (c := '/') rfl
        simpa [isSpace] using stays
    rw [iniEntry, IniLine.text, kept]
    cases slashes <;> simp [IniLine.entry]
  | setting entry lead before after trail =>
    obtain ⟨entryPlain, leadBlank, beforeBlank, afterBlank, trailPlain⟩ := plain
    have noEquals : ∀ d ∈ entry.name ++ before, decide (d ≠ '=') = true := by
      intro d member
      rw [decide_eq_true_eq]
      rintro rfl
      rcases List.mem_append.mp member with named | space
      · exact entryPlain.noEquals named
      · cases beforeBlank _ space
    have trimmed : iniTrim ((IniLine.setting entry lead before after trail).text ++ ['\n']) =
        (entry.name ++ before) ++ '=' ::
          (after ++ (entry.value ++ (trail.text ++ ['\n']))).rdropWhile isSpace := by
      have shape : (IniLine.setting entry lead before after trail).text ++ ['\n'] =
          lead ++ (entry.name ++ (before ++ '=' ::
            (after ++ (entry.value ++ (trail.text ++ ['\n']))))) := by
        simp [IniLine.text]
      rw [shape, iniTrim, dropWhile_blank leadBlank,
        startsWith_value entryPlain.name entryPlain.named, ← List.append_assoc,
        rdropWhile_append_cons _ _ rfl]
    have noMark : ¬(((entry.name ++ before) ++ '=' ::
          (after ++ (entry.value ++ (trail.text ++ ['\n']))).rdropWhile isSpace).head? = some '#' ∨
        ((entry.name ++ before) ++ '=' ::
          (after ++ (entry.value ++ (trail.text ++ ['\n']))).rdropWhile isSpace).take 2 =
            ['/', '/']) := by
      obtain ⟨c, rest, named⟩ := List.exists_cons_of_ne_nil entryPlain.named
      have noHash := entryPlain.noHash
      have noSlashes := entryPlain.noSlashes
      rw [named] at noHash noSlashes ⊢
      rintro (hash | slashes)
      · exact noHash (by simpa using hash)
      · cases rest with
        | nil =>
          cases before with
          | nil => simp at slashes
          | cons d before =>
            have space := beforeBlank d List.mem_cons_self
            simp only [List.cons_append, List.nil_append, List.take_succ_cons, List.take_zero,
              List.cons.injEq, and_true] at slashes
            rw [slashes.2] at space
            cases space
        | cons d rest => exact noSlashes (by simpa using slashes)
    have nameTrim : iniTrim (entry.name ++ before) = entry.name := by
      rw [iniTrim_blank beforeBlank, iniTrim_tight entryPlain.name]
    simp only [iniEntry, trimmed]
    rw [if_neg noMark, if_pos (by simp), List.takeWhile_append_of_pos noEquals,
      List.dropWhile_append_of_pos noEquals, List.takeWhile_cons_of_neg (by simp),
      List.dropWhile_cons_of_neg (by simp), List.append_nil, List.tail_cons, iniTrim_rdropWhile,
      nameTrim, stripInlineComment_value entryPlain trailPlain afterBlank]
    rfl

/-- What an entry is like, whatever the file. -/
structure IniEntry.Sound (entry : IniEntry) : Prop where
  name : Tight entry.name
  noEquals : '=' ∉ entry.name
  value : Tight entry.value
  noComment : cutComment none entry.value = entry.value

theorem mem_of_mem_rdropWhile {p : Char → Bool} {s : CString} {c : Char}
    (member : c ∈ s.rdropWhile p) : c ∈ s :=
  ( List.rdropWhile_prefix p s).subset member

theorem iniEntry_sound {line : CString} {entry : IniEntry} (read : iniEntry line = some entry) :
    entry.Sound := by
  unfold iniEntry at read
  dsimp only at read
  split at read
  · cases read
  · split at read
    · cases read
      refine ⟨tight_iniTrim _, fun member => ?_, ?_, ?_⟩
      · have inside := (List.dropWhile_suffix _).subset (mem_of_mem_rdropWhile member)
        have other := List.mem_takeWhile_imp inside
        simp at other
      · have tight := tight_iniTrim ((iniTrim line).dropWhile (· ≠ '=')).tail
        refine ⟨fun c first => ?_, fun c last => ?_⟩
        · have before := head_rdropWhile first
          obtain ⟨rest, whole⟩ := cutComment_starts
            (iniTrim ((iniTrim line).dropWhile (· ≠ '=')).tail) none
          refine tight.1 c ?_
          rw [← whole, List.head?_append, before]
          rfl
        · rw [stripInlineComment] at last
          have some : (cutComment none (iniTrim ((iniTrim line).dropWhile
              (· ≠ '=')).tail)).rdropWhile isSpace ≠ [] := by
            intro nothing
            rw [nothing] at last
            cases last
          have stays := List.rdropWhile_last_not isSpace _ some
          rw [List.getLast?_eq_some_getLast some] at last
          cases last
          exact Bool.eq_false_iff.mpr stays
      · exact cutComment_front ( List.rdropWhile_prefix isSpace _)
    · cases read

/-- The loop comes to every byte of a file, every entry that it reads is sound, and the lines of a
file as it is written are read as its settings, in order. -/
theorem ini_reads (file : CString) (lines : List IniLine)
    (plain : ∀ line ∈ lines, line.Plain ∧ '\n' ∉ line.text ∧ line.text.length < 1023) :
    (fgetsLoop 1023 file.length file).flatten = file ∧
      (∀ entry ∈ iniRead file, entry.Sound) ∧
      iniRead (lines.map fun line => line.text ++ ['\n']).flatten = lines.filterMap (·.entry) := by
  refine ⟨fgetsLoop_flatten 1022 _ file (Nat.le_refl _), ?_, ?_⟩
  · intro entry member
    obtain ⟨line, -, read⟩ := List.mem_filterMap.mp member
    exact iniEntry_sound read
  · have texts : (lines.map fun line => line.text ++ ['\n']) =
        (lines.map (·.text)).map (· ++ ['\n']) := by
      rw [List.map_map]
      rfl
    have fit : ∀ text ∈ lines.map (·.text), '\n' ∉ text ∧ text.length < 1023 := by
      intro text member
      obtain ⟨line, listed, rfl⟩ := List.mem_map.mp member
      exact (plain line listed).2
    rw [iniRead, texts, fgetsLoop_lines _ fit _ (Nat.le_refl _), List.filterMap_map,
      List.filterMap_map]
    refine List.filterMap_congr fun line listed => ?_
    exact iniEntry_line (plain line listed).1

/-- `#x` and `a = b #c`. -/
def shortFile : List IniLine :=
  [.comment [] false ['x'], .setting ⟨['a'], ['b']⟩ [] [' '] [' '] (.hash [' '] ['c'])]

theorem ini_reads_shortFile :
    (fgetsLoop 1023 1 ['=']).flatten = ['='] ∧
      (∀ entry ∈ iniRead ['='], entry.Sound) ∧
      iniRead (shortFile.map fun line => line.text ++ ['\n']).flatten =
        shortFile.filterMap (·.entry) := by
  refine ini_reads ['='] shortFile fun line listed => ?_
  simp only [shortFile, List.mem_cons, List.not_mem_nil, or_false] at listed
  rcases listed with rfl | rfl
  · exact ⟨by simp [IniLine.Plain, Blank], by decide, by decide⟩
  · refine ⟨⟨⟨?_, ?_, ?_, ?_, ?_, ?_, ?_⟩, ?_, ?_, ?_, ?_⟩, ?_, ?_⟩ <;>
      simp [Blank, Tight, isSpace, IniTrail.Plain, cutComment, startsComment, IniLine.text,
        IniTrail.text]

end Lines

end OciWrapper.Infra
