import OciWrapper.Text.Lexical

namespace OciWrapper.Text

namespace Mode

/-- The mode after a blank outside quotes and line comments. -/
def settled : Mode → Mode
  | .block level | .blockStar level | .blockSlash level => .block level
  | _ => .code

theorem settled_settled (m : Mode) : m.settled.settled = m.settled := by
  cases m <;> rfl

theorem settled_open (m : Mode) : m.settled.isQuoted = false ∧ m.settled.isLine = false := by
  cases m <;> exact ⟨rfl, rfl⟩

theorem ofCode_space (q : Quoting) {c : Char} (blank : isSpace c = true) :
    ofCode q c = .code := by
  have none : q.closer c = none := by
    by_contra opener
    have mark := (q.opener_plain c opener).2
    rw [blank] at mark
    cases mark
  have dash : c ≠ '-' := by rintro rfl; cases blank
  have slash : c ≠ '/' := by rintro rfl; cases blank
  simp only [ofCode, none, if_neg dash, if_neg slash]

theorem ofBlock_space (level : Nat) {c : Char} (blank : isSpace c = true) :
    ofBlock level c = .block level := by
  have star : c ≠ '*' := by rintro rfl; cases blank
  have slash : c ≠ '/' := by rintro rfl; cases blank
  simp only [ofBlock, if_neg star, if_neg slash]

theorem next_space (q : Quoting) {m : Mode} {c : Char} (blank : isSpace c = true)
    (unquoted : m.isQuoted = false) (notLine : m.isLine = false) : m.next q c = m.settled := by
  have dash : c ≠ '-' := by rintro rfl; cases blank
  have slash : c ≠ '/' := by rintro rfl; cases blank
  have star : c ≠ '*' := by rintro rfl; cases blank
  cases m with
  | quoted => cases unquoted
  | line => cases notLine
  | closed close =>
    have other : c ≠ close.char := by
      rintro rfl
      have mark := close.notBlank
      rw [blank] at mark
      cases mark
    simp only [next, if_neg other, ofCode_space q blank, settled]
  | _ =>
    simp only [next, if_neg dash, if_neg slash, if_neg star, ofCode_space q blank,
      ofBlock_space _ blank, settled]

theorem ofCode_alpha (q : Quoting) {c : Char} (alpha : c.isAlpha = true) :
    ofCode q c = .code := by
  have none : q.closer c = none := by
    by_contra opener
    have mark := (q.opener_plain c opener).1
    rw [alpha] at mark
    cases mark
  have dash : c ≠ '-' := by rintro rfl; cases alpha
  have slash : c ≠ '/' := by rintro rfl; cases alpha
  simp only [ofCode, none, if_neg dash, if_neg slash]

theorem ofBlock_alpha (level : Nat) {c : Char} (alpha : c.isAlpha = true) :
    ofBlock level c = .block level := by
  have star : c ≠ '*' := by rintro rfl; cases alpha
  have slash : c ≠ '/' := by rintro rfl; cases alpha
  simp only [ofBlock, if_neg star, if_neg slash]

/-- What a letter leads to does not depend on which letter it is. -/
theorem next_alpha (q : Quoting) (m : Mode) {c d : Char} (alpha : c.isAlpha = true)
    (other : d.isAlpha = true) : m.next q c = m.next q d := by
  have special : ∀ {e k : Char}, e.isAlpha = true → k.isAlpha = false → e ≠ k := by
    rintro e k letter mark rfl
    rw [letter] at mark
    cases mark
  cases m with
  | quoted close | closed close =>
    simp only [next, if_neg (special alpha close.notLetter), if_neg (special other close.notLetter),
      ofCode_alpha q alpha, ofCode_alpha q other]
  | line =>
    simp only [next, if_neg (special (k := '\n') alpha rfl), if_neg (special (k := '\n') other rfl)]
  | _ =>
    simp only [next, if_neg (special (k := '-') alpha rfl), if_neg (special (k := '-') other rfl),
      if_neg (special (k := '/') alpha rfl), if_neg (special (k := '/') other rfl),
      if_neg (special (k := '*') alpha rfl), if_neg (special (k := '*') other rfl),
      ofCode_alpha q alpha, ofCode_alpha q other, ofBlock_alpha _ alpha, ofBlock_alpha _ other]

theorem next_toUpper (q : Quoting) (m : Mode) (c : Char) : m.next q c.toUpper = m.next q c := by
  cases alpha : c.isAlpha
  · rw [toUpper_of_not_alpha alpha]
  · exact next_alpha q m ((Char.isAlpha_toUpper_eq_isAlpha c).trans alpha) alpha

end Mode

theorem foldFrom_start_eq_nil (s : CString) :
    foldFrom .start s = [] ↔ s.all isSpace = true := by
  induction s with
  | nil => simp [foldFrom]
  | cons c s ih =>
    cases blank : isSpace c
    · simp [foldFrom, Gap.pad, blank]
    · simpa [foldFrom, Gap.widen, blank] using ih

theorem foldFrom_start_head (s : CString) (c : Char) (t : CString)
    (h : foldFrom .start s = c :: t) : isSpace c = false := by
  induction s with
  | nil => cases h
  | cons d s ih =>
    cases blank : isSpace d
    · simp only [foldFrom, blank, Bool.false_eq_true, if_false, Gap.pad, List.nil_append] at h
      cases h
      rw [isSpace_toUpper, blank]
    · exact ih (by simpa only [foldFrom, blank, if_true, Gap.widen] using h)

theorem foldFrom_blank (s : CString) :
    foldFrom .blank s =
      if foldFrom .start s = [] then [] else ' ' :: foldFrom .start s := by
  induction s with
  | nil => rfl
  | cons c s ih =>
    cases blank : isSpace c
    · simp [foldFrom, Gap.pad, blank]
    · simpa [foldFrom, Gap.widen, blank] using ih

theorem foldFrom_none_space {c : Char} (blank : isSpace c = true) (s : CString) :
    foldFrom .none (c :: s) = foldFrom .blank s := by
  simp only [foldFrom, blank, if_true, Gap.widen, Bool.false_eq_true, if_false]

theorem plainFrom_settled (q : Quoting) (m : Mode) (s : CString) :
    plainFrom q m.settled s = plainFrom q m.settled (' ' :: s) := by
  obtain ⟨unquoted, notLine⟩ := m.settled_open
  simp only [plainFrom, unquoted, notLine, Bool.false_and, Bool.false_eq_true, if_false,
    Mode.next_space q (c := ' ') rfl unquoted notLine, m.settled_settled]

theorem plainFrom_keep (q : Quoting) (m : Mode) {c : Char} (kept : isSpace c = false)
    (s t : CString) (rest : plainFrom q (m.next q c) t = plainFrom q (m.next q c) s) :
    plainFrom q m (c.toUpper :: t) = plainFrom q m (c :: s) := by
  cases quoted : m.isQuoted <;>
    simp [plainFrom, quoted, kept, Mode.next_toUpper, rest]

/-- Being plain does not depend on letter case or on the blanks. -/
theorem plainFrom_foldFrom (q : Quoting) (s : CString) :
    (∀ m : Mode, plainFrom q m (foldFrom .none s) = plainFrom q m s) ∧
      ∀ m : Mode, plainFrom q m.settled (foldFrom .start s) = plainFrom q m.settled s := by
  induction s with
  | nil => exact ⟨fun _ => rfl, fun _ => rfl⟩
  | cons c s ih =>
    obtain ⟨none, start⟩ := ih
    cases blank : isSpace c
    · have keep := fun m => plainFrom_keep q m blank s (foldFrom .none s) (none (m.next q c))
      simp only [foldFrom, blank, Bool.false_eq_true, if_false, Gap.pad, List.nil_append]
      exact ⟨keep, fun m => keep m.settled⟩
    · refine ⟨fun m => ?_, fun m => ?_⟩
      · rw [foldFrom_none_space blank, foldFrom_blank]
        cases quoted : m.isQuoted
        · cases line : m.isLine
          · have step : plainFrom q m (c :: s) = plainFrom q m.settled s := by
              simp only [plainFrom, quoted, line, Bool.false_and, Bool.false_eq_true, if_false,
                Mode.next_space q blank quoted line]
            rw [step, ← start m]
            split
            · rename_i empty
              simp [plainFrom, empty, quoted, m.settled_open.1]
            · simp only [plainFrom, quoted, line, Bool.false_and, Bool.false_eq_true, if_false,
                Mode.next_space q (c := ' ') rfl quoted line]
          · have text : plainFrom q m (c :: s) = s.all isSpace := by
              simp only [plainFrom, quoted, line, blank, Bool.false_eq_true, if_false, Bool.and_self,
                if_true]
            rw [text]
            split
            · rename_i empty
              rw [(foldFrom_start_eq_nil s).mp empty]
              simp [plainFrom, quoted]
            · rename_i more
              obtain ⟨d, t, head⟩ := List.exists_cons_of_ne_nil more
              have kept := foldFrom_start_head s d t head
              have stop : s.all isSpace = false := by
                rw [Bool.eq_false_iff]
                exact fun all => more ((foldFrom_start_eq_nil s).mpr all)
              simp [plainFrom, quoted, line, head, kept, stop, isSpace_blank]
        · split <;> simp [plainFrom, quoted, blank, isSpace_blank]
      · obtain ⟨unquoted, notLine⟩ := m.settled_open
        have step : plainFrom q m.settled (c :: s) = plainFrom q m.settled s := by
          simp only [plainFrom, unquoted, notLine, Bool.false_and, Bool.false_eq_true, if_false,
            Mode.next_space q blank unquoted notLine, m.settled_settled]
        rw [step, ← start m]
        simp only [foldFrom, blank, if_true, Gap.widen]

theorem plain_fold (q : Quoting) (s : CString) : plain q (fold s) = plain q s :=
  (plainFrom_foldFrom q s).2 .code

theorem foldFrom_blanks {s : CString} (blanks : s.all isSpace = true) (g : Gap) :
    foldFrom g s = [] := by
  induction s generalizing g with
  | nil => rfl
  | cons c s ih =>
    rw [List.all_cons, Bool.and_eq_true] at blanks
    simp only [foldFrom, blanks.1, if_true, ih blanks.2]

theorem Mode.next_space_unquoted (q : Quoting) {m : Mode} {c : Char} (blank : isSpace c = true)
    (unquoted : m.isQuoted = false) : (m.next q c).isQuoted = false := by
  cases line : m.isLine
  · rw [Mode.next_space q blank unquoted line]
    exact m.settled_open.1
  · cases m <;> cases line
    simp only [Mode.next]
    split <;> rfl

theorem canonicalFrom_blanks (q : Quoting) {s : CString} (blanks : s.all isSpace = true)
    (m : Mode) (g : Gap) (unquoted : m.isQuoted = false) : canonicalFrom q m g s = [] := by
  induction s generalizing m g with
  | nil => rfl
  | cons c s ih =>
    rw [List.all_cons, Bool.and_eq_true] at blanks
    simp only [canonicalFrom, unquoted, blanks.1, Bool.false_eq_true, if_false, if_true]
    exact ih blanks.2 _ _ (Mode.next_space_unquoted q blanks.1 unquoted)

/-- No blank is pending inside quotes or at the start of a line comment's text. -/
def Gap.Fits (g : Gap) (m : Mode) : Prop := m.isQuoted = true ∨ m.isLine = true → g = .none

theorem Gap.none_fits (m : Mode) : Gap.none.Fits m := fun _ => rfl

theorem Gap.fits_settled (g : Gap) (m : Mode) : g.Fits m.settled := by
  rintro (quoted | line)
  · rw [m.settled_open.1] at quoted
    cases quoted
  · rw [m.settled_open.2] at line
    cases line

theorem Gap.widen_false_ne_newline {g : Gap} (h : g ≠ .newline) : g.widen false ≠ .newline := by
  cases g <;> simp [Gap.widen] at h ⊢

/-- A plain text is folded without loss. -/
theorem canonicalFrom_of_plain (q : Quoting) {s : CString} {m : Mode} {g : Gap}
    (text : plainFrom q m s = true) (fits : g.Fits m) (flat : g ≠ .newline) :
    canonicalFrom q m g s = foldFrom g s := by
  induction s generalizing m g with
  | nil => rfl
  | cons c s ih =>
    cases quoted : m.isQuoted
    · cases blank : isSpace c
      · have rest : plainFrom q (m.next q c) s = true := by
          simpa [plainFrom, quoted, blank] using text
        simp only [canonicalFrom, foldFrom, quoted, blank, Bool.false_eq_true, if_false,
          ih rest (Gap.none_fits _) (by decide)]
      · cases line : m.isLine
        · have rest : plainFrom q m.settled s = true := by
            simpa [plainFrom, quoted, line, Mode.next_space q blank quoted line] using text
          simp only [canonicalFrom, foldFrom, quoted, blank, line, Bool.false_eq_true, if_false,
            if_true, Bool.false_and, Mode.next_space q blank quoted line]
          exact ih rest (Gap.fits_settled _ m) (Gap.widen_false_ne_newline flat)
        · have blanks : s.all isSpace = true := by
            simpa [plainFrom, quoted, line, blank] using text
          rw [canonicalFrom_blanks q (by simpa [blank] using blanks) m g quoted,
            foldFrom_blanks (by simpa [blank] using blanks)]
    · rw [fits (.inl quoted)]
      simp only [plainFrom, quoted, if_true, Bool.and_eq_true, Bool.not_eq_true'] at text
      obtain ⟨⟨letter, blank⟩, rest⟩ := text
      simp only [canonicalFrom, foldFrom, quoted, blank, Bool.false_eq_true, if_false, if_true,
        Gap.pad, List.nil_append, toUpper_of_not_alpha letter,
        ih rest (Gap.none_fits _) (by decide)]

theorem foldFrom_dropWhile {g : Gap} (wide : g.widen false = g) (s : CString) :
    foldFrom g (s.dropWhile isSpace) = foldFrom g s := by
  induction s with
  | nil => rfl
  | cons c s ih =>
    cases blank : isSpace c
    · simp [blank]
    · simp only [List.dropWhile_cons, foldFrom, blank, if_true, wide, ih]

theorem Gap.widen_widen (g : Gap) : (g.widen false).widen false = g.widen false := by
  cases g <;> rfl

/-- The pending newline is written before the next text. -/
theorem canonicalFrom_newline (q : Quoting) {s : CString} {m : Mode}
    (unquoted : m.isQuoted = false) (more : s.all isSpace = false) :
    ∃ rest, canonicalFrom q m .newline s = '\n' :: rest := by
  induction s generalizing m with
  | nil => cases more
  | cons c s ih =>
    cases blank : isSpace c
    · simp only [canonicalFrom, unquoted, blank, Bool.false_eq_true, if_false, Gap.pad,
        List.singleton_append]
      exact ⟨_, rfl⟩
    · simp only [canonicalFrom, unquoted, blank, Bool.false_eq_true, if_false, if_true, Gap.widen]
      exact ih (Mode.next_space_unquoted q blank unquoted) (by simpa [blank] using more)

/-- What follows a blank of a line comment starts on a new line or does not. -/
theorem canonicalFrom_line (q : Quoting) {s : CString} (more : s.all isSpace = false) :
    ∃ rest, canonicalFrom q .line .blank s =
      (if '\n' ∈ s.takeWhile isSpace then '\n' else ' ') :: rest := by
  induction s with
  | nil => cases more
  | cons c s ih =>
    cases blank : isSpace c
    · simp only [canonicalFrom, Mode.isQuoted, blank, Bool.false_eq_true, if_false, Gap.pad,
        List.takeWhile_cons, List.not_mem_nil, List.singleton_append]
      exact ⟨_, rfl⟩
    · have rest : s.all isSpace = false := by simpa [blank] using more
      by_cases ends : c = '\n'
      · subst ends
        obtain ⟨tail, same⟩ := canonicalFrom_newline q (m := .code) rfl rest
        refine ⟨tail, ?_⟩
        simpa [canonicalFrom, Mode.isQuoted, Mode.isLine, Mode.next, blank, Gap.widen,
          List.takeWhile_cons] using same
      · obtain ⟨tail, same⟩ := ih rest
        refine ⟨tail, ?_⟩
        simpa [canonicalFrom, Mode.isQuoted, Mode.isLine, Mode.next, blank, Gap.widen, ends,
          List.takeWhile_cons, Ne.symm ends] using same

theorem dropWhile_more {s : CString} (more : s.all isSpace = false) :
    (s.dropWhile isSpace).all isSpace = false ∧ (s.dropWhile isSpace).takeWhile isSpace = [] := by
  induction s with
  | nil => cases more
  | cons c s ih =>
    cases blank : isSpace c
    · simp [blank]
    · simpa [blank] using ih (by simpa [blank] using more)

/-- Ending a line comment at its first blank, or not, changes what follows. -/
theorem canonicalFrom_line_twin (q : Quoting) {c : Char} {s : CString} (blank : isSpace c = true)
    (more : s.all isSpace = false) :
    canonicalFrom q .line .none ((if '\n' ∈ (c :: s).takeWhile isSpace then ' ' else '\n') ::
      s.dropWhile isSpace) ≠ canonicalFrom q .line .none (c :: s) := by
  have widened : ∀ (d : Char) (t : CString), isSpace d = true →
      canonicalFrom q .line .none (d :: t) = canonicalFrom q .line .blank (d :: t) := by
    intro d t hd
    simp only [canonicalFrom, hd, Mode.isQuoted, Mode.isLine, Bool.false_eq_true, if_false, if_true,
      Gap.widen]
  have read : ∀ d, isSpace d = true → ∃ rest,
      canonicalFrom q .line .none (d :: s.dropWhile isSpace) =
        (if d = '\n' then '\n' else ' ') :: rest := by
    intro d hd
    obtain ⟨rest, same⟩ := canonicalFrom_line q (s := d :: s.dropWhile isSpace)
      (by rw [List.all_cons, (dropWhile_more more).1, Bool.and_false])
    rw [widened d _ hd, same, List.takeWhile_cons, if_pos hd, (dropWhile_more more).2]
    exact ⟨rest, by simp only [List.mem_singleton, eq_comm]⟩
  obtain ⟨rest, same⟩ := canonicalFrom_line q (s := c :: s)
    (by rw [List.all_cons, more, Bool.and_false])
  rw [widened c s blank, same]
  split
  · obtain ⟨tail, head⟩ := read ' ' rfl
    rw [head]
    exact fun equal => absurd (List.cons.inj equal).1 (by decide)
  · obtain ⟨tail, head⟩ := read '\n' rfl
    rw [head]
    exact fun equal => absurd (List.cons.inj equal).1 (by decide)

/-- A text that is not plain has a twin that folds alike and reads otherwise. -/
theorem exists_twin (q : Quoting) {s : CString} {m : Mode} {g : Gap}
    (text : plainFrom q m s = false) (fits : g.Fits m) :
    ∃ t, (∀ h, foldFrom h t = foldFrom h s) ∧ canonicalFrom q m g t ≠ canonicalFrom q m g s := by
  induction s generalizing m g with
  | nil =>
    have quoted : m.isQuoted = true := by simpa [plainFrom] using text
    exact ⟨[' '], fun h => foldFrom_blanks rfl h, by simp [canonicalFrom, quoted]⟩
  | cons c s ih =>
    cases quoted : m.isQuoted
    · cases blank : isSpace c
      · have rest : plainFrom q (m.next q c) s = false := by
          simpa [plainFrom, quoted, blank] using text
        obtain ⟨t, same, other⟩ := ih rest (Gap.none_fits _)
        refine ⟨c :: t, fun h => ?_, fun equal => other ?_⟩
        · simp only [foldFrom, blank, Bool.false_eq_true, if_false, same]
        · simpa [canonicalFrom, quoted, blank] using equal
      · cases line : m.isLine
        · have rest : plainFrom q m.settled s = false := by
            simpa [plainFrom, quoted, line, Mode.next_space q blank quoted line] using text
          obtain ⟨t, same, other⟩ := ih (g := g.widen false) rest (Gap.fits_settled _ m)
          refine ⟨c :: t, fun h => ?_, fun equal => other ?_⟩
          · simp only [foldFrom, blank, if_true, same]
          · simpa [canonicalFrom, quoted, blank, line, Mode.next_space q blank quoted line]
              using equal
        · have more : s.all isSpace = false := by
            simpa [plainFrom, quoted, line, blank] using text
          -- rewrite the run of blanks so that it ends the comment exactly when it did not
          refine ⟨(if '\n' ∈ (c :: s).takeWhile isSpace then ' ' else '\n') ::
            s.dropWhile isSpace, fun h => ?_, ?_⟩
          · have run : ∀ d, isSpace d = true → foldFrom h (d :: s.dropWhile isSpace) =
                foldFrom h (c :: s) := by
              intro d hd
              simp only [foldFrom, hd, blank, if_true, foldFrom_dropWhile h.widen_widen]
            exact run _ (by split <;> rfl)
          · obtain rfl : g = .none := fits (.inr line)
            cases m <;> cases line
            exact canonicalFrom_line_twin q blank more
    · simp only [plainFrom, quoted, if_true] at text
      cases letter : c.isAlpha
      · cases blank : isSpace c
        · have rest : plainFrom q (m.next q c) s = false := by
            simpa [letter, blank] using text
          obtain ⟨t, same, other⟩ := ih rest (Gap.none_fits _)
          refine ⟨c :: t, fun h => ?_, fun equal => other ?_⟩
          · simp only [foldFrom, blank, Bool.false_eq_true, if_false, same]
          · simpa [canonicalFrom, quoted] using equal
        · obtain ⟨d, other, space⟩ := exists_other_space c
          refine ⟨d :: s, fun h => ?_, fun equal => other ?_⟩
          · simp only [foldFrom, blank, space, if_true]
          · simp only [canonicalFrom, quoted, if_true, List.cons.injEq] at equal
            exact equal.1
      · obtain ⟨d, other, upper⟩ := exists_other_case letter
        have kept := not_space_of_alpha letter
        have keptToo : isSpace d = false := by
          rw [← isSpace_toUpper, upper, isSpace_toUpper, kept]
        refine ⟨d :: s, fun h => ?_, fun equal => other ?_⟩
        · simp only [foldFrom, kept, keptToo, upper, Bool.false_eq_true, if_false]
        · simp only [canonicalFrom, quoted, if_true, List.cons.injEq] at equal
          exact equal.1

/-- The texts that no other text folds to unless it reads the same. -/
theorem plain_iff (q : Quoting) (s : CString) :
    plain q s = true ↔ ∀ t, fold t = fold s → SameOutsideQuotes q t s := by
  have flat : ∀ {t}, plain q t = true → canonical q t = fold t := fun text =>
    canonicalFrom_of_plain q text (Gap.fits_settled .start .code) (by decide)
  constructor
  · intro text t same
    have twin : plain q t = true := by rw [← plain_fold, same, plain_fold, text]
    rw [SameOutsideQuotes, flat text, flat twin, same]
  · intro alike
    by_contra text
    obtain ⟨t, same, other⟩ := exists_twin q (m := .code) (g := .start)
      (Bool.eq_false_iff.mpr text) (Gap.fits_settled .start .code)
    exact other (alike t (same .start))

end OciWrapper.Text
