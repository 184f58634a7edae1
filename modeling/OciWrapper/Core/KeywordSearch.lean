import OciWrapper.Core.SqlDependencyExtractor

namespace OciWrapper.Core

open OciWrapper.Text

/-- The keyword stands at the start of the text as a word of its own. -/
def beginsKeyword (kw : CString) (before : Option Char) (s : CString) : Bool :=
  kw.isPrefixOf s && !before.any isWordChar && !(s.drop kw.length).head?.any isWordChar

/-- No keyword begins inside the part, with the rest of the text behind it. -/
def quiet (kws : List String) : Option Char → CString → CString → Bool
  | _, [], _ => true
  | before, c :: part, rest =>
    kws.all (fun kw => !beginsKeyword kw.toList before (c :: (part ++ rest))) &&
      quiet kws (some c) part rest

/-- The character in front of what follows the part. -/
def lastChar (before : Option Char) (part : CString) : Option Char := part.getLast?.or before

theorem lastChar_cons (before : Option Char) (c : Char) (part : CString) :
    lastChar before (c :: part) = lastChar (some c) part := by
  cases part with
  | nil => rfl
  | cons d part => simp [lastChar, List.getLast?_cons]

theorem lastChar_concat (before : Option Char) (part : CString) (c : Char) :
    lastChar before (part ++ [c]) = some c := by
  simp [lastChar]

theorem quiet_cons {kws : List String} {before : Option Char} {c : Char} {part rest : CString} :
    quiet kws before (c :: part) rest = true ↔
      (∀ kw ∈ kws, beginsKeyword kw.toList before (c :: (part ++ rest)) = false) ∧
        quiet kws (some c) part rest = true := by
  simp [quiet]

theorem findKeywordFrom_cons (kw : CString) (before : Option Char) (c : Char) (s : CString) :
    findKeywordFrom kw before (c :: s) =
      if beginsKeyword kw before (c :: s) then some ([], c :: s)
      else (findKeywordFrom kw (some c) s).map fun (skipped, rest) => (c :: skipped, rest) :=
  rfl

theorem beginsKeyword_nil {kw : CString} (word : kw ≠ []) (before : Option Char) :
    beginsKeyword kw before [] = false := by
  cases kw with
  | nil => exact absurd rfl word
  | cons c kw => rfl

/-- The search passes over a part that is quiet. -/
theorem findKeywordFrom_quiet {kws : List String} {kw : String} (member : kw ∈ kws) :
    ∀ {before : Option Char} {part rest : CString}, quiet kws before part rest = true →
      findKeywordFrom kw.toList before (part ++ rest) =
        (findKeywordFrom kw.toList (lastChar before part) rest).map
          fun (skipped, found) => (part ++ skipped, found) := by
  intro before part rest silent
  induction part generalizing before with
  | nil => simp [lastChar]
  | cons c part ih =>
    obtain ⟨here, later⟩ := quiet_cons.mp silent
    rw [List.cons_append, findKeywordFrom_cons, here kw member, ih later, lastChar_cons]
    simp [Option.map_map, Function.comp_def]

/-- A keyword is found at once where it begins, and further on where it does not. -/
theorem findKeywordFrom_here {kw before} {s : CString} (word : kw ≠ []) :
    (beginsKeyword kw before s = true → findKeywordFrom kw before s = some ([], s)) ∧
    (beginsKeyword kw before s = false →
      ∀ skipped found, findKeywordFrom kw before s = some (skipped, found) → skipped ≠ []) := by
  cases s with
  | nil =>
    rw [beginsKeyword_nil word]
    exact ⟨fun begins => (Bool.false_ne_true begins).elim,
      fun _ skipped found none => (Option.some_ne_none _ none.symm).elim⟩
  | cons c s =>
    rw [findKeywordFrom_cons]
    constructor
    · intro begins
      rw [if_pos begins]
    · intro absent skipped found located
      rw [absent, if_neg Bool.false_ne_true, Option.map_eq_some_iff] at located
      obtain ⟨_, _, same⟩ := located
      cases same
      exact List.cons_ne_nil _ _

/-- What `earliestKeyword` reports is the find of one of the keywords, and no other
    keyword is found before it. -/
theorem earliestKeyword_spec (src : CString) (kws : List String) :
    (earliestKeyword src kws = none ↔ ∀ kw ∈ kws, findKeyword src kw = none) ∧
    ∀ found, earliestKeyword src kws = some found →
      (∃ kw ∈ kws, findKeyword src kw = some found) ∧
      ∀ kw ∈ kws, ∀ other, findKeyword src kw = some other →
        found.1.length ≤ other.1.length := by
  induction kws with
  | nil => simp [earliestKeyword]
  | cons kw kws ih =>
    obtain ⟨absent, least⟩ := ih
    simp only [earliestKeyword, List.mem_cons, forall_eq_or_imp, exists_eq_or_imp]
    cases first : findKeyword src kw with
    | none =>
      refine ⟨by simpa using absent, fun found same => ?_⟩
      obtain ⟨located, before⟩ := least found same
      exact ⟨.inr located, fun _ none => (by cases none), before⟩
    | some mine =>
      cases later : earliestKeyword src kws with
      | none =>
        have nowhere := absent.mp later
        refine ⟨by simp, fun found same => ?_⟩
        cases same
        refine ⟨.inl rfl, fun other located => ?_, fun kw member other located => ?_⟩
        · cases located
          exact Nat.le_refl _
        · rw [nowhere kw member] at located
          cases located
      | some other =>
        obtain ⟨located, before⟩ := least other later
        refine ⟨by simp; split <;> simp, fun found same => ?_⟩
        simp only at same
        split at same
        · cases same
          refine ⟨.inr located, fun there located => ?_, before⟩
          cases located
          omega
        · cases same
          refine ⟨.inl rfl, fun there located => ?_, fun kw member there located => ?_⟩
          · cases located
            exact Nat.le_refl _
          · have := before kw member there located
            omega

/-- In a text that is quiet up to a place, a keyword of the list that begins there
    is the earliest. -/
theorem earliestKeyword_found {kws : List String} {kw : String} (member : kw ∈ kws)
    (words : ∀ kw ∈ kws, kw.toList ≠ []) {part rest : CString}
    (silent : quiet kws none part rest = true)
    (begins : beginsKeyword kw.toList (lastChar none part) rest = true) :
    earliestKeyword (part ++ rest) kws = some (part, rest) := by
  have mine : findKeyword (part ++ rest) kw = some (part, rest) := by
    rw [findKeyword, findKeywordFrom_quiet member silent,
      (findKeywordFrom_here (words kw member)).1 begins]
    simp
  obtain ⟨absent, least⟩ := earliestKeyword_spec (part ++ rest) kws
  cases earliest : earliestKeyword (part ++ rest) kws with
  | none =>
    have none := absent.mp earliest kw member
    rw [mine] at none
    cases none
  | some found =>
    obtain ⟨⟨other, among, located⟩, before⟩ := least found earliest
    have short := before kw member _ mine
    rw [findKeyword, findKeywordFrom_quiet among silent, Option.map_eq_some_iff] at located
    obtain ⟨⟨skipped, text⟩, after, same⟩ := located
    cases same
    obtain ⟨here, moved⟩ := @findKeywordFrom_here _ (lastChar none part) rest (words other among)
    cases stands : beginsKeyword other.toList (lastChar none part) rest with
    | true =>
      rw [here stands] at after
      cases after
      simp
    | false =>
      have further := List.length_pos_iff.mpr (moved stands _ _ after)
      simp only [List.length_append] at short
      omega

theorem earliestKeyword_none {kws : List String} {s : CString} (silent : quiet kws none s [] = true) : earliestKeyword s kws = none := by
  refine (earliestKeyword_spec s kws).1.mpr fun kw member => ?_
  have passed := findKeywordFrom_quiet member silent
  rw [List.append_nil] at passed
  rw [findKeyword, passed]
  rfl

/-- Two quiet parts in a row. -/
theorem quiet_append {kws : List String} {before : Option Char} {part more rest : CString}
    (first : quiet kws before part (more ++ rest) = true)
    (later : quiet kws (lastChar before part) more rest = true) :
    quiet kws before (part ++ more) rest = true := by
  induction part generalizing before with
  | nil => exact later
  | cons c part ih =>
    obtain ⟨here, silent⟩ := quiet_cons.mp first
    rw [List.cons_append, quiet_cons, List.append_assoc]
    exact ⟨here, ih silent (by rw [lastChar_cons] at later; exact later)⟩

/-- No keyword begins at a blank. -/
theorem quiet_blank {kws : List String} (words : ∀ kw ∈ kws, kw.toList.head?.any isWordChar = true)
    (before : Option Char) (rest : CString) : quiet kws before [' '] rest = true := by
  rw [quiet_cons]
  refine ⟨fun kw member => ?_, rfl⟩
  have word := words kw member
  unfold beginsKeyword
  cases text : kw.toList with
  | nil => simp [text] at word
  | cons c kw =>
    simp only [text, List.head?_cons, Option.any_some] at word
    have other : (c == ' ') = false := by
      rw [beq_eq_false_iff_ne]
      rintro rfl
      exact absurd word (by decide)
    simp [List.isPrefixOf, other]

end OciWrapper.Core
