import OciWrapper.Dates.OracleCalendar

namespace OciWrapper.Dates

open OciWrapper.Text

/-- A piece of a mask without quoted text. -/
inductive MaskPiece
  | separator (run : CString)
  | element (el : FmtEl)

def MaskPiece.toElement : MaskPiece → FmtEl
  | .separator run => ⟨.sep, 0, run.take elementTextMax⟩
  | .element el => el

/-- The mask, piece by piece, with its separators whole. -/
def maskPieces : Nat → CString → List MaskPiece
  | 0, _ => []
  | _ + 1, [] => []
  | fuel + 1, c :: p =>
    if !c.isAlphanum then
      .separator (separatorRun (c :: p)) ::
        maskPieces fuel ((c :: p).drop (separatorRun (c :: p)).length)
    else
      match keywordElement (c :: p) with
      | .ok (el, rest) => .element el :: maskPieces fuel rest
      | .error _ => []

def piecesOf (mask : CString) : List MaskPiece := maskPieces (mask.length + 1) mask

def Clash (el other : FmtEl) : Prop :=
  (groupOf el.kind).isSome = true ∧ groupOf el.kind = groupOf other.kind

/-- What the tokenizer lets through: separators that are not empty and stand apart, and
    elements of different groups. -/
def Sound : List MaskPiece → Prop
  | [] => True
  | .separator run :: rest =>
    run ≠ [] ∧ (∀ c ∈ run, c.isAlphanum = false) ∧
      (rest = [] ∨ ∃ el others, rest = .element el :: others) ∧ Sound rest
  | .element el :: rest =>
    el.kind ≠ .sep ∧ el.ffDigits ≤ 9 ∧ (∀ other, .element other ∈ rest → ¬ Clash el other) ∧
      Sound rest

theorem fractionElement_facts (p : CString) :
    (fractionElement p).2 <:+ p ∧ (fractionElement p).1.kind = .ff ∧
      (fractionElement p).1.ffDigits ≤ 9 := by
  unfold fractionElement
  split
  · rename_i c tail drop
    have tailSuffix : tail <:+ p := (List.suffix_cons c tail).trans (drop ▸ List.drop_suffix 2 p)
    split
    · rename_i digit
      have high : c.toNat ≤ '9'.toNat := digit.2
      have nine : '9'.toNat = 57 := rfl
      refine ⟨tailSuffix, rfl, ?_⟩
      dsimp only
      omega
    · exact ⟨drop ▸ List.drop_suffix 2 p, rfl, Nat.zero_le 9⟩
  · exact ⟨List.nil_suffix, rfl, Nat.zero_le 9⟩

theorem keyword_kind {word : String} {kind : ElementKind} (listed : (word, kind) ∈ keywords) :
    kind ≠ .sep := by
  have none : ∀ entry ∈ keywords, entry.2 ≠ .sep := by decide
  exact none _ listed

theorem keywordElement_facts {p rest : CString} {el : FmtEl}
    (known : keywordElement p = .ok (el, rest)) :
    rest <:+ p ∧ el.kind ≠ .sep ∧ el.ffDigits ≤ 9 := by
  unfold keywordElement at known
  split at known
  · cases known
  split at known
  · obtain ⟨suffix, kind, digits⟩ := fractionElement_facts p
    rw [Except.ok.inj known] at suffix kind digits
    exact ⟨suffix, kind ▸ nofun, digits⟩
  split at known
  · rename_i word kind found
    cases known
    exact ⟨List.drop_suffix _ p, keyword_kind (List.mem_of_find?_eq_some found), Nat.zero_le 9⟩
  · cases known

/-- A separator ends at a letter or digit. -/
theorem separatorRun_ends {p rest : CString} {c : Char} (unquoted : '"' ∉ p)
    (left : p.drop (separatorRun p).length = c :: rest) : c.isAlphanum = true := by
  have whole : separatorRun p ++ p.dropWhile (fun c => c != '"' && !c.isAlphanum) = p :=
    List.takeWhile_append_dropWhile
  have behind : (separatorRun p ++ p.dropWhile (fun c => c != '"' && !c.isAlphanum)).drop
      (separatorRun p).length = p.dropWhile (fun c => c != '"' && !c.isAlphanum) := List.drop_left
  rw [whole, left] at behind
  have head := List.head?_dropWhile_not (fun c => c != '"' && !c.isAlphanum) p
  rw [← behind] at head
  have member : c ∈ p := by
    rw [← whole, ← behind]
    simp
  have other : c ≠ '"' := fun same => unquoted (same ▸ member)
  simpa [other] using head

theorem separatorRun_facts {p : CString} {c : Char} (unquoted : '"' ∉ c :: p)
    (punct : c.isAlphanum = false) :
    separatorRun (c :: p) ≠ [] ∧ ∀ d ∈ separatorRun (c :: p), d.isAlphanum = false := by
  constructor
  · have other : c ≠ '"' := fun same => unquoted (same ▸ List.mem_cons_self)
    simp [separatorRun, other, punct]
  · intro d member
    have kept := List.mem_takeWhile_imp member
    rw [Bool.and_eq_true, Bool.not_eq_true'] at kept
    exact kept.2

/-- The elements of a mask that is accepted are those of its pieces. -/
theorem tokenizeLoop_pieces {isTimestamp : Bool} {fuel : Nat} {p : CString}
    {els all : List FmtEl} (unquoted : '"' ∉ p)
    (accepted : tokenizeLoop isTimestamp fuel p els = .ok all) :
    all = els ++ (maskPieces fuel p).map MaskPiece.toElement ∧ Sound (maskPieces fuel p) ∧
      ∀ earlier ∈ els, ∀ el, .element el ∈ maskPieces fuel p → ¬ Clash earlier el := by
  induction fuel generalizing p els with
  | zero =>
    cases accepted
    simp [maskPieces, Sound]
  | succ fuel ih =>
    cases p with
    | nil =>
      cases accepted
      simp [maskPieces, Sound]
    | cons c p =>
      rw [tokenizeLoop] at accepted
      split at accepted
      · cases accepted
      have other : c ≠ '"' := fun same => unquoted (same ▸ List.mem_cons_self)
      rw [if_neg other] at accepted
      rw [maskPieces]
      cases alnum : c.isAlphanum with
      | false =>
        simp only [alnum, Bool.not_false, if_true] at accepted ⊢
        have left : '"' ∉ (c :: p).drop (separatorRun (c :: p)).length :=
          fun member => unquoted (List.mem_of_mem_drop member)
        obtain ⟨same, sound, apart⟩ := ih left accepted
        obtain ⟨some, puncts⟩ := separatorRun_facts unquoted alnum
        refine ⟨?_, ⟨some, puncts, ?_, sound⟩, ?_⟩
        · rw [same, List.map_cons, List.append_assoc]
          rfl
        · cases fuel with
          | zero => exact .inl rfl
          | succ fuel =>
            cases behind : (c :: p).drop (separatorRun (c :: p)).length with
            | nil => exact .inl rfl
            | cons d rest =>
              have letter := separatorRun_ends unquoted behind
              rw [maskPieces, letter]
              simp only [Bool.not_true, Bool.false_eq_true, if_false]
              split
              · exact .inr ⟨_, _, rfl⟩
              · exact .inl rfl
        · intro earlier member el inside
          rcases List.mem_cons.mp inside with here | later
          · cases here
          · exact apart earlier (List.mem_append_left _ member) el later
      | true =>
        simp only [alnum, Bool.not_true, Bool.false_eq_true, if_false] at accepted ⊢
        cases known : keywordElement (c :: p) with
        | error reason =>
          rw [known] at accepted
          cases accepted
        | ok found =>
          obtain ⟨el, rest⟩ := found
          rw [known] at accepted
          obtain ⟨suffix, kind, digits⟩ := keywordElement_facts known
          dsimp only at accepted ⊢
          split at accepted
          · cases accepted
          rename_i fresh
          split at accepted
          · cases accepted
          have left : '"' ∉ rest := fun member => unquoted (suffix.subset member)
          obtain ⟨same, sound, apart⟩ := ih left accepted
          refine ⟨?_, ⟨kind, digits, ?_, sound⟩, ?_⟩
          · rw [same, List.map_cons, List.append_assoc]
            rfl
          · exact apart el (List.mem_append_right _ (List.mem_singleton_self el))
          · intro earlier member other inside
            rcases List.mem_cons.mp inside with here | later
            · cases here
              rintro ⟨grouped, clash⟩
              apply fresh
              rw [List.any_eq_true]
              exact ⟨earlier, member, by rw [grouped, clash, beq_self_eq_true]; rfl⟩
            · exact apart earlier (List.mem_append_left _ member) other later

theorem tokenizeMask_pieces {isTimestamp : Bool} {mask : CString} {els : List FmtEl}
    (unquoted : '"' ∉ mask) (accepted : tokenizeMask mask isTimestamp = .ok els) :
    els = (piecesOf mask).map MaskPiece.toElement ∧ Sound (piecesOf mask) := by
  rw [tokenizeMask] at accepted
  cases ran : tokenizeLoop isTimestamp (mask.length + 1) mask [] with
  | error reason =>
    rw [ran] at accepted
    cases accepted
  | ok all =>
    rw [ran] at accepted
    simp only [bind, Except.bind] at accepted
    split at accepted
    · cases accepted
    split at accepted
    · cases accepted
    · cases accepted
      obtain ⟨same, sound, -⟩ := tokenizeLoop_pieces unquoted ran
      exact ⟨same, sound⟩

end OciWrapper.Dates
