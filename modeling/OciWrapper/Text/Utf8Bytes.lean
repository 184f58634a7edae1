import OciWrapper.Text.Utf8

namespace OciWrapper.Text

/-- The UTF-8 pattern of a code, for the codes that are no characters too. -/
def codeBytes (code : Nat) : CString :=
  (if code < 0x80 then [code]
  else if code < 0x800 then [code / 64 + 0xC0, code % 64 + 0x80]
  else if code < 0x10000 then [code / 4096 + 0xE0, code / 64 % 64 + 0x80, code % 64 + 0x80]
  else [code / 262144 + 0xF0, code / 4096 % 64 + 0x80, code / 64 % 64 + 0x80,
    code % 64 + 0x80]).map Char.ofNat

theorem toNat_ofNat_byte {n : Nat} (small : n < 256) : (Char.ofNat n).toNat = n := by
  have valid : n.isValidChar := Or.inl (by omega)
  simp [Char.ofNat, valid, Char.ofNatAux]

theorem toNat_lt (c : Char) : c.toNat < 0x110000 := by
  have valid := c.valid
  rw [UInt32.isValidChar, Nat.isValidChar] at valid
  change c.val.toNat < _
  omega

theorem utf8_singleton (c : Char) : utf8 [c] = codeBytes c.toNat := by
  have bound := toNat_lt c
  have value : c.val.toNat = c.toNat := rfl
  have bytes : ∀ n, n < 256 → (UInt8.ofNat n).toNat = n := fun n small =>
    UInt8.toNat_ofNat_of_lt' small
  rw [utf8_cons, utf8_nil, List.append_nil, String.utf8EncodeChar, value, codeBytes]
  by_cases one : c.toNat < 0x80
  · rw [if_pos (by omega), if_pos one, List.map_singleton, List.map_singleton,
      bytes _ (by omega)]
  by_cases two : c.toNat < 0x800
  · rw [if_neg (by omega), if_neg one, if_pos (by omega), if_pos two]
    simp only [List.map_cons, List.map_nil]
    rw [bytes _ (by omega), bytes _ (by omega), Nat.mod_eq_of_lt (by omega)]
  by_cases three : c.toNat < 0x10000
  · rw [if_neg (by omega), if_neg one, if_neg (by omega), if_neg two, if_pos (by omega),
      if_pos three]
    simp only [List.map_cons, List.map_nil]
    rw [bytes _ (by omega), bytes _ (by omega), bytes _ (by omega),
      Nat.mod_eq_of_lt (by omega : c.toNat / 4096 < 16)]
  · rw [if_neg (by omega), if_neg one, if_neg (by omega), if_neg two, if_neg (by omega),
      if_neg three]
    simp only [List.map_cons, List.map_nil]
    rw [bytes _ (by omega), bytes _ (by omega), bytes _ (by omega), bytes _ (by omega),
      Nat.mod_eq_of_lt (by omega : c.toNat / 262144 < 8)]

/-- `(byte & 0xC0) == 0x80`. -/
def isContinuation (byte : Char) : Bool := byte.toNat &&& 0xC0 == 0x80

theorem isContinuation_ofNat {n : Nat} (small : n < 256) :
    isContinuation (Char.ofNat n) = decide (128 ≤ n ∧ n < 192) := by
  have table : ∀ n < 256, (n &&& 0xC0 == 0x80) = decide (128 ≤ n ∧ n < 192) := by decide +kernel
  rw [isContinuation, toNat_ofNat_byte small, table n small]

/-- A character's first byte is no continuation byte, and the others are. -/
theorem utf8_lead_tail (c : Char) : ∃ lead tail, utf8 [c] = lead :: tail ∧
    isContinuation lead = false ∧ ∀ byte ∈ tail, isContinuation byte = true := by
  have bound := toNat_lt c
  have lead : ∀ {n}, n < 256 → n < 128 ∨ 192 ≤ n → isContinuation (Char.ofNat n) = false := by
    intro n small outside
    rw [isContinuation_ofNat small, decide_eq_false_iff_not]
    omega
  have tail : ∀ n, isContinuation (Char.ofNat (n % 64 + 0x80)) = true := by
    intro n
    rw [isContinuation_ofNat (by omega), decide_eq_true_eq]
    omega
  rw [utf8_singleton, codeBytes]
  split
  next => exact ⟨_, [], rfl, lead (by omega) (by omega), List.forall_mem_nil _⟩
  split
  next => exact ⟨_, _, rfl, lead (by omega) (by omega), by simp [tail]⟩
  split
  next => exact ⟨_, _, rfl, lead (by omega) (by omega), by simp [tail]⟩
  next => exact ⟨_, _, rfl, lead (by omega) (by omega), by simp [tail]⟩

/-- The bytes before position `n` are those of whole characters of the text. -/
def AtBoundary (text : List Char) (n : Nat) : Prop :=
  ∃ before after, text = before ++ after ∧ (utf8 before).length = n

theorem atBoundary_zero (text : List Char) : AtBoundary text 0 := ⟨[], text, rfl, rfl⟩

theorem atBoundary_length (text : List Char) : AtBoundary text (utf8 text).length :=
  ⟨text, [], (List.append_nil text).symm, rfl⟩

theorem atBoundary_cons {c : Char} {text : List Char} {n : Nat} (more : 0 < n) :
    AtBoundary (c :: text) n ↔ ∃ m, n = c.utf8Size + m ∧ AtBoundary text m := by
  constructor
  · rintro ⟨before, after, split, length⟩
    cases before with
    | nil => exact absurd length more.ne
    | cons d before =>
      obtain ⟨rfl, rfl⟩ := List.cons.inj split
      rw [length_utf8_cons] at length
      exact ⟨_, length.symm, before, after, rfl, rfl⟩
  · rintro ⟨m, rfl, before, after, rfl, rfl⟩
    exact ⟨c :: before, after, rfl, length_utf8_cons c before⟩

/-- Inside the bytes of a text, the positions between characters are those of the bytes that
continue none. -/
theorem atBoundary_iff {text : List Char} : ∀ {n : Nat} (inside : n < (utf8 text).length),
    AtBoundary text n ↔ isContinuation ((utf8 text).get ⟨n, inside⟩) = false := by
  induction text with
  | nil =>
    intro n inside
    exact absurd inside (Nat.not_lt_zero n)
  | cons c text ih =>
    intro n inside
    obtain ⟨lead, tail, bytes, first, others⟩ := utf8_lead_tail c
    have whole : utf8 (c :: text) = lead :: tail ++ utf8 text := by
      rw [← List.singleton_append, utf8_append, bytes]
    have size : c.utf8Size = tail.length + 1 := by
      rw [← List.length_cons, ← bytes, length_utf8_cons, utf8_nil, List.length_nil, Nat.add_zero]
    simp only [List.get_eq_getElem]
    rcases Nat.eq_zero_or_pos n with rfl | more
    · refine iff_of_true (atBoundary_zero _) ?_
      simp only [whole, List.cons_append, List.getElem_cons_zero]
      exact first
    rw [atBoundary_cons more, size]
    by_cases short : n < tail.length + 1
    · refine iff_of_false ?_ ?_
      · rintro ⟨m, rfl, -⟩
        omega
      · simp only [whole]
        rw [List.getElem_append_left (by simpa using short), Bool.not_eq_false]
        obtain ⟨m, rfl⟩ := Nat.exists_eq_succ_of_ne_zero more.ne'
        exact others _ (List.getElem_mem _)
    · obtain ⟨m, rfl⟩ := Nat.exists_eq_add_of_le (Nat.le_of_not_lt short)
      have rest : m < (utf8 text).length := by
        rw [whole, List.length_append, List.length_cons] at inside
        omega
      have byte : (utf8 (c :: text))[tail.length + 1 + m] = (utf8 text)[m] := by
        simp only [whole]
        rw [List.getElem_append_right (by simp)]
        simp
      rw [byte]
      have same := ih rest
      rw [List.get_eq_getElem] at same
      rw [← same]
      constructor
      · rintro ⟨k, total, boundary⟩
        rwa [Nat.add_left_cancel total]
      · intro boundary
        exact ⟨m, rfl, boundary⟩

/-- No boundary lies inside a character. -/
theorem atBoundary_after {before after : List Char} {c : Char} {n : Nat}
    (boundary : AtBoundary (before ++ c :: after) n) (later : (utf8 before).length < n) :
    (utf8 before).length + c.utf8Size ≤ n := by
  obtain ⟨first, second, split, rfl⟩ := boundary
  rcases List.append_eq_append_iff.mp split with ⟨extra, rfl, rest⟩ | ⟨extra, rfl, rest⟩
  · cases extra with
    | nil =>
      rw [List.append_nil] at later
      exact absurd later (Nat.lt_irrefl _)
    | cons d extra =>
      obtain ⟨rfl, rfl⟩ := List.cons.inj rest
      rw [utf8_append, List.length_append, length_utf8_cons]
      omega
  · rw [utf8_append, List.length_append] at later
    omega

end OciWrapper.Text
