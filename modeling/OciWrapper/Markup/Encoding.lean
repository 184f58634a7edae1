import OciWrapper.Markup.Machines

namespace OciWrapper.Markup

open OciWrapper.Text

/-- Where a reader of UTF-8 stands: between two characters, or inside of one with `left` bytes to
come, of which it knows `value` and that it takes no shorter form than `least`. -/
inductive Utf8State
  | between
  | within (left value least : ℕ)
  deriving DecidableEq

/-- One byte. A code point that `allowed` does not name is refused. -/
def utf8Step (allowed : ℕ → Bool) : Utf8State → Char → Option (Utf8State × List ℕ)
  | .between, c =>
    if c.toNat < 0x80 then if allowed c.toNat then some (.between, [c.toNat]) else none
    else if c.toNat < 0xC0 then none
    else if c.toNat < 0xE0 then some (.within 1 (c.toNat - 0xC0) 0x80, [])
    else if c.toNat < 0xF0 then some (.within 2 (c.toNat - 0xE0) 0x800, [])
    else if c.toNat < 0xF8 then some (.within 3 (c.toNat - 0xF0) 0x10000, [])
    else none
  | .within left value least, c =>
    if 0x80 ≤ c.toNat ∧ c.toNat < 0xC0 then
      let value := value * 0x40 + (c.toNat - 0x80)
      if 1 < left then some (.within (left - 1) value least, [])
      else if least ≤ value ∧ allowed value then some (.between, [value])
      else none
    else none

/-- The code points of a text in UTF-8. -/
def codePoints (allowed : ℕ → Bool) (bytes : CString) : Option (List ℕ) :=
  (run (utf8Step allowed) .between bytes).bind fun (last, points) =>
    if last = .between then some points else none

/-- The bytes are UTF-8, of allowed characters only. -/
def Encoded (allowed : ℕ → Bool) (bytes : CString) : Prop :=
  (codePoints allowed bytes).isSome = true

instance (allowed : ℕ → Bool) (bytes : CString) : Decidable (Encoded allowed bytes) :=
  inferInstanceAs (Decidable (_ = true))

theorem encoded_iff {allowed : ℕ → Bool} {bytes : CString} :
    Encoded allowed bytes ↔
      ∃ points, run (utf8Step allowed) .between bytes = some (.between, points) := by
  rw [Encoded, codePoints]
  cases run (utf8Step allowed) .between bytes with
  | none => simp
  | some out =>
    obtain ⟨last, points⟩ := out
    by_cases whole : last = .between <;> simp [whole]

@[simp] theorem encoded_nil (allowed : ℕ → Bool) : Encoded allowed [] :=
  encoded_iff.mpr ⟨[], rfl⟩

theorem Encoded.append {allowed : ℕ → Bool} {before after : CString}
    (first : Encoded allowed before) (second : Encoded allowed after) :
    Encoded allowed (before ++ after) := by
  obtain ⟨points, first⟩ := encoded_iff.mp first
  obtain ⟨later, second⟩ := encoded_iff.mp second
  exact encoded_iff.mpr ⟨points ++ later, run_append_some first second⟩

section Plain

variable {allowed : ℕ → Bool} {c : Char}

/-- A single byte stands between characters only, so it is no part of another one. -/
theorem utf8Step_ascii (plain : c.toNat < 0x80) (state : Utf8State) :
    utf8Step allowed state c =
      if state = .between ∧ allowed c.toNat then some (.between, [c.toNat]) else none := by
  cases state with
  | between => simp [utf8Step, plain]
  | within left value least =>
    have alone : ¬(0x80 ≤ c.toNat ∧ c.toNat < 0xC0) := by omega
    simp [utf8Step, alone]

theorem encoded_split (plain : c.toNat < 0x80) (before after : CString) :
    Encoded allowed (before ++ c :: after) ↔
      Encoded allowed before ∧ allowed c.toNat ∧ Encoded allowed after := by
  simp only [encoded_iff]
  constructor
  · intro ⟨points, read⟩
    obtain ⟨next, first, later, head, rest, _⟩ := run_append_eq_some.mp read
    obtain ⟨next', one, tail, taken, rest, _⟩ := run_cons_eq_some.mp rest
    rw [utf8Step_ascii plain] at taken
    split at taken
    · rename_i holds
      obtain ⟨rfl, fine⟩ := holds
      cases taken
      exact ⟨⟨first, head⟩, fine, tail, rest⟩
    · cases taken
  · intro ⟨⟨first, head⟩, fine, tail, rest⟩
    have taken : utf8Step allowed .between c = some (.between, [c.toNat]) := by
      rw [utf8Step_ascii plain, if_pos ⟨rfl, fine⟩]
    refine ⟨first ++ ([c.toNat] ++ tail), run_append_some head ?_⟩
    rw [run_cons_of taken, rest, Option.map_some]

end Plain

/-- Text in single bytes, each of them allowed. -/
def PlainBytes (allowed : ℕ → Bool) (bytes : CString) : Prop :=
  ∀ c ∈ bytes, c.toNat < 0x80 ∧ allowed c.toNat = true

instance (allowed : ℕ → Bool) (bytes : CString) : Decidable (PlainBytes allowed bytes) :=
  decidable_of_iff (bytes.all (fun c => c.toNat < 0x80 ∧ allowed c.toNat = true) = true)
    (by simp [PlainBytes])

theorem PlainBytes.encoded {allowed : ℕ → Bool} {bytes : CString}
    (plain : PlainBytes allowed bytes) : Encoded allowed bytes := by
  induction bytes with
  | nil => exact encoded_nil allowed
  | cons c bytes ih =>
    have head := plain c List.mem_cons_self
    have tail := ih fun d member => plain d (List.mem_cons_of_mem c member)
    exact (encoded_split head.1 [] bytes).mpr ⟨encoded_nil allowed, head.2, tail⟩

/-- What follows single bytes is a text of its own. -/
theorem encoded_after_plain {allowed : ℕ → Bool} {plain after : CString}
    (single : PlainBytes allowed plain) :
    Encoded allowed (plain ++ after) ↔ Encoded allowed after := by
  induction plain with
  | nil => rfl
  | cons c plain ih =>
    have head := single c List.mem_cons_self
    have tail := ih fun d member => single d (List.mem_cons_of_mem c member)
    have split : Encoded allowed ([] ++ c :: (plain ++ after)) ↔ _ :=
      encoded_split head.1 [] (plain ++ after)
    rw [List.cons_append]
    simpa [head.2, tail] using split

/-- A text between a text and single bytes is one of its own. -/
theorem encoded_before_plain {allowed : ℕ → Bool} {before plain after : CString}
    (single : PlainBytes allowed plain) (some : plain ≠ []) :
    Encoded allowed (before ++ (plain ++ after)) ↔
      Encoded allowed before ∧ Encoded allowed after := by
  cases plain with
  | nil => exact (some rfl).elim
  | cons c plain =>
    have head := single c List.mem_cons_self
    have tail : PlainBytes allowed plain := fun d member =>
      single d (List.mem_cons_of_mem c member)
    rw [List.cons_append, encoded_split head.1, encoded_after_plain tail]
    simp [head.2]

section Rewriting

variable {allowed : ℕ → Bool} {write : Char → CString}

/-- A rewriting of single bytes by single bytes leaves the characters readable as they were. -/
theorem encoded_flatMap (kept : ∀ c, write c = [c] ∨
      c.toNat < 0x80 ∧ allowed c.toNat = true ∧ PlainBytes allowed (write c) ∧ write c ≠ [])
    (bytes : CString) : Encoded allowed (bytes.flatMap write) ↔ Encoded allowed bytes := by
  have same : ∀ state, (∃ points, run (utf8Step allowed) state (bytes.flatMap write) =
      some (.between, points)) ↔
      ∃ points, run (utf8Step allowed) state bytes = some (.between, points) := by
    induction bytes with
    | nil => exact fun state => Iff.rfl
    | cons c bytes ih =>
      intro state
      rw [List.flatMap_cons]
      rcases kept c with same | ⟨single, fine, plain, filled⟩
      · rw [same, List.singleton_append]
        constructor
        · intro ⟨points, read⟩
          obtain ⟨next, first, later, taken, rest, _⟩ := run_cons_eq_some.mp read
          obtain ⟨later, rest⟩ := (ih next).mp ⟨later, rest⟩
          exact ⟨first ++ later, run_cons_eq_some.mpr ⟨next, first, later, taken, rest, rfl⟩⟩
        · intro ⟨points, read⟩
          obtain ⟨next, first, later, taken, rest, _⟩ := run_cons_eq_some.mp read
          obtain ⟨later, rest⟩ := (ih next).mpr ⟨later, rest⟩
          exact ⟨first ++ later, run_cons_eq_some.mpr ⟨next, first, later, taken, rest, rfl⟩⟩
      · cases state with
        | between =>
          have split : Encoded allowed (write c ++ bytes.flatMap write) ↔ _ :=
            encoded_after_plain plain
          have one : Encoded allowed ([] ++ c :: bytes) ↔ _ := encoded_split single [] bytes
          simp only [encoded_iff] at split one
          rw [split, ih]
          simpa [fine] using one.symm
        | within left value least =>
          have refused : utf8Step allowed (.within left value least) c = none := by
            simp [utf8Step_ascii single]
          cases letters : write c with
          | nil => exact (filled letters).elim
          | cons d letters' =>
            have first := (plain d (by rw [letters]; exact List.mem_cons_self)).1
            have stopped : utf8Step allowed (.within left value least) d = none := by
              simp [utf8Step_ascii first]
            rw [List.cons_append, run_cons_none stopped, run_cons_none refused]
  simpa [encoded_iff] using same .between

end Rewriting

end OciWrapper.Markup
