import OciWrapper.Text.Chars

namespace OciWrapper.Text

/-- `snprintf` into a buffer of `size` bytes whose caller refuses a cut text. -/
def fmt (size : Nat) (text : CString) : Option CString :=
  if text.length < size then some text else none

/-- `strncat(buf, s, size - strlen(buf) - 1)`. -/
def strncat (size : Nat) (buf s : CString) : CString := buf ++ s.take (size - buf.length - 1)

theorem fmt_eq_some {size : Nat} {text out : CString} (fits : fmt size text = some out) :
    out = text ∧ text.length < size := by
  rw [fmt] at fits
  split at fits
  · cases fits
    exact ⟨rfl, ‹_›⟩
  · cases fits

/-- What is appended to a text cut at the end of its buffer is cut there too. -/
theorem strncat_take (size : Nat) (text s : CString) :
    strncat size (text.take (size - 1)) s = (text ++ s).take (size - 1) := by
  rw [strncat, List.length_take, List.take_append]
  rcases Nat.le_total (size - 1) text.length with full | room
  · have none : size - min (size - 1) text.length - 1 = 0 := by omega
    have left : size - 1 - text.length = 0 := by omega
    rw [none, left]
  · rw [Nat.min_eq_right room]
    congr 2
    omega

/-- The pieces with a separator before each one but the first of the text. -/
def joinFrom (separator : CString) : Bool → List CString → CString
  | _, [] => []
  | started, piece :: pieces =>
    (if started then separator else []) ++ piece ++ joinFrom separator true pieces

def joined (separator : CString) (pieces : List CString) : CString :=
  joinFrom separator false pieces

theorem joined_eq_intercalate (separator : CString) (pieces : List CString) :
    joined separator pieces = separator.intercalate pieces := by
  have tail : ∀ rest : List CString, joinFrom separator true rest =
      (rest.map (separator ++ ·)).flatten := by
    intro rest
    induction rest with
    | nil => rfl
    | cons piece rest ih => simp [joinFrom, ih]
  cases pieces with
  | nil => rfl
  | cons piece rest =>
    rw [joined, joinFrom, tail]
    induction rest generalizing piece with
    | nil => simp [List.intercalate]
    | cons next rest ih =>
      have step := ih next
      simp only [List.intercalate, List.intersperse_cons_cons, List.flatten_cons] at step ⊢
      simp only [Bool.false_eq_true, if_false, List.nil_append] at step ⊢
      rw [List.map_cons, List.flatten_cons, List.append_assoc, ← step]

theorem joinFrom_length_le (separator : CString) {bound : Nat} {pieces : List CString}
    (short : ∀ piece ∈ pieces, piece.length ≤ bound) (started : Bool) :
    (joinFrom separator started pieces).length ≤ pieces.length * (separator.length + bound) := by
  induction pieces generalizing started with
  | nil => simp [joinFrom]
  | cons piece pieces ih =>
    have head := short piece List.mem_cons_self
    have rest := ih (fun p member => short p (List.mem_cons_of_mem piece member)) true
    simp only [joinFrom, List.length_append, List.length_cons, Nat.succ_mul]
    have sep : (if started then separator else []).length ≤ separator.length := by
      split <;> simp
    omega

end OciWrapper.Text
