import OciWrapper.Text.Chars

namespace OciWrapper.Text

/-- `strstr`: the text from the first occurrence on. -/
def strstr (needle : CString) : CString → Option CString
  | [] => if needle = [] then some [] else none
  | c :: s => if needle.isPrefixOf (c :: s) then some (c :: s) else strstr needle s

/-- The text between the first `opening` and the first `closing` after it. -/
def contents (opening closing s : CString) : Option CString := do
  let start ← strstr opening s
  let inner := start.drop opening.length
  let stop ← strstr closing inner
  some (inner.take (inner.length - stop.length))

def strcasecmp (a b : CString) : Bool := a.map Char.toLower = b.map Char.toLower

theorem strstr_isSome_iff (needle text : CString) :
    (strstr needle text).isSome = true ↔ needle <:+: text := by
  induction text with
  | nil =>
    rw [strstr, List.infix_nil]
    split <;> simp [*]
  | cons c text ih =>
    rw [strstr, List.infix_cons_iff, ← ih]
    by_cases here : needle.isPrefixOf (c :: text) = true
    · simp [here, List.isPrefixOf_iff_prefix.mp here]
    · have absent : ¬needle <+: c :: text := fun starts => here (List.isPrefixOf_iff_prefix.mpr starts)
      simp [here, absent]

theorem strcasecmp_length {a b : CString} (same : strcasecmp a b = true) : a.length = b.length := by
  have lengths := congrArg List.length (of_decide_eq_true same)
  simpa using lengths

end OciWrapper.Text
