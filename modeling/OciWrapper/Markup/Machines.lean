import OciWrapper.Text.Utf8

namespace OciWrapper.Markup

open OciWrapper.Text

section Runs

variable {σ ε : Type} (step : σ → Char → Option (σ × List ε))

/-- Reading a text a byte at a time: the state after it and what was reported on the way. -/
def run : σ → CString → Option (σ × List ε)
  | s, [] => some (s, [])
  | s, c :: text =>
    (step s c).bind fun (next, events) => (run next text).map fun (last, later) =>
      (last, events ++ later)

variable {step}

@[simp] theorem run_nil (s : σ) : run step s [] = some (s, []) := rfl

theorem run_cons_eq_some {s last : σ} {c : Char} {text : CString} {events : List ε} :
    run step s (c :: text) = some (last, events) ↔
      ∃ next first later, step s c = some (next, first) ∧ run step next text = some (last, later) ∧
        events = first ++ later := by
  constructor
  · intro read
    simp only [run, Option.bind_eq_some_iff, Option.map_eq_some_iff, Prod.mk.injEq] at read
    obtain ⟨⟨next, first⟩, taken, ⟨_, later⟩, rest, rfl, rfl⟩ := read
    exact ⟨next, first, later, taken, rest, rfl⟩
  · intro ⟨next, first, later, taken, rest, joined⟩
    simp [run, taken, rest, joined]

theorem run_cons_of {s next : σ} {c : Char} {text : CString} {first : List ε}
    (taken : step s c = some (next, first)) :
    run step s (c :: text) = (run step next text).map fun (last, later) => (last, first ++ later) := by
  simp [run, taken]

theorem run_cons_none {s : σ} {c : Char} {text : CString} (refused : step s c = none) :
    run step s (c :: text) = none := by
  simp [run, refused]

theorem run_append (s : σ) (before after : CString) :
    run step s (before ++ after) =
      (run step s before).bind fun (next, events) => (run step next after).map fun (last, later) =>
        (last, events ++ later) := by
  induction before generalizing s with
  | nil => simp
  | cons c before ih =>
    rw [List.cons_append, run, run]
    cases taken : step s c with
    | none => rfl
    | some out =>
      obtain ⟨next, first⟩ := out
      simp only [Option.bind_some, ih next]
      cases run step next before with
      | none => rfl
      | some out =>
        simp only [Option.bind_some, Option.map_some, Option.map_map]
        congr 1
        funext last
        simp [Function.comp]

theorem run_append_of {s next : σ} {before : CString} {events : List ε}
    (read : run step s before = some (next, events)) (after : CString) :
    run step s (before ++ after) =
      (run step next after).map fun (last, later) => (last, events ++ later) := by
  rw [run_append, read, Option.bind_some]

theorem run_append_some {s next last : σ} {before after : CString} {events later : List ε}
    (first : run step s before = some (next, events))
    (second : run step next after = some (last, later)) :
    run step s (before ++ after) = some (last, events ++ later) := by
  rw [run_append_of first, second, Option.map_some]

theorem run_append_eq_some {s last : σ} {before after : CString} {events : List ε} :
    run step s (before ++ after) = some (last, events) ↔
      ∃ next first later, run step s before = some (next, first) ∧
        run step next after = some (last, later) ∧ events = first ++ later := by
  rw [run_append, Option.bind_eq_some_iff]
  constructor
  · intro ⟨⟨next, first⟩, read, rest⟩
    simp only [Option.map_eq_some_iff, Prod.mk.injEq] at rest
    obtain ⟨⟨_, later⟩, rest, rfl, rfl⟩ := rest
    exact ⟨next, first, later, read, rest, rfl⟩
  · intro ⟨next, first, later, read, rest, joined⟩
    exact ⟨(next, first), read, by simp [rest, joined]⟩

/-- What a step keeps, a run keeps. -/
theorem run_keeps {kept : σ → Prop}
    (keeps : ∀ s c next events, step s c = some (next, events) → kept s → kept next)
    {text : CString} {s last : σ} {events : List ε}
    (read : run step s text = some (last, events)) (holds : kept s) : kept last := by
  induction text generalizing s events with
  | nil =>
    cases read
    exact holds
  | cons c text ih =>
    obtain ⟨next, first, later, taken, rest, _⟩ := run_cons_eq_some.mp read
    exact ih rest (keeps s c next first taken holds)

/-- A run reports no more than it reads when no step does, counting what a state holds back. -/
theorem run_weight_le {weight : Char → ℕ} {held : σ → ℕ} {reported : ε → ℕ}
    (bounded : ∀ s c next events, step s c = some (next, events) →
      held next + (events.map reported).sum ≤ held s + weight c)
    {text : CString} {s last : σ} {events : List ε}
    (read : run step s text = some (last, events)) :
    held last + (events.map reported).sum ≤ held s + (text.map weight).sum := by
  induction text generalizing s events with
  | nil =>
    cases read
    simp
  | cons c text ih =>
    obtain ⟨next, first, later, taken, rest, rfl⟩ := run_cons_eq_some.mp read
    have here := bounded s c next first taken
    have there := ih rest
    rw [List.map_append, List.sum_append, List.map_cons, List.sum_cons]
    omega

end Runs

end OciWrapper.Markup
