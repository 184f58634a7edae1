import Mathlib.Data.List.Basic

namespace OciWrapper.Concurrent

variable {S E : Type}

/-- Every event of the run meets the condition in the state that it finds. -/
def Meets (step : S → E → S) (condition : S → E → Prop) : S → List E → Prop
  | _, [] => True
  | s, e :: events => condition s e ∧ Meets step condition (step s e) events

variable {step : S → E → S} {condition other : S → E → Prop} {inv : S → Prop}

theorem Meets.append_iff {s : S} {first later : List E} :
    Meets step condition s (first ++ later) ↔
      Meets step condition s first ∧ Meets step condition (first.foldl step s) later := by
  induction first generalizing s with
  | nil => simp [Meets]
  | cons e first ih => simp only [List.cons_append, Meets, List.foldl_cons, ih, and_assoc]

/-- What the condition preserves at one event holds at the end of the run. -/
theorem Meets.invariant (keeps : ∀ s e, inv s → condition s e → inv (step s e)) {s : S}
    (start : inv s) {events : List E} (meets : Meets step condition s events) :
    inv (events.foldl step s) := by
  induction events generalizing s with
  | nil => exact start
  | cons e events ih => exact ih (keeps s e start meets.1) meets.2

/-- Under an invariant of the runs that meet it, a condition can give way to a weaker one. -/
theorem Meets.imp (keeps : ∀ s e, inv s → condition s e → inv (step s e))
    (weaker : ∀ s e, inv s → condition s e → other s e) {s : S} (start : inv s) {events : List E}
    (meets : Meets step condition s events) : Meets step other s events := by
  induction events generalizing s with
  | nil => trivial
  | cons e events ih =>
    exact ⟨weaker s e start meets.1, ih (keeps s e start meets.1) meets.2⟩

/-- Two conditions that agree under the invariant are met by the same runs. -/
theorem Meets.congr (keeps : ∀ s e, inv s → condition s e → inv (step s e))
    (agree : ∀ s e, inv s → (condition s e ↔ other s e)) {s : S} (start : inv s)
    {events : List E} : Meets step condition s events ↔ Meets step other s events :=
  ⟨Meets.imp keeps (fun s e holds => (agree s e holds).mp) start,
    Meets.imp (fun s e holds met => keeps s e holds ((agree s e holds).mpr met))
      (fun s e holds => (agree s e holds).mpr) start⟩

/-- A law that the condition keeps, and that a step against the condition breaks, holds in
    every state of exactly the runs that meet the condition. -/
theorem Meets.lawful_iff {law : S → Prop}
    (keeps : ∀ s e, inv s → condition s e → inv (step s e)) (lawful : ∀ s, inv s → law s)
    (breaks : ∀ s e, inv s → law (step s e) → condition s e) {s : S} (start : inv s) {events : List E} :
    (∀ reached, reached <+: events → law (reached.foldl step s)) ↔
      Meets step condition s events := by
  constructor
  · intro all
    induction events generalizing s with
    | nil => trivial
    | cons e events ih =>
      have met := breaks s e start (all [e] ⟨events, rfl⟩)
      refine ⟨met, ih (keeps s e start met) fun reached ahead => ?_⟩
      exact all (e :: reached) (List.cons_prefix_cons.mpr ⟨rfl, ahead⟩)
  · rintro meets reached ⟨later, rfl⟩
    exact lawful _ (Meets.invariant keeps start (Meets.append_iff.mp meets).1)

end OciWrapper.Concurrent
