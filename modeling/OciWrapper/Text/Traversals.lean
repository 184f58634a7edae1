import Mathlib

namespace OciWrapper.Text

theorem mapM_forall₂ {α β : Type} {f : α → Option β} : ∀ {xs : List α} {ys : List β},
    xs.mapM f = some ys → List.Forall₂ (fun x y => f x = some y) xs ys := by
  intro xs
  induction xs with
  | nil =>
    intro ys mapped
    cases mapped
    exact .nil
  | cons x xs ih =>
    intro ys mapped
    simp only [List.mapM_cons, Option.bind_eq_bind, Option.bind_eq_some_iff, Option.pure_def,
      Option.some.injEq] at mapped
    obtain ⟨y, head, rest, tail, rfl⟩ := mapped
    exact .cons head (ih tail)

theorem exists_of_forall₂ {α β : Type} {R : α → β → Prop} {xs : List α} {ys : List β}
    (related : List.Forall₂ R xs ys) {x : α} (member : x ∈ xs) : ∃ y ∈ ys, R x y := by
  induction related with
  | nil => cases member
  | cons head tail ih =>
    rcases List.mem_cons.mp member with rfl | later
    · exact ⟨_, List.mem_cons_self, head⟩
    · obtain ⟨y, inside, holds⟩ := ih later
      exact ⟨y, List.mem_cons_of_mem _ inside, holds⟩

theorem forall₂_and {α β : Type} {R S : α → β → Prop} {xs : List α} {ys : List β}
    (first : List.Forall₂ R xs ys) (second : List.Forall₂ S xs ys) :
    List.Forall₂ (fun x y => R x y ∧ S x y) xs ys := by
  induction first with
  | nil => exact .nil
  | cons head tail ih =>
    cases second with
    | cons other rest => exact .cons ⟨head, other⟩ (ih rest)

theorem mapM_eq_none_iff {α β : Type} {f : α → Option β} {xs : List α} :
    xs.mapM f = none ↔ ∃ x ∈ xs, f x = none := by
  induction xs with
  | nil => simp
  | cons x xs ih =>
    cases head : f x with
    | none => simp [head]
    | some y =>
      rw [List.exists_mem_cons_iff, ← ih]
      cases tail : xs.mapM f <;> simp [head, tail]

/-- A loop that stops at the first failure keeps a relation exactly when an element fails, or each
element keeps it. -/
theorem mapM_keeps_iff {α β : Type} {f : α → Option β} {R : α → β → Prop} {xs : List α} :
    (∀ ys, xs.mapM f = some ys → List.Forall₂ R xs ys) ↔
      (∃ x ∈ xs, f x = none) ∨ ∀ x ∈ xs, ∀ y, f x = some y → R x y := by
  constructor
  · intro keeps
    cases mapped : xs.mapM f with
    | none => exact Or.inl (mapM_eq_none_iff.mp mapped)
    | some ys =>
      refine Or.inr fun x member y image => ?_
      have images := mapM_forall₂ mapped
      have related := keeps ys mapped
      clear keeps mapped
      induction related with
      | nil => cases member
      | cons head tail ih =>
        cases images with
        | cons first rest =>
          rcases List.mem_cons.mp member with rfl | member
          · rw [image, Option.some.injEq] at first
            rwa [first]
          · exact ih member rest
  · rintro (⟨x, member, failed⟩ | each) ys mapped
    · rw [mapM_eq_none_iff.mpr ⟨x, member, failed⟩] at mapped
      cases mapped
    · have images := mapM_forall₂ mapped
      clear mapped
      induction images with
      | nil => exact .nil
      | cons first rest ih =>
        exact .cons (each _ List.mem_cons_self _ first)
          (ih fun x member => each x (List.mem_cons_of_mem _ member))

/-- The same for a loop in a loop. -/
theorem mapM_rows_keep_iff {α β : Type} {f : α → Option β} {R : α → β → Prop}
    {rows : List (List α)} :
    (∀ out, rows.mapM (fun row => row.mapM f) = some out → List.Forall₂ (List.Forall₂ R) rows out) ↔
      (∃ row ∈ rows, ∃ x ∈ row, f x = none) ∨
        ∀ row ∈ rows, ∀ x ∈ row, ∀ y, f x = some y → R x y := by
  rw [mapM_keeps_iff]
  simp only [mapM_eq_none_iff, mapM_keeps_iff]
  constructor
  · rintro (failed | each)
    · exact Or.inl failed
    · by_cases failed : ∃ row ∈ rows, ∃ x ∈ row, f x = none
      · exact Or.inl failed
      · refine Or.inr fun row member => ?_
        rcases each row member with broken | kept
        · exact (failed ⟨row, member, broken⟩).elim
        · exact kept
  · rintro (failed | each)
    · exact Or.inl failed
    · exact Or.inr fun row member => Or.inr (each row member)

end OciWrapper.Text
