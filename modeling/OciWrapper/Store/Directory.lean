import Mathlib.Data.Set.Insert
import Mathlib.Logic.Function.Basic

namespace OciWrapper.Store

variable {P C : Type} [DecidableEq P]

/-- Writes a file, over what is there. -/
def put (fs : P → Option C) (path : P) (content : C) : P → Option C :=
  Function.update fs path (some content)

/-- Moves a file, over what is there. -/
def rename (fs : P → Option C) (source target : P) : P → Option C :=
  Function.update (Function.update fs source none) target (fs source)

/-- The paths that hold a content. -/
def places (fs : P → Option C) (content : C) : Set P := {path | fs path = some content}

variable {fs : P → Option C} {path source target : P} {content other : C}

theorem places_put :
    places (put fs path content) content = insert path (places fs content) := by
  ext p
  by_cases here : p = path
  · simp [places, put, here]
  · simp [places, put, here]

theorem places_put_other (free : fs path = none) (differs : other ≠ content) :
    places (put fs path content) other = places fs other := by
  ext p
  by_cases here : p = path
  · simp [places, put, here, free, differs.symm]
  · simp [places, put, here]

theorem places_rename (there : places fs content = {source}) (free : fs target = none) :
    places (rename fs source target) content = {target} := by
  have only : ∀ p, fs p = some content ↔ p = source := Set.ext_iff.mp there
  ext p
  by_cases here : p = target
  · simp [places, rename, here, (only source).mpr rfl]
  · by_cases origin : p = source
    · subst origin
      simp [places, rename, here]
    · simp [places, rename, here, origin, only]

theorem places_rename_other (there : fs source = some content) (free : fs target = none)
    (differs : other ≠ content) : places (rename fs source target) other = places fs other := by
  ext p
  by_cases here : p = target
  · simp [places, rename, here, there, free, differs.symm]
  · by_cases origin : p = source
    · subst origin
      simp [places, rename, here, there, differs.symm]
    · simp [places, rename, here, origin]

end OciWrapper.Store
