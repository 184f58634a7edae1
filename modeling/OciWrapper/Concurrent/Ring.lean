import Mathlib.Data.List.Basic
import Mathlib.Data.Nat.ModEq

namespace OciWrapper.Concurrent.Ring

variable {β : Type} {cells xs : List β} {head : Nat}

/-- From `head` on, around the end of the buffer, the cells hold `xs` in order. -/
def Holds (cells : List β) (head : Nat) (xs : List β) : Prop :=
  ∀ i, i < xs.length → cells[(head + i) % cells.length]? = xs[i]?

theorem holds_nil : Holds cells head [] := by
  intro i inside
  simp at inside

/-- Two offsets in the buffer reach different cells. -/
theorem offset_inj {size i j : Nat} (first : i < size) (second : j < size)
    (same : (head + i) % size = (head + j) % size) : i = j := by
  have congruent : i ≡ j [MOD size] := Nat.ModEq.add_left_cancel' head same
  rw [Nat.ModEq, Nat.mod_eq_of_lt first, Nat.mod_eq_of_lt second] at congruent
  exact congruent

theorem Holds.set_outside (holds : Holds cells head xs) {cell : Nat} (y : β)
    (outside : ∀ i, i < xs.length → (head + i) % cells.length ≠ cell) :
    Holds (cells.set cell y) head xs := by
  intro i inside
  rw [List.length_set, List.getElem?_set_ne (outside i inside).symm]
  exact holds i inside

/-- A value put behind the last one. -/
theorem Holds.push (holds : Holds cells head xs) (room : xs.length < cells.length) (y : β) :
    Holds (cells.set ((head + xs.length) % cells.length) y) head (xs ++ [y]) := by
  have old : Holds (cells.set ((head + xs.length) % cells.length) y) head xs := by
    apply holds.set_outside
    intro i inside same
    have last := offset_inj (by omega) room same
    omega
  intro i inside
  by_cases before : i < xs.length
  · rw [List.getElem?_append_left before]
    exact old i before
  · have last : i = xs.length := by
      simp only [List.length_append, List.length_singleton] at inside
      omega
    subst last
    have cell : (head + xs.length) % cells.length < cells.length :=
      Nat.mod_lt _ (by omega)
    simp [cell]

/-- The first value, and the cells behind it. -/
theorem Holds.pop {x : β} (holds : Holds cells head (x :: xs)) (fits : xs.length < cells.length)
    (y : β) :
    cells[head % cells.length]? = some x ∧
      Holds (cells.set (head % cells.length) y) ((head + 1) % cells.length) xs := by
  refine ⟨by simpa using holds 0 (by simp), ?_⟩
  have later : Holds cells ((head + 1) % cells.length) xs := by
    intro i inside
    have next := holds (i + 1) (by simpa using inside)
    rw [Nat.mod_add_mod]
    simpa [Nat.add_assoc, Nat.add_comm 1 i] using next
  apply later.set_outside
  intro i inside same
  rw [Nat.mod_add_mod, Nat.add_assoc] at same
  have first : 1 + i = 0 := offset_inj (by omega) (by omega) same
  omega

end OciWrapper.Concurrent.Ring
