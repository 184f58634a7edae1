import Mathlib.Algebra.Group.Nat.Defs
import Mathlib.Data.List.Basic
import Mathlib.Tactic.Basic

namespace OciWrapper.Store

abbrev Byte := BitVec 8

/-- Values that take a fixed number of bytes in memory. -/
structure Layout (α : Type) where
  size : Nat
  write : α → List Byte
  read : List Byte → α
  length_write : ∀ a, (write a).length = size
  read_write : ∀ a rest, read (write a ++ rest) = a

namespace Layout

variable {α β : Type}

/-- `char[n]`, with whatever lies behind the terminator. -/
def chars (n : Nat) : Layout (Vector Byte n) where
  size := n
  write a := a.toList
  read bytes := Vector.ofFn fun i => bytes.getD i 0
  length_write a := a.length_toList
  read_write a rest := by
    apply Vector.ext
    intro i inside
    have within : i < a.toList.length := by rwa [a.length_toList]
    rw [Vector.getElem_ofFn, List.getD_eq_getElem?_getD, List.getElem?_append_left within,
      List.getElem?_eq_getElem within, Option.getD_some, Vector.getElem_toList]

/-- `int`, its lowest byte first. -/
def int32 : Layout (BitVec 32) where
  size := 4
  write x := [0, 1, 2, 3].map fun i => BitVec.ofNat 8 (x.toNat / 256 ^ i)
  read bytes := BitVec.ofNat 32 ((bytes.take 4).foldr (fun b n => b.toNat + 256 * n) 0)
  length_write _ := rfl
  read_write x rest := by
    apply BitVec.eq_of_toNat_eq
    have bound := x.isLt
    simp only [List.map_cons, List.map_nil, List.cons_append, List.take_succ_cons, List.take_zero,
      List.foldr_cons, List.foldr_nil, BitVec.toNat_ofNat]
    omega

/-- Two members of a structure without a gap between them. -/
def pair (first : Layout α) (second : Layout β) : Layout (α × β) where
  size := first.size + second.size
  write p := first.write p.1 ++ second.write p.2
  read bytes := (first.read bytes, second.read (bytes.drop first.size))
  length_write p := by rw [List.length_append, first.length_write, second.length_write]
  read_write p rest := by
    rw [List.append_assoc, first.read_write, ← first.length_write p.1, List.drop_left,
      second.read_write]

/-- A structure laid out as its members are. -/
def members (layout : Layout α) (split : β → α) (make : α → β) (whole : ∀ b, make (split b) = b) :
    Layout β where
  size := layout.size
  write b := layout.write (split b)
  read bytes := make (layout.read bytes)
  length_write b := layout.length_write (split b)
  read_write b rest := by rw [layout.read_write, whole]

variable (layout : Layout α)

/-- The elements of an array, one behind the other. -/
def writeAll (as : List α) : List Byte := as.flatMap layout.write

def readAll : Nat → List Byte → List α
  | 0, _ => []
  | n + 1, bytes => layout.read bytes :: readAll n (bytes.drop layout.size)

theorem length_writeAll (as : List α) :
    (layout.writeAll as).length = as.length * layout.size := by
  induction as with
  | nil => exact (Nat.zero_mul _).symm
  | cons a as ih =>
    rw [writeAll, List.flatMap_cons, List.length_append, layout.length_write,
      List.length_cons, Nat.succ_mul, Nat.add_comm]
    exact congrArg (· + layout.size) ih

theorem readAll_writeAll (as : List α) (rest : List Byte) :
    layout.readAll as.length (layout.writeAll as ++ rest) = as := by
  induction as with
  | nil => rfl
  | cons a as ih =>
    rw [List.length_cons, readAll, writeAll, List.flatMap_cons, List.append_assoc,
      layout.read_write, ← layout.length_write a, List.drop_left]
    exact congrArg (a :: ·) ih

end Layout

end OciWrapper.Store
