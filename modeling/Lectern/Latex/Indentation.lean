import Lectern.Text.Repeat

/-!
# Indentation

A line of the document stands inside a number of lists, its depth, and is indented by as many spaces for each of them.
An **`Indentation`** says by how many, or why there is no such number. It **allows** a depth if there can be as many
spaces as that takes; `allows_of_le` says that it then allows every smaller depth.
-/

set_option autoImplicit false

namespace Lectern

/-- Why a line cannot be indented. -/
inductive Unindentable where
  /-- There are too many spaces. -/
  | unrepeatable (reason : Unrepeatable)
  /-- What there is instead of a number of spaces can be multiplied, but is no number of spaces. -/
  | notCount (typeName : Text)
  /-- What there is instead of a number of spaces cannot be multiplied. -/
  | notMultipliable (typeName : Text)
deriving DecidableEq, Repr

/-- What a message says of a line that cannot be indented. -/
def Unindentable.message : Unindentable → Text
  | .unrepeatable reason => reason.message
  | .notCount typeName => "can't multiply sequence by non-int of type '".toList ++ typeName ++ ['\'']
  | .notMultipliable typeName => "unsupported operand type(s) for *: '".toList ++ typeName ++ "' and 'int'".toList

/-- By how many spaces a line is indented for each list around it. -/
inductive Indentation where
  | spaces (width : Int)
  | impossible (reason : Unindentable)
deriving DecidableEq, Repr

namespace Indentation

/-- The number of spaces for one list; there is none if no line can be indented. -/
def width : Indentation → Int
  | .spaces width => width
  | .impossible _ => 0

variable [Memory]

/-- Whether there can be the spaces in front of a line of some depth. -/
def allows (depth : Nat) : Indentation → Except Unindentable Unit
  | .spaces width =>
    match Text.copies 1 (width * depth) with
    | .ok _ => .ok ()
    | .error reason => .error (.unrepeatable reason)
  | .impossible reason => .error reason

/-- The spaces in front of a line of some depth. -/
def text? (depth : Nat) (indentation : Indentation) : Except Unindentable Text :=
  (indentation.allows depth).map fun _ => Text.spaces (indentation.width * depth).toNat

/-- An indentation allows a depth if the number of spaces can be an index and they fit into the memory. -/
theorem allows_spaces_eq_ok_iff {width : Int} {depth : Nat} :
    (Indentation.spaces width).allows depth = .ok () ↔
      -(Text.indexBound : Int) ≤ width * depth ∧ width * depth ≤ Memory.size := by
  have hb := Memory.size_lt
  have hi : 0 < Text.indexBound := by decide
  simp only [allows]
  split
  · next n h =>
    have := Text.copies_eq_ok_iff.1 h
    simp only [true_iff]
    omega
  · next reason h =>
    simp only [reduceCtorEq, false_iff]
    intro hw
    have hc : Text.copies 1 (width * depth) = .ok (width * depth).toNat :=
      Text.copies_eq_ok_iff.2 ⟨rfl, by omega, by omega, by omega⟩
    rw [h] at hc
    cases hc

/-- What is allowed for a depth is allowed for every smaller one. -/
theorem allows_of_le {indentation : Indentation} {depth smaller : Nat} (h : indentation.allows depth = .ok ())
    (hs : smaller ≤ depth) : indentation.allows smaller = .ok () := by
  cases indentation with
  | impossible reason => cases h
  | spaces width =>
    rw [allows_spaces_eq_ok_iff] at h ⊢
    have hi : 0 < Text.indexBound := by decide
    rcases Int.le_total 0 width with hw | hw
    · have h1 : width * smaller ≤ width * depth := Int.mul_le_mul_of_nonneg_left (by omega) hw
      have h2 : 0 ≤ width * smaller := Int.mul_nonneg hw (by omega)
      omega
    · have h1 : width * depth ≤ width * smaller := Int.mul_le_mul_of_nonpos_left hw (by omega)
      have h2 : width * smaller ≤ 0 := Int.mul_nonpos_of_nonpos_of_nonneg hw (by omega)
      omega

end Indentation

end Lectern
