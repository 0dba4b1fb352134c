import Lectern.Text.Basic

/-!
# Repeated texts

A text can be repeated any number of times, but the number has to be one that an index can be, and the result may have
no more characters than an index can count and the **`Memory`** can hold. **`Text.copies`** is the number of copies,
which is zero if there is to be a negative number of them; `copies_eq_ok_iff` says when there is such a number.
-/

set_option autoImplicit false

namespace Lectern

/-- Why a text cannot be repeated. -/
inductive Unrepeatable where
  /-- The number of times is not one that an index can be. -/
  | noIndex
  /-- The result has more characters than an index can count. -/
  | tooLong
  /-- The result has more characters than the memory can hold. -/
  | noMemory
deriving DecidableEq, Repr

/-- What a message says of a text that cannot be repeated; there is nothing to say when the memory is full. -/
def Unrepeatable.message : Unrepeatable → Text
  | .noIndex => "cannot fit 'int' into an index-sized integer".toList
  | .tooLong => "repeated string is too long".toList
  | .noMemory => []

namespace Text

/-- The number below which every index is. -/
def indexBound : Nat := 9223372036854775808

end Text

/-- The memory that a program runs with. It is an inferred parameter: nothing but a repeated text depends on it. -/
class Memory where
  /-- The number of characters that it can hold. -/
  size : Nat
  size_lt : size < Text.indexBound

/-- The memory of examples and of the program, which has room for 64 gigabytes. -/
instance Memory.large : Memory := ⟨68719476736, by decide⟩

namespace Text

variable [Memory]

/-- The number of copies of a text of some length that repeating it `count` times gives. -/
def copies (length : Nat) (count : Int) : Except Unrepeatable Nat :=
  if count < -(indexBound : Int) ∨ (indexBound : Int) ≤ count then .error .noIndex
  else if indexBound ≤ length * count.toNat then .error .tooLong
  else if Memory.size < length * count.toNat then .error .noMemory
  else .ok count.toNat

/-- A text can be repeated if the number can be an index and the result fits into the memory. -/
theorem copies_eq_ok_iff {length n : Nat} {count : Int} :
    copies length count = .ok n ↔
      n = count.toNat ∧ -(indexBound : Int) ≤ count ∧ count < indexBound ∧ length * count.toNat ≤ Memory.size := by
  have hb := Memory.size_lt
  unfold copies
  constructor
  · intro h
    split at h
    · cases h
    · split at h
      · cases h
      · split at h
        · cases h
        · cases h
          omega
  · rintro ⟨rfl, hl, hu, hm⟩
    rw [if_neg (by omega), if_neg (by omega), if_neg (by omega)]

end Text

end Lectern
