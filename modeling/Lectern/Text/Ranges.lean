/-!
# Ranges of code points

A property of characters is a list of closed ranges, ascending and apart. **`Ranges.holds`** looks a code point up
and `Ranges.wellFormed` is the shape that every table of this library has.
-/

set_option autoImplicit false

namespace Lectern

/-- Closed ranges of code points. -/
abbrev Ranges := List (Nat × Nat)

namespace Ranges

/-- Whether a code point lies in one of the ranges. -/
def holds (table : Ranges) (n : Nat) : Bool := table.any fun range => range.1 ≤ n && n ≤ range.2

/-- The ranges are ascending, and no two of them touch. -/
def wellFormed : Ranges → Bool
  | [] => true
  | [r] => r.1 ≤ r.2
  | r :: s :: table => r.1 ≤ r.2 && r.2 + 1 < s.1 && wellFormed (s :: table)

/-- How many code points the ranges hold. -/
def size (table : Ranges) : Nat := table.foldl (fun n range => n + (range.2 + 1 - range.1)) 0

end Ranges

end Lectern
