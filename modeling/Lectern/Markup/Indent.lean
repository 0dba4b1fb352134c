import Lectern.Text.Basic

/-!
# Indentation

Spaces and tabs in front of a line are measured in columns, a tab reaching to the next multiple of four; two columns
make a list level. **`Text.columns`** is the measure and `listLevel` the depth of a list marker.
-/

set_option autoImplicit false

namespace Lectern

/-- The distance between two tab stops. -/
def tabWidth : Nat := 4

/-- The columns of indentation that make a list level. -/
def levelWidth : Nat := 2

namespace Text

/-- The column that the indentation of a text reaches from a given column. -/
def columnsFrom (column : Nat) : Text → Nat
  | ' ' :: s => columnsFrom (column + 1) s
  | '\t' :: s => columnsFrom (column + (tabWidth - column % tabWidth)) s
  | _ => column

/-- The width of the indentation of a text. -/
def columns (s : Text) : Nat := columnsFrom 0 s

end Text

/-- The depth of a list whose marker has a given indentation. -/
def listLevel (indent : Text) : Nat := indent.columns / levelWidth + 1

end Lectern
