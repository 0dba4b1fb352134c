import Lectern.Text.Basic

/-!
# Modes

How a line is read depends on what was open before it: the document head, a verbatim block, a math block.
**`Mode`** holds these three.
-/

set_option autoImplicit false

namespace Lectern

/-- What is open at a place in the notes. -/
structure Mode where
  /-- The document head has not ended. -/
  head : Bool
  /-- A verbatim block is open. -/
  verbatim : Bool
  /-- The delimiter that opened the math block; empty outside of one. -/
  delimiter : Text
deriving DecidableEq, Repr

namespace Mode

/-- The mode in which notes begin: only the head is open. -/
def initial : Mode := ⟨true, false, []⟩

/-- Whether a math block is open. -/
def math (mode : Mode) : Bool := mode.delimiter != []

/-- Whether a block is open in which text is not notes. -/
def inBlock (mode : Mode) : Bool := mode.verbatim || mode.math

/-- The head has ended. -/
def endHead (mode : Mode) : Mode := { mode with head := false }

/-- A verbatim block opens or closes. -/
def toggleVerbatim (mode : Mode) : Mode := { mode with verbatim := !mode.verbatim }

/-- A math block closes, or opens with a delimiter. -/
def toggleMath (delimiter : Text) (mode : Mode) : Mode :=
  { mode with delimiter := if mode.math then [] else delimiter }

end Mode

/-- The delimiters that open a math block, each with the one that closes it. -/
def mathClosers : List (Text × Text) := [("$$".toList, "$$".toList), ("\\[".toList, "\\]".toList)]

/-- The delimiter that closes the math block that a delimiter opens. -/
def mathCloser? (delimiter : Text) : Option Text := mathClosers.lookup delimiter

end Lectern
