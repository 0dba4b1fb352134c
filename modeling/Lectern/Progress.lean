import Lectern.Latex.Outline
import Lectern.Markup.Mode

/-!
# Progress through a document

**`Progress`** is what has to be remembered from one line of a document to the next: the mode in which the next line
is read, the open lists, and the line that is about to be written. `Progress.take` writes that line behind the pending
tags and leaves neither; **`Progress.takeWithin`** does so if there are spaces to indent it by.
-/

set_option autoImplicit false

namespace Lectern

/-- A line of the document with the tags in front of it. -/
structure WrittenLine where
  tags : List TagLine
  /-- The number of lists that the line is indented for, unless it is not indented at all. -/
  depth? : Option Nat
  text : Text
deriving DecidableEq, Repr

/-- The line as it is written. -/
def WrittenLine.print (width : Int) (line : WrittenLine) : Text :=
  line.tags.flatMap (TagLine.print width) ++ line.depth?.elim [] (indentAt width) ++ line.text

/-- How far a document has come. -/
structure Progress where
  mode : Mode
  outline : Outline
  /-- The line that is to be written. -/
  line : Text
deriving DecidableEq, Repr

namespace Progress

/-- The progress before the first line. -/
def initial : Progress := ⟨.initial, .empty, []⟩

/-- Changes the open lists. -/
def mapOutline (f : Outline → Outline) (progress : Progress) : Progress :=
  { progress with outline := f progress.outline }

/-- Changes the mode. -/
def mapMode (f : Mode → Mode) (progress : Progress) : Progress := { progress with mode := f progress.mode }

/-- The head has ended. -/
def endHead (progress : Progress) : Progress := progress.mapMode Mode.endHead

variable [Memory]

/-- Lists close and open until `depth` lists are open, the innermost of a given kind, or an indentation does not allow
to open one more. -/
def reconcile (indentation : Indentation) (depth : Nat) (kind : ListKind) (progress : Progress) :
    Progress × Except Unindentable Unit :=
  let (outline, done) := progress.outline.reconcileWithin indentation depth kind
  ({ progress with outline }, done)

/-- A list opens inside the innermost one. -/
def openList (indentation : Indentation) (kind : ListKind) (progress : Progress) :
    Progress × Except Unindentable Unit :=
  let (outline, done) := progress.outline.openListsWithin indentation kind 1
  ({ progress with outline }, done)

/-- Lists close until at most as many are open as the level says; a level below zero counts as zero. -/
def closeTo (level : Int) (progress : Progress) : Progress := progress.mapOutline (Outline.closeTo level.toNat)

/-- Sets the line that is to be written. -/
def setLine (line : Text) (progress : Progress) : Progress := { progress with line := line }

/-- The pending tags and the line, which are thereby written. Neither a line of a verbatim block nor an empty line is
indented. -/
def take (progress : Progress) : WrittenLine × Progress :=
  let depth? := if progress.mode.verbatim || progress.line == [] then none else some progress.outline.depth
  (⟨progress.outline.pending, depth?, progress.line⟩,
    { progress with outline := { progress.outline with pending := [] }, line := [] })

/-- What `take` writes, if there are spaces to indent the line by; otherwise nothing is written. -/
def takeWithin (indentation : Indentation) (progress : Progress) : Progress × Except Unindentable WrittenLine :=
  let (written, next) := progress.take
  match written.depth?.elim (.ok ()) indentation.allows with
  | .ok () => (next, .ok written)
  | .error reason => (progress, .error reason)

/-- A line is written if the indentation allows the depth of the innermost list. -/
theorem takeWithin_of_allows {indentation : Indentation} {progress : Progress}
    (h : indentation.allows progress.outline.depth = .ok ()) :
    progress.takeWithin indentation = (progress.take.2, .ok progress.take.1) := by
  have hw : progress.take.1.depth?.elim (.ok ()) indentation.allows = .ok () := by
    simp only [take]
    split
    · rfl
    · exact h
  simp only [takeWithin, hw]

end Progress

end Lectern
