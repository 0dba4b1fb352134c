import Lectern.Entries

/-!
# Front matter

The head of the notes can give the title, the author, the date and packages of the document. **`FrontMatter`** collects
its commands; `FrontMatter.assign` takes a command as the assignment `key=value`, whose key ends at the first equals
sign.
-/

set_option autoImplicit false

namespace Lectern

/-- What the head of a document says. -/
structure FrontMatter where
  title? : Option Text
  author? : Option Text
  date? : Option Text
  /-- Packages in the order in which they were asked for. -/
  packages : List Text
  /-- Commands without a meaning of their own, in the order in which their keys first came. -/
  extra : List (Text × Text)
deriving DecidableEq, Repr

namespace FrontMatter

/-- The front matter of a head without commands. -/
def empty : FrontMatter := ⟨none, none, none, [], []⟩

/-- Obeys a command of the head. -/
def apply (key value : Text) (front : FrontMatter) : FrontMatter :=
  if key = "title".toList then { front with title? := some value }
  else if key = "author".toList then { front with author? := some value }
  else if key = "date".toList then { front with date? := some value }
  else if key = "usepackage".toList then { front with packages := front.packages ++ [value] }
  else { front with extra := insertEntry key value front.extra }

/-- The two sides of an assignment. -/
def splitAssignment (assignment : Text) : Text × Text := (Text.splitAt? ['='] assignment).getD (assignment, [])

/-- Obeys a command of the head that is given as an assignment. -/
def assign (assignment : Text) (front : FrontMatter) : FrontMatter :=
  let (key, value) := splitAssignment assignment
  front.apply key value

end FrontMatter

end Lectern
