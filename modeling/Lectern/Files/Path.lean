import Lectern.Text.Basic

/-!
# Paths

A **`Path`** is a root and the names below it. Its text is written with one slash between two names, so several texts
stand for the same path: empty names and names that are a single period do not count. A name that is two periods does,
because it may lead out of a directory that is reached by a link.
-/

set_option autoImplicit false

namespace Lectern

/-- Where a path starts. -/
inductive Root where
  /-- The directory that a program works in. -/
  | here
  /-- The top directory, written with one slash. -/
  | top
  /-- The top directory, written with two slashes. -/
  | doubleTop
deriving DecidableEq, Repr

/-- The text of a root. -/
def Root.text : Root → Text
  | .here => []
  | .top => ['/']
  | .doubleTop => ['/', '/']

/-- A place among files. -/
structure Path where
  root : Root
  names : List Text
deriving DecidableEq, Repr

/-- The parts of a text between its slashes; there is always at least one. -/
def Text.splitSlashes : Text → List Text
  | [] => [[]]
  | c :: s =>
    if c = '/' then [] :: splitSlashes s
    else
      match splitSlashes s with
      | [] => [[c]]
      | name :: names => (c :: name) :: names

/-- A name that stays in the same directory. -/
def Text.isIdle (name : Text) : Bool := name == [] || name == ['.']

namespace Path

/-- The root of the path that a text stands for: three slashes or more count as one. -/
def rootOf : Text → Root
  | '/' :: '/' :: '/' :: _ => .top
  | '/' :: '/' :: _ => .doubleTop
  | '/' :: _ => .top
  | _ => .here

/-- The path that a text stands for. -/
def parse (s : Text) : Path := ⟨rootOf s, s.splitSlashes.filter fun name => !name.isIdle⟩

/-- The text of a path. -/
def text (path : Path) : Text :=
  match path.root.text ++ List.intercalate ['/'] path.names with
  | [] => ['.']
  | s => s

/-- The path without its last name. -/
def parent (path : Path) : Path := { path with names := path.names.dropLast }

/-- The path of a file in the directory of a path. -/
def child (path : Path) (name : Text) : Path := { path with names := path.names ++ [name] }

/-- The path of a text relative to another path, which counts only if the text has no root of its own. -/
def join (path : Path) (s : Text) : Path :=
  let inner := parse s
  if inner.root = .here then { path with names := path.names ++ inner.names } else inner

/-- The path of the directory around a path: two periods take the name before them away, if its text tells it. -/
def up (path : Path) : Path :=
  match path.names.getLast? with
  | none => if path.root = .here then path.child ['.', '.'] else path
  | some name => if name = ['.', '.'] then path.child name else path.parent

/-- The path without names that are two periods, as far as its text alone tells what they lead to. -/
def normal (path : Path) : Path :=
  path.names.foldl (fun path name => if name = ['.', '.'] then path.up else path.child name) ⟨path.root, []⟩

end Path

end Lectern
