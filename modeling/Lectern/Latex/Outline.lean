import Lectern.Latex.Indentation
import Lectern.Markup.Token

/-!
# Outlines

Lists nest. An **`Outline`** knows which of them are open at a place in the document and which tags have still to be
written there. `Outline.reconcile` is the step from one list item to the next: it closes what is too deep, opens what
is missing and exchanges the innermost list if it is of the other kind. `depth_reconcile` says that it arrives at the
depth that it was asked for. How far a line is indented is known by its depth; how many spaces that are is asked only
when the line is printed. What can fail is that there are too many of them: **`Outline.reconcileWithin`** opens lists
only as long as an indentation allows it, and `reconcileWithin_of_allows` says that it does the whole step if the last
of them is allowed. A list that closes does so at a depth at which it was opened.
-/

set_option autoImplicit false

namespace Lectern

/-- The beginning or the end of a list environment. -/
inductive Tag where
  | opens (kind : ListKind)
  | closes (kind : ListKind)
deriving DecidableEq, Repr

/-- The tag as it is written. -/
def Tag.print : Tag → Text
  | .opens kind => "\\begin\x7b".toList ++ kind.name ++ ['\x7d']
  | .closes kind => "\\end\x7b".toList ++ kind.name ++ ['\x7d']

/-- A tag on a line of its own, inside as many lists as its depth says. -/
structure TagLine where
  depth : Nat
  tag : Tag
deriving DecidableEq, Repr

/-- The spaces in front of a line that stands inside a number of lists. -/
def indentAt (width : Int) (depth : Nat) : Text := Text.spaces (width * depth).toNat

/-- The line as it is written. -/
def TagLine.print (width : Int) (line : TagLine) : Text := indentAt width line.depth ++ line.tag.print ++ ['\n']

/-- The lists that are open, and the tags that have not been written yet. -/
structure Outline where
  /-- The open lists, the innermost first. -/
  levels : List ListKind
  /-- The tags to write in front of the next line. -/
  pending : List TagLine
deriving DecidableEq, Repr

namespace Outline

/-- The outline in which no list is open. -/
def empty : Outline := ⟨[], []⟩

/-- The number of open lists. -/
def depth (outline : Outline) : Nat := outline.levels.length

/-- The pending tags as they are written. -/
def pendingText (width : Int) (outline : Outline) : Text := outline.pending.flatMap (TagLine.print width)

/-- The spaces in front of a line of the innermost list. -/
def indent (width : Int) (outline : Outline) : Text := indentAt width outline.depth

/-- A list opens inside the innermost one. -/
def openList (kind : ListKind) (outline : Outline) : Outline :=
  ⟨kind :: outline.levels, outline.pending ++ [⟨outline.depth, .opens kind⟩]⟩

/-- The innermost list closes, if there is one. -/
def closeInnermost (outline : Outline) : Outline :=
  match outline.levels with
  | [] => outline
  | kind :: levels => ⟨levels, outline.pending ++ [⟨levels.length, .closes kind⟩]⟩

/-- Why a list cannot be closed. -/
inductive Mismatch where
  | noListOpen (kind : ListKind)
  | otherListOpen (kind innermost : ListKind)
deriving DecidableEq, Repr

/-- What a message says of a list that cannot be closed. -/
def Mismatch.message : Mismatch → Text
  | .noListOpen kind => "Cannot close ".toList ++ kind.name ++ ": no list is open".toList
  | .otherListOpen kind innermost =>
    "Cannot close ".toList ++ kind.name ++ ": innermost open list is ".toList ++ innermost.name

/-- A list of a given kind closes; it has to be the innermost one. -/
def closeList? (kind : ListKind) (outline : Outline) : Except Mismatch Outline :=
  match outline.levels with
  | [] => .error (.noListOpen kind)
  | innermost :: _ =>
    if innermost = kind then .ok outline.closeInnermost else .error (.otherListOpen kind innermost)

/-- A number of lists close, the innermost first. -/
def closeLists : Nat → Outline → Outline
  | 0, outline => outline
  | n + 1, outline => closeLists n outline.closeInnermost

/-- A number of lists of one kind open. -/
def openLists (kind : ListKind) : Nat → Outline → Outline
  | 0, outline => outline
  | n + 1, outline => openLists kind n (outline.openList kind)

/-- Lists close until at most `depth` are open. -/
def closeTo (depth : Nat) (outline : Outline) : Outline := closeLists (outline.depth - depth) outline

/-- The innermost list becomes one of a given kind. -/
def exchange (kind : ListKind) (outline : Outline) : Outline :=
  match outline.levels with
  | [] => outline
  | innermost :: _ => if innermost = kind then outline else outline.closeInnermost.openList kind

/-- Lists close and open until `depth` lists are open, the innermost of a given kind. -/
def reconcile (depth : Nat) (kind : ListKind) (outline : Outline) : Outline :=
  let outline := outline.closeTo depth
  (openLists kind (depth - outline.depth) outline).exchange kind

/-- A number of lists of one kind open as long as an indentation allows the depth at which they do. -/
def openListsWithin [Memory] (indentation : Indentation) (kind : ListKind) :
    Nat → Outline → Outline × Except Unindentable Unit
  | 0, outline => (outline, .ok ())
  | n + 1, outline =>
    match indentation.allows outline.depth with
    | .error reason => (outline, .error reason)
    | .ok () => openListsWithin indentation kind n (outline.openList kind)

/-- Lists close and open until `depth` lists are open, the innermost of a given kind, or an indentation does not allow
to open one more. -/
def reconcileWithin [Memory] (indentation : Indentation) (depth : Nat) (kind : ListKind) (outline : Outline) :
    Outline × Except Unindentable Unit :=
  let outline := outline.closeTo depth
  match openListsWithin indentation kind (depth - outline.depth) outline with
  | (outline, .error reason) => (outline, .error reason)
  | (outline, .ok ()) => (outline.exchange kind, .ok ())

/-! ## Depth -/

@[simp] theorem depth_openList (kind : ListKind) (outline : Outline) :
    (outline.openList kind).depth = outline.depth + 1 := rfl

@[simp] theorem depth_closeInnermost (outline : Outline) : outline.closeInnermost.depth = outline.depth - 1 := by
  unfold closeInnermost
  split <;> simp_all [depth]

@[simp] theorem depth_closeLists (n : Nat) (outline : Outline) :
    (closeLists n outline).depth = outline.depth - n := by
  induction n generalizing outline with
  | zero => rfl
  | succ n ih => simp only [closeLists, ih, depth_closeInnermost]; omega

@[simp] theorem depth_openLists (kind : ListKind) (n : Nat) (outline : Outline) :
    (openLists kind n outline).depth = outline.depth + n := by
  induction n generalizing outline with
  | zero => rfl
  | succ n ih => simp only [openLists, ih, depth_openList]; omega

@[simp] theorem depth_closeTo (depth : Nat) (outline : Outline) :
    (outline.closeTo depth).depth = min outline.depth depth := by
  simp only [closeTo, depth_closeLists]
  omega

@[simp] theorem depth_exchange (kind : ListKind) (outline : Outline) : (outline.exchange kind).depth = outline.depth := by
  unfold exchange
  split
  · rfl
  · next innermost levels h =>
    split
    · rfl
    · simp [depth, openList, closeInnermost, h]

/-- Reconciling arrives at the depth that was asked for. -/
@[simp] theorem depth_reconcile (depth : Nat) (kind : ListKind) (outline : Outline) :
    (outline.reconcile depth kind).depth = depth := by
  simp only [reconcile, depth_exchange, depth_openLists, depth_closeTo]
  omega

/-! ## Lists within an indentation -/

variable [Memory]

/-- All lists open if the indentation allows the depth of the last one. -/
theorem openListsWithin_of_allows {indentation : Indentation} {kind : ListKind} {n : Nat} {outline : Outline}
    (h : ∀ depth < outline.depth + n, indentation.allows depth = .ok ()) :
    openListsWithin indentation kind n outline = (openLists kind n outline, .ok ()) := by
  induction n generalizing outline with
  | zero => rfl
  | succ n ih =>
    rw [openListsWithin, h outline.depth (by omega)]
    exact ih fun depth hd => h depth (by rw [depth_openList] at hd; omega)

/-- The whole step is done if the indentation allows the depth that is asked for. -/
theorem reconcileWithin_of_allows {indentation : Indentation} {depth : Nat} {kind : ListKind} {outline : Outline}
    (h : indentation.allows depth = .ok ()) :
    outline.reconcileWithin indentation depth kind = (outline.reconcile depth kind, .ok ()) := by
  have hd : ∀ smaller < (outline.closeTo depth).depth + (depth - (outline.closeTo depth).depth),
      indentation.allows smaller = .ok () := by
    intro smaller hs
    rw [depth_closeTo] at hs
    exact Indentation.allows_of_le h (by omega)
  simp only [reconcileWithin, openListsWithin_of_allows hd, reconcile]

end Outline

end Lectern
