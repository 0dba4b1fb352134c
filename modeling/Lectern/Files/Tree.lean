import Lectern.Files.Path

/-!
# File trees

A **`Tree`** says what there is at each **`Place`**, which is the row of names that lead there from the top directory:
a file with its bytes and permissions, a directory, a link or a device. `get?_put` says that a tree holds what was put
there last.
-/

set_option autoImplicit false

namespace Lectern

/-- What there is at a place. -/
inductive Node where
  /-- A regular file. -/
  | file (bytes : List UInt8) (mode : Nat)
  | directory
  /-- A link to the path that a text stands for. -/
  | link (target : Text)
  /-- A device, which has no bytes. -/
  | device
deriving DecidableEq, Repr

/-- The names that lead from the top directory to a file. -/
abbrev Place := List Text

/-- What there is at each place; the top directory is always there. -/
structure Tree where
  entries : List (Place × Node)
deriving DecidableEq, Repr

namespace Tree

/-- The top directory alone. -/
def empty : Tree := ⟨[]⟩

/-- What there is at a place. -/
def get? (tree : Tree) (place : Place) : Option Node :=
  if place = [] then some .directory else tree.entries.lookup place

/-- Puts a node at a place, in the place of what was there. -/
def put (place : Place) (node : Node) (tree : Tree) : Tree :=
  ⟨(place, node) :: tree.entries.filter fun entry => entry.1 != place⟩

/-- Makes a directory, and the directories around it, where there is nothing yet. -/
def makeDirectory (place : Place) (tree : Tree) : Tree :=
  (List.range (place.length + 1)).foldl (fun tree n =>
    if (tree.get? (place.take n)).isNone then tree.put (place.take n) .directory else tree) tree

theorem get?_nil (tree : Tree) : tree.get? [] = some .directory := by simp [get?]

/-- A tree holds what was put there last, and all else stays. -/
theorem get?_put (tree : Tree) (place other : Place) (node : Node) (h : place ≠ []) :
    (tree.put place node).get? other = if other = place then some node else tree.get? other := by
  by_cases ho : other = []
  · subst ho; simp [get?, Ne.symm h]
  · by_cases he : other = place
    · subst he; simp [get?, put, ho]
    · have hp : (other == place) = false := by simpa using he
      simp only [get?, put, ho, he, if_false, List.lookup_cons, hp]
      generalize tree.entries = entries
      induction entries with
      | nil => rfl
      | cons entry entries ih =>
        by_cases hk : entry.1 = place
        · rw [List.filter_cons_of_neg (by simp [hk]), List.lookup_cons, hk, hp]
          exact ih
        · rw [List.filter_cons_of_pos (by simpa using hk), List.lookup_cons, List.lookup_cons, ih]

end Tree

end Lectern
