import Lectern.Files.Tree

/-!
# Replacing a file

A document is not written into the file that it replaces. It goes to a hidden file in the same directory, which takes
the place of the other when it is complete; whatever happens on the way, the hidden file is removed in the end.
**`Replacement.attempt`** is the tree when this goes as far as some step. `attempt_of_lt` says that nothing has changed
unless all steps were made, and `attempt_of_le` that only the file has changed if they were.
-/

set_option autoImplicit false

namespace Lectern

namespace Tree

/-- Takes away what there is at a place. -/
def remove (place : Place) (tree : Tree) : Tree := ⟨tree.entries.filter fun entry => entry.1 != place⟩

/-- Moves what there is at a place, in the place of what was at the other. -/
def move (source target : Place) (tree : Tree) : Tree :=
  match tree.get? source with
  | some node => (tree.remove source).put target node
  | none => tree

/-- Changes the file at a place. -/
def change (place : Place) (f : List UInt8 → Nat → Node) (tree : Tree) : Tree :=
  match tree.get? place with
  | some (.file bytes mode) => tree.put place (f bytes mode)
  | _ => tree

theorem ne_nil_of_none (tree : Tree) {place : Place} (h : tree.get? place = none) : place ≠ [] := by
  rintro rfl
  rw [get?_nil] at h
  cases h

/-- Where there is nothing, nothing can be taken away. -/
theorem remove_of_none {tree : Tree} {place : Place} (h : tree.get? place = none) : tree.remove place = tree := by
  rw [get?, if_neg (tree.ne_nil_of_none h), List.lookup_eq_none_iff] at h
  obtain ⟨entries⟩ := tree
  rw [remove, List.filter_eq_self.2]
  intro entry hm
  simpa using Ne.symm (by simpa using h entry hm : place ≠ entry.1)

theorem remove_put {tree : Tree} {place : Place} (h : tree.get? place = none) (node : Node) :
    (tree.put place node).remove place = tree := by
  have hput : (tree.put place node).remove place = tree.remove place := by
    simp [put, remove]
  rw [hput, remove_of_none h]

theorem put_put (tree : Tree) (place : Place) (node other : Node) :
    (tree.put place node).put place other = tree.put place other := by
  simp [put]

theorem get?_put_self (tree : Tree) {place : Place} (h : place ≠ []) (node : Node) :
    (tree.put place node).get? place = some node := by
  rw [get?_put tree place place node h, if_pos rfl]

end Tree

namespace Replacement

/-- A step of replacing a file. -/
inductive Step where
  | create
  | fill (bytes : List UInt8)
  | permit (mode : Nat)
  | rename (place : Place)
deriving DecidableEq, Repr

/-- The permissions of a hidden file. -/
def hiddenMode : Nat := 0o600

/-- What a step does, if the hidden file is at a given place. -/
def Step.apply (hidden : Place) : Step → Tree → Tree
  | .create, tree => tree.put hidden (.file [] hiddenMode)
  | .fill bytes, tree => tree.change hidden fun _ mode => .file bytes mode
  | .permit mode, tree => tree.change hidden fun bytes _ => .file bytes mode
  | .rename place, tree => tree.move hidden place

/-- The steps that put a file with some bytes and permissions at a place. -/
def steps (place : Place) (bytes : List UInt8) (mode : Nat) : List Step :=
  [.create, .fill bytes, .permit mode, .rename place]

/-- The tree after the first `n` steps, when the hidden file has been removed. -/
def attempt (hidden place : Place) (bytes : List UInt8) (mode : Nat) (n : Nat) (tree : Tree) : Tree :=
  (((steps place bytes mode).take n).foldl (fun tree step => step.apply hidden tree) tree).remove hidden

variable {tree : Tree} {hidden place : Place}

theorem change_put (h : hidden ≠ []) (bytes : List UInt8) (mode : Nat) (f : List UInt8 → Nat → Node) :
    (tree.put hidden (.file bytes mode)).change hidden f = tree.put hidden (f bytes mode) := by
  rw [Tree.change, tree.get?_put_self h]
  exact tree.put_put hidden _ _

/-- Before the last step, all that has changed is the hidden file. -/
theorem foldl_take_cases (h : hidden ≠ []) (place : Place) (bytes : List UInt8) (mode : Nat) {n : Nat}
    (hn : n < (steps place bytes mode).length) :
    let reached := ((steps place bytes mode).take n).foldl (fun tree step => step.apply hidden tree) tree
    reached = tree ∨ ∃ node, reached = tree.put hidden node := by
  match n, hn with
  | 0, _ => exact .inl rfl
  | 1, _ => exact .inr ⟨_, rfl⟩
  | 2, _ => exact .inr ⟨_, change_put h _ _ _⟩
  | 3, _ =>
    refine .inr ⟨.file bytes mode, ?_⟩
    change ((tree.put hidden (.file [] hiddenMode)).change hidden _).change hidden _ = _
    rw [change_put h, change_put h]

/-- Unless the last step has been made, nothing has changed. -/
theorem attempt_of_lt (h : tree.get? hidden = none) (place : Place) (bytes : List UInt8) (mode : Nat) {n : Nat}
    (hn : n < (steps place bytes mode).length) : attempt hidden place bytes mode n tree = tree := by
  rcases foldl_take_cases (tree.ne_nil_of_none h) place bytes mode hn with hsame | ⟨node, hput⟩
  · rw [attempt, hsame, Tree.remove_of_none h]
  · rw [attempt, hput, Tree.remove_put h]

/-- All steps together put the file at its place. -/
theorem attempt_of_le (h : tree.get? hidden = none) (hne : place ≠ []) (hp : hidden ≠ place) (bytes : List UInt8)
    (mode : Nat) {n : Nat} (hn : (steps place bytes mode).length ≤ n) :
    attempt hidden place bytes mode n tree = tree.put place (.file bytes mode) := by
  have hhidden := tree.ne_nil_of_none h
  have hall : attempt hidden place bytes mode n tree =
      ((((tree.put hidden (.file [] hiddenMode)).change hidden fun _ mode => .file bytes mode).change hidden
        fun bytes _ => .file bytes mode).move hidden place).remove hidden := by
    rw [attempt, List.take_of_length_le hn]
    rfl
  have hmove : (tree.put hidden (.file bytes mode)).move hidden place = tree.put place (.file bytes mode) := by
    rw [Tree.move, tree.get?_put_self hhidden]
    exact congrArg (·.put place (.file bytes mode)) (Tree.remove_put h _)
  have hkept : (tree.put place (.file bytes mode)).get? hidden = none := by
    rw [Tree.get?_put _ _ _ _ hne, if_neg hp, h]
  rw [hall, change_put hhidden, change_put hhidden, hmove, Tree.remove_of_none hkept]

end Replacement

end Lectern
