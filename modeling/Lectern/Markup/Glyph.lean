import Lectern.Text.Basic

/-!
# Glyphs

Arrows and comparisons are written with the characters of a keyboard and stand for a control word. **`Glyph`** is one
of these signs. `Glyph.arrows` lists the longer signs before the shorter ones, so that **`Glyph.startOf?`** finds the
longest of them: `<==>` is never read as `<=` and `=>`.
-/

set_option autoImplicit false

namespace Lectern

/-- A sign of the notes and the control word that it stands for, without its backslash. -/
structure Glyph where
  sign : Text
  word : Text
deriving DecidableEq, Repr

namespace Glyph

/-- The arrows, longer signs first. -/
def arrows : List Glyph :=
  [⟨"<==>".toList, "Longleftrightarrow".toList⟩, ⟨"<-->".toList, "longleftrightarrow".toList⟩,
    ⟨"<=>".toList, "Leftrightarrow".toList⟩, ⟨"<->".toList, "leftrightarrow".toList⟩,
    ⟨"<==".toList, "Longleftarrow".toList⟩, ⟨"<--".toList, "longleftarrow".toList⟩,
    ⟨"==>".toList, "Longrightarrow".toList⟩, ⟨"-->".toList, "longrightarrow".toList⟩,
    ⟨"<=".toList, "Leftarrow".toList⟩, ⟨"<-".toList, "leftarrow".toList⟩,
    ⟨"=>".toList, "Rightarrow".toList⟩, ⟨"->".toList, "rightarrow".toList⟩]

/-- The comparisons. -/
def comparisons : List Glyph :=
  [⟨">=".toList, "geq".toList⟩, ⟨"!=".toList, "neq".toList⟩]

/-- The glyph with a given sign. -/
def ofSign? (sign : Text) : Option Glyph := (arrows ++ comparisons).find? fun glyph => glyph.sign == sign

/-- The control word as it is written. -/
def control (glyph : Glyph) : Text := '\\' :: glyph.word

/-- The first glyph of the table whose sign a text starts with, and the text behind the sign. -/
def startOf? (table : List Glyph) (s : Text) : Option (Glyph × Text) :=
  table.findSome? fun glyph => (Text.after? glyph.sign s).map fun rest => (glyph, rest)

/-- A glyph that is found stands in the table and in front of the text. -/
theorem startOf?_eq_some {table : List Glyph} {s rest : Text} {glyph : Glyph}
    (h : startOf? table s = some (glyph, rest)) : glyph ∈ table ∧ s = glyph.sign ++ rest := by
  obtain ⟨g, hg, he⟩ := List.exists_of_findSome?_eq_some h
  simp only [Option.map_eq_some_iff, Prod.mk.injEq, Text.after?_eq_some] at he
  obtain ⟨r, hs, rfl, rfl⟩ := he
  exact ⟨hg, hs⟩

/-- Signs are never empty. -/
theorem sign_ne_nil {glyph : Glyph} (h : glyph ∈ arrows ++ comparisons) : glyph.sign ≠ [] := by
  revert glyph
  decide

end Glyph

end Lectern
