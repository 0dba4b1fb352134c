import Lectern.Files.Tree

/-!
# Systems

What a program can do with files is not told by the files alone. A **`System`** is what else there is to it: whom the
files belong to and whether their device works (**`Rights`**), which characters can be encoded (**`Codec`**), and how
deep calls may nest before they exhaust the stack. **`System.free`** is a system that stands in the way of nothing.
-/

set_option autoImplicit false

namespace Lectern

/-- What keeps a program from something that is there. -/
inductive Barrier where
  /-- The program lacks the permission. -/
  | denied
  /-- The device does not work. -/
  | broken
deriving DecidableEq, Repr

/-- What a program is kept from, by places. -/
structure Rights where
  /-- Why names cannot be looked up in a directory. -/
  search : Place → Option Barrier
  /-- Why a file cannot be opened to be read. -/
  read : Place → Option Barrier
  /-- Why a file cannot be changed, or none be made in a directory. -/
  write : Place → Option Barrier

/-- A text that cannot be encoded, or bytes that are none, and what a message says of it. -/
structure Unencodable where
  message : Text
deriving DecidableEq, Repr

/-- Which characters can be encoded, apart from those of ASCII, which always can.

Bytes that are no text come as lone surrogates. There is no `Char` for these: characters that are not used otherwise
stand for them. A path can hold those that come from bytes, and a file can hold none. -/
structure Codec where
  /-- Whether a path can hold a character. -/
  inPaths : Char → Bool
  /-- Whether the text in a file can hold a character. -/
  inFiles : Char → Bool
  /-- What a message says of a text that cannot be encoded. -/
  complaint : Text → Text

/-- What a program depends on apart from the files. -/
structure System where
  rights : Rights
  codec : Codec
  /-- How many links can be replaced inside of each other. -/
  linkDepth : Nat
  /-- How many calls can be inside of each other when values in tables are read. -/
  valueDepth : Nat
  /-- The name of a file that a document is written to before it takes its place. -/
  hiddenName : Text

namespace System

/-- A system that stands in the way of nothing, with a stack of a thousand calls. -/
def free : System where
  rights := ⟨fun _ => none, fun _ => none, fun _ => none⟩
  codec := ⟨fun _ => true, fun _ => true, fun _ => []⟩
  linkDepth := 900
  valueDepth := 900
  hiddenName := "hidden".toList

/-- Whether a character can be encoded, if `takes` says so of those that are not in ASCII. -/
def encodes (takes : Char → Bool) (c : Char) : Bool := c.val < 128 || takes c

/-- Why a text cannot be encoded, if `takes` says which characters can be. -/
def unencodable? (system : System) (takes : Char → Bool) (s : Text) : Option Unencodable :=
  if s.all (encodes takes) then none else some ⟨system.codec.complaint s⟩

theorem unencodable?_eq_none_iff {system : System} {takes : Char → Bool} {s : Text} :
    system.unencodable? takes s = none ↔ ∀ c ∈ s, encodes takes c = true := by
  rw [unencodable?, ite_eq_left_iff]
  simp

end System

end Lectern
