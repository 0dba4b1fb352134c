import Lectern.FrontMatter
import Lectern.Text.Quoted
import Lectern.Value.Display

/-!
# Particulars

The title, the author, the date and the packages of a document may be values of any type as long as nobody has checked
them. **`Particulars`** are such values; `Particulars.under` puts what the head of the notes says in their place.
-/

set_option autoImplicit false

namespace Lectern

/-- What is known of a document, in values of any type. -/
structure Particulars where
  title : Value
  author : Value
  date : Value
  packages : List Value
  extra : List (Text × Value)

/-- Why entries do not make particulars. -/
inductive EntryError where
  | badKey (error : BadKey)
  /-- The parts with these names, at least one, are missing. -/
  | missing (names : List Text)
deriving DecidableEq, Repr

namespace Particulars

/-- Who takes the entries of particulars. -/
def receiver : Receiver := ⟨"DocumentHead.__init__".toList, "self".toList⟩

/-- The parts that have to be given. -/
def required : List Text := ["title".toList, "author".toList, "date".toList]

/-- The parts that are empty unless they are given. -/
def optional : List Text := ["packages".toList, "extra".toList]

/-- Names between quotes in a row, the last behind an `and`. -/
def nameRow : List Text → Text
  | [] => []
  | [name] => Text.quote name
  | [first, second] => Text.quote first ++ " and ".toList ++ Text.quote second
  | names =>
    List.intercalate ", ".toList (names.dropLast.map Text.quote) ++ ", and ".toList ++
      Text.quote (names.getLast?.getD [])

end Particulars

/-- What a message says of entries that make no particulars. -/
def EntryError.message : EntryError → Text
  | .badKey error => error.message
  | .missing names =>
    Particulars.receiver.name ++ s!"() missing {names.length} required positional argument".toList ++
      (if names.length = 1 then [] else ['s']) ++ ": ".toList ++ Particulars.nameRow names

namespace Particulars

/-- The particulars that entries give. -/
def ofEntries? (entries : List (Text × Value)) : Except EntryError Particulars :=
  match entries.find? fun entry => !(required ++ optional).contains entry.1 with
  | some (key, _) => .error (.badKey (receiver.refuse key))
  | none =>
    match required.map fun name => entries.lookup name with
    | [some title, some author, some date] =>
      let packages := ((entries.lookup "packages".toList).bind Value.elements?).getD []
      let extra := ((entries.lookup "extra".toList).bind Value.entries?).getD []
      .ok ⟨title, author, date, packages, extra⟩
    | _ => .error (.missing (required.filter fun name => (entries.lookup name).isNone))

/-- The particulars where the head of the notes has the last word. -/
def under (front : FrontMatter) (particulars : Particulars) : Particulars where
  title := front.title?.elim particulars.title .text
  author := front.author?.elim particulars.author .text
  date := front.date?.elim particulars.date .text
  packages := particulars.packages ++ front.packages.map .text
  extra := front.extra.foldl (fun extra entry => insertEntry entry.1 (.text entry.2) extra) particulars.extra

end Particulars

end Lectern
