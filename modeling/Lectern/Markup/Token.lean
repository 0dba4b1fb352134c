import Lectern.Text.Numeral
import Lectern.Text.Repeat
import Lectern.Markup.Glyph

/-!
# Tokens

A line of notes is read as a list of **`Token`**s. A **`Lexeme`** is the flat written form of a token, a kind and a
text, in which lists of tokens are shown, compared and merged: `Token.lexeme` writes a token and `Lexeme.token?` reads
it back.
-/

set_option autoImplicit false

namespace Lectern

/-- The list environments. -/
inductive ListKind where
  | itemize
  | enumerate
deriving DecidableEq, Repr

/-- The name of the environment. -/
def ListKind.name : ListKind → Text
  | .itemize => "itemize".toList
  | .enumerate => "enumerate".toList

/-- The list environment with a given name. -/
def ListKind.ofName? (name : Text) : Option ListKind :=
  [ListKind.itemize, .enumerate].find? fun kind => kind.name == name

/-- A list level below zero was asked for. -/
structure NegativeLevel where
  level : Int
deriving DecidableEq, Repr

/-- What a message says of a list level below zero. -/
def NegativeLevel.message (failure : NegativeLevel) : Text :=
  "List level must be >= 0, got ".toList ++ Numeral.writeInt failure.level

/-- A list level as a depth. -/
def depthOfLevel? : Int → Except NegativeLevel Nat
  | .ofNat n => .ok n
  | .negSucc n => .error ⟨.negSucc n⟩

/-- A classified piece of a line. -/
inductive Token where
  /-- Text that no rule has classified yet. -/
  | raw (text : Text)
  /-- A command of the document head, as the assignment `key=value`. -/
  | command (assignment : Text)
  /-- A section heading. -/
  | heading (level : Nat) (title : Text)
  /-- A fence that opens or closes a verbatim block. -/
  | fence (opens : Bool)
  /-- A line that opens or closes a math block. -/
  | delimiter (mark : Text)
  /-- Text that stands for itself. -/
  | text (content : Text)
  /-- An arrow. -/
  | arrow (glyph : Glyph)
  /-- A comparison sign. -/
  | comparison (glyph : Glyph)
  /-- The marker of a list item with the depth of its list. -/
  | item (kind : ListKind) (level : Nat)
  /-- A bold span, without its delimiters. -/
  | bold (body : Text)
  /-- An italic span, without its delimiters. -/
  | italic (body : Text)
  /-- A verbatim span, without its delimiters. -/
  | verbatim (body : Text)
  /-- A math span with its delimiters. -/
  | math (span : Text)
deriving DecidableEq, Repr

/-- The text that is still to be classified, if there is any. -/
def Token.rawIfAny (s : Text) : List Token := if s = [] then [] else [.raw s]

/-! ## Written form -/

/-- The kinds of lexemes. -/
inductive Lexeme.Kind where
  | unlexed
  | header
  | «section»
  | verbBlock
  | mathBlock
  | textContent
  | arrow
  | symbol
  | bullet
  | enumerate
  | bold
  | italic
  | verb
  | math
deriving DecidableEq, Repr

/-- The name of a kind. -/
def Lexeme.Kind.name : Lexeme.Kind → Text
  | .unlexed => "UNLEXED".toList
  | .header => "HEADER".toList
  | .section => "SECTION".toList
  | .verbBlock => "VERB_BLOCK".toList
  | .mathBlock => "MATH_BLOCK".toList
  | .textContent => "TEXT_CONTENT".toList
  | .arrow => "ARROW".toList
  | .symbol => "SYMBOL".toList
  | .bullet => "BULLET".toList
  | .enumerate => "ENUMERATE".toList
  | .bold => "BOLD".toList
  | .italic => "ITALIC".toList
  | .verb => "VERB".toList
  | .math => "MATH".toList

/-- The kind with a given name. -/
def Lexeme.Kind.ofName? (name : Text) : Option Lexeme.Kind :=
  [Lexeme.Kind.unlexed, .header, .section, .verbBlock, .mathBlock, .textContent, .arrow, .symbol, .bullet,
    .enumerate, .bold, .italic, .verb, .math].find? fun kind => kind.name == name

/-- The written form of a token: what kind it is, and the text that it carries. -/
structure Lexeme where
  kind : Lexeme.Kind
  value : Text
deriving DecidableEq, Repr

namespace Lexeme

/-- The lexeme as a diagnostic shows it. -/
def display (lexeme : Lexeme) : Text := lexeme.kind.name ++ " \"".toList ++ lexeme.value ++ ['"']

/-- The lexemes of a list as a diagnostic shows them, one a line. -/
def dump (lexemes : List Lexeme) : Text := List.intercalate ['\n'] (lexemes.map Lexeme.display)

/-- Neighbouring text lexemes become one. -/
def merge : List Lexeme → List Lexeme
  | [] => []
  | lexeme :: lexemes =>
    match lexeme, merge lexemes with
    | ⟨.textContent, a⟩, ⟨.textContent, b⟩ :: merged => ⟨.textContent, a ++ b⟩ :: merged
    | lexeme, merged => lexeme :: merged

end Lexeme

/-- The list marker of a kind of list. -/
def ListKind.marker : ListKind → Lexeme.Kind
  | .itemize => .bullet
  | .enumerate => .enumerate

/-- The written form of a token. -/
def Token.lexeme : Token → Lexeme
  | .raw s => ⟨.unlexed, s⟩
  | .command assignment => ⟨.header, assignment⟩
  | .heading level title =>
    ⟨.section, "LEVEL=".toList ++ Numeral.write level ++ ",TITLE=".toList ++ title⟩
  | .fence opens => ⟨.verbBlock, if opens then "Start".toList else "End".toList⟩
  | .delimiter mark => ⟨.mathBlock, mark⟩
  | .text content => ⟨.textContent, content⟩
  | .arrow glyph => ⟨.arrow, glyph.sign⟩
  | .comparison glyph => ⟨.symbol, glyph.sign⟩
  | .item kind level => ⟨kind.marker, Numeral.write level⟩
  | .bold body => ⟨.bold, body⟩
  | .italic body => ⟨.italic, body⟩
  | .verbatim body => ⟨.verb, body⟩
  | .math span => ⟨.math, span⟩

/-- What the name of a heading begins with once more for each level. -/
def headingStep : Text := "sub".toList

/-- Why a lexeme is the written form of no token. -/
inductive Lexeme.Failure where
  /-- No glyph has this sign. -/
  | unknownGlyph (sign : Text)
  /-- A level is no numeral. -/
  | numeral (failure : Numeral.Failure)
  /-- The level of a list marker is below zero. -/
  | negativeLevel (failure : NegativeLevel)
  /-- A heading does not give a level and a title. -/
  | malformedHeading
  /-- The level of a heading is so high that its name cannot be written. -/
  | unrepeatable (reason : Unrepeatable)
deriving DecidableEq, Repr

namespace Lexeme

/-- What a message says of a lexeme that is the written form of no token. -/
def Failure.message : Failure → Text
  | .unknownGlyph sign => Text.quote sign
  | .numeral failure => failure.message
  | .negativeLevel failure => failure.message
  | .malformedHeading => "'NoneType' object has no attribute 'group'".toList
  | .unrepeatable reason => reason.message

/-- The level that a numeral gives. -/
def level? (numeral : Text) : Except Failure Nat :=
  match Numeral.read numeral with
  | .error failure => .error (.numeral failure)
  | .ok level => (depthOfLevel? level).mapError .negativeLevel

/-- The glyph with a given sign. -/
def glyph? (sign : Text) : Except Failure Glyph :=
  match Glyph.ofSign? sign with
  | some glyph => .ok glyph
  | none => .error (.unknownGlyph sign)

variable [Memory]

/-- The level and the title of a heading. -/
def heading? (value : Text) : Except Failure (Nat × Text) :=
  match Text.after? "LEVEL=".toList value with
  | none => .error .malformedHeading
  | some s =>
    match s.takeWhile Text.isDigit, Text.after? ",TITLE=".toList (s.dropWhile Text.isDigit) with
    | [], _ | _, none => .error .malformedHeading
    | numeral, some title => do
      let level ← level? numeral
      let _ ← (Text.copies headingStep.length (level - 1)).mapError .unrepeatable
      return (level, title)

/-- The token that a lexeme is the written form of. -/
def token? : Lexeme → Except Failure Token
  | ⟨.unlexed, s⟩ => .ok (.raw s)
  | ⟨.header, assignment⟩ => .ok (.command assignment)
  | ⟨.section, value⟩ => (heading? value).map fun (level, title) => .heading level title
  | ⟨.verbBlock, value⟩ => .ok (.fence (value != "End".toList))
  | ⟨.mathBlock, mark⟩ => .ok (.delimiter mark)
  | ⟨.textContent, content⟩ => .ok (.text content)
  | ⟨.arrow, sign⟩ => (glyph? sign).map .arrow
  | ⟨.symbol, sign⟩ => (glyph? sign).map .comparison
  | ⟨.bullet, numeral⟩ => (level? numeral).map (.item .itemize)
  | ⟨.enumerate, numeral⟩ => (level? numeral).map (.item .enumerate)
  | ⟨.bold, body⟩ => .ok (.bold body)
  | ⟨.italic, body⟩ => .ok (.italic body)
  | ⟨.verb, body⟩ => .ok (.verbatim body)
  | ⟨.math, span⟩ => .ok (.math span)

end Lexeme

end Lectern
