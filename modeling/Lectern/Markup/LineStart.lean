import Lectern.Markup.Indent
import Lectern.Markup.Mode
import Lectern.Markup.Token

/-!
# Line starts

Head commands, headings, fences, math delimiters and list markers are found only where a line starts. The first part
recognises each of them in a text, the second says what each **`LineRule`** makes of the text in a given mode: tokens,
of which a last `Token.raw` is left to the other rules, and the mode that follows.
-/

set_option autoImplicit false

namespace Lectern

/-! ## Recognisers -/

/-- What a line can be while the head is open. -/
inductive HeadLine where
  /-- A command, `$key: value`. -/
  | command (key value : Text)
  /-- A command behind a backslash; the text is what follows its dollar. -/
  | escaped (text : Text)
  /-- A row of equals signs or hyphens, which ends the head. -/
  | divider
  /-- Nothing but blanks. -/
  | blank
deriving DecidableEq, Repr

namespace HeadLine

/-- The key of a command and what stands behind its colon. -/
def key? (s : Text) : Option (Text × Text) :=
  let inKey (c : Char) : Bool := c != ':' && !Text.isBlank c
  match s.takeWhile inKey, s.dropWhile inKey with
  | [], _ => none
  | key, ':' :: rest => some (key, rest)
  | _, _ => none

/-- The key and the value of a command, without the blanks before the value. -/
def command? : Text → Option (Text × Text)
  | '$' :: s => do
    let (key, rest) ← key? s
    let value ← Text.lineContent? (Text.trimStart rest)
    return (key, value)
  | _ => none

/-- What follows the dollar of a command behind a backslash, up to its line end. -/
def escaped? : Text → Option Text
  | '\\' :: '$' :: s => do
    let (key, rest) ← key? s
    let value ← Text.lineContent? (Text.trimStart rest)
    return key ++ [':'] ++ rest.takeWhile Text.isBlank ++ value
  | _ => none

/-- A row of at least three characters of one kind and what follows it. -/
def rowOf? (c : Char) (s : Text) : Option Text :=
  if 3 ≤ (s.takeWhile (· == c)).length then some (s.dropWhile (· == c)) else none

/-- A row of equals signs or of hyphens between blanks, perhaps with a comment. -/
def isDivider (s : Text) : Bool :=
  let line := Text.trimStart s
  match (rowOf? '=' line).orElse fun _ => rowOf? '-' line with
  | none => false
  | some rest =>
    match Text.trimStart rest with
    | [] => true
    | '%' :: comment => (Text.lineContent? comment).isSome
    | _ => false

/-- What a line is, if it may stand in the head or end it. -/
def read? (s : Text) : Option HeadLine :=
  match command? s with
  | some (key, value) => some (.command key value)
  | none =>
    match escaped? s with
    | some text => some (.escaped text)
    | none => if isDivider s then some .divider else if Text.allBlank s then some .blank else none

end HeadLine

/-- The level and the title of a heading: hashes, one space and a title. -/
def heading? (s : Text) : Option (Nat × Text) :=
  match (s.takeWhile (· == '#')).length, s.dropWhile (· == '#') with
  | level + 1, ' ' :: rest =>
    match Text.lineContent? rest with
    | some (c :: title) => some (level + 1, c :: title)
    | _ => none
  | _, _ => none

/-- The hashes behind a backslash and what follows them. -/
def escapedHeading? : Text → Option (Text × Text)
  | '\\' :: '#' :: s => some ('#' :: s.takeWhile (· == '#'), s.dropWhile (· == '#'))
  | _ => none

/-- Three backticks between blanks and a text without one. -/
def isFence (s : Text) : Bool :=
  match Text.after? "```".toList (Text.trimStart s) with
  | none => false
  | some rest => Text.isLineEnd (rest.dropWhile fun c => c != '`' && c != '\n')

/-- The math delimiter that stands alone on a line. -/
def mathDelimiter? (s : Text) : Option Text :=
  ["$$".toList, "\\[".toList, "\\]".toList].find? fun delimiter => Text.trim s == delimiter

/-- A list marker: its indentation, the marker with the blanks behind it, and the rest of the line. -/
structure ListMarker where
  indent : Text
  marker : Text
  rest : Text
deriving DecidableEq, Repr

namespace ListMarker

/-- The characters of a marker in front of a text and what follows them: a bullet, or digits and a period or
parenthesis. -/
def mark? (kind : ListKind) (s : Text) : Option (Text × Text) :=
  match kind with
  | .itemize =>
    match s with
    | '*' :: rest => some (['*'], rest)
    | '-' :: rest => some (['-'], rest)
    | _ => none
  | .enumerate =>
    match s.takeWhile Text.isDigit, s.dropWhile Text.isDigit with
    | [], _ => none
    | digits, '.' :: rest => some (digits ++ ['.'], rest)
    | digits, ')' :: rest => some (digits ++ [')'], rest)
    | _, _ => none

/-- The marker in front of a text whose indentation is known; at least one blank follows a marker. -/
def readAfter? (kind : ListKind) (indent s : Text) : Option ListMarker := do
  let (mark, rest) ← mark? kind s
  match rest.takeWhile Text.isBlank with
  | [] => none
  | blanks => some ⟨indent, mark ++ blanks, rest.dropWhile Text.isBlank⟩

/-- The list marker of a line. -/
def read? (kind : ListKind) (s : Text) : Option ListMarker :=
  readAfter? kind (s.takeWhile Text.isBlank) (Text.trimStart s)

/-- The list marker of a line that stands behind a backslash. -/
def escaped? (kind : ListKind) (s : Text) : Option ListMarker :=
  match Text.trimStart s with
  | '\\' :: rest => readAfter? kind (s.takeWhile Text.isBlank) rest
  | _ => none

end ListMarker

/-! ## Rules -/

/-- The rules for the start of a line, in the order in which they are tried. -/
inductive LineRule where
  | headLine
  | heading
  | fence
  | mathBlock
  | listMarker (kind : ListKind)
deriving DecidableEq, Repr

/-- A math block is open, but no delimiter is known to close it. -/
structure UnknownDelimiter where
  delimiter : Text
deriving DecidableEq, Repr

namespace LineRule

/-- All rules, in order. -/
def all : List LineRule :=
  [.headLine, .heading, .fence, .mathBlock, .listMarker .itemize, .listMarker .enumerate]

/-- The head rule: a line that does not belong to the head ends it. -/
def readHeadLine (mode : Mode) (s : Text) : Mode × List Token :=
  if !mode.head then (mode, Token.rawIfAny s)
  else
    match HeadLine.read? s with
    | some (.command key value) => (mode, [.command (key ++ ['='] ++ value)])
    | some (.escaped text) => (mode.endHead, .text "\\$".toList :: Token.rawIfAny text)
    | some .divider => (mode.endHead, [])
    | some .blank => (mode, [])
    | none => (mode.endHead, Token.rawIfAny s)

/-- The heading rule. -/
def readHeading (mode : Mode) (s : Text) : List Token :=
  if mode.verbatim then Token.rawIfAny s
  else
    match heading? s, escapedHeading? s with
    | some (level, title), _ => [.heading level title]
    | none, some (hashes, rest) => .text hashes :: Token.rawIfAny rest
    | none, none => Token.rawIfAny s

/-- The fence rule: between two fences every line stands for itself. -/
def readFence (mode : Mode) (s : Text) : Mode × List Token :=
  if isFence s then (mode.toggleVerbatim, [.fence !mode.verbatim])
  else if mode.verbatim then (mode, [.text s])
  else (mode, Token.rawIfAny s)

/-- The math block rule: a delimiter that neither opens a block nor closes the open one is ordinary text. -/
def readMathBlock (mode : Mode) (s : Text) : Mode × Except UnknownDelimiter (List Token) :=
  match if mode.verbatim then none else mathDelimiter? s with
  | none => (mode, .ok (Token.rawIfAny s))
  | some delimiter =>
    if mode.math then
      match mathCloser? mode.delimiter with
      | none => (mode, .error ⟨mode.delimiter⟩)
      | some closer =>
        if delimiter = closer then (mode.toggleMath delimiter, .ok [.delimiter delimiter])
        else (mode, .ok (Token.rawIfAny s))
    else if (mathCloser? delimiter).isSome then (mode.toggleMath delimiter, .ok [.delimiter delimiter])
    else (mode, .ok (Token.rawIfAny s))

/-- The list marker rule. -/
def readListMarker (kind : ListKind) (mode : Mode) (s : Text) : List Token :=
  if mode.inBlock then Token.rawIfAny s
  else
    match ListMarker.read? kind s, ListMarker.escaped? kind s with
    | some marker, _ => .item kind (listLevel marker.indent) :: Token.rawIfAny marker.rest
    | none, some marker => .text marker.marker :: Token.rawIfAny marker.rest
    | none, none => Token.rawIfAny s

/-- What a rule makes of a text. -/
def read (rule : LineRule) (mode : Mode) (s : Text) : Mode × Except UnknownDelimiter (List Token) :=
  match rule with
  | .headLine => let (mode, tokens) := readHeadLine mode s; (mode, .ok tokens)
  | .heading => (mode, .ok (readHeading mode s))
  | .fence => let (mode, tokens) := readFence mode s; (mode, .ok tokens)
  | .mathBlock => readMathBlock mode s
  | .listMarker kind => (mode, .ok (readListMarker kind mode s))

end LineRule

end Lectern
