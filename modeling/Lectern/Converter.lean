import Lectern.Latex.Preamble
import Lectern.Progress

/-!
# Conversion line by line

A **`Converter`** takes the lines of notes one after the other and gives the lines of the document. `headLine` and
`line` convert a line, `close` ends the document, and `preamble` is its beginning, which is known when the head has
been read. An operation that fails gives the converter that it leaves behind all the same.
-/

set_option autoImplicit false

namespace Lectern

/-- A block that can be left open. -/
inductive Block where
  | verbatim
  | math
deriving DecidableEq, Repr

/-- The name of a block in messages. -/
def Block.name : Block → Text
  | .verbatim => "verbatim".toList
  | .math => "math".toList

/-- What a warning says of a block that is open at the end. -/
def Block.warning (block : Block) : Text :=
  "Warning: unterminated ".toList ++ block.name ++ " block closed at end of input".toList

/-- Why a conversion fails. -/
inductive Failure where
  | unknownDelimiter (failure : UnknownDelimiter)
  | unrenderable (failure : Unrenderable)
  | lexeme (failure : Lexeme.Failure)
  | unindentable (reason : Unindentable)
  | unterminated (block : Block)
deriving DecidableEq, Repr

/-- What a message says of a failed conversion. -/
def Failure.message : Failure → Text
  | .unknownDelimiter failure => Text.quote failure.delimiter
  | .unrenderable failure => failure.message
  | .lexeme failure => failure.message
  | .unindentable reason => reason.message
  | .unterminated block => "Unterminated ".toList ++ block.name ++ " block at end of input".toList

/-- The state of a conversion. -/
structure Converter where
  settings : Settings
  /-- What the lines of the document are indented by. -/
  indentation : Indentation
  front : FrontMatter
  progress : Progress
deriving DecidableEq, Repr

namespace Token

/-- Whether the token is the marker of a list item. -/
def isItem : Token → Bool
  | .item _ _ => true
  | _ => false

/-- Whether the token opens or closes a block. -/
def isBlockTag : Token → Bool
  | .fence _ | .delimiter _ => true
  | _ => false

end Token

namespace Progress

variable [Memory]

/-- The fragment of a token; the marker of a list item changes the open lists. -/
def render (indentation : Indentation) (token : Token) (progress : Progress) : Progress × Except Failure Fragment :=
  let (progress, done) := match token with
    | .item kind level => progress.reconcile indentation level kind
    | _ => (progress, .ok ())
  match done with
  | .error reason => (progress, .error (.unindentable reason))
  | .ok () => (progress, (token.fragment progress.mode).mapError .unrenderable)

/-- The fragments of a list of tokens. -/
def renderAll (indentation : Indentation) : List Token → Progress → Progress × Except Failure (List Fragment)
  | [], progress => (progress, .ok [])
  | token :: tokens, progress =>
    match progress.render indentation token with
    | (progress, .error failure) => (progress, .error failure)
    | (progress, .ok fragment) =>
      match renderAll indentation tokens progress with
      | (progress, .error failure) => (progress, .error failure)
      | (progress, .ok fragments) => (progress, .ok (fragment :: fragments))

/-- The fragments of a list of lexemes, which become tokens one by one. -/
def renderLexemes (indentation : Indentation) : List Lexeme → Progress → Progress × Except Failure (List Fragment)
  | [], progress => (progress, .ok [])
  | lexeme :: lexemes, progress =>
    match lexeme.token? with
    | .error failure => (progress, .error (.lexeme failure))
    | .ok token =>
      match progress.render indentation token with
      | (progress, .error failure) => (progress, .error failure)
      | (progress, .ok fragment) =>
        match renderLexemes indentation lexemes progress with
        | (progress, .error failure) => (progress, .error failure)
        | (progress, .ok fragments) => (progress, .ok (fragment :: fragments))

/-- The lists that a line leaves open before its own marker is looked at: none behind a block delimiter, and those that
it is indented far enough for if it is a line of its own. -/
def settleLists (line : Text) (tokens : List Token) (progress : Progress) : Progress :=
  match tokens.head? with
  | some first =>
    if first.isBlockTag then progress.closeTo 0
    else if !first.isItem && !progress.mode.inBlock && !Text.allBlank line then
      progress.closeTo (line.columns / levelWidth : Nat)
    else progress
  | none =>
    if !progress.mode.inBlock && !Text.allBlank line then progress.closeTo (line.columns / levelWidth : Nat)
    else progress

/-- Whether the indentation of a line of notes is left out, because the line continues a list item. -/
def continuesItem (tokens : List Token) (progress : Progress) : Bool :=
  0 < progress.outline.depth && !(tokens.head?.any Token.isItem) && !progress.mode.inBlock

/-- The line of the document that the tokens of a line of notes become. -/
def write (indentation : Indentation) (line : Text) (tokens : List Token) (progress : Progress) :
    Progress × Except Failure WrittenLine :=
  match (progress.settleLists line tokens).renderAll indentation tokens with
  | (progress, .error failure) => (progress, .error failure)
  | (progress, .ok fragments) =>
    let text := Fragment.printAll fragments
    let text := if progress.continuesItem tokens then Text.trimIndent text else text
    let (progress, written) := (progress.setLine text).takeWithin indentation
    (progress, written.mapError .unindentable)

end Progress

/-- The content of a line and its line end. -/
def splitTerminator (line : Text) : Text × Text :=
  match Text.before? "\r\n".toList line with
  | some content => (content, "\r\n".toList)
  | none =>
    match Text.before? "\n".toList line with
    | some content => (content, "\n".toList)
    | none => (line, [])

namespace Converter

/-- A converter before the first line. -/
def new (settings : Settings) : Converter := ⟨settings, .spaces settings.indentWidth, .empty, .initial⟩

/-- Changes the progress. -/
def mapProgress (f : Progress → Progress) (converter : Converter) : Converter :=
  { converter with progress := f converter.progress }

/-- The head has ended. -/
def endHead (converter : Converter) : Converter := converter.mapProgress Progress.endHead

/-- The beginning of the document. -/
def preamble (converter : Converter) : Text := Lectern.preamble converter.settings converter.front

/-- Reads a line; the mode that it leaves is that of the converter. -/
def read (line : Text) (converter : Converter) : Converter × Except Failure (List Token) :=
  let (mode, tokens) := readLine converter.progress.mode line
  (converter.mapProgress fun progress => { progress with mode }, tokens.mapError .unknownDelimiter)

variable [Memory]

/-- Writes the tokens of a line. -/
def write (line : Text) (tokens : List Token) (converter : Converter) : Converter × Except Failure WrittenLine :=
  let (progress, written) := converter.progress.write converter.indentation line tokens
  ({ converter with progress }, written)

/-- The written line as text. -/
def print (written : WrittenLine) (converter : Converter) : Text := written.print converter.indentation.width

/-- Converts a line that is read while the head is open. There is nothing to write for a line of the head. -/
def headLine (line : Text) (converter : Converter) : Converter × Except Failure (Option WrittenLine) :=
  match converter.read line with
  | (converter, .error failure) => (converter, .error failure)
  | (converter, .ok []) => (converter, .ok none)
  | (converter, .ok (.command assignment :: _)) =>
    ({ converter with front := converter.front.assign assignment }, .ok none)
  | (converter, .ok tokens) =>
    match converter.write line tokens with
    | (converter, written) => (converter, written.map some)

/-- Converts a line that is read behind the head. -/
def bodyLine (line : Text) (converter : Converter) : Converter × Except Failure WrittenLine :=
  match converter.read line with
  | (converter, .error failure) => (converter, .error failure)
  | (converter, .ok tokens) => converter.write line tokens

/-- Converts the content of a line, wherever it is read. -/
def contentLine (content : Text) (converter : Converter) : Converter × Except Failure (Option WrittenLine) :=
  if converter.progress.mode.head then converter.headLine content
  else
    match converter.bodyLine content with
    | (converter, written) => (converter, written.map some)

/-- The text of a line that was converted; the line end is kept. A line of the head leaves nothing. -/
def printLine (terminator : Text) (written? : Option WrittenLine) (converter : Converter) : Text :=
  written?.elim [] fun written => converter.print written ++ terminator

/-- Converts a line, perhaps with a line end. -/
def line (source : Text) (converter : Converter) : Converter × Except Failure Text :=
  let (content, terminator) := splitTerminator source
  match converter.contentLine content with
  | (converter, written?) => (converter, written?.map fun written? => converter.printLine terminator written?)

/-- What ends a document: the warnings, and the closing tags with the end of the document unless it fails. -/
structure Ending where
  warnings : List Text
  text : Except Failure Text

/-- Closes the verbatim block that is open at the end. -/
def closeVerbatim (progress : Progress) : Progress × Text :=
  (progress.mapMode Mode.toggleVerbatim, Fragment.command "end" "verbatim".toList ++ ['\n'])

/-- Closes all lists and ends the document behind the closing tags of blocks. -/
def finish (settings : Settings) (closing : Text) (progress : Progress) : Progress × Text :=
  let (written, progress) := ((progress.closeTo 0).setLine []).take
  (progress, closing ++ written.print settings.indentWidth ++ documentEnd)

/-- Closes the math block and ends the document behind the warnings and closing tags that there are already. -/
def closeMath (settings : Settings) (warnings : List Text) (closing : Text) (progress : Progress) :
    Progress × Ending :=
  if progress.mode.math then
    match mathCloser? progress.mode.delimiter with
    | none => (progress, ⟨warnings, .error (.unknownDelimiter ⟨progress.mode.delimiter⟩)⟩)
    | some closer =>
      if settings.strictBlocks then (progress, ⟨warnings, .error (.unterminated .math)⟩)
      else
        let progress := progress.mapMode (Mode.toggleMath "$$".toList)
        let (progress, text) := finish settings (closing ++ closer ++ ['\n']) progress
        (progress, ⟨warnings ++ [Block.math.warning], .ok text⟩)
  else
    let (progress, text) := finish settings closing progress
    (progress, ⟨warnings, .ok text⟩)

/-- Ends the document. Blocks that are open are closed with a warning, or are an error if the settings are strict. -/
def close (converter : Converter) : Converter × Ending :=
  let (progress, ending) :=
    if converter.progress.mode.verbatim then
      if converter.settings.strictBlocks then (converter.progress, ⟨[], .error (.unterminated .verbatim)⟩)
      else
        let (progress, closing) := closeVerbatim converter.progress
        closeMath converter.settings [Block.verbatim.warning] closing progress
    else closeMath converter.settings [] [] converter.progress
  ({ converter with progress }, ending)

end Converter

end Lectern
