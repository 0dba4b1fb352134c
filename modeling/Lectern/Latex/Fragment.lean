import Lectern.Markup.Reading
import Lectern.Text.Letter

/-!
# Fragments

A token becomes a **`Fragment`** of LaTeX, and fragments are printed one after the other. A glyph becomes a control
word, which stands bare in a math block and between dollars elsewhere; **`Fragment.printAll`** puts a space behind a
bare control word if a letter follows, which would otherwise run into it. The same is done in a math span by
**`mathText`**.
-/

set_option autoImplicit false

namespace Lectern

/-! ## Math text -/

/-- The space that separates a control word from the letter that follows. -/
def wordSpace : Text → Text
  | c :: _ => if Text.isLetter c then [' '] else []
  | [] => []

/-- Math text in which the glyphs that were found are control words. -/
def printMath : List Piece → Text
  | [] => []
  | .plain c :: ps => c :: printMath ps
  | .span (.arrow glyph) :: ps | .span (.comparison glyph) :: ps => glyph.control ++ follow ps ++ printMath ps
  | .span (.text content) :: ps => content ++ printMath ps
  | .span _ :: ps => printMath ps
where
  /-- The space in front of pieces that come behind a control word. -/
  follow : List Piece → Text
    | .plain c :: _ => wordSpace [c]
    | _ => []

/-- Math text with control words for the arrows and then for the comparisons. A glyph behind a backslash stays as it
is, without the backslash. -/
def mathText (s : Text) : Text :=
  printMath (SpanRule.comparison.pieces (printMath (SpanRule.arrow.pieces s)))

/-- Whether a text is a closing delimiter of a math span, perhaps with a line feed behind it, and which. -/
def closingDelimiter? (s : Text) : Option Text :=
  (SpanRule.mathDelimiters.map Prod.snd).find? fun closing => s == closing || s == closing ++ ['\n']

/-- The text before the first place from which on there is nothing but a closing delimiter, and that delimiter. -/
def splitClosing? : Text → Option (Text × Text)
  | [] => none
  | c :: s =>
    match closingDelimiter? (c :: s) with
    | some closing => some ([], closing)
    | none => (splitClosing? s).map fun (inner, closing) => (c :: inner, closing)

/-- The opening delimiter, the inside and the closing delimiter of a math span; a text that is none is all inside. -/
def splitMathSpan (span : Text) : Text × Text × Text :=
  let found := (SpanRule.mathDelimiters.map Prod.fst).findSome? fun opening =>
    ((Text.after? opening span).bind splitClosing?).map fun (inner, closing) => (opening, inner, closing)
  found.getD ([], span, [])

/-! ## Fragments -/

/-- A piece of a line of LaTeX. -/
inductive Fragment where
  /-- Text as it stands. -/
  | text (content : Text)
  /-- The start of a list item. -/
  | item
  /-- A section heading, one level deeper for every level above one. -/
  | heading (level : Nat) (title : Text)
  /-- The beginning or the end of a verbatim environment. -/
  | verbatimTag (opens : Bool)
  /-- A delimiter of a math block. -/
  | delimiter (mark : Text)
  /-- A control word in math, with dollars around it unless it is bare. -/
  | control (glyph : Glyph) (bare : Bool)
  /-- Bold text. -/
  | bold (content : Text)
  /-- Italic text. -/
  | italic (content : Text)
  /-- Inline verbatim text. -/
  | verbatim (body : Text)
  /-- Inline math between its delimiters. -/
  | math (opening inner closing : Text)
deriving DecidableEq, Repr

namespace Fragment

/-- A command with one argument. -/
def command (name : String) (argument : Text) : Text := '\\' :: name.toList ++ ['\x7b'] ++ argument ++ ['\x7d']

/-- The fragment as it is written. -/
def print : Fragment → Text
  | .text content => content
  | .item => "\\item ".toList
  | .heading level title =>
    ['\\'] ++ (List.replicate (level - 1) headingStep).flatten ++ "section*\x7b".toList ++ title ++ ['\x7d']
  | .verbatimTag opens => if opens then command "begin" "verbatim".toList else command "end" "verbatim".toList
  | .delimiter mark => mark
  | .control glyph bare => if bare then glyph.control else ['$'] ++ glyph.control ++ ['$']
  | .bold content => command "textbf" content
  | .italic content => command "textit" content
  | .verbatim body => "\\verb|".toList ++ body ++ ['|']
  | .math opening inner closing => opening ++ inner ++ closing

/-- Whether a letter behind the fragment would run into it. -/
def isBareControl : Fragment → Bool
  | .control _ bare => bare
  | _ => false

/-- The fragments of a list as they are written. -/
def printAll : List Fragment → Text
  | [] => []
  | fragment :: fragments =>
    fragment.print ++
      (match fragments with
      | [] => []
      | next :: _ => if fragment.isBareControl then wordSpace next.print else []) ++
      printAll fragments

end Fragment

/-! ## Fragments of tokens -/

/-- A token that has no place in the document. -/
structure Unrenderable where
  token : Token
deriving DecidableEq, Repr

/-- What a message says of a token that has no place in the document. -/
def Unrenderable.message (failure : Unrenderable) : Text :=
  "Cannot render token ".toList ++ failure.token.lexeme.display

namespace Token

/-- The fragment of a token, if `inner` renders the text of bold and italic spans. -/
def fragmentWith (inner : Text → Except Unrenderable Text) (mode : Mode) : Token → Except Unrenderable Fragment
  | .raw s => .error ⟨.raw s⟩
  | .command assignment => .error ⟨.command assignment⟩
  | .heading level title => .ok (.heading level title)
  | .fence opens => .ok (.verbatimTag opens)
  | .delimiter mark => .ok (.delimiter mark)
  | .text content => .ok (.text content)
  | .arrow glyph | .comparison glyph => .ok (.control glyph mode.math)
  | .item _ _ => .ok .item
  | .bold body => (inner body).map .bold
  | .italic body => (inner body).map .italic
  | .verbatim body => .ok (.verbatim body)
  | .math span =>
    let (opening, inner, closing) := splitMathSpan span
    .ok (.math opening (mathText inner) closing)

end Token

/-- The rendered text of a span in which spans are nested at most `depth` deep. -/
def renderSpan (mode : Mode) : Nat → Text → Except Unrenderable Text
  | 0, s => .ok s
  | depth + 1, s =>
    ((readInline mode s).mapM (Token.fragmentWith (renderSpan mode depth) mode)).map Fragment.printAll

/-- The rendered text of a span; every span in it is shorter. -/
def renderInline (mode : Mode) (s : Text) : Except Unrenderable Text := renderSpan mode s.length s

/-- The fragment of a token. -/
def Token.fragment (mode : Mode) : Token → Except Unrenderable Fragment := Token.fragmentWith (renderInline mode) mode

end Lectern
