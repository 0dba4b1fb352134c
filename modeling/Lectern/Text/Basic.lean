/-!
# Text

Notes, documents and paths are sequences of code points. **`Text`** is that sequence, `isBlank` the white space
that separates words in it, and the functions below cut a text at its ends, at a delimiter or at every line end.
`splitAt?_eq_some` says that a cut loses nothing but the delimiter.
-/

set_option autoImplicit false

namespace Lectern

/-- A sequence of code points. -/
abbrev Text := List Char

namespace Text

/-- A property of all characters of a text is decided along the text, and not for every character that there is. -/
instance decidableForallMem (s : Text) (p : Char → Prop) [DecidablePred p] : Decidable (∀ c ∈ s, p c) :=
  List.decidableBAll p s

/-! ## Blanks -/

/-- White space in the sense of Unicode's bidirectional classes WS, B and S or the category Zs. -/
def isBlank (c : Char) : Bool :=
  let n := c.toNat
  (9 ≤ n && n ≤ 13) || (28 ≤ n && n ≤ 32) || n == 0x85 || n == 0xA0 || n == 0x1680 ||
    (0x2000 ≤ n && n ≤ 0x200A) || n == 0x2028 || n == 0x2029 || n == 0x202F || n == 0x205F || n == 0x3000

/-- The text from its first character that is not blank. -/
def trimStart (s : Text) : Text := s.dropWhile isBlank

/-- The text up to its last character that is not blank. -/
def trimEnd (s : Text) : Text := (s.reverse.dropWhile isBlank).reverse

/-- The text without the blanks at its two ends. -/
def trim (s : Text) : Text := trimEnd (trimStart s)

/-- A text that holds nothing but blanks. -/
def allBlank (s : Text) : Bool := s.all isBlank

/-- The text without the spaces and tabs that it starts with. -/
def trimIndent (s : Text) : Text := s.dropWhile fun c => c == ' ' || c == '\t'

/-- A run of spaces. -/
def spaces (n : Nat) : Text := List.replicate n ' '

/-! ## Beginnings and ends -/

/-- What follows `lead` in a text that starts with it. -/
def after? (lead s : Text) : Option Text :=
  match lead, s with
  | [], s => some s
  | _ :: _, [] => none
  | l :: lead, c :: s => if l = c then after? lead s else none

/-- What stands before `tail` in a text that ends with it. -/
def before? (tail s : Text) : Option Text := (after? tail.reverse s.reverse).map List.reverse

/-- The text before the first `delimiter` and the text after it. -/
def splitAt? (delimiter : Text) : Text → Option (Text × Text)
  | [] => (after? delimiter []).map fun rest => ([], rest)
  | c :: s =>
    match after? delimiter (c :: s) with
    | some rest => some ([], rest)
    | none => (splitAt? delimiter s).map fun (before, rest) => (c :: before, rest)

theorem after?_eq_some {lead s rest : Text} : after? lead s = some rest ↔ s = lead ++ rest := by
  induction lead generalizing s with
  | nil => simp [after?, eq_comm]
  | cons l lead ih =>
    cases s with
    | nil => simp [after?]
    | cons c s => by_cases h : l = c <;> simp [after?, h, ih, eq_comm]

/-- What follows `lead` is shorter by it. -/
theorem length_of_after? {lead s rest : Text} (h : after? lead s = some rest) :
    s.length = lead.length + rest.length := by
  rw [after?_eq_some.1 h, List.length_append]

/-- A cut loses nothing but the delimiter. -/
theorem splitAt?_eq_some {delimiter s before rest : Text} (h : splitAt? delimiter s = some (before, rest)) :
    s = before ++ delimiter ++ rest := by
  induction s generalizing before rest with
  | nil =>
    simp only [splitAt?, Option.map_eq_some_iff, after?_eq_some] at h
    grind
  | cons c s ih =>
    rw [splitAt?] at h
    split at h
    · next r hr => grind [after?_eq_some]
    · simp only [Option.map_eq_some_iff] at h
      obtain ⟨⟨b, r⟩, hs, he⟩ := h
      have := ih hs
      grind

/-! ## Lines -/

/-- The parts of a text between its line feeds; there is always at least one. -/
def splitLines : Text → List Text
  | [] => [[]]
  | c :: s =>
    if c = '\n' then [] :: splitLines s
    else
      match splitLines s with
      | [] => [[c]]
      | line :: lines => (c :: line) :: lines

/-- Every carriage return, with a line feed behind it or not, becomes a line feed. -/
def universalLines : Text → Text
  | '\r' :: '\n' :: s => '\n' :: universalLines s
  | '\r' :: s => '\n' :: universalLines s
  | c :: s => c :: universalLines s
  | [] => []

/-- A text that is empty or one or two line feeds: what may follow the content of a line. -/
def isLineEnd (s : Text) : Bool := s == [] || s == ['\n'] || s == ['\n', '\n']

/-- The content of a line whose text is all there is up to its line end. -/
def lineContent? (s : Text) : Option Text :=
  let content := s.takeWhile (· != '\n')
  if isLineEnd (s.drop content.length) then some content else none

end Text

end Lectern
