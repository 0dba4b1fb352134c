import Lectern.Toml.Scalar
import Lectern.Toml.Table

/-!
# Files

**`Toml.read`** is the table that a whole file defines. A file is a row of statements: a header opens a table or adds
one to a list, an assignment gives a value to a path below the last header. Each round of a reader takes at least one
character, so the length of the text bounds the rounds. Lists and inline tables are read by calls inside of each other,
of which there can be as many as a depth says.
-/

set_option autoImplicit false

namespace Lectern.Toml

/-! ## Paths and values -/

/-- A character of a key without quotes. -/
def isBareKey (c : Char) : Bool :=
  ('a' ≤ c && c ≤ 'z') || ('A' ≤ c && c ≤ 'Z') || isDecimal c || c == '_' || c == '-'

/-- One key of a path. -/
def key (s : Text) : Except Failure (Text × Text) :=
  match s.takeWhile isBareKey with
  | [] => lineText s
  | bare => .ok (bare, s.dropWhile isBareKey)

/-- The keys of a path with periods between them, and the text behind the blanks that follow. -/
def path : Nat → Text → Except Failure (Path × Text)
  | 0, _ => malformed
  | rounds + 1, s => do
    let (first, rest) ← key s
    match skipSpace rest with
    | '.' :: rest => (path rounds (skipSpace rest)).map fun (keys, rest) => (first :: keys, rest)
    | rest => return ([first], rest)

/-- The calls that it takes to read a value inside of a list. -/
def listCalls : Nat := 2

/-- The calls that it takes to read a value inside of an inline table. -/
def tableCalls : Nat := 3

mutual

/-- A value; `depth` calls can be inside of each other while it is read. -/
def value : Nat → Nat → Text → Except Failure (Value × Text)
  | _, 0, _ => malformed
  | depth, rounds + 1, s =>
    match s with
    | '[' :: rest =>
      if depth < listCalls then .error .tooDeep
      else do
        match ← skipAllGaps rest with
        | ']' :: rest => return (.array [], rest)
        | rest => (items (depth - listCalls) rounds rest).map fun (items, rest) => (.array items, rest)
    | '\x7b' :: rest =>
      if depth < tableCalls then .error .tooDeep
      else
        match skipSpace rest with
        | '\x7d' :: rest => .ok (.table [], rest)
        | rest =>
          (inlineEntries (depth - tableCalls) rounds ⟨[], []⟩ rest).map fun (entries, rest) => (.table entries, rest)
    | c :: _ => if c = '"' ∨ c = '\'' then (text s).map fun (content, rest) => (.text content, rest) else scalar s
    | [] => malformed

/-- The elements of a list up to its closing bracket; a comma may stand behind the last one. -/
def items : Nat → Nat → Text → Except Failure (List Value × Text)
  | _, 0, _ => malformed
  | depth, rounds + 1, s => do
    let (first, rest) ← value depth rounds s
    match ← skipAllGaps rest with
    | ']' :: rest => return ([first], rest)
    | ',' :: rest =>
      match ← skipAllGaps rest with
      | ']' :: rest => return ([first], rest)
      | rest => (items depth rounds rest).map fun (others, rest) => (first :: others, rest)
    | _ => malformed

/-- The entries of an inline table up to its closing brace. -/
def inlineEntries : Nat → Nat → InlineDraft → Text → Except Failure (Entries × Text)
  | _, 0, _, _ => malformed
  | depth, rounds + 1, draft, s => do
    let (keys, rest) ← path (s.length + 1) s
    let (first, rest) ← value depth rounds (skipSpace (← expect ['='] rest))
    match draft.assign keys first with
    | none => malformed
    | some draft =>
      match skipSpace rest with
      | '\x7d' :: rest => return (draft.entries, rest)
      | ',' :: rest => inlineEntries depth rounds draft (skipSpace rest)
      | _ => malformed

end

/-! ## Statements -/

/-- The path of a header and the text behind its closing brackets. -/
def header (closing s : Text) : Except Failure (Path × Text) := do
  let s := skipSpace s
  let (keys, rest) ← path (s.length + 1) s
  return (keys, ← expect closing rest)

/-- A draft that a statement was able to change. -/
def accepted (draft : Option Draft) : Except Failure Draft := draft.elim malformed .ok

/-- The statement in front of a text, if there is one: the draft, the header and the text behind it. -/
def statement (depth : Nat) (draft : Draft) (current : Path) (s : Text) : Except Failure (Draft × Path × Text) :=
  match s with
  | '[' :: '[' :: rest => do
    let (keys, rest) ← header "]]".toList rest
    return (← accepted (draft.settle.openItem keys), keys, rest)
  | '[' :: rest => do
    let (keys, rest) ← header "]".toList rest
    return (← accepted (draft.settle.openTable keys), keys, rest)
  | '#' :: _ | '\n' :: _ | [] => .ok (draft, current, s)
  | s => do
    let (keys, rest) ← path (s.length + 1) s
    let rest := skipSpace (← expect ['='] rest)
    let (value, rest) ← value depth (2 * rest.length + 2) rest
    return (← accepted (draft.assign current keys value), current, rest)

/-- The table that a text defines in addition to a draft. -/
def statements (depth : Nat) : Nat → Draft → Path → Text → Except Failure Entries
  | 0, draft, _, _ => .ok draft.entries
  | rounds + 1, draft, current, s => do
    let (draft, current, rest) ← statement depth draft current (skipSpace s)
    match ← skipComment (skipSpace rest) with
    | [] => return draft.entries
    | '\n' :: rest => statements depth rounds draft current rest
    | _ => malformed

/-- A carriage return in front of a line feed does not count. -/
def unifyLineEnds : Text → Text
  | '\r' :: '\n' :: s => '\n' :: unifyLineEnds s
  | c :: s => c :: unifyLineEnds s
  | [] => []

/-- The table that a file defines, if `depth` calls can be inside of each other while its values are read. -/
def read (depth : Nat) (content : Text) : Except Failure Entries :=
  let s := unifyLineEnds content
  statements depth (s.length + 1) .empty [] s

end Lectern.Toml
