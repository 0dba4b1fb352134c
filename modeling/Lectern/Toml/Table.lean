import Lectern.Toml.Basic
import Lectern.Entries

/-!
# Tables under construction

A file defines its table piece by piece, and a piece must not change what is already defined. **`Draft`** is the table
so far, with the paths that no header may open again and those under which nothing can be added. `Draft.assign`,
`Draft.openTable` and `Draft.openItem` are the three statements of a file.
-/

set_option autoImplicit false

namespace Lectern.Toml

/-- The entries of a table in the order in which their keys came. -/
abbrev Entries := List (Text × Value)

/-- The keys that lead to a value, outermost first. -/
abbrev Path := List Text

/-- Changes the entry of a key; `f` gets the old value if there is one. -/
def updateEntry (key : Text) (f : Option Value → Option Value) (entries : Entries) : Option Entries :=
  (f (entries.lookup key)).map fun value => insertEntry key value entries

/-- Changes the entries of the table that a path leads to. Missing tables on the way are made; through a list of tables
the path leads into its last one, if `throughLists` allows it. -/
def updateTable (throughLists : Bool) (f : Entries → Option Entries) : Path → Entries → Option Entries
  | [], entries => f entries
  | key :: path, entries =>
    updateEntry key (fun
      | none => (updateTable throughLists f path []).map .table
      | some (.table inner) => (updateTable throughLists f path inner).map .table
      | some (.array items) =>
        match throughLists, items.getLast? with
        | true, some (.table inner) =>
          (updateTable throughLists f path inner).map fun inner => .array (items.dropLast ++ [.table inner])
        | _, _ => none
      | some _ => none) entries

/-- Adds an entry whose key is new. -/
def addEntry (key : Text) (value : Value) (entries : Entries) : Option Entries :=
  match entries.lookup key with
  | none => some (entries ++ [(key, value)])
  | some _ => none

/-- Whether something can be added neither to a value nor to anything inside of it. -/
def isClosed : Value → Bool
  | .array _ | .table _ => true
  | _ => false

/-- A table under construction. -/
structure Draft where
  entries : Entries
  /-- Paths of tables that no header may open. -/
  opened : List Path
  /-- Paths that become paths of this kind with the next header. -/
  pending : List Path
  /-- Paths under which nothing can be added. -/
  closed : List Path

namespace Draft

/-- The empty table. -/
def empty : Draft := ⟨[], [], [], []⟩

/-- Whether nothing can be added under a path. -/
def isClosed (draft : Draft) (path : Path) : Bool := draft.closed.any fun closed => closed.isPrefixOf path

/-- The prefixes of a path that lie between a header and the last key, which is left out. -/
def between (header path : Path) : List Path :=
  (List.range (path.length - 1)).map fun i => header ++ path.take (i + 1)

/-- `path = value` below a header. -/
def assign (header path : Path) (value : Value) (draft : Draft) : Option Draft :=
  let parent := header ++ path.dropLast
  let inner := between header path
  if inner.any draft.opened.contains || draft.isClosed parent then none
  else do
    let key ← path.getLast?
    let entries ← updateTable true (addEntry key value) parent draft.entries
    return { draft with
      entries
      pending := draft.pending ++ inner
      closed := if Toml.isClosed value then (header ++ path) :: draft.closed else draft.closed }

/-- What every header does first. -/
def settle (draft : Draft) : Draft := { draft with opened := draft.pending ++ draft.opened, pending := [] }

/-- `[path]`: a table, which has not been opened before. -/
def openTable (path : Path) (draft : Draft) : Option Draft :=
  if draft.opened.contains path || draft.isClosed path then none
  else
    (updateTable true some path draft.entries).map fun entries =>
      { draft with entries, opened := path :: draft.opened }

/-- `[[path]]`: one more table in a list. Inside of it everything can be opened again. -/
def openItem (path : Path) (draft : Draft) : Option Draft :=
  if draft.isClosed path then none
  else do
    let key ← path.getLast?
    let append : Option Value → Option Value
      | none => some (.array [.table []])
      | some (.array items) => some (.array (items ++ [.table []]))
      | some _ => none
    let entries ← updateTable true (updateEntry key append) path.dropLast draft.entries
    let outside := fun (other : Path) => !path.isPrefixOf other
    return { draft with
      entries
      opened := path :: draft.opened.filter outside
      closed := draft.closed.filter outside }

end Draft

/-! ## Inline tables -/

/-- An inline table under construction: its entries and the paths under which nothing can be added. -/
structure InlineDraft where
  entries : Entries
  closed : List Path

/-- `path = value` in an inline table. -/
def InlineDraft.assign (path : Path) (value : Value) (draft : InlineDraft) : Option InlineDraft :=
  if draft.closed.any fun closed => closed.isPrefixOf path then none
  else do
    let key ← path.getLast?
    let entries ← updateTable false (addEntry key value) path.dropLast draft.entries
    return ⟨entries, if isClosed value then path :: draft.closed else draft.closed⟩

end Lectern.Toml
