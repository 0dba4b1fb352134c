import Lectern.Text.Basic

/-!
# Entries of a table

A table is a list of entries, each with a key. **`insertEntry`** gives a key a value; `lookup_insertEntry_self` says
that the value is found there. Who takes the entries of a table is a **`Receiver`**, which knows some keys. One key is
its own and may not be that of an entry; **`Receiver.refuse`** says what is wrong with a key that it does not take.
-/

set_option autoImplicit false

namespace Lectern

/-- The entries of a table in which a key has a value: an old key keeps its place, a new one comes last. -/
def insertEntry {β : Type} (key : Text) (value : β) : List (Text × β) → List (Text × β)
  | [] => [(key, value)]
  | (k, v) :: entries => if k = key then (k, value) :: entries else (k, v) :: insertEntry key value entries

/-- The value of a new entry is found under its key. -/
theorem lookup_insertEntry_self {β : Type} (key : Text) (value : β) (entries : List (Text × β)) :
    (insertEntry key value entries).lookup key = some value := by
  induction entries with
  | nil => simp [insertEntry]
  | cons entry entries ih =>
    obtain ⟨k, v⟩ := entry
    by_cases h : k = key
    · simp [insertEntry, h]
    · have : (key == k) = false := by simpa using fun he => h he.symm
      simp [insertEntry, h, List.lookup_cons, this, ih]

/-! ## Keys -/

/-- Why the entry with a key is not taken. -/
inductive BadKey where
  /-- The key has a value before any entry is taken. -/
  | taken (receiver key : Text)
  | unknown (receiver key : Text)
deriving DecidableEq, Repr

/-- What a message says of a key that is not taken; the key stands there as it is. -/
def BadKey.message : BadKey → Text
  | .taken receiver key => receiver ++ "() got multiple values for argument '".toList ++ key ++ ['\'']
  | .unknown receiver key => receiver ++ "() got an unexpected keyword argument '".toList ++ key ++ ['\'']

/-- Who takes the entries of a table. -/
structure Receiver where
  /-- The name in messages. -/
  name : Text
  /-- The key that has a value before any entry is taken. -/
  ownKey : Text
deriving DecidableEq, Repr

namespace Receiver

/-- What is wrong with a key that is not known. -/
def refuse (receiver : Receiver) (key : Text) : BadKey :=
  if key = receiver.ownKey then .taken receiver.name key else .unknown receiver.name key

/-- An error if an entry has the key that is not free. -/
def guard {β : Type} (receiver : Receiver) (entries : List (Text × β)) : Except BadKey Unit :=
  if (entries.map Prod.fst).contains receiver.ownKey then .error (.taken receiver.name receiver.ownKey) else .ok ()

end Receiver

end Lectern
