import Lectern.Files.Resolve
import Lectern.Text.Utf8

/-!
# Files of notes and documents

Notes are read from a regular file and a document is written to one. **`Site.findNotes`** is the resolved path of a file
of notes, `Site.size` its size and `Site.readText` its text. **`Site.write`** puts a file with a given text in the place
of what was there: only that place changes, and a file that was there keeps its permissions. A document goes to a hidden
file before it takes its place, so nothing changes if there can be none.
-/

set_option autoImplicit false

namespace Lectern

/-! ## Errors -/

/-- Why a text is not the path of a file of notes. -/
inductive NotesError where
  | missing (path : Text)
  | unresolved (path : Text) (error : AccessError)
  | irregular (path : Text)
  | unfit (reason : Unfit)
  | noHome
  | circular (path : Text)
  | tooDeep
  | refused (error : AccessError)
deriving DecidableEq, Repr

/-- What a message says of a path that is not a regular file's. -/
def irregularMessage (path : Text) : Text := path ++ " is not a regular file.".toList

/-- What a message says of a text that is not the path of a file of notes. -/
def NotesError.message : NotesError → Text
  | .missing path => path ++ " does not exist.".toList
  | .unresolved path error => "Error resolving ".toList ++ path ++ ": ".toList ++ error.message
  | .irregular path => irregularMessage path
  | .unfit reason => reason.message
  | .noHome => ResolveError.noHome.message
  | .circular path => (ResolveError.circular path).message
  | .tooDeep => ResolveError.tooDeep.message
  | .refused error => error.message

/-- Why a file cannot be read or written. -/
inductive FileError where
  | inaccessible (path : Text) (error : AccessError)
  | refused (error : AccessError)
  | irregular (path : Text)
  | tooLarge (path : Text) (limit : Int)
  | noDirectory (path : Text)
  | unwritable (path : Text) (error : AccessError)
  | undecodable (failure : Utf8.Failure)
  /-- The text for a file cannot be encoded. -/
  | unencodable (error : Unencodable)
  | unfit (reason : Unfit)
deriving DecidableEq, Repr

/-- What a message says of a file that cannot be read or written. -/
def FileError.message : FileError → Text
  | .inaccessible path error => "Error accessing ".toList ++ path ++ ": ".toList ++ error.message
  | .refused error => error.message
  | .irregular path => irregularMessage path
  | .tooLarge path limit =>
    path ++ " exceeds the maximum allowed size of ".toList ++ Numeral.writeInt limit ++ " bytes.".toList
  | .noDirectory path => "Output directory ".toList ++ path ++ " does not exist.".toList
  | .unwritable path error => "Error writing ".toList ++ path ++ ": ".toList ++ error.message
  | .undecodable failure => failure.message
  | .unencodable error => error.message
  | .unfit reason => reason.message

/-- Whether opening a file tells which file it was about. -/
def Refusal.isExplained : Refusal → Bool
  | .notFound | .notDirectory | .isDirectory | .barred .denied => true
  | .nameTooLong | .tooManyLinks | .barred .broken => false

namespace Site

/-! ## Notes -/

/-- The resolved path of the file of notes that a text leads to. -/
def findNotes (site : Site) (s : Text) : Except NotesError Path :=
  match site.expand (.parse s) with
  | .error error => .error (general error)
  | .ok path =>
    match site.resolve true path with
    | .error (.unusable (.refused error)) =>
      .error (if error.reason = .notFound then .missing path.text else .unresolved path.text error)
    | .error error => .error (general error)
    | .ok resolved =>
      match site.has Node.isFile resolved.text with
      | .error error => .error (.refused error)
      | .ok regular => if regular then .ok resolved else .error (.irregular resolved.text)
where
  /-- An error of resolving as one of finding notes. -/
  general : ResolveError → NotesError
    | .noHome => .noHome
    | .circular path => .circular path
    | .tooDeep => .tooDeep
    | .unusable (.refused error) => .refused error
    | .unusable (.unfit reason) => .unfit reason

/-- The bytes and the permissions of a regular file. -/
def regular (site : Site) (path : Path) : Except FileError (List UInt8 × Nat) :=
  match site.status path.text with
  | .ok (.file bytes mode) => .ok (bytes, mode)
  | .ok _ => .error (.irregular path.text)
  | .error (.refused error) => .error (.inaccessible path.text error)
  | .error (.unfit reason) => .error (.unfit reason)

/-- The number of bytes of a regular file. -/
def size (site : Site) (path : Path) : Except FileError Nat :=
  (site.regular path).map fun (bytes, _) => bytes.length

/-- The number of bytes of a regular file that has no more of them than it may have. -/
def sizeWithin (site : Site) (path : Path) (limit : Int) : Except FileError Nat :=
  match site.size path with
  | .error error => .error error
  | .ok size => if limit < size then .error (.tooLarge path.text limit) else .ok size

/-- The text of a file, with a line feed at the end of each line. -/
def readText (site : Site) (path : Path) : Except FileError Text :=
  match site.read path.text with
  | .error (.unfit reason) => .error (.unfit reason)
  | .error (.refused error) =>
    .error (if error.reason.isExplained then .inaccessible path.text error else .refused error)
  | .ok bytes =>
    match Utf8.decode bytes with
    | .ok s => .ok (Text.universalLines s)
    | .error failure => .error (.undecodable failure)

/-! ## Documents -/

/-- The permissions of a new file. -/
def newFileMode : Nat := 0o644

/-- The permissions that a file will have when it is written. -/
def modeFor (site : Site) (path : Path) : Except FileError Nat :=
  match site.occupied path.text with
  | .error error => .error (.refused error)
  | .ok occupied => if occupied then (site.regular path).map (·.2) else .ok newFileMode

/-- The place where a file is written: its name in its directory, even if a link has that name. -/
def placeFor (site : Site) (path : Path) : Except FileError Place :=
  match path.names.getLast? with
  | none => .error (.irregular path.text)
  | some name =>
    match site.unfit? name with
    | some reason => .error (.unfit reason)
    | none =>
      match site.locate true path.parent.text with
      | .ok place => .ok (place ++ [name])
      | .error (.refused error) => .error (.refused error)
      | .error (.unfit reason) => .error (.unfit reason)

/-- Why there can be no hidden file with a text in the directory of a path. -/
def hiddenError? (site : Site) (path : Path) (content : Text) : Option FileError :=
  let hidden := (path.parent.child site.system.hiddenName).text
  if maxPathBytes ≤ hidden.byteCount then some (.unwritable path.text ⟨.nameTooLong, hidden⟩)
  else
    match (site.locate true path.parent.text).toOption.bind site.system.rights.write with
    | some barrier => some (.unwritable path.text ⟨.barred barrier, hidden⟩)
    | none => (site.system.unencodable? site.system.codec.inFiles content).map .unencodable

/-- The site with a file that holds a text at the end of a path; the text goes to a hidden file first. -/
def write (site : Site) (path : Path) (content : Text) : Except FileError Site :=
  match site.has Node.isDirectory path.parent.text with
  | .error error => .error (.refused error)
  | .ok false => .error (.noDirectory path.parent.text)
  | .ok true => do
    let mode ← site.modeFor path
    match site.hiddenError? path content with
    | some error => throw error
    | none =>
      let place ← site.placeFor path
      return { site with tree := site.tree.put place (.file (Utf8.encode content) mode) }

/-- Writing changes one place at most. -/
theorem write_eq_ok {site written : Site} {path : Path} {content : Text} (h : site.write path content = .ok written) :
    ∃ place mode, site.placeFor path = .ok place ∧ site.modeFor path = .ok mode ∧
      written = { site with tree := site.tree.put place (.file (Utf8.encode content) mode) } := by
  unfold write at h
  split at h
  · cases h
  · cases h
  · cases hm : site.modeFor path with
    | error error => simp [hm, bind, Except.bind] at h
    | ok mode =>
      simp only [hm, bind, Except.bind] at h
      split at h
      · cases h
      · cases hp : site.placeFor path with
        | error error => simp [hp] at h
        | ok place =>
          simp only [hp, pure, Except.pure, Except.ok.injEq] at h
          exact ⟨place, mode, rfl, rfl, h.symm⟩

end Site

end Lectern
