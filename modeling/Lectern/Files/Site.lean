import Lectern.Files.System
import Lectern.Text.Quoted
import Lectern.Text.Numeral

/-!
# Looking for files

A **`Site`** is a file tree on a system, together with the directory that a program works in. A path given as a text is
followed name by name, and a link on the way by following its target: **`Site.follow`** gives the place where this ends
or why it cannot go on. `Site.status` is what there is at the end, `Site.read` the bytes of a file, and `Site.has` tells
whether there is something, if there is telling.
-/

set_option autoImplicit false

namespace Lectern

/-! ## Errors -/

/-- Why a path cannot be used. -/
inductive Refusal where
  | notFound
  | notDirectory
  | isDirectory
  | nameTooLong
  | tooManyLinks
  | barred (barrier : Barrier)
deriving DecidableEq, Repr

/-- The number of an error. -/
def Refusal.number : Refusal → Nat
  | .notFound => 2
  | .barred .broken => 5
  | .barred .denied => 13
  | .notDirectory => 20
  | .isDirectory => 21
  | .nameTooLong => 36
  | .tooManyLinks => 40

/-- The name of an error. -/
def Refusal.text : Refusal → Text
  | .notFound => "No such file or directory".toList
  | .barred .broken => "Input/output error".toList
  | .barred .denied => "Permission denied".toList
  | .notDirectory => "Not a directory".toList
  | .isDirectory => "Is a directory".toList
  | .nameTooLong => "File name too long".toList
  | .tooManyLinks => "Too many levels of symbolic links".toList

/-- Whether an error says that there is nothing, for all that a program wants to know. -/
def Refusal.isAbsence : Refusal → Bool
  | .notFound | .notDirectory | .tooManyLinks => true
  | .isDirectory | .nameTooLong | .barred _ => false

/-- A path that cannot be used. -/
structure AccessError where
  reason : Refusal
  path : Text
deriving DecidableEq, Repr

/-- What a message says of a path that cannot be used. -/
def AccessError.message (error : AccessError) : Text :=
  "[Errno ".toList ++ Numeral.write error.reason.number ++ "] ".toList ++ error.reason.text ++ ": ".toList ++
    Text.quote error.path

/-- Why a text is no path at all. -/
inductive Unfit where
  /-- No path holds a null character. -/
  | nullByte
  | unencodable (error : Unencodable)
deriving DecidableEq, Repr

/-- What a message says of a text that is no path. -/
def Unfit.message : Unfit → Text
  | .nullByte => "embedded null byte".toList
  | .unencodable error => error.message

/-- A text that leads to no file. -/
inductive PathError where
  | refused (error : AccessError)
  | unfit (reason : Unfit)
deriving DecidableEq, Repr

/-- What a message says of a text that leads to no file. -/
def PathError.message : PathError → Text
  | .refused error => error.message
  | .unfit reason => reason.message

/-! ## Following a path -/

/-- The number of bytes of a text. -/
def Text.byteCount (s : Text) : Nat := s.foldl (fun n c => n + c.utf8Size) 0

/-- The names that a path leads along; a slash at its end stays in the directory before it. -/
def Text.steps (s : Text) : List Text :=
  let parts := s.splitSlashes
  parts.filter (· != []) ++ if parts.getLast? = some [] then [['.']] else []

/-- The place where a path starts. -/
def Text.origin (here : Place) : Text → Place
  | '/' :: _ => []
  | _ => here

/-- Whether a node is a directory. -/
def Node.isDirectory : Node → Bool
  | .directory => true
  | _ => false

/-- Whether a node is a regular file. -/
def Node.isFile : Node → Bool
  | .file _ _ => true
  | _ => false

/-- The number of bytes that a name may have. -/
def maxNameBytes : Nat := 255

/-- The number of bytes that a path has to stay below. -/
def maxPathBytes : Nat := 4096

/-- The number of links that may be followed on one path. -/
def maxLinks : Nat := 40

/-- A file tree as a program sees it. -/
structure Site where
  tree : Tree
  /-- The directory that the program works in. -/
  directory : Place
  /-- The path of the directory of its user. -/
  home : Text
  /-- The paths of the directories of other users, by their names. -/
  homes : List (Text × Text)
  system : System

namespace Site

/-- The place where names lead to from a place, if `links` links at most are followed on the way; a link that the very
last name leads to is followed only if `last` says so. -/
def follow (site : Site) (last : Bool) (links : Nat) (here : Place) (names : List Text) : Except Refusal Place :=
  match names with
  | [] => .ok here
  | name :: names =>
    if (site.tree.get? here).all (!·.isDirectory) then .error .notDirectory
    else
      match site.system.rights.search here with
      | some barrier => .error (.barred barrier)
      | none =>
        if name = ['.'] then site.follow last links here names
        else if name = ['.', '.'] then site.follow last links here.dropLast names
        else if maxNameBytes < name.byteCount then .error .nameTooLong
        else
          match site.tree.get? (here ++ [name]) with
          | none => .error .notFound
          | some (.link target) =>
            if names = [] ∧ last = false then .ok (here ++ [name])
            else
              match links with
              | 0 => .error .tooManyLinks
              | links + 1 => site.follow last links (target.origin here) (target.steps ++ names)
          | some _ => site.follow last links (here ++ [name]) names
termination_by (links, names.length)

/-- Whether a path can hold a character. -/
def fits (site : Site) (c : Char) : Bool := c != '\x00' && System.encodes site.system.codec.inPaths c

/-- Why a text is no path at all, if it is none. -/
def unfit? (site : Site) (path : Text) : Option Unfit :=
  match site.system.unencodable? site.system.codec.inPaths path with
  | some error => some (.unencodable error)
  | none => if '\x00' ∈ path then some .nullByte else none

/-- A text is a path if a path can hold its characters. -/
theorem unfit?_eq_none_iff {site : Site} {path : Text} :
    site.unfit? path = none ↔ ∀ c ∈ path, site.fits c = true := by
  unfold unfit?
  cases hcodec : site.system.unencodable? site.system.codec.inPaths path with
  | some error =>
    refine iff_of_false (fun h => by cases h) fun hfits => ?_
    rw [System.unencodable?_eq_none_iff.2 fun c hc => (Bool.and_eq_true_iff.1 (hfits c hc)).2] at hcodec
    cases hcodec
  | none =>
    have hencodes := System.unencodable?_eq_none_iff.1 hcodec
    dsimp only
    rw [ite_eq_right_iff]
    constructor
    · intro hnull c hc
      refine Bool.and_eq_true_iff.2 ⟨bne_iff_ne.2 fun he => ?_, hencodes c hc⟩
      cases hnull (he ▸ hc)
    · intro hfits hm
      exact absurd (Bool.and_eq_true_iff.1 (hfits _ hm)).1 (by decide)

/-- The place that a text leads to. -/
def locate (site : Site) (last : Bool) (path : Text) : Except PathError Place :=
  match site.unfit? path with
  | some reason => .error (.unfit reason)
  | none =>
    let place :=
      if path = [] then .error .notFound
      else if maxPathBytes ≤ path.byteCount then .error .nameTooLong
      else site.follow last maxLinks (path.origin site.directory) path.steps
    place.mapError fun reason => .refused ⟨reason, path⟩

/-- What there is at the place that a text leads to. -/
def look (site : Site) (last : Bool) (path : Text) : Except PathError Node := do
  match site.tree.get? (← site.locate last path) with
  | some node => return node
  | none => throw (.refused ⟨.notFound, path⟩)

/-- What there is at the end of a path and of the links behind it. -/
def status (site : Site) (path : Text) : Except PathError Node := site.look true path

/-- Whether there is a node of some kind at the end of a path. There is none if the path leads nowhere; that it cannot
be followed is an error. -/
def has (site : Site) (test : Node → Bool) (path : Text) : Except AccessError Bool :=
  match site.status path with
  | .ok node => .ok (test node)
  | .error (.unfit _) => .ok false
  | .error (.refused error) => if error.reason.isAbsence then .ok false else .error error

/-- Whether there is anything at the end of a path. -/
def occupied (site : Site) (path : Text) : Except AccessError Bool := site.has (fun _ => true) path

/-- The bytes of the file at the end of a path, if it can be opened; a device has none. -/
def read (site : Site) (path : Text) : Except PathError (List UInt8) := do
  let place ← site.locate true path
  let node ← site.status path
  match site.system.rights.read place with
  | some barrier => throw (.refused ⟨.barred barrier, path⟩)
  | none =>
    match node with
    | .file bytes _ => return bytes
    | .directory => throw (.refused ⟨.isDirectory, path⟩)
    | .link _ | .device => return []

end Site

end Lectern
