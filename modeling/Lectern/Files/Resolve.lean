import Lectern.Files.Site

/-!
# Resolving paths

The same file has many paths. **`Site.resolve`** gives the one that starts at the top directory and leads along no link:
each link on the way is replaced by its target (**`Site.trace`**), and two periods take away the name before them. A
strict resolution needs something at every step; one that is not strict goes on with the text alone where there is
nothing. Links that lead back to themselves cannot be resolved, nor can links that lead to each other too many times.
-/

set_option autoImplicit false

namespace Lectern

/-- Why a path has no resolved form. -/
inductive ResolveError where
  /-- The path starts at the directory of a user who has none. -/
  | noHome
  /-- A link on the path leads back to itself. -/
  | circular (path : Text)
  /-- Links lead to each other more times than the stack has room for. -/
  | tooDeep
  | unusable (error : PathError)
deriving DecidableEq, Repr

/-- What a message says when the stack has no room for another call. -/
def recursionMessage : Text := "maximum recursion depth exceeded".toList

/-- What a message says of a path that has no resolved form. -/
def ResolveError.message : ResolveError → Text
  | .noHome => "Could not determine home directory.".toList
  | .circular path => "Symlink loop from ".toList ++ Text.quote path
  | .tooDeep => recursionMessage
  | .unusable error => error.message

/-- A path that cannot be used has no resolved form, and too many links are a circle. -/
def ResolveError.ofPathError : PathError → ResolveError
  | .refused error => if error.reason = .tooManyLinks then .circular error.path else .unusable (.refused error)
  | .unfit reason => .unusable (.unfit reason)

/-! ## Home directories -/

/-- The text without the slashes at its end; a text of slashes alone is the top directory. -/
def Text.dropSlashes (s : Text) : Text :=
  match (s.reverse.dropWhile (· == '/')).reverse with
  | [] => ['/']
  | s => s

/-- The directory that a name with a tilde in front stands for. -/
def Site.homeOf (site : Site) (user : Text) : Except ResolveError Text :=
  if user = [] then .ok site.home.dropSlashes
  else
    match site.unfit? user with
    | some reason => .error (.unusable (.unfit reason))
    | none =>
      match site.homes.lookup user with
      | some home => .ok home.dropSlashes
      | none => .error .noHome

/-- The path where a tilde in front is replaced by the directory that it stands for. -/
def Site.expand (site : Site) (path : Path) : Except ResolveError Path := do
  match path with
  | ⟨.here, ('~' :: user) :: names⟩ =>
    match ← site.homeOf user with
    | '~' :: _ => throw .noHome
    | home =>
      let start := Path.parse home
      return { start with names := start.names ++ names }
  | path => return path

/-! ## Links -/

/-- What is left of a path when the links on it are replaced. -/
inductive Trail where
  /-- All links are replaced. -/
  | whole (path : Path)
  /-- The path goes on behind a link that leads back to itself. -/
  | circular (path : Text)
deriving DecidableEq, Repr

/-- The text of what is left of a path. -/
def Trail.text : Trail → Text
  | .whole path => path.text
  | .circular path => path

/-- One text behind another as a path; a text that starts with a slash stands for itself. -/
def Text.joinPath (s : Text) : Text → Text
  | '/' :: t => '/' :: t
  | t => if s = [] ∨ s.getLast? = some '/' then s ++ t else s ++ ['/'] ++ t

/-- The path that a link target is relative to. -/
def Path.baseOf (path : Path) : Text → Path
  | '/' :: _ => ⟨.top, []⟩
  | _ => path

/-- The links that were met, by their paths, with what they lead to; there is no such path yet for a link that is being
replaced. -/
abbrev Seen := List (Text × Option Path)

namespace Site

/-- What comes of a link that is met while it is being replaced, in front of `rest`. It is a circle, unless there is
something behind it. -/
def again? (site : Site) (strict : Bool) (link rest : Text) : Option (Except ResolveError Trail) :=
  if strict then
    match site.status link with
    | .error error => some (.error (.ofPathError error))
    | .ok _ => none
  else some (.ok (.circular (link.joinPath rest)))

/-- Replaces the links on the way from `path` along `parts`, up to `depth` of them inside of each other. -/
def trace (site : Site) (strict : Bool) (depth : Nat) (seen : Seen) (path : Path) (parts : List Text) :
    Except ResolveError (Trail × Seen) :=
  match parts with
  | [] => .ok (.whole path, seen)
  | part :: parts =>
    if part.isIdle then site.trace strict depth seen path parts
    else if part = ['.', '.'] then site.trace strict depth seen path.up parts
    else
      let next := path.child part
      match site.look false next.text with
      | .error (.unfit reason) => .error (.unusable (.unfit reason))
      | .error (.refused error) =>
        if strict then .error (.ofPathError (.refused error)) else site.trace strict depth seen next parts
      | .ok (.link target) =>
        let rest := List.intercalate ['/'] parts
        match seen.lookup next.text with
        | some (some found) => site.trace strict depth seen found parts
        | known? =>
          match known?.bind fun _ => site.again? strict next.text rest with
          | some result => result.map fun trail => (trail, seen)
          | none =>
            match depth with
            | 0 => .error .tooDeep
            | depth + 1 =>
              match site.trace strict depth ((next.text, none) :: seen) (path.baseOf target) target.splitSlashes with
              | .error error => .error error
              | .ok (.circular s, seen) => .ok (.circular (s.joinPath rest), seen)
              | .ok (.whole found, seen) => site.trace strict (depth + 1) ((next.text, some found) :: seen) found parts
      | .ok _ => site.trace strict depth seen next parts
termination_by (depth, parts.length)

/-- The path of a text from the top directory. -/
def absolute (site : Site) (s : Text) : Path := ((⟨.top, site.directory⟩ : Path).join s).normal

/-- The path that starts at the top directory and leads along no link. -/
def resolve (site : Site) (strict : Bool) (path : Path) : Except ResolveError Path :=
  let s := path.text
  match site.trace strict site.system.linkDepth [] ((⟨.here, []⟩ : Path).baseOf s) s.splitSlashes with
  | .error error => .error error
  | .ok (trail, _) =>
    let resolved := site.absolute trail.text
    if strict then .ok resolved
    else
      match site.status resolved.text with
      | .error (.refused error) => if error.reason = .tooManyLinks then .error (.circular error.path) else .ok resolved
      | .error (.unfit reason) => .error (.unusable (.unfit reason))
      | .ok _ => .ok resolved

end Site

end Lectern
