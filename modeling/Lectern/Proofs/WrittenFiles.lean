import Lectern.Files.Notes
import Lectern.Proofs.FileVariants

/-!
# Written files

Writing puts a file at one place. All texts that led to another place still lead there, and find there what they found
(**`Site.status_put`**), for a file can only take the place of a file or of nothing. If the path that is written to
leads along no link, then the place is the one that it says, and a file that was there keeps its permissions
(**`Site.Direct.write_cases`**).
-/

set_option autoImplicit false

namespace Lectern

/-! ## Looking for files that are not written -/

namespace Site

variable {site : Site} {place reached : Place} {s : Text}

/-- A site where a file was put in the place of a file or of nothing is the same but for that place. -/
theorem SameBut.sameBut_put (hne : place ≠ []) (hold : ∀ node, site.tree.get? place = some node → node.isFile = true)
    (bytes : List UInt8) (mode : Nat) :
    site.SameBut (· = place) { site with tree := site.tree.put place (.file bytes mode) } where
  tree := Tree.sameBut_put hne hold _
  tree_other :=
    { same := fun other ho => by rw [Tree.get?_put _ _ _ _ hne, if_neg ho]
      isFile := fun other node hc hget => by
        rw [hc, Tree.get?_put_self _ hne] at hget
        cases hget
        rfl }
  directory := rfl
  home := rfl
  homes := rfl
  system := .refl _ _

/-- Texts that led to another place find there what they found. -/
theorem status_put (hne : place ≠ []) (hold : ∀ node, site.tree.get? place = some node → node.isFile = true)
    (bytes : List UInt8) (mode : Nat) (h : site.locate true s = .ok reached) (hr : reached ≠ place) :
    ({ site with tree := site.tree.put place (.file bytes mode) } : Site).status s = site.status s := by
  rcases (SameBut.sameBut_put hne hold bytes mode).look_cases true s with ⟨-, hlook, -⟩ | ⟨hhinges, -⟩
  · exact hlook
  · rw [h] at hhinges
    exact absurd hhinges hr

/-! ## The place of a file -/

/-- Whether there is a node of some kind is told by what there is, or there is nothing for all that one can tell. -/
theorem has_cases {test : Node → Bool} {b : Bool} (h : site.has test s = .ok b) :
    (∃ node, site.status s = .ok node ∧ b = test node) ∨
      (∃ error, site.status s = .error error ∧ ∀ refusal, error = .refused refusal → refusal.reason.isAbsence = true) ∧
        b = false := by
  unfold has at h
  split at h
  · next node hnode => exact .inl ⟨node, hnode, (Except.ok.inj h).symm⟩
  · next hnode => exact .inr ⟨⟨_, hnode, fun refusal he => PathError.noConfusion he⟩, (Except.ok.inj h).symm⟩
  · next error hnode =>
    split at h
    · next habsence =>
      refine .inr ⟨⟨_, hnode, fun refusal he => ?_⟩, (Except.ok.inj h).symm⟩
      cases he
      exact habsence
    · cases h

/-- There is no telling only if the path cannot be followed, for an error that does not say that there is nothing. -/
theorem has_error {test : Node → Bool} {s : Text} {refusal : AccessError} (h : site.has test s = .error refusal) :
    site.status s = .error (.refused refusal) ∧ refusal.reason.isAbsence = false := by
  unfold has at h
  split at h
  · cases h
  · cases h
  · next found hfound =>
    split at h
    · cases h
    · next habsence =>
      cases h
      exact ⟨hfound, Bool.eq_false_iff.2 habsence⟩

namespace Direct

variable {path : Path}

/-- A file at the end of a path without links is written at the place that its names say. -/
theorem placeFor_eq (h : site.Direct path) (hs : site.Proper) {place : Place} (hp : site.placeFor path = .ok place) :
    place = path.names := by
  unfold placeFor at hp
  split at hp
  · cases hp
  · next name hname =>
    split at hp
    · cases hp
    · split at hp
      · next around haround =>
        cases hp
        obtain ⟨front, hnames⟩ := List.getLast?_eq_some_iff.1 hname
        rw [h.parent.eq_of_locate hs haround, Path.parent, hnames, List.dropLast_concat]
      · cases hp
      · cases hp

end Direct

/-- A file that is there keeps its permissions, and a new one gets those of new files. -/
theorem modeFor_cases {path : Path} {mode : Nat} (h : site.modeFor path = .ok mode) :
    (∃ bytes, site.status path.text = .ok (.file bytes mode)) ∨
      (∃ error, site.status path.text = .error error ∧
        ∀ refusal, error = .refused refusal → refusal.reason.isAbsence = true) ∧ mode = newFileMode := by
  unfold modeFor at h
  cases hoccupied : site.occupied path.text with
  | error error =>
    rw [hoccupied] at h
    cases h
  | ok occupied =>
    rw [hoccupied] at h
    rcases has_cases hoccupied with ⟨node, hnode, rfl⟩ | ⟨herror, rfl⟩
    · left
      simp only [if_true, regular, hnode] at h
      cases node with
      | file bytes previous =>
        cases h
        exact ⟨bytes, hnode⟩
      | _ => cases h
    · exact .inr ⟨herror, (Except.ok.inj h).symm⟩

/-- A document that is written to a path without links is at the place that its names say, where there was a file with
the same permissions or nothing. -/
theorem Direct.write_cases {path : Path} (hd : site.Direct path) (hs : site.Proper) {written : Site} {content : Text}
    (h : site.write path content = .ok written) :
    ∃ mode, site.placeFor path = .ok path.names ∧
      written = { site with tree := site.tree.put path.names (.file (Utf8.encode content) mode) } ∧
      ((∃ bytes, site.status path.text = .ok (.file bytes mode) ∧ site.tree.get? path.names = some (.file bytes mode)) ∨
        site.tree.get? path.names = none ∧ mode = newFileMode) := by
  obtain ⟨place, mode, hplace, hmode, rfl⟩ := write_eq_ok h
  obtain rfl := hd.placeFor_eq hs hplace
  refine ⟨mode, hplace, rfl, ?_⟩
  rcases modeFor_cases hmode with ⟨bytes, hstatus⟩ | ⟨⟨error, hstatus, herror⟩, hnew⟩
  · exact .inl ⟨bytes, hstatus, hd.get?_of_status hs hstatus⟩
  · refine .inr ⟨?_, hnew⟩
    cases hget : site.tree.get? path.names with
    | none => rfl
    | some node =>
      rcases hd.status_of_get? hs hget with ⟨-, hfound⟩ | ⟨reason, hreason, hrefused⟩
      · rw [hstatus] at hfound
        cases hfound
      · rw [hstatus] at hrefused
        rw [herror _ (Except.error.inj hrefused)] at hreason
        cases hreason

/-- A document is written if its place can be found and there can be a hidden file for it. -/
theorem write_of_placeFor {path : Path} {content : Text} {mode : Nat} {place : Place}
    (hparent : site.has Node.isDirectory path.parent.text = .ok true) (hmode : site.modeFor path = .ok mode)
    (hhidden : site.hiddenError? path content = none) (hplace : site.placeFor path = .ok place) :
    site.write path content = .ok { site with tree := site.tree.put place (.file (Utf8.encode content) mode) } := by
  unfold write
  rw [hparent, hmode, hplace]
  simp only [bind, Except.bind, hhidden]
  rfl

/-- Where nothing stands in the way, there can be a hidden file with every text. -/
theorem hiddenError?_of_free (hfree : site.system = .free) {path : Path}
    (hlen : (path.parent.child System.free.hiddenName).text.byteCount < maxPathBytes) (content : Text) :
    site.hiddenError? path content = none := by
  have hrights : (site.locate true path.parent.text).toOption.bind System.free.rights.write = none := by
    cases (site.locate true path.parent.text).toOption <;> rfl
  have hencodes : System.free.unencodable? System.free.codec.inFiles content = none :=
    System.unencodable?_eq_none_iff.2 fun _ _ => Bool.or_true _
  unfold hiddenError?
  dsimp only
  rw [hfree, if_neg (Nat.not_le.2 hlen), hrights]
  dsimp only
  rw [hencodes]
  rfl

theorem ne_nil_of_placeFor {path : Path} {place : Place} (h : site.placeFor path = .ok place) : place ≠ [] := by
  unfold placeFor at h
  split at h
  · cases h
  · split at h
    · cases h
    · split at h
      · cases h
        exact List.append_ne_nil_of_right_ne_nil _ (List.cons_ne_nil _ _)
      · cases h
      · cases h

end Site

end Lectern
