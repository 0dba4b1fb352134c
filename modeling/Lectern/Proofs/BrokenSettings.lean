import Lectern.Proofs.NearestSettings

/-!
# Damaged files

Loading settings fails at the first entry that does not come to nothing, if the entry stands for no settings or there is
no telling what is in its file. A file that cannot be read or whose text is no table is the same as none, and all other
damage is the same as none or fails the search (**`Site.settings_of_damaged`**). Bytes that are no text do fail it
(`Site.not_settings_of_damaged`).
-/

set_option autoImplicit false

namespace Lectern.Site

variable {site other : Site} {directory : Path} {error : SearchError}

/-! ## Why a search fails -/

theorem loadSettings_eq_error_iff {resolved : Path} (hr : site.resolve false directory = .ok resolved) :
    site.loadSettings directory = .error error ↔
      ∃ before entry after, SettingsEntry.around resolved = before ++ entry :: after ∧
        (∀ nearer ∈ before, site.answer? nearer = none) ∧ site.answer? entry = some (.error error) := by
  constructor
  · intro h
    rw [loadSettings_eq hr] at h
    cases hfirst : (SettingsEntry.around resolved).findSome? site.answer? with
    | none =>
      rw [hfirst] at h
      cases h
    | some result =>
      rw [hfirst] at h
      obtain rfl : result = .error error := h
      obtain ⟨before, entry, after, haround, hanswer, hbefore⟩ := List.findSome?_eq_some_iff.1 hfirst
      exact ⟨before, entry, after, haround, hbefore, hanswer⟩
  · rintro ⟨before, entry, after, haround, hbefore, hanswer⟩
    exact loadSettings_of_answer hr haround hbefore hanswer

/-- An entry fails the search for its file, or for a value that stands for no settings. -/
theorem answer?_eq_error_iff {entry : SettingsEntry} :
    site.answer? entry = some (.error error) ↔
      site.TableFails entry.path error ∨
        ∃ value, site.Holds entry value ∧ (∀ entries, ¬ value.Lists entries) ∧
          error = .settings (.badTable entry.table entry.path.text) := by
  constructor
  · intro h
    rcases answer?_cases h with ⟨other, hfails, he⟩ | ⟨value, hholds, he⟩
    · cases he
      exact .inl hfails
    · rcases RawSettings.ofValue_cases hholds.distinct entry.table entry.path.text with
        ⟨entries, -, hvalue⟩ | ⟨hlists, hvalue⟩
      · rw [hvalue] at he
        cases he
      · rw [hvalue] at he
        cases he
        exact .inr ⟨value, hholds, hlists, rfl⟩
  · rintro (hfails | ⟨value, hholds, hlists, rfl⟩)
    · exact answer?_of_fails hfails
    · rcases RawSettings.ofValue_cases hholds.distinct entry.table entry.path.text with
        ⟨entries, hlisted, -⟩ | ⟨-, hvalue⟩
      · exact absurd hlisted (hlists entries)
      · rw [answer?_of_holds hholds, hvalue]
        rfl

/-! ## Files that are taken away -/

/-- The first answers are the same, or one of them is a certain one. -/
theorem findSome?_cases {α β : Type} {f g : α → Option β} {b : β} (xs : List α)
    (h : ∀ x ∈ xs, f x = g x ∨ f x = some b) : xs.findSome? f = xs.findSome? g ∨ xs.findSome? f = some b := by
  induction xs with
  | nil => exact .inl rfl
  | cons x xs ih =>
    obtain ⟨hx, hxs⟩ := List.forall_mem_cons.1 h
    rw [List.findSome?_cons, List.findSome?_cons]
    rcases hx with hx | hx
    · rw [hx]
      cases g x with
      | none => exact ih hxs
      | some a => exact .inl rfl
    · rw [hx]
      exact .inr rfl

theorem loadSettings_congr (hr : other.resolve false directory = site.resolve false directory)
    (h : ∀ path, other.table? path = site.table? path) :
    other.loadSettings directory = site.loadSettings directory := by
  cases hs : site.resolve false directory with
  | error wrong => rw [loadSettings, loadSettings, hr, hs]
  | ok resolved =>
    have hanswer : ∀ entry ∈ SettingsEntry.around resolved, other.answer? entry = site.answer? entry :=
      fun entry _ => answer?_congr (h entry.path)
    rw [loadSettings_eq hs, loadSettings_eq (hr.trans hs), findSome?_congr hanswer]

theorem loadSettings_cases (hr : other.resolve false directory = site.resolve false directory)
    (h : ∀ path, site.table? path = other.table? path ∨ site.table? path = .error error) :
    site.loadSettings directory = other.loadSettings directory ∨ site.loadSettings directory = .error error := by
  cases hs : site.resolve false directory with
  | error wrong =>
    left
    rw [loadSettings, loadSettings, hr, hs]
  | ok resolved =>
    have hanswer : ∀ entry, site.answer? entry = other.answer? entry ∨ site.answer? entry = some (.error error) := by
      intro entry
      refine (h entry.path).imp answer?_congr fun htable => ?_
      rw [answer?, htable]
    rw [loadSettings_eq hs, loadSettings_eq (hr.trans hs)]
    rcases findSome?_cases (SettingsEntry.around resolved) fun entry _ => hanswer entry with hfirst | hfirst
    · rw [hfirst]
      exact .inl rfl
    · rw [hfirst]
      exact .inr rfl

section Damage

variable {place : Place} {bytes : List UInt8} {mode : Nat} {path : Path}

theorem read_of_located (hlocate : site.locate true path.text = .ok place)
    (hstatus : site.status path.text = .ok (.file bytes mode)) :
    site.read path.text =
      match site.system.rights.read place with
      | some barrier => .error (.refused ⟨.barred barrier, path.text⟩)
      | none => .ok bytes := by
  rw [read, hlocate, hstatus]
  simp only [bind, Except.bind]
  cases site.system.rights.read place <;> rfl

/-- What cannot be read has no table. -/
theorem table?_of_unread {node : Node} {wrong : PathError} (hstatus : site.status path.text = .ok node)
    (hread : site.read path.text = .error wrong) : site.table? path = .ok none := by
  have hoccupied : site.occupied path.text = .ok true := by
    rw [occupied, has, hstatus]
  rw [table?, hoccupied]
  dsimp only
  rw [hread]
  rfl

/-- A file is the same as none if it has no table when it can be read. -/
theorem loadSettings_of_skipped (hfile : site.tree.get? place = some (.file bytes mode))
    (hskipped : site.system.rights.read place = none → ∀ path : Path, site.read path.text = .ok bytes →
      site.table? path = .ok none) :
    site.loadSettings directory = (site.without place).loadSettings directory := by
  refine (loadSettings_congr ((SameBut.sameBut_without hfile).resolve_eq directory) fun path => ?_).symm
  rcases table?_without hfile path with hsame | ⟨hnone, hlocate, hstatus⟩
  · exact hsame
  · have hread := read_of_located hlocate hstatus
    rw [hnone]
    cases hb : site.system.rights.read place with
    | some barrier =>
      rw [hb] at hread
      exact (table?_of_unread hstatus hread).symm
    | none =>
      rw [hb] at hread
      exact (hskipped hb path hread).symm

/-- A file that there is no telling of is the same as none, or the search fails for it. -/
theorem loadSettings_of_untold (hfile : site.tree.get? place = some (.file bytes mode))
    (hfails : ∀ path : Path, site.read path.text = .ok bytes → site.TableFails path error) :
    site.loadSettings directory = (site.without place).loadSettings directory ∨
      site.loadSettings directory = .error error := by
  refine loadSettings_cases ((SameBut.sameBut_without hfile).resolve_eq directory) fun path => ?_
  rcases table?_without hfile path with hsame | ⟨hnone, hlocate, hstatus⟩
  · exact .inl hsame.symm
  · have hread := read_of_located hlocate hstatus
    cases hb : site.system.rights.read place with
    | some barrier =>
      rw [hb] at hread
      exact .inl ((table?_of_unread hstatus hread).trans hnone.symm)
    | none =>
      rw [hb] at hread
      exact .inr (table?_eq_error_iff.2 (hfails path hread))

end Damage

/-- What loading settings fails for, and what becomes of a damaged file: one that cannot be read or whose text is no
table is the same as no file, and everything else is the same too unless the search fails for it. -/
theorem settings_of_damaged (site : Site) (directory : Path) :
    (∀ error, site.loadSettings directory = .error error ↔
      (∃ wrong, site.resolve false directory = .error wrong ∧ error = .unresolved wrong) ∨
        ∃ resolved before entry after, site.resolve false directory = .ok resolved ∧
          SettingsEntry.around resolved = before ++ entry :: after ∧
          (∀ nearer ∈ before,
            (∀ error, ¬ site.TableFails nearer.path error) ∧ ∀ value, ¬ site.Holds nearer value) ∧
          (site.TableFails entry.path error ∨
            ∃ value, site.Holds entry value ∧ (∀ entries, ¬ value.Lists entries) ∧
              error = .settings (.badTable entry.table entry.path.text))) ∧
    ∀ place bytes mode, site.tree.get? place = some (.file bytes mode) →
      (∀ barrier, site.system.rights.read place = some barrier →
        site.loadSettings directory = (site.without place).loadSettings directory) ∧
      (∀ s, Utf8.decode bytes = .ok s → Toml.read site.system.valueDepth s = .error .malformed →
        site.loadSettings directory = (site.without place).loadSettings directory) ∧
      (∀ failure, Utf8.decode bytes = .error failure →
        site.loadSettings directory = (site.without place).loadSettings directory ∨
          site.loadSettings directory = .error (.undecodable failure)) ∧
      (∀ s digits, Utf8.decode bytes = .ok s → Toml.read site.system.valueDepth s = .error (.tooLong digits) →
        site.loadSettings directory = (site.without place).loadSettings directory ∨
          site.loadSettings directory = .error (.numeral (.tooLong digits))) ∧
      ∀ s, Utf8.decode bytes = .ok s → Toml.read site.system.valueDepth s = .error .tooDeep →
        site.loadSettings directory = (site.without place).loadSettings directory ∨
          site.loadSettings directory = .error .tooDeep := by
  refine ⟨fun error => ?_, fun place bytes mode hfile => ⟨fun barrier hb => ?_, fun s hs hmalformed => ?_,
    fun failure hfailure => ?_, fun s digits hs hdigits => ?_, fun s hs hdeep => ?_⟩⟩
  · cases hr : site.resolve false directory with
    | error wrong =>
      rw [loadSettings, hr]
      constructor
      · intro h
        cases h
        exact .inl ⟨wrong, rfl, rfl⟩
      · rintro (⟨other, he, rfl⟩ | ⟨resolved, before, entry, after, he, -⟩)
        · cases he
          rfl
        · cases he
    | ok resolved =>
      rw [loadSettings_eq_error_iff hr]
      constructor
      · rintro ⟨before, entry, after, haround, hbefore, hanswer⟩
        exact .inr ⟨resolved, before, entry, after, rfl, haround, fun nearer hm =>
          answer?_eq_none_iff.1 (hbefore nearer hm), answer?_eq_error_iff.1 hanswer⟩
      · rintro (⟨wrong, he, -⟩ | ⟨other, before, entry, after, he, haround, hbefore, hanswer⟩)
        · cases he
        · cases he
          exact ⟨before, entry, after, haround, fun nearer hm => answer?_eq_none_iff.2 (hbefore nearer hm),
            answer?_eq_error_iff.2 hanswer⟩
  · refine loadSettings_of_skipped hfile fun hfree => ?_
    rw [hb] at hfree
    cases hfree
  · refine loadSettings_of_skipped hfile fun _ path hread => ?_
    rw [table?_of_read hread, hs]
    dsimp only
    rw [hmalformed]
  · exact loadSettings_of_untold hfile fun path hread => .undecodable hread hfailure
  · exact loadSettings_of_untold hfile fun path hread => .numeral hread hs hdigits
  · exact loadSettings_of_untold hfile fun path hread => .tooDeep hread hs hdeep

/-- A file whose bytes are no text fails the search, where no file would leave the defaults. -/
theorem not_settings_of_damaged :
    ¬ ∀ (site : Site) (directory : Path) (place : Place) (bytes : List UInt8) (mode : Nat) (failure : Utf8.Failure),
      site.status directory.text = .ok .directory → site.tree.get? place = some (.file bytes mode) →
      Utf8.decode bytes = .error failure →
      site.loadSettings directory = (site.without place).loadSettings directory := by
  intro h
  obtain ⟨failure, hfailure⟩ : ∃ failure, Utf8.decode [0xFF] = .error failure := ⟨_, by cbv⟩
  have hsame := h (projectSite [0xFF]) ⟨.here, []⟩ ["pyproject.toml".toList] [0xFF] 0o644 failure
    (status_projectSite _) rfl hfailure
  obtain ⟨error, herror⟩ : ∃ error, (projectSite [0xFF]).loadSettings ⟨.here, []⟩ = .error error := ⟨_, by cbv⟩
  have hdefault : ((projectSite [0xFF]).without ["pyproject.toml".toList]).loadSettings ⟨.here, []⟩ = .ok .default := by
    cbv
  cases herror.symm.trans (hsame.trans hdefault)

end Lectern.Site
