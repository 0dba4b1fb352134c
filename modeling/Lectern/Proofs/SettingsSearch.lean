import Lectern.Command.Run
import Lectern.Proofs.Attempts
import Lectern.Proofs.WrittenFiles

/-!
# Why there are no settings

A search for settings goes through the files in and around a directory. It fails if a table that it finds is wrong, or
if there is no telling what table is in a file (**`Site.TableFails`**): `cases_of_loadSettings` says so of a directory
whose path is resolved already. What parameters choose is always a setting that there is, so building settings from
what was found and these fails for no other reason but wrong values (`cases_of_buildSettings`).
-/

set_option autoImplicit false

namespace Lectern

namespace Site

/-- Why there is no telling what table is in a file. -/
inductive TableFails (site : Site) (path : Path) : SearchError → Prop where
  /-- The path cannot be followed, for an error that does not say that there is nothing. -/
  | refused {error : AccessError} : site.status path.text = .error (.refused error) → error.reason.isAbsence = false →
      TableFails site path (.refused error)
  | undecodable {bytes : List UInt8} {failure : Utf8.Failure} : site.read path.text = .ok bytes →
      Utf8.decode bytes = .error failure → TableFails site path (.undecodable failure)
  | numeral {bytes : List UInt8} {s : Text} {digits : Nat} : site.read path.text = .ok bytes →
      Utf8.decode bytes = .ok s → Toml.read site.system.valueDepth s = .error (.tooLong digits) →
      TableFails site path (.numeral (.tooLong digits))
  /-- Values are inside of each other more deeply than the stack has room for. -/
  | tooDeep {bytes : List UInt8} {s : Text} : site.read path.text = .ok bytes → Utf8.decode bytes = .ok s →
      Toml.read site.system.valueDepth s = .error .tooDeep → TableFails site path .tooDeep

/-! ## Searching -/

variable {site : Site} {path : Path} {error : SearchError}

theorem tableFails_of_table? (h : site.table? path = .error error) : site.TableFails path error := by
  unfold table? at h
  split at h
  · next refusal hrefusal =>
    cases h
    obtain ⟨hstatus, habsence⟩ := has_error hrefusal
    exact .refused hstatus habsence
  · cases h
  · split at h
    · cases h
    · next bytes hbytes =>
      split at h
      · next failure hfailure =>
        cases h
        exact .undecodable hbytes hfailure
      · next s hs =>
        split at h
        · cases h
        · next digits hdigits =>
          cases h
          exact .numeral hbytes hs hdigits
        · next hdeep =>
          cases h
          exact .tooDeep hbytes hs hdeep
        · cases h

theorem cases_of_settingsIn? {directory : Path} {file : SettingsFile}
    (h : site.settingsIn? directory file = .error error) :
    (∃ wrong, error = .settings wrong) ∨ site.TableFails (directory.child file.name) error := by
  unfold settingsIn? at h
  rcases cases_of_bind_eq_error h with h | ⟨value?, hvalue, h⟩
  · exact .inr (tableFails_of_table? h)
  · split at h
    · cases h
    · split at h
      · cases h
      · cases h
      · next wrong hwrong =>
        cases h
        exact .inl ⟨wrong, rfl⟩

theorem exists_of_firstSettings? {places : List (Path × SettingsFile)} (h : site.firstSettings? places = .error error) :
    ∃ place ∈ places, site.settingsIn? place.1 place.2 = .error error := by
  induction places with
  | nil => cases h
  | cons place places ih =>
    rw [firstSettings?] at h
    split at h
    · obtain ⟨other, hm, hother⟩ := ih h
      exact ⟨other, List.mem_cons_of_mem _ hm, hother⟩
    · exact ⟨place, List.mem_cons_self, h⟩

/-- Where a directory is resolved already, loading its settings fails for settings that are wrong or cannot be told. -/
theorem cases_of_loadSettings (hr : site.resolve false path = .ok path) (h : site.loadSettings path = .error error) :
    (∃ wrong, error = .settings wrong) ∨
      ∃ directory ∈ path.around, ∃ file ∈ SettingsFile.all, site.TableFails (directory.child file.name) error := by
  unfold loadSettings at h
  rw [hr] at h
  dsimp only at h
  cases hfirst :
      site.firstSettings? (path.around.flatMap fun path => SettingsFile.all.map fun file => (path, file)) with
  | ok found =>
    rw [hfirst] at h
    cases h
  | error wrong =>
    rw [hfirst] at h
    cases h
    obtain ⟨⟨directory, file⟩, hm, hplace⟩ := exists_of_firstSettings? hfirst
    obtain ⟨around, haround, hm⟩ := List.mem_flatMap.1 hm
    obtain ⟨candidate, hcandidate, he⟩ := List.mem_map.1 hm
    cases he
    exact (cases_of_settingsIn? hplace).imp_right fun hfails => ⟨directory, haround, file, hcandidate, hfails⟩

end Site

/-! ## Changing -/

namespace Command

variable {site : Site} {path : Path} {error : SearchError}

/-- Parameters choose settings that there are. -/
theorem key_of_mem_changes {parameters : Parameters} {change : Text × Value} (h : change ∈ changes parameters) :
    change.1 ∈ Setting.all.map Setting.key := by
  have htext : ∀ (s? : Option Text) (setting : Setting),
      change ∈ s?.toList.map (fun s => (setting.key, Value.text s)) → change.1 ∈ Setting.all.map Setting.key := by
    intro s? setting hm
    obtain ⟨s, -, rfl⟩ := List.mem_map.1 hm
    have hsetting : setting ∈ Setting.all := by cases setting <;> decide
    exact List.mem_map_of_mem hsetting
  unfold changes at h
  rcases List.mem_append.1 h with h | h
  · rcases List.mem_append.1 h with h | h
    · rcases List.mem_append.1 h with h | h
      · exact htext _ _ h
      · exact htext _ _ h
    · exact htext _ _ h
  · split at h
    · rw [List.mem_singleton.1 h]
      have hm : Setting.strictBlocks ∈ Setting.all := by decide
      exact List.mem_map_of_mem hm
    · cases h

theorem guard_changes {receiver : Receiver} (hr : receiver.ownKey ∉ Setting.all.map Setting.key)
    (parameters : Parameters) : receiver.guard (changes parameters) = .ok () := by
  unfold Receiver.guard
  rw [if_neg]
  intro hm
  obtain ⟨change, hchange, he⟩ := List.mem_map.1 (List.contains_iff_mem.1 hm)
  exact hr (he ▸ key_of_mem_changes hchange)

theorem exists_override (parameters : Parameters) (raw : RawSettings) :
    ∃ changed, raw.override? (changes parameters) = .ok changed := by
  have hguard : RawSettings.changer.guard (changes parameters) = .ok () := guard_changes (by decide +kernel) parameters
  obtain ⟨changed, hchanged⟩ :
      ∃ changed, RawSettings.changes? (RawSettings.chosen (changes parameters)) = .ok changed := by
    refine exists_mapM fun ⟨key, value⟩ hm => ?_
    obtain ⟨setting, -, rfl⟩ := List.mem_map.1 (key_of_mem_changes (List.mem_filter.1 hm).1)
    have hfound : Setting.ofKey? setting.key = some setting := by cases setting <;> decide +kernel
    dsimp only
    rw [hfound]
    exact ⟨_, rfl⟩
  refine ⟨raw.setAll changed, ?_⟩
  unfold RawSettings.override?
  rw [hguard]
  simp only [bind, Except.bind, hchanged]
  rfl

/-- So does building settings from it with what parameters choose. -/
theorem cases_of_buildSettings {parameters : Parameters} (hr : site.resolve false path = .ok path)
    (h : site.buildSettings path (changes parameters) = .error error) :
    (∃ wrong, error = .settings wrong) ∨
      ∃ directory ∈ path.around, ∃ file ∈ SettingsFile.all, site.TableFails (directory.child file.name) error := by
  have hguard : Site.settingsBuilder.guard (changes parameters) = .ok () := guard_changes (by decide +kernel) parameters
  unfold Site.buildSettings at h
  rw [hguard] at h
  rcases cases_of_bind_eq_error h with h | ⟨⟨⟩, -, h⟩
  · cases h
  rcases cases_of_bind_eq_error h with h | ⟨raw, -, h⟩
  · exact Site.cases_of_loadSettings hr h
  obtain ⟨changed, hchanged⟩ := exists_override parameters raw
  rw [hchanged] at h
  obtain ⟨wrong, -, rfl⟩ := exists_of_mapError_eq_error h
  exact .inl ⟨wrong, rfl⟩

end Command

end Lectern
