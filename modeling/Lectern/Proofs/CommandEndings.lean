import Lectern.Proofs.FileChanges
import Lectern.Proofs.FileOutcomes
import Lectern.Proofs.PathCharacters
import Lectern.Proofs.SettingsSearch

/-!
# How the command ends

A run comes to its end or stops: at the arguments, at a stage of its plan, at the question to the user, or because there
is no document or it cannot be delivered (**`Command.Stopped`**). **`Command.run_ending`** says that it then ends with
the code one or two and a message of what was wrong, unless the error is one that the command does not catch
(**`Command.Escapes`**). Each stage is accounted for on its own (`Unplanned.accounted`, `accounted_of_convertChecked`,
`accounted_of_deliver`). Paths hold what the arguments hold, so a character that no path can hold comes from an
argument.
-/

set_option autoImplicit false

namespace Lectern

/-! ## Errors of files -/

/-- An error of a file that the command shows. -/
def FileError.isShown : FileError → Bool
  | .unfit _ | .unencodable _ => false
  | _ => true

namespace Site

variable {site : Site} {path : Path} {error : FileError}

theorem cases_of_modeFor (h : site.modeFor path = .error error) :
    error.isShown = true ∨ ∃ reason, error = .unfit reason ∧ ¬ path.IsClean site := by
  unfold modeFor at h
  split at h
  · cases h
    exact .inl rfl
  · split at h
    · unfold regular at h
      split at h
      · cases h
      · cases h
        exact .inl rfl
      · cases h
        exact .inl rfl
      · next reason hunfit =>
        cases h
        exact .inr ⟨reason, rfl, fun hclean => look_ne_unfit hclean.fits_text reason hunfit⟩
    · cases h

theorem cases_of_placeFor (h : site.placeFor path = .error error) :
    error.isShown = true ∨ ∃ reason, error = .unfit reason ∧ ¬ path.IsClean site := by
  unfold placeFor at h
  split at h
  · cases h
    exact .inl rfl
  · next name hname =>
    split at h
    · next reason hunfit =>
      cases h
      refine .inr ⟨reason, rfl, fun hclean => ?_⟩
      rw [unfit?_eq_none_iff.2 (hclean name (List.mem_of_getLast? hname))] at hunfit
      cases hunfit
    · split at h
      · cases h
      · cases h
        exact .inl rfl
      · next reason hunfit =>
        cases h
        exact .inr ⟨reason, rfl, fun hclean => locate_ne_unfit hclean.parent.fits_text reason hunfit⟩

theorem cases_of_hiddenError? {content : Text} (h : site.hiddenError? path content = some error) :
    error.isShown = true ∨ ∃ wrong,
      site.system.unencodable? site.system.codec.inFiles content = some wrong ∧ error = .unencodable wrong := by
  unfold hiddenError? at h
  dsimp only at h
  split at h
  · cases h
    exact .inl rfl
  · split at h
    · cases h
      exact .inl rfl
    · obtain ⟨wrong, hwrong, rfl⟩ := Option.map_eq_some_iff.1 h
      exact .inr ⟨wrong, hwrong, rfl⟩

/-- Writing fails for an error that is shown, for characters that a file cannot hold, or for some that a path cannot. -/
theorem cases_of_write_error {content : Text} (h : site.write path content = .error error) :
    (error.isShown = true ∨ ∃ reason, error = .unfit reason ∧ ¬ path.IsClean site) ∨ ∃ wrong,
      site.system.unencodable? site.system.codec.inFiles content = some wrong ∧ error = .unencodable wrong := by
  unfold write at h
  split at h
  · cases h
    exact .inl (.inl rfl)
  · cases h
    exact .inl (.inl rfl)
  · rcases cases_of_bind_eq_error h with h | ⟨mode, -, h⟩
    · exact .inl (cases_of_modeFor h)
    split at h
    · next other hother =>
      cases h
      exact (cases_of_hiddenError? hother).imp_left .inl
    · rcases cases_of_bind_eq_error h with h | ⟨place, -, h⟩
      · exact .inl (cases_of_placeFor h)
      · cases h

end Site

namespace Command

/-! ## Messages -/

/-- What is printed of errors shows a message, which may come behind a few words. -/
def ShowsError (kit : Toolkit) (errors words message : Text) : Prop :=
  ∃ front, errors = front ++ "Error: ".toList ++ words ++ kit.echoError (message ++ ['\n'])

/-- What is said of a stop for an error that is shown. -/
inductive Reported (kit : Toolkit) (result : Result) : Stop → Prop where
  | badParameter {message : Text} : result.ending = .exit 2 →
      ShowsError kit result.errors "Invalid value: ".toList message →
      Reported kit result (.complaint (.badParameter message))
  | failure {message : Text} : result.ending = .exit 1 → ShowsError kit result.errors [] message →
      Reported kit result (.complaint (.failure message))
  | aborted {front : Text} : result.ending = .exit 1 → result.errors = front ++ "Aborted!\n".toList →
      Reported kit result (.complaint .aborted)

section Messages

variable {kit : Toolkit}

/-- A complaint is shown behind what was printed of errors before. -/
theorem reported_complaint (hkit : kit.Documented) {result : Result} {complaint : Complaint} {warnings : Text}
    (hend : result.ending = .exit (kit.code complaint)) (herrors : result.errors = warnings ++ kit.complain complaint) :
    Reported kit result (.complaint complaint) := by
  cases complaint with
  | badParameter message =>
    rw [hkit.code_badParameter] at hend
    obtain ⟨hint, hcomplain⟩ := hkit.complain_badParameter message
    refine .badParameter hend ⟨warnings ++ hint, ?_⟩
    have hplain : kit.echoError ("Error: Invalid value: ".toList ++ (message ++ ['\n'])) =
        "Error: Invalid value: ".toList ++ kit.echoError (message ++ ['\n']) :=
      hkit.echoError_plain (by decide) _
    have hwords : "Error: Invalid value: ".toList = "Error: ".toList ++ "Invalid value: ".toList := rfl
    rw [herrors, hcomplain, List.append_assoc _ message, hplain, hwords]
    simp only [List.append_assoc]
  | failure message =>
    rw [hkit.code_failure] at hend
    refine .failure hend ⟨warnings, ?_⟩
    rw [herrors, hkit.complain_failure, List.append_assoc _ message, hkit.echoError_plain (by decide)]
    simp only [List.append_assoc, List.append_nil]
  | aborted =>
    rw [hkit.code_aborted] at hend
    have hplain : kit.echoError ("Aborted!\n".toList ++ []) = "Aborted!\n".toList ++ kit.echoError [] :=
      hkit.echoError_plain (by decide) []
    refine @Reported.aborted _ _ warnings hend ?_
    rw [List.append_nil, hkit.echoError_nil, List.append_nil] at hplain
    rw [herrors, hkit.complain_aborted, hplain]

end Messages

/-! ## Stops -/

section Stops

variable [Memory]

/-- Why a run ends without a document. -/
inductive Stopped (kit : Toolkit) (request : Request) : Stop → Prop where
  | unfit {reason : Unfit} : request.parsed kit = .unfit reason → Stopped kit request (.fault (.path (.unfit reason)))
  | unplanned {parameters : Parameters} {stop : Stop} : request.parsed kit = .parameters parameters →
      Unplanned request.site request.environment parameters stop → Stopped kit request stop
  | unasked {parameters : Parameters} {plan : Plan} {error : Unencodable} : Prepared kit request parameters plan →
      consent kit request.input plan = .error error → Stopped kit request (.fault (.unencodable error))
  | declined {parameters : Parameters} {plan : Plan} {printed : Text} : Prepared kit request parameters plan →
      consent kit request.input plan = .ok (printed, false) → Stopped kit request (.complaint .aborted)
  | unconverted {parameters : Parameters} {plan : Plan} {failure : NotesFile.Failure} :
      Prepared kit request parameters plan →
      (NotesFile.convertChecked request.site plan.settings plan.notes).document = .error failure →
      Stopped kit request (.ofNotesFailure failure)
  | undelivered {parameters : Parameters} {plan : Plan} {document : Text} {stop : Stop} :
      Prepared kit request parameters plan →
      (NotesFile.convertChecked request.site plan.settings plan.notes).document = .ok document →
      deliver kit request.site document plan.destination? = .error stop → Stopped kit request stop

/-- A run comes to its end, or its arguments bring it there, or it stops. -/
theorem run_cases (kit : Toolkit) (request : Request) :
    (run kit request).ending = .exit 0 ∨
      (∃ code output errors, request.parsed kit = .ended code output errors ∧
        (run kit request).ending = .exit code ∧ (run kit request).errors = errors) ∨
      ∃ stop printed warnings, Stopped kit request stop ∧
        run kit request = halt kit request.site printed warnings stop := by
  unfold run
  cases hparsed : request.parsed kit with
  | ended code output errors => exact .inr (.inl ⟨code, output, errors, rfl, rfl, rfl⟩)
  | unfit reason => exact .inr (.inr ⟨_, [], [], .unfit hparsed, rfl⟩)
  | parameters parameters =>
    dsimp only
    unfold convert
    cases hplan : plan request.site request.environment parameters with
    | error stop => exact .inr (.inr ⟨stop, [], [], .unplanned hparsed (unplanned_of_eq_error hplan), rfl⟩)
    | ok plan =>
      have hp : Prepared kit request parameters plan := ⟨hparsed, hplan⟩
      dsimp only
      split
      · next error herror => exact .inr (.inr ⟨_, [], [], .unasked hp herror, rfl⟩)
      · next printed hconsent =>
        unfold carryOut
        dsimp only
        split
        · next failure hfailure => exact .inr (.inr ⟨_, printed, _, .unconverted hp hfailure, rfl⟩)
        · next document hdocument =>
          split
          · next stop hstop => exact .inr (.inr ⟨stop, printed, _, .undelivered hp hdocument hstop, rfl⟩)
          · exact .inl rfl
      · next printed hdeclined => exact .inr (.inr ⟨_, printed, [], .declined hp hdeclined, rfl⟩)

/-! ## Errors that are not caught -/

/-- An error tells that a text is no path. -/
inductive Fault.IsUnfit : Fault → Prop where
  | path (reason : Unfit) : IsUnfit (.path (.unfit reason))
  | resolve (reason : Unfit) : IsUnfit (.resolve (.unusable (.unfit reason)))

/-- An argument holds a character that no path can hold. -/
def HasMisfit (request : Request) : Prop := ∃ argument ∈ request.arguments, ∃ c ∈ argument, request.site.fits c = false

/-- The errors that the command does not catch. -/
inductive Escapes (kit : Toolkit) (request : Request) : Fault → Prop where
  /-- A text from the arguments is no path. -/
  | misfit {error : Fault} : error.IsUnfit → HasMisfit request → Escapes kit request error
  /-- The path of the notes starts at the directory of a user who has none. -/
  | homeless {parameters : Parameters} : request.parsed kit = .parameters parameters →
      request.site.findNotes parameters.notes = .error .noHome → Escapes kit request (.notes .noHome)
  /-- A link on the path of the notes leads back to itself. -/
  | circular {parameters : Parameters} {path : Text} : request.parsed kit = .parameters parameters →
      request.site.findNotes parameters.notes = .error (.circular path) →
      Escapes kit request (.notes (.circular path))
  /-- Links on the path of the notes lead to each other too many times. -/
  | tooDeep {parameters : Parameters} : request.parsed kit = .parameters parameters →
      request.site.findNotes parameters.notes = .error .tooDeep → Escapes kit request (.notes .tooDeep)
  /-- The resolved path of the notes cannot be followed, for an error that does not say that there is nothing. -/
  | refused {parameters : Parameters} {error : AccessError} : request.parsed kit = .parameters parameters →
      request.site.findNotes parameters.notes = .error (.refused error) → error.reason.isAbsence = false →
      Escapes kit request (.notes (.refused error))
  /-- There is no telling what table is in a file of settings around the notes. -/
  | table {parameters : Parameters} {notes directory : Path} {file : SettingsFile} {error : SearchError} :
      request.parsed kit = .parameters parameters → request.site.findNotes parameters.notes = .ok notes →
      directory ∈ notes.parent.around → file ∈ SettingsFile.all →
      request.site.TableFails (directory.child file.name) error → Escapes kit request (.search error)
  /-- The path of the output starts at the directory of a user who has none. -/
  | outputHomeless {parameters : Parameters} {output : Text} : request.parsed kit = .parameters parameters →
      parameters.output? = some output → request.site.expand (.parse output) = .error .noHome →
      Escapes kit request (.resolve .noHome)
  /-- A link on the path of the output leads back to itself. -/
  | outputCircular {parameters : Parameters} {output path : Text} {expanded : Path} :
      request.parsed kit = .parameters parameters → parameters.output? = some output →
      request.site.expand (.parse output) = .ok expanded →
      request.site.resolve false expanded = .error (.circular path) → Escapes kit request (.resolve (.circular path))
  /-- Links on the path of the output lead to each other too many times. -/
  | outputTooDeep {parameters : Parameters} {output : Text} {expanded : Path} :
      request.parsed kit = .parameters parameters → parameters.output? = some output →
      request.site.expand (.parse output) = .ok expanded → request.site.resolve false expanded = .error .tooDeep →
      Escapes kit request (.resolve .tooDeep)
  /-- The resolved path of the output cannot be followed, for an error that does not say that there is nothing. -/
  | outputRefused {parameters : Parameters} {output : Text} {expanded resolved : Path} {error : AccessError} :
      request.parsed kit = .parameters parameters → parameters.output? = some output →
      request.site.expand (.parse output) = .ok expanded → request.site.resolve false expanded = .ok resolved →
      request.site.status resolved.text = .error (.refused error) → error.reason.isAbsence = false →
      Escapes kit request (.path (.refused error))
  /-- The question names a file with characters that cannot be printed, or the reply cannot be read. -/
  | unasked {parameters : Parameters} {plan : Plan} {destination : Destination} {error : Unencodable} :
      Prepared kit request parameters plan → plan.destination? = some destination →
      kit.confirm (question destination.path) request.input = .error error → Escapes kit request (.unencodable error)
  /-- The spaces in front of the deepest list item do not fit into the memory. -/
  | indentation {parameters : Parameters} {plan : Plan} {content : Text} {reason : Unrepeatable} :
      Prepared kit request parameters plan → request.site.readText plan.notes = .ok content →
      Memory.size < Document.spacesNeeded plan.settings (Document.lines content) →
      Escapes kit request (.conversion (.unindentable (.unrepeatable reason)))
  /-- The document has characters that cannot be printed. -/
  | unprinted {parameters : Parameters} {plan : Plan} {document : Text} {error : Unencodable} :
      Prepared kit request parameters plan →
      (NotesFile.convertChecked request.site plan.settings plan.notes).document = .ok document →
      kit.echo document = .error error → Escapes kit request (.unencodable error)
  /-- The document has characters that a file cannot hold. -/
  | unwritten {parameters : Parameters} {plan : Plan} {document : Text} {error : Unencodable} :
      Prepared kit request parameters plan →
      (NotesFile.convertChecked request.site plan.settings plan.notes).document = .ok document →
      request.site.system.unencodable? request.site.system.codec.inFiles document = some error →
      Escapes kit request (.unencodable error)

/-- A stop is for an error that is shown or for one that is not caught. -/
inductive Accounted (kit : Toolkit) (request : Request) : Stop → Prop where
  | complaint (complaint : Complaint) : Accounted kit request (.complaint complaint)
  | fault {error : Fault} : Escapes kit request error → Accounted kit request (.fault error)

end Stops

/-! ## Stages -/

section Stages

variable {kit : Toolkit} {request : Request} {parameters : Parameters} {stop : Stop}

theorem fits_or_hasMisfit (request : Request) :
    (∀ argument ∈ request.arguments, request.site.Fits argument) ∨ HasMisfit request := by
  refine or_iff_not_imp_right.2 fun hnone argument ha c hc => ?_
  by_contra hc'
  exact hnone ⟨argument, ha, c, hc, Bool.eq_false_iff.2 hc'⟩

/-- The path of the output holds what the arguments hold. -/
theorem fits_output (hkit : kit.Documented) (hparsed : request.parsed kit = .parameters parameters) {output : Text}
    (houtput : parameters.output? = some output)
    (hfits : ∀ argument ∈ request.arguments, request.site.Fits argument) : request.site.Fits output := by
  intro c hc
  obtain ⟨argument, ha, hm⟩ := hkit.output hparsed houtput c hc
  exact hfits argument ha c hm

/-- The path of the notes leads to something, so a path can hold its characters. -/
theorem fits_notes (hkit : kit.Documented) (hparsed : request.parsed kit = .parameters parameters) :
    request.site.Fits parameters.notes := by
  obtain ⟨node, hnode, -⟩ := hkit.notes hparsed
  obtain ⟨place, hplace, -⟩ := Site.exists_locate_of_look hnode
  exact Site.fits_of_locate hplace

/-- Finding notes is refused only where their resolved path cannot be followed. -/
theorem isAbsence_of_findNotes {site : Site} (hs : site.Proper) {s : Text} (hclean : site.Fits s)
    {refusal : AccessError} (h : site.findNotes s = .error (.refused refusal)) : refusal.reason.isAbsence = false := by
  unfold Site.findNotes at h
  rcases hs.expand_cases (Path.isClean_parse hclean) with hhome | ⟨path, hpath, -⟩
  · rw [hhome] at h
    cases h
  · rw [hpath] at h
    dsimp only at h
    split at h
    · split at h <;> cases h
    · next error hunusable hresolve =>
      cases error with
      | unusable reason =>
        cases reason with
        | refused other => exact absurd rfl (hunusable other)
        | unfit reason => cases h
      | _ => cases h
    · split at h
      · next other hother =>
        cases h
        exact (Site.has_error hother).2
      · split at h <;> cases h

/-- The notes lie in a directory whose path is resolved already. -/
theorem resolve_parent {site : Site} (hs : site.Proper) {s : Text} {notes : Path} (h : site.findNotes s = .ok notes) :
    site.resolve false notes.parent = .ok notes.parent := by
  obtain ⟨hdirect, -, bytes, mode, hget⟩ := notes_of_findNotes hs h
  have hparent : site.tree.get? notes.parent.names = some .directory := by
    rw [← List.dropLast_concat_getLast (Tree.ne_nil_of_get? hget Node.noConfusion)] at hget
    exact hs.get?_front hget (List.cons_ne_nil _ _)
  exact hdirect.parent.resolve_eq hs hparent

theorem status_of_findNotes {site : Site} (hs : site.Proper) {s : Text} {notes : Path}
    (h : site.findNotes s = .ok notes) : ∃ bytes mode, site.status notes.text = .ok (.file bytes mode) := by
  obtain ⟨-, hlocate, bytes, mode, hget⟩ := notes_of_findNotes hs h
  exact ⟨bytes, mode, Site.look_of_locate hlocate hget⟩

theorem indentWidth_of_planned {plan : Plan} (h : Planned request.site request.environment parameters plan) :
    0 < plan.settings.indentWidth := by
  obtain ⟨found, hfound, hlimited⟩ := h.settings
  unfold Site.buildSettings at hfound
  obtain ⟨⟨⟩, -, hfound⟩ := RawSettings.exists_of_bind_eq_ok hfound
  obtain ⟨raw, -, hfound⟩ := RawSettings.exists_of_bind_eq_ok hfound
  obtain ⟨changed, -, hfound⟩ := RawSettings.exists_of_bind_eq_ok hfound
  have hvalid := RawSettings.valid_of_check (eq_ok_of_mapError_eq_ok hfound)
  unfold Settings.limitedBy at hlimited
  obtain ⟨maxFileSize, -, hlimited⟩ := RawSettings.exists_of_bind_eq_ok hlimited
  obtain ⟨maxLineLength, -, hlimited⟩ := RawSettings.exists_of_bind_eq_ok hlimited
  rw [← Except.ok.inj hlimited]
  exact hvalid.indentWidth_pos

/-- The path of the output holds nothing that a path cannot hold. -/
theorem isClean_destination (hkit : kit.Documented) (hs : request.site.Proper) {plan : Plan}
    {destination : Destination} (hp : Prepared kit request parameters plan)
    (hfits : ∀ argument ∈ request.arguments, request.site.Fits argument)
    (hd : plan.destination? = some destination) : destination.path.IsClean request.site := by
  obtain ⟨output, houtput, hdestination⟩ := (planned_of_eq_ok hp.planned).exists_output hd
  obtain ⟨path, occupied, hpath, hresolved, -, -, -⟩ := exists_of_destination hdestination
  have hoption := fits_output hkit hp.parsed houtput hfits
  rcases hs.expand_cases (Path.isClean_parse hoption) with hhome | ⟨expanded, hexpanded, hclean⟩
  · rw [hpath] at hhome
    cases hhome
  · obtain rfl : path = expanded := Except.ok.inj (hpath.symm.trans hexpanded)
    rcases hs.resolve_cases hclean with ⟨circle, hcircle⟩ | hdeep | ⟨resolved, hresolved', hclean⟩
    · rw [hresolved] at hcircle
      cases hcircle
    · rw [hresolved] at hdeep
      cases hdeep
    · rwa [Except.ok.inj (hresolved.symm.trans hresolved')]

section

variable [Memory]

theorem accounted_of_isShown {error : FileError} (h : error.isShown = true) :
    Accounted kit request (.ofFileError error) := by
  cases error with
  | unfit reason => cases h
  | unencodable wrong => cases h
  | _ => exact .complaint _

theorem accounted_of_findNotes (hkit : kit.Documented) (hs : request.site.Proper) {error : NotesError}
    (hparsed : request.parsed kit = .parameters parameters)
    (h : request.site.findNotes parameters.notes = .error error) : Accounted kit request (.ofNotesError error) := by
  cases error with
  | noHome => exact .fault (.homeless hparsed h)
  | circular path => exact .fault (.circular hparsed h)
  | tooDeep => exact .fault (.tooDeep hparsed h)
  | refused refusal => exact .fault (.refused hparsed h (isAbsence_of_findNotes hs (fits_notes hkit hparsed) h))
  | _ => exact .complaint _

theorem accounted_of_buildSettings (hs : request.site.Proper) {notes : Path} {error : SearchError}
    (hparsed : request.parsed kit = .parameters parameters)
    (hnotes : request.site.findNotes parameters.notes = .ok notes)
    (h : request.site.buildSettings notes.parent (changes parameters) = .error error) :
    Accounted kit request (.ofSearchError error) := by
  rcases cases_of_buildSettings (resolve_parent hs hnotes) h with ⟨wrong, rfl⟩ | ⟨directory, hd, file, hf, hfails⟩
  · exact .complaint _
  · have hescapes : Escapes kit request (.search error) := .table hparsed hnotes hd hf hfails
    cases hfails <;> exact .fault hescapes

theorem accounted_of_sizeWithin (hs : request.site.Proper) {s : Text} {notes : Path} {limit : Int} {error : FileError}
    (hnotes : request.site.findNotes s = .ok notes) (h : request.site.sizeWithin notes limit = .error error) :
    Accounted kit request (.ofFileError error) := by
  obtain ⟨bytes, mode, hstatus⟩ := status_of_findNotes hs hnotes
  have hsize : request.site.size notes = .ok bytes.length := by
    rw [Site.size, Site.regular, hstatus]
    rfl
  unfold Site.sizeWithin at h
  rw [hsize] at h
  dsimp only at h
  split at h
  · cases h
    exact .complaint _
  · cases h

/-- A text from the arguments that is no path is accounted for. -/
theorem accounted_of_unfit {error : Fault} (h : error.IsUnfit)
    (hmisfit : ¬ ∀ argument ∈ request.arguments, request.site.Fits argument) : Accounted kit request (.fault error) :=
  .fault (.misfit h ((fits_or_hasMisfit request).resolve_left hmisfit))

theorem accounted_of_destination (hkit : kit.Documented) (hs : request.site.Proper) {notes : Path} {overwrite : Bool}
    {output : Text} (hparsed : request.parsed kit = .parameters parameters)
    (houtput : parameters.output? = some output)
    (h : destination request.site notes overwrite output = .error stop) : Accounted kit request stop := by
  have hclean : (∀ argument ∈ request.arguments, request.site.Fits argument) →
      (Path.parse output).IsClean request.site := fun hfits =>
    Path.isClean_parse (fits_output hkit hparsed houtput hfits)
  unfold destination at h
  rcases cases_of_bind_eq_error h with h | ⟨resolved, hresolved, h⟩
  · obtain ⟨error, herror, rfl⟩ := exists_of_mapError_eq_error h
    rcases cases_of_bind_eq_error herror with hexpand | ⟨expanded, hexpanded, hresolve⟩
    · rcases Site.expand_error hexpand with rfl | ⟨reason, rfl⟩
      · exact .fault (.outputHomeless hparsed houtput hexpand)
      · refine accounted_of_unfit (.resolve reason) fun hfits => ?_
        rcases hs.expand_cases (hclean hfits) with hhome | ⟨_, hexpanded, -⟩
        · cases hexpand.symm.trans hhome
        · cases hexpand.symm.trans hexpanded
    · rcases Site.resolve_error hresolve with ⟨circle, rfl⟩ | rfl | ⟨reason, rfl⟩
      · exact .fault (.outputCircular hparsed houtput hexpanded hresolve)
      · exact .fault (.outputTooDeep hparsed houtput hexpanded hresolve)
      · refine accounted_of_unfit (.resolve reason) fun hfits => ?_
        rcases hs.expand_cases (hclean hfits) with hhome | ⟨other, hother, hpath⟩
        · cases hexpanded.symm.trans hhome
        · cases hexpanded.symm.trans hother
          rcases hs.resolve_cases hpath with ⟨_, hcircle⟩ | hdeep | ⟨_, hresolved, -⟩
          · cases hresolve.symm.trans hcircle
          · cases hresolve.symm.trans hdeep
          · cases hresolve.symm.trans hresolved
  · obtain ⟨expanded, hexpanded, hresolved⟩ :=
      RawSettings.exists_of_bind_eq_ok (eq_ok_of_mapError_eq_ok hresolved)
    split at h
    · cases h
      exact .complaint _
    · rcases cases_of_bind_eq_error h with h | ⟨occupied, -, h⟩
      · obtain ⟨refusal, hoccupied, rfl⟩ := exists_of_mapError_eq_error h
        obtain ⟨hstatus, habsence⟩ := Site.has_error hoccupied
        exact .fault (.outputRefused hparsed houtput hexpanded hresolved hstatus habsence)
      · cases h

/-- Why there is no plan is accounted for. -/
theorem Unplanned.accounted (hkit : kit.Documented) (hs : request.site.Proper)
    (hparsed : request.parsed kit = .parameters parameters)
    (h : Unplanned request.site request.environment parameters stop) : Accounted kit request stop := by
  cases h with
  | notes h => exact accounted_of_findNotes hkit hs hparsed h
  | settings hnotes h => exact accounted_of_buildSettings hs hparsed hnotes h
  | limits h => exact .complaint _
  | size hnotes h => exact accounted_of_sizeWithin hs hnotes h
  | destination hnotes h =>
    unfold destination? at h
    split at h
    · cases h
    · next output houtput =>
      cases hdestination : Command.destination request.site _ _ output with
      | ok place =>
        rw [hdestination] at h
        cases h
      | error other =>
        rw [hdestination] at h
        cases h
        exact accounted_of_destination hkit hs hparsed houtput hdestination

/-- Why there is no answer to a question is accounted for. -/
theorem accounted_of_consent {plan : Plan} {error : Unencodable} (hp : Prepared kit request parameters plan)
    (h : consent kit request.input plan = .error error) : Accounted kit request (.fault (.unencodable error)) := by
  unfold consent at h
  split at h
  · next path hd => exact .fault (.unasked hp hd h)
  · cases h

/-- The notes are where they are found, so reading them fails for an error that is shown. -/
theorem accounted_of_readText (hs : request.site.Proper) {s : Text} {notes : Path} {error : FileError}
    (hnotes : request.site.findNotes s = .ok notes) (h : request.site.readText notes = .error error) :
    Accounted kit request (.ofNotesFailure (.ofFile notes.text error)) := by
  obtain ⟨-, hlocate, -⟩ := notes_of_findNotes hs hnotes
  cases error with
  | unfit reason =>
    have hunfit := Site.readText_eq_unfit_iff.1 h
    rw [Site.unfit?_eq_none_iff.2 (Site.fits_of_locate hlocate)] at hunfit
    cases hunfit
  | unencodable wrong => exact absurd h (Site.readText_ne_unencodable wrong)
  | _ => exact .complaint _

/-- Why notes have no document is accounted for. -/
theorem accounted_of_convertChecked (hs : request.site.Proper) {plan : Plan} {failure : NotesFile.Failure}
    (hp : Prepared kit request parameters plan)
    (h : (NotesFile.convertChecked request.site plan.settings plan.notes).document = .error failure) :
    Accounted kit request (.ofNotesFailure failure) := by
  have hplanned := planned_of_eq_ok hp.planned
  unfold NotesFile.convertChecked at h
  split at h
  · next error herror =>
    cases h
    exact accounted_of_readText hs hplanned.notes herror
  · next content hcontent =>
    have hlines : ∀ line ∈ Document.lines content, '\n' ∉ line := fun line hl => Document.not_mem_of_mem_lines hl
    have hdecided := Document.decided_convertLines (indentWidth_of_planned hplanned) hlines
    obtain ⟨other, hother, rfl⟩ := exists_of_mapError_eq_error h
    generalize Document.convertLines plan.settings (Document.lines content) = outcome at hdecided hother
    cases hdecided with
    | lineTooLong number _ =>
      cases hother
      exact .complaint _
    | unindentable reason _ hneeded =>
      cases hother
      exact .fault (.indentation hp hcontent hneeded)
    | unterminated block _ _ _ _ =>
      cases hother
      exact .complaint _
    | document middle _ _ _ => cases hother

/-- Why a document is not delivered is accounted for. -/
theorem accounted_of_deliver (hkit : kit.Documented) (hs : request.site.Proper) {plan : Plan} {document : Text}
    (hp : Prepared kit request parameters plan)
    (hdocument : (NotesFile.convertChecked request.site plan.settings plan.notes).document = .ok document)
    (h : deliver kit request.site document plan.destination? = .error stop) : Accounted kit request stop := by
  unfold deliver at h
  split at h
  · split at h
    · cases h
    · next error herror =>
      cases h
      exact .fault (.unprinted hp hdocument herror)
  · next destination hd =>
    split at h
    · cases h
    · next error herror =>
      cases h
      rcases Site.cases_of_write_error herror with (hshown | ⟨reason, rfl, hpath⟩) | ⟨wrong, hwrong, rfl⟩
      · exact accounted_of_isShown hshown
      · exact accounted_of_unfit (.path reason) fun hfits => hpath (isClean_destination hkit hs hp hfits hd)
      · exact .fault (.unwritten hp hdocument hwrong)

/-- Why a run ends without a document is accounted for. -/
theorem Stopped.accounted (hkit : kit.Documented) (hs : request.site.Proper) (h : Stopped kit request stop) :
    Accounted kit request stop := by
  cases h with
  | unfit hparsed => exact .fault (.misfit (.path _) (hkit.unfit hparsed))
  | unplanned hparsed h => exact h.accounted hkit hs hparsed
  | unasked hp h => exact accounted_of_consent hp h
  | declined hp hdeclined => exact .complaint _
  | unconverted hp h => exact accounted_of_convertChecked hs hp h
  | undelivered hp hdocument h => exact accounted_of_deliver hkit hs hp hdocument h

/-- **Errors are reported**, unless they are some that the command does not catch: a run that does not come to its end
ends at its arguments, with the code two at most and a message, or stops at one of its stages, and ends with the code
one or two and a message of what was wrong. What it does not catch are paths that are none, that cannot be resolved or
cannot be followed, tables of settings that there is no telling of, lists that are too deep to be indented, and texts
that cannot be printed or written. -/
theorem run_ending {kit : Toolkit} (hkit : kit.Documented) (hs : request.site.Proper) :
    (run kit request).ending = .exit 0 ∨
      (∃ code output errors, request.parsed kit = .ended code output errors ∧ code ≤ 2 ∧ errors ≠ [] ∧
        (run kit request).ending = .exit code ∧ (run kit request).errors = errors) ∨
      ∃ stop, Stopped kit request stop ∧
        (Reported kit (run kit request) stop ∨
          ∃ error, stop = .fault error ∧ (run kit request).ending = .fault error ∧ Escapes kit request error) := by
  rcases run_cases kit request with
    hend | ⟨code, output, errors, hparsed, hend, herrors⟩ | ⟨stop, printed, warnings, hstop, hrun⟩
  · exact .inl hend
  · rcases hkit.ended hparsed with rfl | ⟨hcode, hne⟩
    · exact .inl hend
    · exact .inr (.inl ⟨code, output, errors, hparsed, hcode, hne, hend, herrors⟩)
  · refine .inr (.inr ⟨stop, hstop, ?_⟩)
    cases hstop.accounted hkit hs with
    | complaint complaint =>
      have herrors : (run kit request).errors = warnings ++ kit.complain complaint := congrArg Result.errors hrun
      exact .inl (reported_complaint hkit (congrArg Result.ending hrun) herrors)
    | fault hescapes => exact .inr ⟨_, rfl, congrArg Result.ending hrun, hescapes⟩

end

end Stages

/-- A reply keeps the document from taking the place of a file. -/
theorem run_ending_declined :
    let request : Request := smallRequest ["in.sd".toList, "-o".toList, "out".toList] "n\n".toList
    Program.toolkit.Documented ∧ request.site.Proper ∧ (run Program.toolkit request).ending = .exit 1 ∧
      ∃ stop, Stopped Program.toolkit request stop ∧ Reported Program.toolkit (run Program.toolkit request) stop := by
  intro request
  have hkit := Program.documented_toolkit
  have hs : request.site.Proper := by decide +kernel
  have hp : Prepared Program.toolkit request _ _ := prepared_smallSite "n\n".toList
  obtain ⟨printed, hconfirm⟩ : ∃ printed, Program.toolkit.confirm (question ⟨.top, ["out".toList]⟩) "n\n".toList =
      .ok (printed, false) := ⟨_, by cbv⟩
  have hconsent : consent Program.toolkit request.input
      ⟨⟨.top, ["in.sd".toList]⟩, .default, some ⟨⟨.top, ["out".toList]⟩, true⟩⟩ = .ok (printed, false) := hconfirm
  have hend : (run Program.toolkit request).ending = .exit 1 := by
    rw [run_of_parsed hp.parsed, convert, hp.planned]
    dsimp only
    rw [hconsent]
    rfl
  rcases run_ending hkit hs with hzero | ⟨_, _, _, hended, -⟩ | ⟨stop, hstop, hreported | ⟨_, -, hfault, -⟩⟩
  · cases hend.symm.trans hzero
  · cases hp.parsed.symm.trans hended
  · exact ⟨hkit, hs, hend, stop, hstop, hreported⟩
  · cases hend.symm.trans hfault

/-- An output that is a link to itself is not reported. -/
theorem not_run_ending : ¬ ∀ (kit : Toolkit) (request : Request), kit.Documented → request.site.Proper →
    (∀ argument ∈ request.arguments, '\x00' ∉ argument) →
    ∃ code, code ≤ 2 ∧ (run kit request).ending = .exit code := by
  intro h
  have hread : Program.Invocation.read ["in.sd".toList, "-o".toList, "a".toList] =
      .ok ⟨[⟨.output, some "a".toList⟩], ["in.sd".toList]⟩ := rfl
  have hparsed : (smallRequest ["in.sd".toList, "-o".toList, "a".toList] []).parsed Program.toolkit =
      .parameters (smallParameters "a".toList false) := parsed_smallRequest hread rfl rfl (by cbv) []
  have hplaced : destination? smallSite ⟨.top, ["in.sd".toList]⟩ false (some "a".toList) =
      .error (.fault (.resolve (.circular "/a".toList))) := by cbv
  have hplan : plan smallSite [] (smallParameters "a".toList false) =
      .error (.fault (.resolve (.circular "/a".toList))) := (plan_smallSite _ _).trans (congrArg _ hplaced)
  obtain ⟨code, -, hend⟩ := h _ (smallRequest ["in.sd".toList, "-o".toList, "a".toList] [])
    Program.documented_toolkit (by decide +kernel) (by decide +kernel)
  rw [run_of_parsed hparsed, convert] at hend
  dsimp only [smallRequest] at hend
  rw [hplan] at hend
  cases hend

end Command

end Lectern
