import Lectern.Command.Run
import Lectern.Proofs.Attempts

/-!
# Plans of the command

The command makes a plan in steps that end at the first error. **`Command.Planned`** says what every step gave if there
is a plan, and **`Command.Unplanned`** which step stopped if there is none; no other stop is possible
(`planned_of_eq_ok`, `unplanned_of_eq_error`). A run that has parameters and ends well has carried its plan out
(`exists_of_run`).
-/

set_option autoImplicit false

namespace Lectern

namespace Command

variable {site : Site} {environment : Environment} {parameters : Parameters}

/-! ## Plans -/

/-- What each step gave that a plan was made in. -/
structure Planned (site : Site) (environment : Environment) (parameters : Parameters) (plan : Plan) : Prop where
  notes : site.findNotes parameters.notes = .ok plan.notes
  settings : ∃ found, site.buildSettings plan.notes.parent (changes parameters) = .ok found ∧
    found.limitedBy environment = .ok plan.settings
  sized : ∃ size, site.sizeWithin plan.notes plan.settings.maxFileSize = .ok size
  placed : destination? site plan.notes parameters.overwrite parameters.output? = .ok plan.destination?

/-- Why there is no plan: the steps before have not failed. -/
inductive Unplanned (site : Site) (environment : Environment) (parameters : Parameters) : Stop → Prop where
  | notes {error : NotesError} : site.findNotes parameters.notes = .error error →
      Unplanned site environment parameters (.ofNotesError error)
  | settings {notes : Path} {error : SearchError} : site.findNotes parameters.notes = .ok notes →
      site.buildSettings notes.parent (changes parameters) = .error error →
      Unplanned site environment parameters (.ofSearchError error)
  | limits {settings : Settings} {error : LimitError} : settings.limitedBy environment = .error error →
      Unplanned site environment parameters (.complaint (.failure error.message))
  | size {notes : Path} {limit : Int} {error : FileError} : site.findNotes parameters.notes = .ok notes →
      site.sizeWithin notes limit = .error error → Unplanned site environment parameters (.ofFileError error)
  | destination {notes : Path} {stop : Stop} : site.findNotes parameters.notes = .ok notes →
      destination? site notes parameters.overwrite parameters.output? = .error stop →
      Unplanned site environment parameters stop

theorem planned_of_eq_ok {result : Plan} (h : plan site environment parameters = .ok result) :
    Planned site environment parameters result := by
  unfold plan at h
  obtain ⟨notes, hnotes, h⟩ := RawSettings.exists_of_bind_eq_ok h
  obtain ⟨found, hfound, h⟩ := RawSettings.exists_of_bind_eq_ok h
  obtain ⟨settings, hsettings, h⟩ := RawSettings.exists_of_bind_eq_ok h
  obtain ⟨size, hsize, h⟩ := RawSettings.exists_of_bind_eq_ok h
  obtain ⟨destination?, hdestination, h⟩ := RawSettings.exists_of_bind_eq_ok h
  cases h
  exact ⟨eq_ok_of_mapError_eq_ok hnotes,
    ⟨found, eq_ok_of_mapError_eq_ok hfound, eq_ok_of_mapError_eq_ok hsettings⟩,
    ⟨size, eq_ok_of_mapError_eq_ok hsize⟩, hdestination⟩

/-- If no step fails, there is a plan. -/
theorem Planned.eq_ok {result : Plan} (h : Planned site environment parameters result) :
    plan site environment parameters = .ok result := by
  obtain ⟨found, hfound, hsettings⟩ := h.settings
  obtain ⟨size, hsize⟩ := h.sized
  unfold plan
  rw [h.notes]
  simp only [mapError_ok, bind, Except.bind, hfound, hsettings, hsize, h.placed]
  rfl

theorem size_of_sizeWithin {path : Path} {limit : Int} {size : Nat}
    (h : site.sizeWithin path limit = .ok size) : site.size path = .ok size ∧ (size : Int) ≤ limit := by
  unfold Site.sizeWithin at h
  split at h
  · cases h
  · next found hfound =>
    split at h
    · cases h
    · next hlimit =>
      cases h
      exact ⟨hfound, Int.not_lt.1 hlimit⟩

theorem unplanned_of_eq_error {stop : Stop} (h : plan site environment parameters = .error stop) :
    Unplanned site environment parameters stop := by
  unfold plan at h
  rcases cases_of_bind_eq_error h with h | ⟨notes, hnotes, h⟩
  · obtain ⟨error, herror, rfl⟩ := exists_of_mapError_eq_error h
    exact .notes herror
  have hnotes := eq_ok_of_mapError_eq_ok hnotes
  rcases cases_of_bind_eq_error h with h | ⟨found, hfound, h⟩
  · obtain ⟨error, herror, rfl⟩ := exists_of_mapError_eq_error h
    exact .settings hnotes herror
  rcases cases_of_bind_eq_error h with h | ⟨settings, hsettings, h⟩
  · obtain ⟨error, herror, rfl⟩ := exists_of_mapError_eq_error h
    exact .limits herror
  rcases cases_of_bind_eq_error h with h | ⟨size, hsize, h⟩
  · obtain ⟨error, herror, rfl⟩ := exists_of_mapError_eq_error h
    exact .size hnotes herror
  rcases cases_of_bind_eq_error h with h | ⟨place, hplace, h⟩
  · exact .destination hnotes h
  · cases h

/-- The steps in which it is found where a document goes. -/
theorem exists_of_destination {notes : Path} {overwrite : Bool} {s : Text} {destination : Destination}
    (h : Command.destination site notes overwrite s = .ok destination) :
    ∃ path occupied, site.expand (.parse s) = .ok path ∧ site.resolve false path = .ok destination.path ∧
      destination.path ≠ notes ∧ site.occupied destination.path.text = .ok occupied ∧
      destination.mustAsk = (occupied && !overwrite) := by
  unfold Command.destination at h
  obtain ⟨resolved, hresolved, h⟩ := RawSettings.exists_of_bind_eq_ok h
  obtain ⟨path, hpath, hresolve⟩ := RawSettings.exists_of_bind_eq_ok (eq_ok_of_mapError_eq_ok hresolved)
  split at h
  · cases h
  · next hne =>
    obtain ⟨occupied, hoccupied, h⟩ := RawSettings.exists_of_bind_eq_ok h
    cases h
    exact ⟨path, occupied, hpath, hresolve, hne, eq_ok_of_mapError_eq_ok hoccupied, rfl⟩

/-- Only an option makes a document go to a file. -/
theorem Planned.exists_output {plan : Plan} (h : Planned site environment parameters plan) {destination : Destination}
    (hd : plan.destination? = some destination) :
    ∃ output, parameters.output? = some output ∧
      Command.destination site plan.notes parameters.overwrite output = .ok destination := by
  have hdestination := h.placed
  rw [hd] at hdestination
  unfold destination? at hdestination
  split at hdestination
  · cases hdestination
  · next output houtput =>
    obtain ⟨result, hresult, he⟩ := exists_of_map_eq_ok hdestination
    cases he
    exact ⟨output, houtput, hresult⟩

/-! ## Questions -/

variable {kit : Toolkit}

/-- Where the user has to agree, a plan is carried out only if the user does. -/
theorem agreed_of_consent (hkit : kit.Documented) {input printed : Text} {plan : Plan} {destination : Destination}
    (hd : plan.destination? = some destination) (hask : destination.mustAsk = true)
    (h : consent kit input plan = .ok (printed, true)) : Agreed input := by
  obtain ⟨path, mustAsk⟩ := destination
  cases hask
  rw [consent, hd] at h
  exact hkit.confirm h

/-! ## Runs -/

/-- A stop does not end a run well. -/
theorem ending_halt_ne (hkit : kit.Documented) (printed errors : Text) (stop : Stop) :
    (halt kit site printed errors stop).ending ≠ .exit 0 := by
  cases stop with
  | fault error => exact Ending.noConfusion
  | complaint complaint =>
    intro h
    have hcode : kit.code complaint = 0 := Ending.exit.inj h
    cases complaint with
    | badParameter message =>
      rw [hkit.code_badParameter] at hcode
      cases hcode
    | failure message =>
      rw [hkit.code_failure] at hcode
      cases hcode
    | aborted =>
      rw [hkit.code_aborted] at hcode
      cases hcode

theorem deliver_of_write {destination : Destination} {document : Text} {written : Site}
    (h : site.write destination.path document = .ok written) :
    deliver kit site document (some destination) = .ok (written, []) := by
  rw [deliver, h]

theorem deliver_of_echo {document printed : Text} (h : kit.echo document = .ok printed) :
    deliver kit site document none = .ok (site, printed) := by
  rw [deliver, h]

/-- The arguments of a request give parameters, for which there is a plan. -/
structure Prepared (kit : Toolkit) (request : Request) (parameters : Parameters) (plan : Plan) : Prop where
  parsed : request.parsed kit = .parameters parameters
  planned : Command.plan request.site request.environment parameters = .ok plan

variable [Memory]

theorem exists_of_convertChecked {settings : Settings} {path : Path} {document : Text}
    (h : (NotesFile.convertChecked site settings path).document = .ok document) :
    ∃ content, site.readText path = .ok content ∧
      (Document.convertLines settings (Document.lines content)).document = .ok document := by
  unfold NotesFile.convertChecked at h
  split at h
  · cases h
  · next content hcontent => exact ⟨content, hcontent, eq_ok_of_mapError_eq_ok h⟩

theorem exists_of_readText {path : Path} {content : Text} (settings : Settings)
    (hread : site.readText path = .ok content)
    (h : (Document.convertLines settings (Document.lines content)).document.toOption.isSome = true) :
    ∃ document, (Document.convertLines settings (Document.lines content)).document = .ok document ∧
      (NotesFile.convertChecked site settings path).document = .ok document := by
  rw [NotesFile.convertChecked, hread]
  cases hdocument : (Document.convertLines settings (Document.lines content)).document with
  | error failure =>
    rw [hdocument] at h
    cases h
  | ok document =>
    refine ⟨document, rfl, ?_⟩
    dsimp only
    rw [hdocument]
    rfl

variable {request : Request}

theorem run_of_parsed (h : request.parsed kit = .parameters parameters) :
    run kit request = convert kit request parameters := by
  rw [run, h]

/-- A run that has a plan and ends well has carried it out. -/
theorem exists_of_run (hkit : kit.Documented) {plan : Plan} (hp : Prepared kit request parameters plan)
    (h : (run kit request).ending = .exit 0) :
    ∃ printed, consent kit request.input plan = .ok (printed, true) ∧ ∃ document output,
      (NotesFile.convertChecked request.site plan.settings plan.notes).document = .ok document ∧
      deliver kit request.site document plan.destination? = .ok ((run kit request).site, output) ∧
      (run kit request).output = printed ++ output := by
  rw [run_of_parsed hp.parsed] at h ⊢
  unfold convert at h ⊢
  rw [hp.planned] at h ⊢
  dsimp only at h ⊢
  split at h
  · cases h
  · next printed hconsent =>
    rw [hconsent]
    refine ⟨printed, rfl, ?_⟩
    unfold carryOut at h ⊢
    dsimp only at h ⊢
    split at h
    · exact absurd h (ending_halt_ne hkit _ _ _)
    · next document hdocument =>
      rw [hdocument]
      split at h
      · exact absurd h (ending_halt_ne hkit _ _ _)
      · next written output hwritten =>
        exact ⟨document, output, rfl, hwritten, rfl⟩
  · exact absurd h (ending_halt_ne hkit _ _ _)

/-- A plan whose document is delivered has been carried out. -/
theorem run_of_deliver {plan : Plan} {document printed output : Text} {written : Site}
    (hp : Prepared kit request parameters plan) (hconsent : consent kit request.input plan = .ok (printed, true))
    (hdocument : (NotesFile.convertChecked request.site plan.settings plan.notes).document = .ok document)
    (hdelivered : deliver kit request.site document plan.destination? = .ok (written, output)) :
    (run kit request).site = written ∧ (run kit request).ending = .exit 0 := by
  rw [run_of_parsed hp.parsed]
  unfold convert
  rw [hp.planned]
  dsimp only
  rw [hconsent]
  dsimp only
  rw [carryOut, hdocument]
  dsimp only
  rw [hdelivered]
  exact ⟨rfl, rfl⟩

end Command

end Lectern
