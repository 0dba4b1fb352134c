import Lectern.Proofs.LineEnds
import Lectern.Proofs.Outcomes
import Lectern.Proofs.Resolution

/-!
# What can come of a file of notes

Converting a file fails for its settings, for what stands in the way of reading it, or for its text, in this order. All
these failures (**`NotesFile.Fails`**) are told as one of the file but two: that the path holds a character that no path
can hold, and that lists are too deep to be indented. **`NotesFile.file_outcomes`** says when there is which of them,
and that the document is otherwise the one of the text in the file.
-/

set_option autoImplicit false

namespace Lectern

namespace Site

variable {site : Site} {path : Path}

theorem read_eq_unfit_iff {s : Text} {reason : Unfit} :
    site.read s = .error (.unfit reason) ↔ site.unfit? s = some reason := by
  cases hunfit : site.unfit? s with
  | some other =>
    have hread : site.read s = .error (.unfit other) := by
      rw [read, locate, hunfit]
      rfl
    rw [hread]
    constructor
    · intro h
      cases h
      rfl
    · intro h
      cases h
      rfl
  | none =>
    have hfits := unfit?_eq_none_iff.1 hunfit
    refine iff_of_false (fun h => ?_) (fun h => by cases h)
    rw [read] at h
    rcases cases_of_bind_eq_error h with h | ⟨place, -, h⟩
    · exact locate_ne_unfit hfits reason h
    rcases cases_of_bind_eq_error h with h | ⟨node, -, h⟩
    · exact look_ne_unfit hfits reason h
    split at h
    · cases h
    · cases node <;> cases h

/-- Why a file has no text: its path is none, it cannot be read, or its bytes are no text. -/
theorem cases_of_readText {error : FileError} (h : site.readText path = .error error) :
    (∃ reason, site.read path.text = .error (.unfit reason) ∧ error = .unfit reason) ∨
      (∃ refusal, site.read path.text = .error (.refused refusal) ∧
        (error = .inaccessible path.text refusal ∨ error = .refused refusal)) ∨
      ∃ bytes failure, site.read path.text = .ok bytes ∧ Utf8.decode bytes = .error failure ∧
        error = .undecodable failure := by
  unfold readText at h
  split at h
  · next reason hread =>
    cases h
    exact .inl ⟨reason, hread, rfl⟩
  · next refusal hread =>
    refine .inr (.inl ⟨refusal, hread, ?_⟩)
    split at h
    · exact .inl (Except.error.inj h).symm
    · exact .inr (Except.error.inj h).symm
  · next bytes hread =>
    split at h
    · cases h
    · next failure hdecode =>
      cases h
      exact .inr (.inr ⟨bytes, failure, hread, hdecode, rfl⟩)

/-- A file cannot be looked for if its path is none. -/
theorem readText_eq_unfit_iff {reason : Unfit} :
    site.readText path = .error (.unfit reason) ↔ site.unfit? path.text = some reason := by
  rw [← read_eq_unfit_iff]
  constructor
  · intro h
    rcases cases_of_readText h with ⟨other, hread, he⟩ | ⟨_, -, he | he⟩ | ⟨_, _, -, -, he⟩
    · cases he
      exact hread
    all_goals cases he
  · intro hread
    rw [readText, hread]

/-- What is read is decoded, and nothing has to be encoded. -/
theorem readText_ne_unencodable (error : Unencodable) : site.readText path ≠ .error (.unencodable error) := by
  intro h
  rcases cases_of_readText h with ⟨_, -, he⟩ | ⟨_, -, he | he⟩ | ⟨_, _, -, -, he⟩ <;> cases he

theorem readText_eq_undecodable_iff {failure : Utf8.Failure} :
    site.readText path = .error (.undecodable failure) ↔
      ∃ bytes, site.read path.text = .ok bytes ∧ Utf8.decode bytes = .error failure := by
  constructor
  · intro h
    rcases cases_of_readText h with ⟨_, -, he⟩ | ⟨_, -, he | he⟩ | ⟨bytes, _, hread, hdecode, he⟩
    · cases he
    · cases he
    · cases he
    · cases he
      exact ⟨bytes, hread, hdecode⟩
  · rintro ⟨bytes, hread, hdecode⟩
    rw [readText, hread]
    dsimp only
    rw [hdecode]

theorem exists_unfit_iff {s : Text} : (∃ reason, site.unfit? s = some reason) ↔ ∃ c ∈ s, site.fits c = false := by
  rw [← Option.ne_none_iff_exists', Ne, unfit?_eq_none_iff]
  simp only [not_forall, Bool.not_eq_true, exists_prop]

end Site

namespace NotesFile

/-- A failure that is told as one of the file. The others come as they are: that a path is none, that a text cannot be
encoded, and that a line cannot be indented. -/
def Failure.isReported : Failure → Bool
  | .unreadable (.unfit _) | .unreadable (.unencodable _) | .conversion _ => false
  | _ => true

/-- Why converting a file fails. -/
inductive Fails [Memory] (site : Site) (raw : RawSettings) (path : Path) : Failure → Prop where
  | settings {error : SettingsError} : raw.check = .error error → Fails site raw path (.settings error)
  | unreadable {settings : Settings} {error : FileError} : raw.check = .ok settings →
      site.readText path = .error error → (∀ failure, error ≠ .undecodable failure) →
      Fails site raw path (.unreadable error)
  | undecodable {settings : Settings} {bytes : List UInt8} {failure : Utf8.Failure} : raw.check = .ok settings →
      site.read path.text = .ok bytes → Utf8.decode bytes = .error failure →
      Fails site raw path (.undecodable path.text failure)
  | lineTooLong {settings : Settings} {content : Text} {number : Nat} : raw.check = .ok settings →
      site.readText path = .ok content →
      Document.FirstTooLong settings.maxLineLength 1 (Document.lines content) number →
      Fails site raw path (.lineTooLong path.text number settings.maxLineLength)
  | unindentable {settings : Settings} {content : Text} (reason : Unrepeatable) : raw.check = .ok settings →
      site.readText path = .ok content →
      (∀ line ∈ Document.lines content, (line.length : Int) ≤ settings.maxLineLength) →
      Memory.size < Document.spacesNeeded settings (Document.lines content) →
      Fails site raw path (.conversion (.unindentable (.unrepeatable reason)))
  | unterminated {settings : Settings} {content : Text} {block : Block} : raw.check = .ok settings →
      site.readText path = .ok content →
      (∀ line ∈ Document.lines content, (line.length : Int) ≤ settings.maxLineLength) →
      Document.spacesNeeded settings (Document.lines content) ≤ Memory.size → settings.strictBlocks = true →
      (Document.blocksLeft settings (Document.lines content)).head? = some block →
      Fails site raw path (.unterminated path.text block)

section Outcomes

variable {site : Site} {raw : RawSettings} {path : Path} {settings : Settings} {content : Text}

theorem convert_of_check_error [Memory] {error : SettingsError} (h : raw.check = .error error) :
    convert site raw path = ⟨[], .error (.settings error)⟩ := by
  rw [convert, h]

theorem convert_of_readText_error [Memory] {error : FileError} (h : raw.check = .ok settings)
    (hread : site.readText path = .error error) :
    convert site raw path = ⟨[], .error (.ofFile path.text error)⟩ := by
  rw [convert, h]
  dsimp only
  rw [convertChecked, hread]

variable [Memory]

/-- A failure of the text in a file is one of the file. -/
theorem document_of_readText (h : site.readText path = .ok content) :
    (convert site raw path).document = (Document.convert raw content).document.mapError (.ofDocument path.text) := by
  rw [convert_of_readText raw h]

/-- A document comes of a file if it comes of the text in it. -/
theorem document_iff (document : Text) :
    (convert site raw path).document = .ok document ↔
      ∃ content, site.readText path = .ok content ∧ (Document.convert raw content).document = .ok document := by
  constructor
  · intro h
    cases hcheck : raw.check with
    | error error =>
      rw [convert_of_check_error hcheck] at h
      cases h
    | ok settings =>
      cases hread : site.readText path with
      | error error =>
        rw [convert_of_readText_error hcheck hread] at h
        cases h
      | ok content =>
        rw [document_of_readText hread] at h
        exact ⟨content, rfl, eq_ok_of_mapError_eq_ok h⟩
  · rintro ⟨content, hread, hdocument⟩
    rw [document_of_readText hread, hdocument]
    rfl

/-- What comes of a file that can be read is decided by its text. -/
theorem decided_of_readText (hcheck : raw.check = .ok settings) (hread : site.readText path = .ok content) :
    ∃ outcome, Document.Decided settings (Document.lines content) outcome ∧
      (convert site raw path).document = outcome.document.mapError (.ofDocument path.text) :=
  ⟨_, Document.decided_convert hcheck content, document_of_readText hread⟩

/-- There are no other reasons. -/
theorem fails_of_document {failure : Failure} (h : (convert site raw path).document = .error failure) :
    Fails site raw path failure := by
  cases hcheck : raw.check with
  | error error =>
    rw [convert_of_check_error hcheck] at h
    cases h
    exact .settings hcheck
  | ok settings =>
    cases hread : site.readText path with
    | error error =>
      rw [convert_of_readText_error hcheck hread] at h
      cases h
      cases error with
      | undecodable failure =>
        obtain ⟨bytes, hbytes, hdecode⟩ := Site.readText_eq_undecodable_iff.1 hread
        exact .undecodable hcheck hbytes hdecode
      | _ => exact .unreadable hcheck hread fun _ => FileError.noConfusion
    | ok content =>
      obtain ⟨outcome, hdecided, houtcome⟩ := decided_of_readText hcheck hread
      rw [houtcome] at h
      cases hdecided with
      | lineTooLong number hfirst =>
        cases h
        exact .lineTooLong hcheck hread hfirst
      | unindentable reason hshort hneeded =>
        cases h
        exact .unindentable reason hcheck hread hshort hneeded
      | unterminated block hshort hneeded hstrict hleft =>
        cases h
        exact .unterminated hcheck hread hshort hneeded hstrict hleft
      | document middle => cases h

/-- Each reason for a failure that is told makes the conversion fail with it. -/
theorem Fails.document_eq {failure : Failure} (h : Fails site raw path failure) (hf : failure.isReported = true) :
    (convert site raw path).document = .error failure := by
  cases h with
  | settings hcheck => rw [convert_of_check_error hcheck]
  | unreadable hcheck hread hdecodes =>
    rw [convert_of_readText_error hcheck hread]
    unfold Failure.ofFile
    split
    · next failure => exact absurd rfl (hdecodes failure)
    · rfl
  | undecodable hcheck hread hdecode =>
    rw [convert_of_readText_error hcheck (Site.readText_eq_undecodable_iff.2 ⟨_, hread, hdecode⟩)]
    rfl
  | lineTooLong hcheck hread hfirst =>
    obtain ⟨outcome, hdecided, houtcome⟩ := decided_of_readText hcheck hread
    rw [houtcome, (hdecided.lineTooLong_iff _ _).2 ⟨rfl, hfirst⟩]
    rfl
  | unindentable reason => cases hf
  | unterminated hcheck hread hshort hneeded hstrict hleft =>
    obtain ⟨outcome, hdecided, houtcome⟩ := decided_of_readText hcheck hread
    rw [houtcome, (hdecided.unterminated_iff hshort hneeded _).2 ⟨hstrict, hleft⟩]
    rfl

end Outcomes

/-- Converting a file gives the document of the text in it, or fails for one of the reasons. All failures are told as
one of the file, unless the settings are right and the path holds a character that no path can hold, or the lists in the
file are too deep to be indented. -/
theorem file_outcomes [Memory] (site : Site) (raw : RawSettings) (path : Path) :
    (∀ document, (convert site raw path).document = .ok document ↔
      ∃ content, site.readText path = .ok content ∧ (Document.convert raw content).document = .ok document) ∧
    (∀ failure, failure.isReported = true →
      ((convert site raw path).document = .error failure ↔ Fails site raw path failure)) ∧
    ((∃ failure, (convert site raw path).document = .error failure ∧ failure.isReported = false) ↔
      ∃ settings, raw.check = .ok settings ∧
        ((∃ c ∈ path.text, site.fits c = false) ∨ ∃ content, site.readText path = .ok content ∧
          (∀ line ∈ Document.lines content, (line.length : Int) ≤ settings.maxLineLength) ∧
          Memory.size < Document.spacesNeeded settings (Document.lines content))) := by
  refine ⟨document_iff, fun failure hf => ⟨fails_of_document, fun h => h.document_eq hf⟩,
    fun ⟨failure, h, hf⟩ => ?_, ?_⟩
  · cases fails_of_document h with
    | @unreadable settings error hcheck hread =>
      cases error with
      | unfit reason =>
        exact ⟨settings, hcheck, .inl (Site.exists_unfit_iff.1 ⟨reason, Site.readText_eq_unfit_iff.1 hread⟩)⟩
      | unencodable error => exact absurd hread (Site.readText_ne_unencodable error)
      | _ => cases hf
    | unindentable reason hcheck hread hshort hneeded => exact ⟨_, hcheck, .inr ⟨_, hread, hshort, hneeded⟩⟩
    | _ => cases hf
  · rintro ⟨settings, hcheck, hunfit | ⟨content, hread, hshort, hneeded⟩⟩
    · obtain ⟨reason, hreason⟩ := Site.exists_unfit_iff.2 hunfit
      have hread : site.readText path = .error (.unfit reason) := Site.readText_eq_unfit_iff.2 hreason
      exact ⟨_, congrArg Outcome.document (convert_of_readText_error hcheck hread), rfl⟩
    · obtain ⟨outcome, hdecided, houtcome⟩ := decided_of_readText hcheck hread
      obtain ⟨reason, hreason⟩ := (hdecided.unindentable_iff hshort).2 hneeded
      refine ⟨.conversion (.unindentable (.unrepeatable reason)), ?_, rfl⟩
      rw [houtcome, hreason]
      rfl

/-- A path with a null character is not told as wrong. -/
theorem not_file_outcomes :
    ¬ ∀ (site : Site) (raw : RawSettings) (path : Path) (failure : Failure),
      (convert site raw path).document = .error failure → failure.isReported = true := by
  intro h
  have hread : (threeFiles [] [] []).readText ⟨.here, ["n\x00.sd".toList]⟩ = .error (.unfit .nullByte) :=
    Site.readText_eq_unfit_iff.2 (by decide)
  obtain ⟨settings, hcheck⟩ : ∃ settings, RawSettings.default.check = .ok settings := ⟨.default, rfl⟩
  have hreported := h _ _ _ _ (congrArg Outcome.document (convert_of_readText_error hcheck hread))
  cases hreported

end NotesFile

end Lectern
