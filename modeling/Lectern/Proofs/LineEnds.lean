import Mathlib
import Lectern.NotesFile
import Lectern.Proofs.Encoding
import Lectern.Proofs.Layout
import Lectern.Proofs.Streaming

/-!
# Line ends

The lines of notes can end in a line feed, in a carriage return with a line feed behind it or, in a file, in a carriage
return alone. `Text.withEnds` writes a text with the line ends of one of these kinds. Reading a file makes line feeds of
them (`Text.universalLines_withEnds`), and otherwise the carriage return in front of a line feed is no part of its line
(`Document.lines_withEnds`); an empty line that a line end at the very end would leave is left out
(`Document.lines_concat`). So the kind of line ends makes no difference for what comes of notes
(**`NotesFile.convert_lineEnds`**).
-/

set_option autoImplicit false

namespace Lectern

namespace Text

/-- The text with another line end in the place of each line feed. -/
def withEnds (s lineEnd : Text) : Text := s.flatMap fun c => if c = '\n' then lineEnd else [c]

section Ends

variable {s : Text} {c : Char}

theorem withEnds_cons (c : Char) (s lineEnd : Text) :
    withEnds (c :: s) lineEnd = (if c = '\n' then lineEnd else [c]) ++ withEnds s lineEnd := List.flatMap_cons

/-- The kinds of line ends. -/
def lineEnds : List Text := [['\n'], ['\r', '\n'], ['\r']]

theorem universalLines_cons (hc : c ≠ '\r') (s : Text) : universalLines (c :: s) = c :: universalLines s := by
  rw [universalLines]
  · rintro rest rfl
    exact absurd rfl hc
  · rintro rfl
    exact absurd rfl hc

/-- A carriage return that no line feed follows is a line end of its own. -/
theorem universalLines_return (h : s.head? ≠ some '\n') : universalLines ('\r' :: s) = '\n' :: universalLines s := by
  rw [universalLines]
  rintro rest rfl
  exact h rfl

theorem not_mem_withEnds (s : Text) : '\n' ∉ withEnds s ['\r'] := by
  intro h
  obtain ⟨c, -, hc⟩ := List.mem_flatMap.1 h
  split at hc
  · revert hc
    decide
  · next hne => exact hne (List.mem_singleton.1 hc).symm

/-- Reading a file makes line feeds of all line ends. -/
theorem universalLines_withEnds {lineEnd : Text} (he : lineEnd ∈ lineEnds) (hs : '\r' ∉ s) :
    universalLines (withEnds s lineEnd) = s := by
  induction s with
  | nil => rfl
  | cons c s ih =>
    rw [List.mem_cons, not_or] at hs
    have htail := ih hs.2
    rw [withEnds_cons]
    split
    · next hc =>
      subst hc
      simp only [lineEnds, List.mem_cons, List.not_mem_nil, or_false] at he
      rcases he with rfl | rfl | rfl
      · rw [List.singleton_append, universalLines_cons (by decide), htail]
      · rw [List.cons_append, List.singleton_append, universalLines, htail]
      · rw [List.singleton_append, universalLines_return ?_, htail]
        exact fun h => not_mem_withEnds s (List.mem_of_head? h)
    · rw [List.singleton_append, universalLines_cons (Ne.symm hs.1), htail]

end Ends

end Text

/-! ## Notes -/

namespace Document

section Lines

variable {content line : Text} {c : Char}

theorem dropReturn_of_not_mem (h : '\r' ∉ line) : dropReturn line = line := by
  rw [dropReturn]
  cases hb : Text.before? ['\r'] line with
  | none => rfl
  | some before =>
    rw [Text.before?_eq_some.1 hb] at h
    exact absurd (List.mem_append_right before (List.mem_singleton_self _)) h

theorem dropReturn_cons (hc : c ≠ '\r') (line : Text) : dropReturn (c :: line) = c :: dropReturn line := by
  rw [dropReturn, dropReturn]
  cases hb : Text.before? ['\r'] line with
  | none =>
    have hnone : Text.before? ['\r'] (c :: line) = none := by
      rw [Option.eq_none_iff_forall_ne_some]
      intro before h
      have hline := Text.before?_eq_some.1 h
      cases before with
      | nil => exact hc (List.cons.inj hline).1
      | cons d before =>
        rw [Text.before?_eq_some.2 (List.cons.inj hline).2] at hb
        cases hb
    rw [hnone]
    rfl
  | some before =>
    have hsome : Text.before? ['\r'] (c :: line) = some (c :: before) :=
      Text.before?_eq_some.2 (congrArg (c :: ·) (Text.before?_eq_some.1 hb))
    rw [hsome]
    rfl

theorem map_dropReturn_splitLines (h : '\r' ∉ content) :
    (Text.splitLines content).map dropReturn = Text.splitLines content := by
  have hall : ∀ line ∈ Text.splitLines content, dropReturn line = line := fun line hl =>
    dropReturn_of_not_mem fun hm => h (mem_of_mem_splitLines hl _ hm)
  rw [List.map_congr_left hall, List.map_id']

/-- The carriage return of a line end is no part of the line. -/
theorem map_dropReturn_withEnds (h : '\r' ∉ content) :
    (Text.splitLines (Text.withEnds content ['\r', '\n'])).map dropReturn = Text.splitLines content := by
  induction content with
  | nil => rfl
  | cons c content ih =>
    rw [List.mem_cons, not_or] at h
    have htail := ih h.2
    rw [Text.withEnds_cons]
    by_cases hc : c = '\n'
    · have hsplit : Text.splitLines (['\r', '\n'] ++ Text.withEnds content ['\r', '\n']) =
          ['\r'] :: Text.splitLines (Text.withEnds content ['\r', '\n']) := Text.splitLines_append ['\r'] _
      rw [if_pos hc, hsplit, List.map_cons, htail, Text.splitLines, if_pos hc]
      rfl
    · cases hs : Text.splitLines (Text.withEnds content ['\r', '\n']) with
      | nil => exact absurd hs (Text.splitLines_ne_nil _)
      | cons line lines =>
        rw [hs, List.map_cons] at htail
        rw [if_neg hc, List.singleton_append, Text.splitLines_cons hc hs, List.map_cons, dropReturn_cons (Ne.symm h.1),
          Text.splitLines_cons hc htail.symm]

/-- Notes are the same lines with either kind of line ends. -/
theorem lines_withEnds (h : '\r' ∉ content) : lines (content.withEnds ['\r', '\n']) = lines content := by
  rw [lines, lines, map_dropReturn_withEnds h, map_dropReturn_splitLines h]

/-- The last line is empty only behind a line end. -/
theorem getLast?_of_splitLines (h : (Text.splitLines content).getLast? = some []) :
    content = [] ∨ content.getLast? = some '\n' := by
  induction content with
  | nil => exact .inl rfl
  | cons c content ih =>
    have hlast : content = [] ∨ content.getLast? = some '\n' → c = '\n' ∨ content ≠ [] →
        (c :: content).getLast? = some '\n' := by
      intro htail hne
      rw [List.getLast?_cons]
      rcases htail with rfl | htail
      · simpa using hne
      · rw [htail]
        rfl
    refine .inr ?_
    by_cases hc : c = '\n'
    · rw [Text.splitLines, if_pos hc, List.getLast?_cons_of_ne_nil (Text.splitLines_ne_nil content)] at h
      exact hlast (ih h) (.inl hc)
    · cases hs : Text.splitLines content with
      | nil => exact absurd hs (Text.splitLines_ne_nil content)
      | cons line lines =>
        rw [Text.splitLines_cons hc hs] at h
        cases lines with
        | nil => cases h
        | cons next lines =>
          refine hlast (ih ?_) (.inr ?_)
          · rw [hs, ← h]
            rfl
          · rintro rfl
            cases hs

/-- A line end behind the last line begins no line. -/
theorem lines_concat (h : '\r' ∉ content) (hne : content ≠ []) (hlast : content.getLast? ≠ some '\n') :
    lines (content ++ ['\n']) = lines content := by
  have hopen : (Text.splitLines content).getLast? ≠ some [] := fun hl =>
    (getLast?_of_splitLines hl).elim hne hlast
  have hsplit : Text.splitLines (content ++ ['\n']) = Text.splitLines content ++ [[]] :=
    Text.splitLines_append content []
  have hlines : lines (content ++ ['\n']) = (Text.splitLines content).map dropReturn := by
    rw [lines, hsplit, List.map_append, List.map_singleton]
    exact (if_pos List.getLast?_concat).trans List.dropLast_concat
  rw [hlines, lines, map_dropReturn_splitLines h]
  exact (if_neg hopen).symm

theorem convert_of_lines [Memory] {other : Text} (h : lines other = lines content) (raw : RawSettings) :
    convert raw other = convert raw content := by
  rw [convert, convert, h]

end Lines

end Document

/-! ## Files -/

namespace NotesFile

section Files

variable {site : Site} {path : Path} {content lineEnd : Text}

theorem readText_of_read (he : lineEnd ∈ Text.lineEnds) (h : '\r' ∉ content)
    (hread : site.read path.text = .ok (Utf8.encode (content.withEnds lineEnd))) :
    site.readText path = .ok content := by
  rw [Site.readText, hread]
  simp only [Utf8.decode_encode, Text.universalLines_withEnds he h]

/-- A file of notes has the outcome of the notes in it; only what goes wrong is told with the path. -/
theorem convert_of_readText [Memory] (raw : RawSettings) (h : site.readText path = .ok content) :
    convert site raw path =
      ⟨(Document.convert raw content).warnings,
        (Document.convert raw content).document.mapError (.ofDocument path.text)⟩ := by
  rw [convert, Document.convert]
  cases raw.check with
  | error failure => rfl
  | ok settings => simp only [convertChecked, h]

/-- **The kind of line ends makes no difference.** Notes without carriage returns have the same outcome, which is the
document or the failure, and the warnings, if all their line feeds are written with a carriage return in front, and if
one more line feed follows their last line. A file that holds their bytes with line feeds, with carriage returns or with
both as line ends has that outcome too, but that its path is told with what goes wrong. -/
theorem convert_lineEnds [Memory] (raw : RawSettings) (h : '\r' ∉ content) :
    Document.convert raw (content.withEnds ['\r', '\n']) = Document.convert raw content ∧
      (content ≠ [] → content.getLast? ≠ some '\n' →
        Document.convert raw (content ++ ['\n']) = Document.convert raw content) ∧
      ∀ lineEnd ∈ Text.lineEnds, ∀ (site : Site) (path : Path),
        site.read path.text = .ok (Utf8.encode (content.withEnds lineEnd)) →
        convert site raw path = ⟨(Document.convert raw content).warnings,
          (Document.convert raw content).document.mapError (.ofDocument path.text)⟩ :=
  ⟨Document.convert_of_lines (Document.lines_withEnds h) raw,
    fun hne hlast => Document.convert_of_lines (Document.lines_concat h hne hlast) raw,
    fun _ he _ _ hread => convert_of_readText raw (readText_of_read he h hread)⟩

/-- Three files that stand in the top directory. -/
def threeFiles (first second third : List UInt8) : Site where
  tree := ⟨[(["a".toList], .file first 0o644), (["b".toList], .file second 0o644), (["c".toList], .file third 0o644)]⟩
  directory := []
  home := "/".toList
  homes := []
  system := .free

/-- Three files with the same notes, in which characters have one to four bytes. A block is left open in them, which the
settings do not allow. -/
theorem convert_lineEnds_files :
    let raw := RawSettings.default.set .strictBlocks (.bool true)
    let content : Text := "$title: é\n===\n\n* € 𝕏\n```".toList
    let site := threeFiles (Utf8.encode (content.withEnds ['\n'])) (Utf8.encode (content.withEnds ['\r', '\n']))
      (Utf8.encode (content.withEnds ['\r']))
    '\r' ∉ content ∧ content ≠ [] ∧ content.getLast? ≠ some '\n' ∧
      Document.convert raw (content.withEnds ['\r', '\n']) = Document.convert raw content ∧
      Document.convert raw (content ++ ['\n']) = Document.convert raw content ∧
      (Document.convert raw content).document = .error (.conversion (.unterminated .verbatim)) ∧
      ∀ name ∈ ["a".toList, "b".toList, "c".toList],
        (convert site raw ⟨.top, [name]⟩).document = .error (.unterminated ('/' :: name) .verbatim) := by
  intro raw content site
  have hr : '\r' ∉ content := by decide
  have hne : content ≠ [] := by decide
  have hlast : content.getLast? ≠ some '\n' := by decide
  have hopen : (Document.convert raw content).document = .error (.conversion (.unterminated .verbatim)) := by
    have hwhich : (match (Document.convert raw content).document with
        | .error failure => some failure
        | .ok _ => none) = some (.conversion (.unterminated .verbatim)) := by decide +kernel
    split at hwhich
    · next failure hfailure => rw [hfailure, Option.some.inj hwhich]
    · cases hwhich
  obtain ⟨hends, hconcat, hfile⟩ := convert_lineEnds raw hr
  have hread : ∀ (path : Path) (lineEnd : Text), lineEnd ∈ Text.lineEnds →
      site.read path.text = .ok (Utf8.encode (content.withEnds lineEnd)) →
      (convert site raw path).document = .error (.unterminated path.text .verbatim) := by
    intro path lineEnd he h
    rw [hfile lineEnd he site path h, hopen]
    rfl
  have hbytes : ∀ first second third : List UInt8,
      (threeFiles first second third).read "/a".toList = .ok first ∧
      (threeFiles first second third).read "/b".toList = .ok second ∧
      (threeFiles first second third).read "/c".toList = .ok third := fun _ _ _ => ⟨by cbv, by cbv, by cbv⟩
  obtain ⟨hfirst, hsecond, hthird⟩ := hbytes (Utf8.encode (content.withEnds ['\n']))
    (Utf8.encode (content.withEnds ['\r', '\n'])) (Utf8.encode (content.withEnds ['\r']))
  refine ⟨hr, hne, hlast, hends, hconcat hne hlast, hopen, fun name hname => ?_⟩
  simp only [List.mem_cons, List.not_mem_nil, or_false] at hname
  rcases hname with rfl | rfl | rfl
  · exact hread ⟨.top, ["a".toList]⟩ ['\n'] (by decide) hfirst
  · exact hread ⟨.top, ["b".toList]⟩ ['\r', '\n'] (by decide) hsecond
  · exact hread ⟨.top, ["c".toList]⟩ ['\r'] (by decide) hthird

end Files

end NotesFile

end Lectern
