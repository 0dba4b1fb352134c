import Lectern.Proofs.FirstSpans
import Lectern.Proofs.VerbatimBlocks

/-!
# Inline text in the document

How deep spans may be nested does not matter (`renderSpan_congr`): the text of a span is rendered token by token, in
the same way as a line (**`renderInline_eq`**). Outside of blocks no fragment depends on the one that follows, so the
text on both sides of a first span is rendered as if it stood alone (**`renderInline_of_firstSpan`**), and text in
which no rule finds anything is written as it is. A line outside of all blocks and lists in which nothing belongs to the
start of a line is converted to its inline text (**`Converter.line_of_inline`**).
-/

set_option autoImplicit false

namespace Lectern

variable {mode : Mode} {s : Text} {t : Token}

/-! ## The depth of spans -/

theorem length_lt_of_finds {rule : SpanRule} {form body : Text} (h : rule.Finds t form)
    (hb : t = .bold body ∨ t = .italic body) : body.length < form.length := by
  have hrow : ∀ stars : Text, stars ≠ [] → body.length < (stars ++ body ++ stars).length := by
    intro stars hne
    have hpos := List.length_pos_iff.2 hne
    rw [List.length_append, List.length_append]
    omega
  rcases hb with rfl | rfl
  · cases h
    exact hrow _ (by decide)
  · cases h
    exact hrow _ (by decide)

/-- A span inside a text is shorter than the text. -/
theorem length_lt_of_mem_readInline (hm : mode.inBlock = false) (s : Text) {body : Text}
    (ht : t ∈ readInline mode s) (hb : t = .bold body ∨ t = .italic body) : body.length < s.length := by
  induction s using readInline_induction with
  | inert s h =>
    rw [readInline_of_inert h] at ht
    unfold Token.textIfAny at ht
    split at ht
    · cases ht
    · rw [List.mem_singleton.1 ht] at hb
      rcases hb with hb | hb <;> cases hb
  | span rule stretch s u rest h ihs ihr =>
    obtain ⟨form, hfinds, rfl⟩ := SpanRule.exists_finds_of_front? h.front
    rw [readInline_of_firstSpan hm h, List.mem_append, List.mem_cons] at ht
    rw [List.length_append, List.length_append]
    rcases ht with ht | rfl | ht
    · have := ihs ht
      omega
    · have := length_lt_of_finds hfinds hb
      omega
    · have := ihr ht
      omega

theorem renderSpan_nil (mode : Mode) (depth : Nat) : renderSpan mode depth [] = .ok [] := by
  cases depth with
  | zero => rfl
  | succ depth =>
    rw [renderSpan, readInline_nil]
    rfl

theorem Token.fragmentWith_congr {inner inner' : Text → Except Unrenderable Text}
    (h : ∀ body, t = .bold body ∨ t = .italic body → inner body = inner' body) :
    t.fragmentWith inner mode = t.fragmentWith inner' mode := by
  cases t with
  | bold body => rw [fragmentWith, fragmentWith, h body (.inl rfl)]
  | italic body => rw [fragmentWith, fragmentWith, h body (.inr rfl)]
  | _ => rfl

/-- A text is rendered alike however deep spans may be nested in it, as long as it is deep enough for the text. -/
theorem renderSpan_congr (hm : mode.inBlock = false) {depth more : Nat} (h : s.length ≤ depth)
    (h' : s.length ≤ more) : renderSpan mode depth s = renderSpan mode more s := by
  induction depth generalizing more s with
  | zero => rw [List.length_eq_zero_iff.1 (Nat.le_zero.1 h), renderSpan_nil, renderSpan_nil]
  | succ depth ih =>
    cases more with
    | zero => rw [List.length_eq_zero_iff.1 (Nat.le_zero.1 h'), renderSpan_nil, renderSpan_nil]
    | succ more =>
      have hcongr : ∀ t ∈ readInline mode s,
          t.fragmentWith (renderSpan mode depth) mode = t.fragmentWith (renderSpan mode more) mode :=
        fun t ht => Token.fragmentWith_congr fun body hb => by
          have hlt := length_lt_of_mem_readInline hm s ht hb
          exact ih (by omega) (by omega)
      rw [renderSpan, renderSpan, mapM_congr hcongr]

/-- **The text of a span is rendered token by token**, in the same way as a line. -/
theorem renderInline_eq (hm : mode.inBlock = false) (s : Text) :
    renderInline mode s = ((readInline mode s).mapM (Token.fragment mode)).map Fragment.printAll := by
  have hcongr : ∀ t ∈ readInline mode s, t.fragmentWith (renderSpan mode s.length) mode = t.fragment mode :=
    fun t ht => Token.fragmentWith_congr fun body hb =>
      renderSpan_congr hm (Nat.le_of_lt (length_lt_of_mem_readInline hm s ht hb)) (Nat.le_refl _)
  rw [renderInline, renderSpan_congr hm (Nat.le_refl _) (Nat.le_succ _), renderSpan, mapM_congr hcongr]

/-- Every text can be rendered. -/
theorem exists_renderInline (mode : Mode) (s : Text) : ∃ text, renderInline mode s = .ok text :=
  exists_renderSpan mode s.length s

/-! ## Fragments that do not depend on what follows -/

namespace Fragment

theorem printAll_cons {fragment : Fragment} (h : fragment.isBareControl = false) (fragments : List Fragment) :
    printAll (fragment :: fragments) = fragment.print ++ printAll fragments := by
  cases fragments with
  | nil => simp [printAll]
  | cons next fragments => simp [printAll, h]

theorem printAll_append {fragments more : List Fragment}
    (h : ∀ fragment ∈ fragments, fragment.isBareControl = false) :
    printAll (fragments ++ more) = printAll fragments ++ printAll more := by
  induction fragments with
  | nil => rfl
  | cons fragment fragments ih =>
    obtain ⟨hbare, htail⟩ := List.forall_mem_cons.1 h
    rw [List.cons_append, printAll_cons hbare, printAll_cons hbare, ih htail, List.append_assoc]

end Fragment

/-- Outside of math blocks a control word stands between dollars. -/
theorem isBareControl_of_fragment (hm : mode.inBlock = false) {fragment : Fragment}
    (h : t.fragment mode = .ok fragment) : fragment.isBareControl = false := by
  have hmath := (Mode.inBlock_eq_false.1 hm).2
  cases t with
  | arrow glyph | comparison glyph =>
    cases h
    exact hmath
  | bold body | italic body =>
    obtain ⟨text, -, rfl⟩ := exists_of_map_eq_ok h
    rfl
  | raw | command => cases h
  | _ =>
    cases h
    rfl

section Rendering

variable {text : Text}

theorem renderInline_of_mapM (hm : mode.inBlock = false) {fragments : List Fragment}
    (h : (readInline mode s).mapM (Token.fragment mode) = .ok fragments) :
    renderInline mode s = .ok (Fragment.printAll fragments) := by
  rw [renderInline_eq hm, h]
  rfl

theorem exists_fragments_of_renderInline (hm : mode.inBlock = false) (h : renderInline mode s = .ok text) :
    ∃ fragments, (readInline mode s).mapM (Token.fragment mode) = .ok fragments ∧
      Fragment.printAll fragments = text ∧ ∀ fragment ∈ fragments, fragment.isBareControl = false := by
  rw [renderInline_eq hm] at h
  obtain ⟨fragments, hfragments, rfl⟩ := exists_of_map_eq_ok h
  exact ⟨fragments, hfragments, rfl,
    forall_mem_of_mapM (fun t _ fragment ht => isBareControl_of_fragment hm ht) hfragments⟩

/-- Text in which no rule finds anything is written as it is. -/
theorem renderInline_of_inert (hm : mode.inBlock = false) (h : ∀ rule : SpanRule, rule.Inert s [])
    (hs : ∀ c ∈ s, c ≠ '\r' ∧ c ≠ '\n') : renderInline mode s = .ok s := by
  by_cases hne : s = []
  · rw [hne]
    exact renderSpan_nil mode 0
  · have hall : (readInline mode s).mapM (Token.fragment mode) = .ok [.text s] := by
      rw [readInline_of_inert h, Chunk.textIfAny_of_lineEnd hne hs]
      rfl
    rw [renderInline_of_mapM hm hall, Fragment.printAll_cons rfl]
    exact congrArg Except.ok (List.append_nil s)

/-- **The texts on both sides of the first span are rendered as if they stood alone.** -/
theorem renderInline_of_firstSpan (hm : mode.inBlock = false) {rule : SpanRule} {stretch rest before after : Text}
    {fragment : Fragment} (h : SpanRule.FirstSpan rule stretch s t rest)
    (hbefore : renderInline mode stretch = .ok before) (ht : t.fragment mode = .ok fragment)
    (hafter : renderInline mode rest = .ok after) :
    renderInline mode (stretch ++ s) = .ok (before ++ fragment.print ++ after) := by
  obtain ⟨first, hfirst, rfl, hbare⟩ := exists_fragments_of_renderInline hm hbefore
  obtain ⟨last, hlast, rfl, -⟩ := exists_fragments_of_renderInline hm hafter
  have hall : (readInline mode (stretch ++ s)).mapM (Token.fragment mode) = .ok (first ++ fragment :: last) := by
    rw [readInline_of_firstSpan hm h]
    refine mapM_append hfirst ?_
    rw [List.mapM_cons, ht, hlast]
    rfl
  rw [renderInline_of_mapM hm hall, Fragment.printAll_append hbare,
    Fragment.printAll_cons (isBareControl_of_fragment hm ht), List.append_assoc]

/-- What a rule finds has a fragment. -/
theorem exists_fragment_of_front? {rule : SpanRule} {rest : Text} (h : rule.front? s = some (t, rest)) (mode : Mode) :
    ∃ fragment, t.fragment mode = .ok fragment :=
  exists_fragment (Token.hasPlace_of_isPlain (Token.isPlain_of_isInline (SpanRule.isInline_of_front? h))) mode

/-- A text with a first span is rendered in three parts. -/
theorem exists_renderInline_of_firstSpan (hm : mode.inBlock = false) {rule : SpanRule} {stretch rest : Text}
    (h : SpanRule.FirstSpan rule stretch s t rest) :
    ∃ before fragment after, renderInline mode stretch = .ok before ∧ t.fragment mode = .ok fragment ∧
      renderInline mode rest = .ok after ∧
      renderInline mode (stretch ++ s) = .ok (before ++ fragment.print ++ after) := by
  obtain ⟨before, hbefore⟩ := exists_renderInline mode stretch
  obtain ⟨fragment, hfragment⟩ := exists_fragment_of_front? h.front mode
  obtain ⟨after, hafter⟩ := exists_renderInline mode rest
  exact ⟨before, fragment, after, hbefore, hfragment, hafter, renderInline_of_firstSpan hm h hbefore hfragment hafter⟩

end Rendering

/-! ## Lines of inline text -/

/-- A line that no rule for the start of a line claims is inline text. -/
theorem readLine_of_inline (hh : mode.head = false) (hm : mode.inBlock = false) (hs : s ≠ [])
    (hheading : heading? s = none) (hescaped : escapedHeading? s = none) (hfence : isFence s = false)
    (hmath : mathDelimiter? s = none) (hmarker : ∀ kind, ListMarker.read? kind s = none)
    (hmarker' : ∀ kind, ListMarker.escaped? kind s = none) :
    readLine mode s = (mode, .ok (readInline mode s)) := by
  have hhead : LineRule.readHeadLine mode s = (mode, Token.rawIfAny s) := by simp [LineRule.readHeadLine, hh]
  have hstart := readStart_of_no_block hs hm hheading hescaped hfence hmath
  rw [readStart_of_no_marker hs hm hmarker hmarker'] at hstart
  exact readLine_of_headLine hhead hstart

namespace Progress

/-- The fragments of tokens that change no lists are those of each token. -/
theorem renderAll_of_mapM [Memory] {indentation : Indentation} {progress : Progress} {tokens : List Token}
    {fragments : List Fragment} (hp : ∀ t ∈ tokens, t.isPlain = true)
    (h : tokens.mapM (Token.fragment progress.mode) = .ok fragments) :
    progress.renderAll indentation tokens = (progress, .ok fragments) := by
  induction tokens generalizing fragments with
  | nil =>
    cases h
    rfl
  | cons t tokens ih =>
    obtain ⟨hplain, htail⟩ := List.forall_mem_cons.1 hp
    obtain ⟨fragment, hfragment⟩ := exists_fragment (Token.hasPlace_of_isPlain hplain) progress.mode
    have hrender : progress.render indentation t = (progress, .ok fragment) := by
      cases t with
      | item kind level => cases hplain
      | _ => simp only [render, hfragment]; rfl
    rw [List.mapM_cons, hfragment] at h
    cases hrest : tokens.mapM (Token.fragment progress.mode) with
    | error failure =>
      rw [hrest] at h
      cases h
    | ok rest =>
      rw [hrest] at h
      cases h
      simp only [renderAll, hrender, ih htail hrest]

end Progress

namespace Converter

/-- **Outside of all blocks and lists a line of inline text is converted to this text**, and nothing else happens. -/
theorem line_of_inline [Memory] {settings : Settings} {converter : Converter} {source text : Text}
    (hreach : Reachable settings converter) (hhead : converter.progress.mode.head = false)
    (hblock : converter.progress.mode.inBlock = false) (hlists : converter.progress.outline.levels = [])
    (hn : '\n' ∉ source)
    (hread : readLine converter.progress.mode source =
      (converter.progress.mode, .ok (readInline converter.progress.mode source)))
    (h : renderInline converter.progress.mode source = .ok text) : converter.line source = (converter, .ok text) := by
  obtain ⟨fragments, hfragments, rfl, -⟩ := exists_fragments_of_renderInline hblock h
  have hrender : converter.progress.renderAll converter.indentation (readInline converter.progress.mode source) =
      (converter.progress, .ok fragments) :=
    Progress.renderAll_of_mapM (fun t ht => Token.isPlain_of_isInline (isInline_of_mem_readInline ht)) hfragments
  have hsound := hreach.sound
  obtain ⟨hpending, hline⟩ := hsound.coherent.outside hlists
  obtain ⟨depth?, hdepth, hwrite⟩ :=
    Progress.write_outermost hsound.outermost hlists hpending hline source hrender
  have hsplit := splitTerminator_of_not_mem hn
  have hread' : readLine converter.progress.mode (splitTerminator source).1 =
      (converter.progress.mode, .ok (readInline converter.progress.mode source)) := by
    rw [hsplit]
    exact hread
  have hobey := obey_line_of_read hhead hread' (by rw [hsplit]; exact hwrite)
  rw [print_of_depth_zero hdepth, hsplit] at hobey
  simp only [List.flatMap_nil, List.nil_append, List.append_nil] at hobey
  exact line_of_obey hobey

end Converter

end Lectern
