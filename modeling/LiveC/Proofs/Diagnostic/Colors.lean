import LiveC.Diagnostic.Report
import LiveC.Proofs.Text.Lines
import LiveC.Proofs.Text.Numeral
/-!
# Colours change nothing but colours

`Style.plain` takes the style sequences out of a text. A text `Shows` another if that is what is
left of it, whatever follows it: so what is shown is the sum of what its parts show
(`Style.Shows.append`). A text without escape characters shows itself, and painted in any style it
shows the same (`Style.shows_paint`). A diagnostic is put together from texts and painted pieces of
them, and its widths are counted before anything is painted: with colours it shows what it is
without them, and so does a report (`Report.plain_format_render`).
-/

namespace LiveC

open Text

/-- A text without escape characters: no style sequence starts in it. -/
def Style.Unescaped (s : String) : Prop := '\x1b' ∉ s.toList

instance : DecidablePred Style.Unescaped := fun s => inferInstanceAs (Decidable ('\x1b' ∉ s.toList))

/-- A diagnostic without escape characters. -/
structure Diagnostic.Unescaped (d : Diagnostic) : Prop where
  message : Style.Unescaped d.message
  file : Style.Unescaped d.span.file
  notes : ∀ note ∈ d.notes, Style.Unescaped note
  help : ∀ help ∈ d.help, Style.Unescaped help

namespace Style

variable {s t s' t' : String} {c : Char} {cs r : List Char}

/-! ## What a text shows -/

/-- A text shows another: without style sequences it is the other one, whatever follows it. -/
def Shows (s t : String) : Prop := ∀ r, plain (s.toList ++ r) = t.toList ++ plain r

theorem plain_nil : plain [] = [] := by rw [plain]

theorem plain_cons_of_ne (h : c ≠ '\x1b') (r : List Char) : plain (c :: r) = c :: plain r := by
  rw [plain, if_neg (by simpa using h)]

/-- Characters that are no escape characters are left. -/
theorem plain_append (h : '\x1b' ∉ cs) (r : List Char) : plain (cs ++ r) = cs ++ plain r := by
  induction cs with
  | nil => rfl
  | cons c cs ih =>
    rw [List.mem_cons, not_or] at h
    rw [List.cons_append, plain_cons_of_ne (Ne.symm h.1), ih h.2, List.cons_append]

theorem afterSequence?_codes (h : ∀ c ∈ cs, isCode c = true) (r : List Char) :
    afterSequence? ('[' :: (cs ++ 'm' :: r)) = some r := by
  have hrest : (cs ++ 'm' :: r).dropWhile isCode = 'm' :: r := by
    rw [List.dropWhile_append_of_pos h, List.dropWhile_cons_of_neg (by decide)]
  simp only [afterSequence?, hrest]

/-- Nothing is left of a style sequence. -/
theorem plain_sequence (h : ∀ c ∈ cs, isCode c = true) (r : List Char) :
    plain ('\x1b' :: '[' :: (cs ++ 'm' :: r)) = plain r := by
  rw [plain, if_pos (by decide)]
  split
  · next rest hrest =>
    rw [afterSequence?_codes h] at hrest
    rw [Option.some.inj hrest]
  · next hnone =>
    rw [afterSequence?_codes h] at hnone
    exact absurd hnone (by simp)

namespace Shows

theorem append (h : Shows s t) (h' : Shows s' t') : Shows (s ++ s') (t ++ t') := by
  intro r
  rw [String.toList_append, String.toList_append, List.append_assoc, h, h', List.append_assoc]

theorem empty : Shows "" "" := fun _ => rfl

/-- Without its style sequences a text is what it shows. -/
theorem plain_eq (h : Shows s t) : plain s.toList = t.toList := by
  have hnil := h []
  rwa [List.append_nil, plain_nil, List.append_nil] at hnil

/-- Texts one after the other, if each of them shows what it is to show. -/
theorem join {α : Type} {f g : α → String} {l : List α} (h : ∀ a ∈ l, Shows (f a) (g a)) :
    Shows (String.join (l.map f)) (String.join (l.map g)) := by
  induction l with
  | nil => exact empty
  | cons a l ih =>
    simp only [List.map_cons, String.join_cons]
    exact (h a (by simp)).append (ih fun b hb => h b (by simp [hb]))

end Shows

/-- A text without escape characters shows itself. -/
theorem Unescaped.shows (h : Unescaped s) : Shows s s := plain_append h

/-- Texts with a text without escape characters between them. -/
theorem Shows.intercalate {α : Type} {f g : α → String} {l : List α} (hs : Unescaped s)
    (h : ∀ a ∈ l, Shows (f a) (g a)) :
    Shows (String.intercalate s (l.map f)) (String.intercalate s (l.map g)) := by
  induction l with
  | nil => exact .empty
  | cons a l ih =>
    have ha := h a (by simp)
    cases l with
    | nil => simpa using ha
    | cons b l =>
      have hrest := ih fun b hb => h b (by simp [hb])
      simp only [List.map_cons, String.intercalate_cons_cons] at hrest ⊢
      exact (ha.append hs.shows).append hrest

/-! ## Painted texts -/

/-- The codes of a style are digits, with semicolons between them. -/
theorem isCode_of_mem_codes (s : Style) :
    ∀ c ∈ (String.intercalate ";" s.codes).toList, isCode c = true := by
  obtain ⟨bold, color⟩ := s
  rw [← List.all_eq_true]
  cases bold <;> rcases color with _ | _ | _ | _ | _ <;> decide

theorem plain_opening (s : Style) (r : List Char) : plain (s.opening ++ r) = plain r := by
  have htext : s.opening ++ r =
      '\x1b' :: '[' :: ((String.intercalate ";" s.codes).toList ++ 'm' :: r) := by
    simp [opening]
  rw [htext, plain_sequence (isCode_of_mem_codes s)]

theorem plain_reset (r : List Char) : plain (reset ++ r) = plain r := by
  have hcodes : ∀ c ∈ ['0'], isCode c = true := List.forall_mem_singleton.2 (by decide)
  exact plain_sequence hcodes r

/-- A text without escape characters holds no reset after which a style would be opened again. -/
theorem reopened_of_notMem (start : List Char) (h : '\x1b' ∉ cs) : reopened start cs = cs := by
  induction cs with
  | nil => rfl
  | cons c cs ih =>
    rw [List.mem_cons, not_or] at h
    rw [reopened, ih h.2]
    intro _ hc
    exact absurd hc.symm h.1

/-- **A painted text shows what it is without colours.** -/
theorem shows_paint (style : Style) (h : Unescaped s) :
    Shows (style.paint true s) (style.paint false s) := by
  intro r
  have hplain : style.paint false s = s := rfl
  rw [hplain, paint]
  split
  · rw [String.toList_ofList, reopened_of_notMem _ h, List.append_assoc, List.append_assoc,
      plain_opening, plain_append h, plain_reset]
  · exact h.shows r

end Style

/-! ## The parts of a diagnostic -/

namespace Diagnostic

open Style

variable {source line : String} {span : Span} {d : Diagnostic}

theorem unescaped_append {s t : String} (hs : Style.Unescaped s) (ht : Style.Unescaped t) :
    Style.Unescaped (s ++ t) := by
  rw [Style.Unescaped, String.toList_append, List.mem_append, not_or]
  exact ⟨hs, ht⟩

theorem unescaped_toString (n : Nat) : Style.Unescaped (toString n) := fun h =>
  absurd (isDigit_of_mem_toString h) (by decide)

theorem unescaped_fill (n : Nat) {c : Char} (h : c ≠ '\x1b') : Style.Unescaped (fill n c) := by
  rw [Style.Unescaped, fill, String.toList_ofList]
  exact fun hmem => h (List.eq_of_mem_replicate hmem).symm

theorem unescaped_alignRight (width n : Nat) : Style.Unescaped (alignRight width n) :=
  unescaped_append (unescaped_fill _ (by decide)) (unescaped_toString n)

/-- A line of a source holds what the source holds. -/
theorem unescaped_sourceLine (hsource : Style.Unescaped source)
    (h : sourceLine? source span = some line) : Style.Unescaped line := by
  unfold sourceLine? at h
  split at h
  · exact absurd h (by simp)
  · obtain ⟨l, hl, rfl⟩ := List.mem_map.1 (List.mem_of_getElem? h)
    obtain ⟨before, after, heq⟩ := exists_eq_of_mem_lines hl
    rw [Style.Unescaped, String.toList_ofList]
    intro hmem
    refine hsource ?_
    rw [heq]
    exact List.mem_append_left _ (List.mem_append_right _ hmem)

theorem unescaped_display (h : Style.Unescaped span.file) : Style.Unescaped span.display := by
  have hcolon : Style.Unescaped ":" := by decide
  have hline := unescaped_append (unescaped_append h hcolon) (unescaped_toString span.line)
  unfold Span.display
  split
  · exact h
  · split
    · exact hline
    · exact unescaped_append (unescaped_append hline hcolon) (unescaped_toString span.column)

theorem shows_painted (s : Severity) : Shows (s.painted true) (s.painted false) :=
  shows_paint _ (by cases s <;> decide)

/-- A line that starts with a painted mark. -/
theorem shows_marked (style : Style) {mark rest rest' : String} (hmark : Style.Unescaped mark)
    (h : Shows rest rest') : Shows (" " ++ style.paint true mark ++ " " ++ rest ++ "\n")
      (" " ++ style.paint false mark ++ " " ++ rest' ++ "\n") := by
  have hblank : Shows " " " " := Unescaped.shows (by decide)
  have hfeed : Shows "\n" "\n" := Unescaped.shows (by decide)
  exact (((hblank.append (shows_paint style hmark)).append hblank).append h).append hfeed

theorem shows_placeLine (h : Style.Unescaped span.file) :
    Shows (placeLine true span) (placeLine false span) := by
  unfold placeLine
  split
  · exact shows_marked _ (by decide) (unescaped_display h).shows
  · exact .empty

/-- The carets stand behind the same number of blanks: it is counted in the line, not in what is
painted. -/
theorem shows_snippet (hsource : Style.Unescaped source) :
    Shows ((snippet? true source span).getD "") ((snippet? false source span).getD "") := by
  unfold snippet?
  cases hline : sourceLine? source span with
  | none => exact .empty
  | some line =>
    have hblank : Shows " " " " := Unescaped.shows (by decide)
    have hfeed : Shows "\n" "\n" := Unescaped.shows (by decide)
    have hedge := shows_paint (.colored .cyan)
      (unescaped_fill (numberWidth span.line + 1) (c := ' ') (by decide))
    have hnumber := shows_paint (.strongIn .cyan)
      (unescaped_alignRight (numberWidth span.line) span.line)
    have hbar := shows_paint (.strongIn .cyan) (s := "|") (by decide)
    have hcarets := shows_paint (.strongIn .red)
      (unescaped_fill (underline span line).2 (c := '^') (by decide))
    have hstart := (unescaped_fill (underline span line).1 (c := ' ') (by decide)).shows
    have hshown := (unescaped_sourceLine hsource hline).shows
    have htop := (hblank.append hedge).append hfeed
    have hrow := ((((((htop.append hblank).append hnumber).append hblank).append hbar).append
      hblank).append hshown).append hfeed
    exact (((((hrow.append hblank).append hedge).append hblank).append hstart).append
      hcarets).append hfeed

theorem shows_noteLine {note : String} (h : Style.Unescaped note) :
    Shows (noteLine true note) (noteLine false note) :=
  shows_marked _ (by decide) (shows_paint _ h)

theorem shows_helpLine {help : String} (h : Style.Unescaped help) :
    Shows (helpLine true help) (helpLine false help) := shows_marked _ (by decide) h.shows

/-- **A diagnostic in colours shows what it is without them.** -/
theorem shows_format (hd : d.Unescaped) (hsource : Style.Unescaped source) :
    Shows (d.format true source) (d.format false source) := by
  have hhelp : Shows ((d.help.map (helpLine true)).getD "")
      ((d.help.map (helpLine false)).getD "") := by
    cases hsome : d.help with
    | none => exact .empty
    | some help => exact shows_helpLine (hd.help help hsome)
  have hfirst : Shows (d.severity.painted true ++ ": " ++ Style.strong.paint true d.message ++ "\n")
      (d.severity.painted false ++ ": " ++ Style.strong.paint false d.message ++ "\n") :=
    (((shows_painted d.severity).append (Unescaped.shows (by decide))).append
      (shows_paint _ hd.message)).append (Unescaped.shows (by decide))
  exact (((hfirst.append (shows_placeLine hd.file)).append (shows_snippet hsource)).append
    (.join fun note hnote => shows_noteLine (hd.notes note hnote))).append hhelp

end Diagnostic

namespace Report

/-- **Colours change nothing but colours.** Without its style sequences, a diagnostic that is
printed in colours is what is printed without them, and so is a report, whatever diagnostics it
holds. -/
theorem plain_format_render {source : String} (hsource : Style.Unescaped source) :
    (∀ d : Diagnostic, d.Unescaped →
      Style.plain (d.format true source).toList = (d.format false source).toList) ∧
    ∀ r : Report, (∀ d ∈ r.diagnostics, d.Unescaped) →
      Style.plain (r.render true source).toList = (r.render false source).toList := by
  refine ⟨fun d hd => (Diagnostic.shows_format hd hsource).plain_eq, fun r hr => ?_⟩
  have hfeed : Style.Unescaped "\n" := by decide
  exact (Style.Shows.intercalate hfeed fun d hd =>
    Diagnostic.shows_format (hr d hd) hsource).plain_eq

/-- A warning about a column with an empty note and advice, and an error about a line with nothing
on it. -/
def twoSnippets : Report :=
  ⟨[⟨.warning, "unused `x`", ⟨"demo.c", 1, 5, 1⟩, ["", "since it is static"], some "remove it"⟩,
    .plain .error "" (.wholeLine "demo.c" 2)], 1, 1⟩

/-- Both show the same in colours, although there are more bytes. -/
theorem plain_format_render_twoSnippets :
    Style.Unescaped "int x;\n\n" ∧ (∀ d ∈ twoSnippets.diagnostics, d.Unescaped) ∧
    (twoSnippets.render false "int x;\n\n").utf8ByteSize <
      (twoSnippets.render true "int x;\n\n").utf8ByteSize ∧
    (∀ d ∈ twoSnippets.diagnostics, Style.plain (d.format true "int x;\n\n").toList =
      (d.format false "int x;\n\n").toList) ∧
    Style.plain (twoSnippets.render true "int x;\n\n").toList =
      (twoSnippets.render false "int x;\n\n").toList := by
  have hsource : Style.Unescaped "int x;\n\n" := by decide
  have hparts : ∀ d ∈ twoSnippets.diagnostics, d.Unescaped := by
    have hall : ∀ d ∈ twoSnippets.diagnostics, '\x1b' ∉ d.message.toList ∧
        '\x1b' ∉ d.span.file.toList ∧ (∀ note ∈ d.notes, '\x1b' ∉ note.toList) ∧
        ∀ help ∈ d.help, '\x1b' ∉ help.toList := by decide
    intro d hd
    obtain ⟨hmessage, hfile, hnotes, hhelp⟩ := hall d hd
    exact ⟨hmessage, hfile, hnotes, hhelp⟩
  obtain ⟨hformat, hrender⟩ := plain_format_render hsource
  exact ⟨hsource, hparts, by decide +kernel, fun d hd => hformat d (hparts d hd),
    hrender twoSnippets hparts⟩

end Report

end LiveC
