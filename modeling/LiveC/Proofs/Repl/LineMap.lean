import LiveC.Proofs.Compiler.Texts
import LiveC.Proofs.Diagnostic.Output
import LiveC.Proofs.Diagnostic.Snippet
import LiveC.Proofs.Repl.History
import LiveC.Proofs.Repl.Layout
import LiveC.Proofs.Session.Building
import Mathlib.Data.List.Induction
/-!
# Messages about an interactive session

Every input of a session has a label of its own, and what is kept of it does not end in a line feed
(`Numbered`), whatever the compiler makes of the inputs. So the line map of the next unit is exact,
and a label names one fragment (`Code.Mapped`). When that unit does not compile, an error at a line
that came from a fragment is reported at that fragment's own line, with the text of that line
(`Code.Reported`). `play_lineMap` says so of every session that was played some inputs.

An error whose text is blank is the exception: its message ends with the announcement of the error,
and that is not recognized once the blank at its end is gone. So it is told as a text without a
place (`Code.Reported.blank`, `blank_error_unplaced`).
-/

namespace LiveC

open Text

variable {σ : Type}

/-! ## Texts of inputs -/

theorem Text.closed_append {r : List Char} {c : Char} (h : c ≠ '\n') : Closed (r ++ [c]) :=
  ⟨r, c, rfl, h⟩

/-- What is left of a text that is not blank does not end in a blank. -/
theorem Text.closed_trimEnd {s : List Char} (h : isBlankText (trimEnd s) = false) :
    Closed (trimEnd s) := by
  induction s using List.reverseRecOn with
  | nil => exact absurd h (by decide)
  | append_singleton s c ih =>
    cases hc : isBlank c with
    | true =>
      rw [trimEnd, dropEndWhile_concat_of_pos hc] at h ⊢
      exact ih h
    | false =>
      rw [trimEnd, dropEndWhile_concat_of_neg hc]
      refine closed_append ?_
      rintro rfl
      exact absurd hc (by decide)

theorem Text.closed_trimmedEnd {s : String} (h : isBlankString (trimmedEnd s) = false) :
    Closed (trimmedEnd s).toList := by
  rw [isBlankString] at h
  rw [trimmedEnd, onString, String.toList_ofList] at h ⊢
  exact closed_trimEnd h

theorem Fragment.closed_iff {label text : String} :
    Fragment.Closed ⟨label, text⟩ ↔ Text.Closed text.toList := Iff.rfl

namespace Repl

/-- A statement ends in a semicolon. -/
theorem closed_statementText (line : String) : Closed (statementText line).toList := by
  have hsemicolon : ";".toList = [';'] := by decide
  unfold statementText
  dsimp only
  split
  · next h =>
    rw [endsWith, hsemicolon, List.isSuffixOf_iff_suffix] at h
    obtain ⟨r, hr⟩ := h
    rw [← hr]
    exact closed_append (by decide)
  · rw [String.toList_append, hsemicolon]
    exact closed_append (by decide)

end Repl

/-! ## Labels -/

theorem Fragment.labelOf_injective : Function.Injective Fragment.labelOf := by
  intro n m h
  have hnumeral := congrArg String.toList h
  simp only [labelOf, String.toList_append, List.append_assoc] at hnumeral
  have hdigits := List.append_cancel_right (List.append_cancel_left hnumeral)
  have hvalue := congrArg digitsValue? hdigits
  rwa [digitsValue?_toString, digitsValue?_toString, Option.some.injEq] at hvalue

namespace Repl

/-- The code of a session with a next statement. -/
def nextCode (r : Repl) (statement : String) : Code :=
  (({ r with inputs := r.inputs + 1 } : Repl).addStatement
    ⟨Fragment.labelOf (r.inputs + 1), statement⟩).code

theorem unit_nextCode (r : Repl) (statement : String) :
    (r.nextCode statement).unit = r.nextUnit statement :=
  unit_addStatement _ _

/-- The fragments of a session have the labels of different inputs, and none ends in a line feed. -/
structure Numbered (r : Repl) : Prop where
  closed : ∀ f ∈ r.code.fragments, f.Closed
  labelled : ∀ f ∈ r.code.fragments, ∃ k, k ≤ r.inputs ∧ f.label = Fragment.labelOf k
  nodup : (r.code.fragments.map Fragment.label).Nodup

namespace Numbered

variable {r r' : Repl}

theorem start : Numbered start := ⟨by simp [Repl.start, Code.empty, Code.fragments],
  by simp [Repl.start, Code.empty, Code.fragments],
  by simp [Repl.start, Code.empty, Code.fragments]⟩

/-- Inputs that are not kept use up their labels. -/
theorem of_code_eq (h : Numbered r) (hcode : r'.code = r.code) (hinputs : r.inputs ≤ r'.inputs) :
    Numbered r' where
  closed := by rw [hcode]; exact h.closed
  labelled f hf := by
    rw [hcode] at hf
    obtain ⟨k, hk, hlabel⟩ := h.labelled f hf
    exact ⟨k, hk.trans hinputs, hlabel⟩
  nodup := by rw [hcode]; exact h.nodup

/-- A further fragment with the label of the next input. -/
theorem extend (h : Numbered r) {f : Fragment} (hf : f.Closed)
    (hlabel : f.label = Fragment.labelOf (r.inputs + 1))
    (hcode : r'.code.fragments.Perm (f :: r.code.fragments)) (hinputs : r'.inputs = r.inputs + 1) :
    Numbered r' where
  closed g hg := by
    rcases List.mem_cons.1 (hcode.mem_iff.1 hg) with rfl | hg
    · exact hf
    · exact h.closed g hg
  labelled g hg := by
    rcases List.mem_cons.1 (hcode.mem_iff.1 hg) with rfl | hg
    · exact ⟨_, hinputs.ge, hlabel⟩
    · obtain ⟨k, hk, hlabel⟩ := h.labelled g hg
      exact ⟨k, by omega, hlabel⟩
  nodup := by
    refine (hcode.map Fragment.label).nodup_iff.2 ?_
    rw [List.map_cons, List.nodup_cons]
    refine ⟨fun hmem => ?_, h.nodup⟩
    obtain ⟨g, hg, heq⟩ := List.mem_map.1 hmem
    obtain ⟨k, hk, hk'⟩ := h.labelled g hg
    have hsame : k = r.inputs + 1 := Fragment.labelOf_injective (by rw [← hk', heq, hlabel])
    omega

theorem perm_addStatement (r : Repl) (f : Fragment) :
    (r.addStatement f).code.fragments.Perm (f :: r.code.fragments) := by
  have hfragments : (r.addStatement f).code.fragments = r.code.fragments ++ [f] := by
    simp only [Code.fragments, Repl.addStatement, List.append_assoc]
  rw [hfragments]
  exact List.perm_append_singleton f _

theorem perm_addDeclaration (r : Repl) (f : Fragment) :
    (r.addDeclaration f).code.fragments.Perm (f :: r.code.fragments) := by
  have hfragments : (r.addDeclaration f).code.fragments =
      r.code.declarations ++ f :: r.code.statements := by
    simp only [Code.fragments, Repl.addDeclaration, List.append_assoc, List.singleton_append]
  rw [hfragments]
  exact List.perm_middle

theorem addDeclaration (h : Numbered r) {line : String}
    (hblank : isBlankString (trimmedEnd line) = false) :
    Numbered (({ r with inputs := r.inputs + 1 } : Repl).addDeclaration
      ⟨Fragment.labelOf (r.inputs + 1), trimmedEnd line⟩) :=
  h.extend (f := ⟨Fragment.labelOf (r.inputs + 1), trimmedEnd line⟩)
    (Fragment.closed_iff.2 (closed_trimmedEnd hblank)) rfl
    (perm_addDeclaration { r with inputs := r.inputs + 1 } _) rfl

theorem addStatement (h : Numbered r) (line : String) :
    Numbered (({ r with inputs := r.inputs + 1 } : Repl).addStatement
      ⟨Fragment.labelOf (r.inputs + 1), statementText line⟩) :=
  h.extend (f := ⟨Fragment.labelOf (r.inputs + 1), statementText line⟩)
    (Fragment.closed_iff.2 (closed_statementText line)) rfl
    (perm_addStatement { r with inputs := r.inputs + 1 } _) rfl

variable [Compiler σ]

theorem execute (h : Numbered r) (line : String) (w : World σ) :
    Numbered (Repl.execute ⟨Fragment.labelOf (r.inputs + 1), statementText line⟩
      ({ r with inputs := r.inputs + 1 }, w)).2.1 := by
  rcases execute_cases ⟨Fragment.labelOf (r.inputs + 1), statementText line⟩
    { r with inputs := r.inputs + 1 } w with
    ⟨result, w', cs, hrun, -⟩ | ⟨result, s, w₁, w', cs, hrun, -⟩
  · rw [hrun]
    exact h.of_code_eq rfl (Nat.le_succ _)
  · rw [hrun]
    cases hkept : keepsStatement result with
    | true => exact (h.addStatement line).of_code_eq (by rw [ran, hkept]; rfl) le_rfl
    | false => exact h.of_code_eq (by rw [ran, hkept]; rfl) (Nat.le_succ _)

theorem eval (h : Numbered r) (line : String) (w : World σ) :
    Numbered (Repl.eval line (r, w)).2.1 := by
  cases hblank : isBlankString (trimmedEnd line) with
  | true =>
    rw [eval_of_blank hblank]
    exact h
  | false =>
    rcases eval_cases line r w with ⟨result, hrun, -⟩ | hrun | hrun
    · rw [hrun]
      exact h
    · rw [hrun]
      exact h.addDeclaration hblank
    · rw [hrun]
      exact h.execute line w

theorem turn (h : Numbered r) (w : World σ) (i : ReplInput) :
    Numbered (Repl.turn (r, w) i).2.1 := by
  cases i with
  | line text =>
    rw [turn_line_snd]
    exact h.eval text w
  | reset =>
    rw [(turn_reset (r, w)).2]
    exact .start

/-- A session that is played some inputs is numbered. -/
theorem play (h : Numbered r) (w : World σ) (inputs : List ReplInput) :
    Numbered (Repl.play inputs (r, w)).2.1 := by
  induction inputs generalizing r w with
  | nil => exact h
  | cons i is ih => exact ih (h.turn w i) _

end Numbered

end Repl

/-! ## Code whose line map is exact -/

namespace Code

/-- The lines of the code are told apart: no two fragments have the same label, the lines of the
unit are those laid out, and a line is resolved to its origin. -/
structure Mapped (c : Code) : Prop where
  labels : (c.fragments.map Fragment.label).Nodup
  lines : splitAll '\n' c.unit.toList = c.laid.map UnitLine.text ++ [[]]
  resolves : ∀ line column length, 1 ≤ line →
    c.lineMap.resolve? ⟨generatedFile, line, column, length⟩ =
      (c.originAt? line).map fun o => ⟨o.1, o.2, column, length⟩

variable {c : Code}

theorem mapped (hlabels : (c.fragments.map Fragment.label).Nodup)
    (hclosed : ∀ f ∈ c.fragments, f.Closed) : c.Mapped :=
  ⟨hlabels, c.splitAll_unit, fun _ column length h => resolve?_lineMap hclosed h column length⟩

/-- The text of a fragment is found by its label. -/
theorem textOf_label (h : (c.fragments.map Fragment.label).Nodup) {f : Fragment}
    (hf : f ∈ c.fragments) : c.textOf f.label = f.text := by
  have hfind : c.fragments.find? (·.label == f.label) = some f := by
    rw [List.find?_eq_some_iff_append]
    obtain ⟨before, after, hsplit⟩ := List.append_of_mem hf
    refine ⟨beq_self_eq_true _, before, after, hsplit, fun g hg => ?_⟩
    rw [Bool.not_eq_true', beq_eq_false_iff_ne]
    intro heq
    rw [hsplit, List.map_append, List.nodup_append] at h
    exact h.2.2 _ (List.mem_map_of_mem hg) _ (List.mem_map_of_mem List.mem_cons_self) heq
  rw [textOf, ← fragments, hfind]
  rfl

/-- A line that came from a fragment is one of its lines. -/
theorem exists_of_originAt? {line j : Nat} {label : String}
    (h : c.originAt? line = some (label, j)) :
    ∃ f ∈ c.fragments, f.label = label ∧ 1 ≤ j ∧ ∃ indent, j ≤ (f.laid indent).length ∧
      ∀ d ∈ indent, (d == '\n') = false := by
  have hlaid {fs : List Fragment} {indent : List Char} {u : UnitLine}
      (hu : u ∈ fs.flatMap (Fragment.laid indent)) (ho : u.origin = some (label, j)) :
      ∃ f ∈ fs, f.label = label ∧ 1 ≤ j ∧ j ≤ (f.laid indent).length := by
    obtain ⟨f, hf, hu⟩ := List.mem_flatMap.1 hu
    obtain ⟨i, hi, rfl⟩ := List.mem_iff_getElem.1 hu
    have horigin := Fragment.origin_laid indent f i
    rw [List.getElem?_eq_getElem hi, Option.bind_some, if_pos hi, ho, Option.some.injEq,
      Prod.mk.injEq] at horigin
    exact ⟨f, hf, horigin.1.symm, by omega, by omega⟩
  have hinjected {text : String} {u : UnitLine} (hu : u ∈ injected text) : u.origin = none := by
    obtain ⟨l, -, rfl⟩ := List.mem_map.1 hu
    rfl
  obtain ⟨u, hu, ho⟩ := Option.bind_eq_some_iff.1 h
  have hmem := List.mem_of_getElem? hu
  simp only [laid, List.mem_append] at hmem
  rcases hmem with (((hmem | hmem) | hmem) | hmem) | hmem
  · rw [hinjected hmem] at ho
    exact absurd ho (by simp)
  · obtain ⟨f, hf, hlabel, hj, hlength⟩ := hlaid hmem ho
    exact ⟨f, List.mem_append_left _ hf, hlabel, hj, [], hlength, by simp⟩
  · rw [hinjected hmem] at ho
    exact absurd ho (by simp)
  · obtain ⟨f, hf, hlabel, hj, hlength⟩ := hlaid hmem ho
    exact ⟨f, List.mem_append_right _ hf, hlabel, hj, indent.toList, hlength, feed_notMem_indent⟩
  · rw [hinjected hmem] at ho
    exact absurd ho (by simp)

end Code

/-! ## What is reported -/

namespace Report

/-- Advice leaves the message and its place as they are. -/
theorem exists_suggestFor_eq (known : List String) (d : Diagnostic) :
    ∃ notes help, suggestFor known d = { d with notes := notes, help := help } := by
  unfold suggestFor
  split
  · split
    · exact ⟨_, _, rfl⟩
    · exact ⟨_, _, rfl⟩
  · exact ⟨_, _, rfl⟩

end Report

namespace Code

/-- A diagnostic is about an error at a line of a fragment, and shows that line. -/
structure Locates (c : Code) (colors : Bool) (d : Diagnostic) (text label : String) (line : Nat) :
    Prop where
  severity : d.severity = .error
  message : d.message = trimmed text
  span : d.span = .wholeLine label line
  shows : ∃ f ∈ c.fragments, f.label = label ∧ ∃ source, (linesOf f.text)[line - 1]? = some source ∧
    ∃ before after, d.format colors (c.textOf label) =
      before ++ Diagnostic.row colors line source ++ after

/-- What is told about messages of the compiler: one diagnostic for each of them. An error at a line
that came from a fragment is told as one at that fragment's line exactly if its text is not blank.
-/
structure Reported (c : Code) (colors : Bool) (messages : List String) (report : Report)
    (text : String) : Prop where
  shown : text = String.intercalate "\n"
    (report.diagnostics.map fun d => d.format colors (c.textOf d.span.file))
  length : report.diagnostics.length = messages.length
  located : ∀ (i line : Nat) (label : String) (j : Nat) (t : String),
    messages[i]? = some (Diagnostic.errorAt generatedFile line t) →
    1 ≤ line → c.originAt? line = some (label, j) →
    ∃ d, report.diagnostics[i]? = some d ∧
      (c.Locates colors d t label j ↔ isBlankString t = false)
  /-- An error without a text is told as a text that has no place. -/
  blank : ∀ (i line : Nat) (t : String),
    messages[i]? = some (Diagnostic.errorAt generatedFile line t) → isBlankString t = true →
    ∃ d, report.diagnostics[i]? = some d ∧ d.severity = .error ∧ d.span = .unknown ∧
      d.message = "<string>:" ++ toString line ++ ": error:"

variable {c : Code}

/-- A line with an origin has a number of 64 bits, if the unit is not too long. -/
theorem line_lt_of_originAt? (hsize : c.unit.utf8ByteSize ≤ codeLimit) {line : Nat}
    {o : String × Nat} (h : c.originAt? line = some o) : line < UInt64.size := by
  obtain ⟨u, hu, -⟩ := Option.bind_eq_some_iff.1 h
  have hlaid : line - 1 < c.laid.length := (List.getElem?_eq_some_iff.1 hu).1
  have hlines := congrArg List.length c.splitAll_unit
  have hpieces := length_splitAll_le '\n' c.unit.toList
  have hbytes := length_toList_le c.unit
  have hlimit : codeLimit + 2 < UInt64.size := by decide
  rw [List.length_append, List.length_map, List.length_singleton] at hlines
  omega

/-- A line that came from a fragment is one of the lines by which its text is shown. -/
theorem exists_source_of_originAt? (hclosed : ∀ f ∈ c.fragments, f.Closed) {line j : Nat}
    {label : String} (h : c.originAt? line = some (label, j)) :
    1 ≤ j ∧ ∃ f ∈ c.fragments, f.label = label ∧
      ∃ source, (linesOf f.text)[j - 1]? = some source := by
  obtain ⟨f, hf, hlabel, hj, indent, hlength, hindent⟩ := exists_of_originAt? h
  have hpieces : (linesOf f.text).length = (splitAll '\n' f.text.toList).length := by
    rw [linesOf, List.length_map, length_lines (hclosed f hf)]
  have hpos := List.length_pos_iff.2 (splitAll_ne_nil '\n' f.text.toList)
  rw [Fragment.length_laid (hclosed f hf) hindent, Fragment.lineCount] at hlength
  exact ⟨hj, f, hf, hlabel, _, List.getElem?_eq_getElem (by omega)⟩

/-- What is told about a message without a place. -/
theorem getElem?_told_of_unknown (known : List String) {messages : List String} {i : Nat}
    {message : String} {severity : Severity} {text : String}
    (hmessage : messages[i]? = some message)
    (hread : Diagnostic.ofMessage message = .plain severity text .unknown) :
    ∃ notes help, (((Report.empty.addMessages messages).remap c.lineMap).suggest
      known).diagnostics[i]? = some ⟨severity, text, .unknown, notes, help⟩ := by
  obtain ⟨notes, help, hadvice⟩ := Report.exists_suggestFor_eq known
    (.plain severity text .unknown)
  refine ⟨notes, help, ?_⟩
  have hspan : c.lineMap.resolve? .unknown = none := rfl
  simp only [Report.suggest, Report.remap, Report.diagnostics_addMessages, Report.empty,
    List.nil_append, List.getElem?_map, hmessage, Option.map_some, hread, Diagnostic.plain,
    hspan, Option.getD_none]
  exact congrArg some hadvice

/-- What is told about an error at a line that came from a fragment. -/
theorem getElem?_told_of_errorAt (hmapped : c.Mapped) (hsize : c.unit.utf8ByteSize ≤ codeLimit)
    (known : List String) {messages : List String} {i line j : Nat} {label t : String}
    (hmessage : messages[i]? = some (Diagnostic.errorAt generatedFile line t))
    (htext : isBlankString t = false) (hline : 1 ≤ line)
    (horigin : c.originAt? line = some (label, j)) :
    ∃ notes help, (((Report.empty.addMessages messages).remap c.lineMap).suggest
      known).diagnostics[i]? = some ⟨.error, trimmed t, .wholeLine label j, notes, help⟩ := by
  have hread := Diagnostic.ofMessage_errorAt (by decide : ':' ∉ generatedFile.toList) (by decide)
    (line_lt_of_originAt? hsize horigin) htext
  have hspan : c.lineMap.resolve? (.wholeLine generatedFile line) = some (.wholeLine label j) := by
    rw [Span.wholeLine, hmapped.resolves line 0 0 hline, horigin]
    rfl
  obtain ⟨notes, help, hadvice⟩ := Report.exists_suggestFor_eq known
    (.plain .error (trimmed t) (.wholeLine label j))
  refine ⟨notes, help, ?_⟩
  simp only [Report.suggest, Report.remap, Report.diagnostics_addMessages, Report.empty,
    List.nil_append, List.getElem?_map, hmessage, Option.map_some, hread, Diagnostic.plain,
    hspan, Option.getD_some]
  exact congrArg some hadvice

/-- A diagnostic at a line of a fragment shows that line. -/
theorem locates_of_originAt? (hmapped : c.Mapped) (hclosed : ∀ f ∈ c.fragments, f.Closed)
    {line j : Nat} {label : String} (horigin : c.originAt? line = some (label, j)) (t : String)
    (notes : List String) (help : Option String) (colors : Bool) :
    c.Locates colors ⟨.error, trimmed t, .wholeLine label j, notes, help⟩ t label j := by
  obtain ⟨hj, f, hf, hlabel, source, hsource⟩ := exists_source_of_originAt? hclosed horigin
  have hshown : Diagnostic.sourceLine? f.text (.wholeLine label j) = some source := by
    rw [Diagnostic.sourceLine?, Span.wholeLine, if_neg (by simpa using Nat.ne_of_gt hj), hsource]
  obtain ⟨before, after, hformat⟩ := Diagnostic.exists_format_eq
    (d := ⟨.error, trimmed t, .wholeLine label j, notes, help⟩) hshown colors
  refine ⟨rfl, rfl, rfl, f, hf, hlabel, source, hsource, before, after, ?_⟩
  have htext : c.textOf label = f.text := by rw [← hlabel, textOf_label hmapped.labels hf]
  rw [htext]
  exact hformat

theorem reported (hmapped : c.Mapped) (hclosed : ∀ f ∈ c.fragments, f.Closed)
    (hsize : c.unit.utf8ByteSize ≤ codeLimit) (colors : Bool) (messages : List String)
    (known : List String) :
    c.Reported colors messages
      (((Report.empty.addMessages messages).remap c.lineMap).suggest known)
      (c.render colors (((Report.empty.addMessages messages).remap c.lineMap).suggest known)) := by
  have hblank (i line : Nat) (t : String)
      (hmessage : messages[i]? = some (Diagnostic.errorAt generatedFile line t))
      (htext : isBlankString t = true) :=
    getElem?_told_of_unknown (c := c) known hmessage
      (Diagnostic.ofMessage_errorAt_of_blank (by decide : ':' ∉ generatedFile.toList) (by decide)
        htext)
  refine ⟨rfl, ?_, fun i line label j t hmessage hline horigin => ?_,
    fun i line t hmessage htext => ?_⟩
  · simp only [Report.suggest, Report.remap, Report.diagnostics_addMessages, Report.empty,
      List.nil_append, List.length_map]
  · cases htext : isBlankString t with
    | false =>
      obtain ⟨notes, help, hat⟩ :=
        getElem?_told_of_errorAt hmapped hsize known hmessage htext hline horigin
      exact ⟨_, hat, iff_of_true (locates_of_originAt? hmapped hclosed horigin t notes help colors)
        rfl⟩
    | true =>
      obtain ⟨notes, help, hat⟩ := hblank i line t hmessage htext
      refine ⟨_, hat, iff_of_false (fun h => ?_) (by simp)⟩
      -- a place in a fragment has a line, and the unknown place has none
      have hj := (exists_source_of_originAt? hclosed horigin).1
      have hzero : 0 = j := congrArg Span.line h.span
      omega
  · obtain ⟨notes, help, hat⟩ := hblank i line t hmessage htext
    have hfile : generatedFile ++ ":" = "<string>:" := by decide
    exact ⟨_, hat, rfl, rfl, by rw [hfile]⟩

end Code

namespace Repl

variable [Compiler σ]

/-- A statement that does not compile is one whose unit, not too long, was refused by the compiler,
and what is told is about the messages of that refusal. -/
theorem execute_compileFailed {r : Repl} {w : World σ} {statement : String} {report : Report}
    {text : String} (h : (execute ⟨Fragment.labelOf (r.inputs + 1), statement⟩
      ({ r with inputs := r.inputs + 1 }, w)).1 = .ok (.compileFailed report text)) :
    ∃ unitName messages, (r.nextUnit statement).utf8ByteSize ≤ codeLimit ∧
      (Engine.build Code.unitName (InSession.compile (r.nextUnit statement)) w).1 =
        .error (.compilation unitName messages) ∧
      report = ((Report.empty.addMessages messages).remap (r.nextCode statement).lineMap).suggest
        builtins.names ∧
      text = (r.nextCode statement).render (execute ⟨Fragment.labelOf (r.inputs + 1), statement⟩
        ({ r with inputs := r.inputs + 1 }, w)).2.2.colors report := by
  have hunit : ({ r with inputs := r.inputs + 1 } : Repl).nextUnit = r.nextUnit :=
    nextUnit_of_code_eq rfl
  by_cases hsize : codeLimit < (r.nextUnit statement).utf8ByteSize
  · rw [execute_of_long (by rwa [hunit])] at h
    exact absurd h (by simp)
  rcases hb : Engine.build Code.unitName (InSession.compile (r.nextUnit statement)) w with
    ⟨e | s, w₁⟩
  · have hrun := execute_eq_of_error (f := ⟨Fragment.labelOf (r.inputs + 1), statement⟩)
      (r := { r with inputs := r.inputs + 1 }) (by rwa [hunit]) (by rwa [hunit])
    cases e with
    | compilation unitName messages =>
      have hexplained : execute ⟨Fragment.labelOf (r.inputs + 1), statement⟩
          ({ r with inputs := r.inputs + 1 }, w) = explain (r.nextCode statement)
          (Report.empty.addMessages messages) ({ r with inputs := r.inputs + 1 }, w₁) := hrun
      rw [hexplained, explain_eq] at h ⊢
      obtain ⟨rfl, rfl⟩ := EvalOutcome.compileFailed.inj (Except.ok.inj h)
      exact ⟨unitName, messages, Nat.le_of_not_lt hsize, rfl, rfl, rfl⟩
    | _ =>
      rw [hrun] at h
      exact absurd h (by simp [Failure.report?])
  · obtain ⟨result, w', hrun, -, hresult⟩ := execute_of_ok
      (f := ⟨Fragment.labelOf (r.inputs + 1), statement⟩)
      (r := { r with inputs := r.inputs + 1 }) (by rwa [hunit]) (by rwa [hunit])
    rw [hrun] at h
    rcases hresult with ⟨e, rfl⟩ | ⟨x, rfl⟩ <;> simp at h

/-- What a session knows of the lines of its next unit, and tells when that unit does not compile.
-/
structure TellsLines (p : Repl × World σ) (line : String) : Prop where
  mapped : (p.1.nextCode (statementText line)).Mapped
  told : ∀ report text, (eval line p).1 = .ok (.compileFailed report text) →
    ∃ unitName messages, (Engine.build Code.unitName
        (InSession.compile (p.1.nextCode (statementText line)).unit) p.2).1 =
          .error (.compilation unitName messages) ∧
      (p.1.nextCode (statementText line)).Reported (eval line p).2.2.colors messages report text

theorem Numbered.tellsLines {r : Repl} (h : Numbered r) (line : String) (w : World σ) :
    TellsLines (r, w) line := by
  have hclosed : ∀ f ∈ (r.nextCode (statementText line)).fragments, f.Closed :=
    (h.addStatement line).closed
  have hmapped : (r.nextCode (statementText line)).Mapped :=
    Code.mapped (h.addStatement line).nodup hclosed
  refine ⟨hmapped, fun report text heval => ?_⟩
  rcases eval_cases line r w with ⟨result, hrun, hresult⟩ | hrun | hrun
  · rw [hrun] at heval
    rcases hresult with ⟨e, rfl⟩ | rfl <;> simp at heval
  · rw [hrun] at heval
    simp at heval
  · rw [hrun] at heval ⊢
    obtain ⟨unitName, messages, hsize, hbuild, rfl, htext⟩ := execute_compileFailed heval
    rw [unit_nextCode, htext]
    exact ⟨unitName, messages, hbuild,
      Code.reported hmapped hclosed (by rwa [unit_nextCode]) _ messages _⟩

/-- **The line map of an interactive session.** Whatever inputs a new session was played and
whatever the compiler made of them, a line of the unit of any next statement is resolved to the
fragment's line that it came from, and an error that the compiler reports there is told as one at
that line, exactly if its text is not blank. -/
theorem play_lineMap (w : World σ) (inputs : List ReplInput) (line : String) :
    TellsLines (play inputs (start, w)).2 line :=
  (Numbered.start.play w inputs).tellsLines line _

end Repl

/-- A world with the scripted compiler. -/
def scriptedWorld : World Scripted.Library :=
  .start (.start []) (.empty 0) (.start ⟨[]⟩ ⟨[]⟩ []) false

/-- The spans of the diagnostics about a unit that does not compile. -/
def EvalOutcome.spans : EvalOutcome → List Span
  | compileFailed report _ => report.diagnostics.map Diagnostic.span
  | _ => []

/-- What the compiler makes of the unit of a new session with a statement in which an error without
a text is asked for. -/
theorem translate_blankError :
    (Scripted.translate (Repl.start.nextCode (Repl.statementText "x @[error ]")).unit).messages =
        [Diagnostic.errorAt Code.generatedFile 4 ""] ∧
    (Scripted.translate (Repl.start.nextCode (Repl.statementText "x @[error ]")).unit).failed =
      true := by
  rewrite [Scripted.translate, Scripted.outcome, Code.splitAll_unit]
  decide +kernel

/-- An error without a text is told without its place: the line that it names is that of the first
input, and the diagnostic has no line. -/
theorem blank_error_unplaced :
    (Repl.start.nextCode (Repl.statementText "x @[error ]")).originAt? 4 = some ("<input 1>", 1) ∧
    (Engine.build Code.unitName
      (InSession.compile (Repl.start.nextCode (Repl.statementText "x @[error ]")).unit)
        scriptedWorld).1 =
      .error (.compilation Code.unitName [Diagnostic.errorAt Code.generatedFile 4 ""]) ∧
    (Repl.eval "x @[error ]" (.start, scriptedWorld)).1.toOption.map EvalOutcome.spans =
      some [.unknown] := by
  obtain ⟨hmessages, hfailed⟩ := translate_blankError
  have hpassed : hasNul (Repl.start.nextCode (Repl.statementText "x @[error ]")).unit = false :=
    (Code.hasNul_unit _).trans (by decide +kernel)
  have hheard : (Scripted.translator.translate
      (Repl.start.nextCode (Repl.statementText "x @[error ]")).unit).heard =
        [Diagnostic.errorAt Code.generatedFile 4 ""] :=
    (congrArg keptMessages hmessages).trans (by decide +kernel)
  have hbuild := Translator.build_of_failed (T := Scripted.translator) (w := scriptedWorld)
    (.start rfl rfl _ _ _) (.start _ _ _ _) hpassed hfailed Code.unitName
  rw [hheard] at hbuild
  refine ⟨by decide +kernel, hbuild, ?_⟩
  -- the session only hands the failure on to be told
  rcases hb : Engine.build Code.unitName (InSession.compile (Repl.start.nextCode
    (Repl.statementText "x @[error ]")).unit) scriptedWorld with ⟨result, w₁⟩
  rw [hb] at hbuild
  obtain rfl : result = _ := hbuild
  rewrite [Repl.unit_nextCode] at hb
  have hsize : ¬codeLimit < (Repl.start.nextUnit
    (Repl.statementText "x @[error ]")).utf8ByteSize := by decide +kernel
  have htaken : Repl.TakenAs .statement "x @[error ]" := by refine ⟨?_, ?_, ?_⟩ <;> decide +kernel
  have hrun := Repl.execute_eq_of_error
    (f := ⟨Fragment.labelOf (Repl.start.inputs + 1), Repl.statementText "x @[error ]"⟩)
    (r := { Repl.start with inputs := Repl.start.inputs + 1 }) hsize hb
  have htold := (Repl.eval_of_takenAs htaken Repl.start scriptedWorld).trans
    (hrun.trans (Repl.explain_eq _ _ _ _))
  have hspans : (((Report.empty.addMessages [Diagnostic.errorAt Code.generatedFile 4 ""]).remap
      (Repl.start.nextCode (Repl.statementText "x @[error ]")).lineMap).suggest
        builtins.names).diagnostics.map Diagnostic.span = [.unknown] := by decide +kernel
  rewrite [htold]
  exact congrArg some hspans

end LiveC
