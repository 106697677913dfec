import Mathlib.Data.List.DropRight
import Mathlib.Data.List.Forall2
import LiveC.Proofs.Diagnostic.Output
/-!
# What becomes of a report

A report is changed step by step: diagnostics and messages are added, missing names are advised on,
spans are taken back through a line map, and everything is dropped. The numbers of errors and
warnings are kept beside the diagnostics, and after every history they are the numbers of the errors
and warnings among them (`Report.Counted`).

Advice and line maps change every diagnostic in its place and keep what it says (`Advised`,
`Remapped`): advice goes to the missing names that have none yet, and is either a list of known
names or one more note; a line map changes spans alone, and only those that it resolves.
`edited_counted` says all this of every report that some changes lead to.
-/

namespace LiveC

/-! ## Similar names -/

section Similar

variable {κ : Type} {score : String → String → κ} {passes : κ → Bool} {atLeast : κ → κ → Bool}
  {target name : String} {candidates : List String} {limit : Nat}

theorem length_similarNames_le :
    (similarNames score passes atLeast target candidates limit).length ≤ limit := by
  rw [similarNames, List.length_map]
  exact List.length_take_le _ _

/-- A similar name is one of the candidates, and not the target. -/
theorem mem_of_mem_similarNames
    (h : name ∈ similarNames score passes atLeast target candidates limit) :
    name ∈ candidates ∧ name ≠ target := by
  rw [similarNames] at h
  obtain ⟨scored, hscored, rfl⟩ := List.mem_map.1 h
  have hpassing := List.mem_mergeSort.1 (List.mem_of_mem_take hscored)
  obtain ⟨candidate, hcandidate, rfl⟩ := List.mem_map.1 (List.mem_filter.1 hpassing).1
  simpa using hcandidate

end Similar

namespace Diagnostic

open Text

variable {d d' : Diagnostic} {known : List String} {map : LineMap}

/-- A diagnostic about a missing name that nobody has advised on. -/
structure AwaitsAdvice (d : Diagnostic) : Prop where
  help : d.help = none
  message : "undefined symbol ".toList <+: d.message.toList

/-- The name that a diagnostic misses: what its message ends with, without the quotation marks
around it. -/
def Misses (d : Diagnostic) (missing : String) : Prop :=
  ∃ rest, d.message.toList = "undefined symbol ".toList ++ rest ∧ missing.toList =
    (rest.dropWhile (· ∈ ['\'', '"', '\x60'])).rdropWhile (· ∈ ['\'', '"', '\x60'])

/-- What advice by some known names makes of a diagnostic. -/
structure Advised (known : List String) (d d' : Diagnostic) : Prop where
  severity : d'.severity = d.severity
  message : d'.message = d.message
  span : d'.span = d.span
  changed : d' ≠ d ↔ d.AwaitsAdvice
  /-- Some known names, or one more note: never both. -/
  advice : d.AwaitsAdvice → ∃ missing, d.Misses missing ∧
    ((∃ names, 1 ≤ names.length ∧ names.length ≤ 3 ∧ (∀ n ∈ names, n ∈ known ∧ n ≠ missing) ∧
        d'.help = some ("did you mean \x60" ++ String.intercalate "\x60, \x60" names ++ "\x60?") ∧
        d'.notes = d.notes) ∨
      d'.help = none ∧ d'.notes = d.notes ++
        ["\x60" ++ missing ++ "\x60 is not a builtin and no loaded library exports it"])

/-- What a line map makes of a diagnostic. -/
structure Remapped (map : LineMap) (d d' : Diagnostic) : Prop where
  severity : d'.severity = d.severity
  message : d'.message = d.message
  notes : d'.notes = d.notes
  help : d'.help = d.help
  unresolved : map.resolve? d.span = none → d'.span = d.span
  resolved : ∀ span, map.resolve? d.span = some span → d'.span = span

/-- A diagnostic is about a missing name if its message starts as the linker's do. -/
theorem undefinedSymbol_eq_none_iff :
    d.undefinedSymbol = none ↔ ¬"undefined symbol ".toList <+: d.message.toList := by
  rw [undefinedSymbol, Option.map_eq_none_iff, stripStart?_eq_none_iff, undefinedStart]

theorem misses_of_undefinedSymbol {missing : String} (h : d.undefinedSymbol = some missing) :
    d.Misses missing := by
  have hquote : isQuote = fun c => decide (c ∈ ['\'', '"', '\x60']) := by
    funext c
    rw [Bool.eq_iff_iff]
    simp [isQuote, or_assoc]
  obtain ⟨rest, hrest, rfl⟩ := Option.map_eq_some_iff.1 h
  exact ⟨rest, eq_of_stripStart? hrest, by rw [String.toList_ofList, hquote]; rfl⟩

/-- A diagnostic that waits for no advice is left alone. -/
theorem Advised.of_settled (h : ¬d.AwaitsAdvice) : Advised known d d where
  severity := rfl
  message := rfl
  span := rfl
  changed := iff_of_false (fun hne => hne rfl) h
  advice hawaits := absurd hawaits h

/-- **Advice** goes to the missing names that have none yet. -/
theorem advised_suggestFor (known : List String) (d : Diagnostic) :
    Advised known d (Report.suggestFor known d) := by
  cases hhelp : d.help with
  | some help =>
    have hkept : Report.suggestFor known d = d := by simp only [Report.suggestFor, hhelp]
    rw [hkept]
    exact .of_settled fun h => absurd (hhelp.symm.trans h.help) (by simp)
  | none =>
    cases hmissing : d.undefinedSymbol with
    | none =>
      have hkept : Report.suggestFor known d = d := by
        simp only [Report.suggestFor, hhelp, hmissing]
      rw [hkept]
      exact .of_settled fun h => undefinedSymbol_eq_none_iff.1 hmissing h.message
    | some missing =>
      have hstart : "undefined symbol ".toList <+: d.message.toList := by
        by_contra h
        rw [undefinedSymbol_eq_none_iff.2 h] at hmissing
        exact absurd hmissing (by simp)
      have hawaits : d.AwaitsAdvice := ⟨hhelp, hstart⟩
      cases hlike : likeNames missing known Report.suggestionThreshold Report.suggestionLimit with
      | nil =>
        have hnoted : Report.suggestFor known d =
            { d with notes := d.notes ++ [Report.missingNote missing] } := by
          simp only [Report.suggestFor, hhelp, hmissing, hlike]
        rw [hnoted]
        refine ⟨rfl, rfl, rfl, iff_of_true (fun heq => ?_) hawaits,
          fun _ => ⟨missing, misses_of_undefinedSymbol hmissing, .inr ⟨hhelp, rfl⟩⟩⟩
        have hnotes := congrArg (fun d => d.notes.length) heq
        simp at hnotes
      | cons name names =>
        have hhelped : Report.suggestFor known d =
            { d with help := some (Report.likeHelp (name :: names)) } := by
          simp only [Report.suggestFor, hhelp, hmissing, hlike]
        have hlimit : (name :: names).length ≤ 3 := hlike ▸ length_similarNames_le
        rw [hhelped]
        refine ⟨rfl, rfl, rfl, iff_of_true (fun heq => ?_) hawaits,
          fun _ => ⟨missing, misses_of_undefinedSymbol hmissing,
            .inl ⟨name :: names, by simp, hlimit, fun n hn => ?_, rfl, rfl⟩⟩⟩
        · have hsome := congrArg Diagnostic.help heq
          rw [hhelp] at hsome
          exact absurd hsome (by simp)
        · rw [← hlike] at hn
          exact mem_of_mem_similarNames hn

/-- A span that the map does not resolve is kept. -/
theorem remapped_getD (map : LineMap) (d : Diagnostic) :
    Remapped map d { d with span := (map.resolve? d.span).getD d.span } where
  severity := rfl
  message := rfl
  notes := rfl
  help := rfl
  unresolved h := by rw [h, Option.getD_none]
  resolved span h := by rw [h, Option.getD_some]

end Diagnostic

/-- A change of a report. -/
inductive ReportEdit
  | emit (d : Diagnostic)
  | addMessages (messages : List String)
  | suggest (known : List String)
  | remap (map : LineMap)
  | clear

namespace Report

open Diagnostic

variable {r r' : Report}

/-- A report after a change. -/
def edit (r : Report) : ReportEdit → Report
  | .emit d => r.emit d
  | .addMessages messages => r.addMessages messages
  | .suggest known => r.suggest known
  | .remap map => r.remap map
  | .clear => empty

/-- The report that some changes lead to. -/
def edited (edits : List ReportEdit) : Report := edits.foldl edit empty

theorem countP_severity_of_forall₂ {ds ds' : List Diagnostic} {s : Severity}
    (h : List.Forall₂ (fun d d' => d'.severity = d.severity) ds ds') :
    ds'.countP (·.severity = s) = ds.countP (·.severity = s) := by
  induction h with
  | nil => rfl
  | cons hd _ ih => rw [List.countP_cons, List.countP_cons, ih, hd]

/-- The numbers of errors and warnings are those of the diagnostics. -/
structure Counted (r : Report) : Prop where
  errors : r.errors = r.diagnostics.countP (·.severity = .error)
  warnings : r.warnings = r.diagnostics.countP (·.severity = .warning)

theorem counted_empty : empty.Counted := ⟨rfl, rfl⟩

namespace Counted

theorem emit (h : r.Counted) (d : Diagnostic) : (r.emit d).Counted where
  errors := by
    rw [Report.emit, List.countP_append, List.countP_singleton, ← h.errors]
    by_cases hd : d.severity = .error <;> simp [hd]
  warnings := by
    rw [Report.emit, List.countP_append, List.countP_singleton, ← h.warnings]
    by_cases hd : d.severity = .warning <;> simp [hd]

theorem addMessages (h : r.Counted) (messages : List String) :
    (r.addMessages messages).Counted := by
  induction messages generalizing r with
  | nil => exact h
  | cons m messages ih => exact ih (h.emit (.ofMessage m))

/-- A change of the diagnostics in their places that leaves their severities alone. -/
theorem of_forall₂ (h : r.Counted) (herrors : r'.errors = r.errors)
    (hwarnings : r'.warnings = r.warnings)
    (hsame : List.Forall₂ (fun d d' => d'.severity = d.severity) r.diagnostics r'.diagnostics) :
    r'.Counted where
  errors := by rw [herrors, h.errors, countP_severity_of_forall₂ hsame]
  warnings := by rw [hwarnings, h.warnings, countP_severity_of_forall₂ hsame]

end Counted

theorem forall₂_suggest (r : Report) (known : List String) :
    List.Forall₂ (Advised known) r.diagnostics (r.suggest known).diagnostics := by
  rw [suggest, List.forall₂_map_right_iff, List.forall₂_same]
  exact fun d _ => advised_suggestFor known d

theorem forall₂_remap (r : Report) (map : LineMap) :
    List.Forall₂ (Remapped map) r.diagnostics (r.remap map).diagnostics := by
  rw [remap, List.forall₂_map_right_iff, List.forall₂_same]
  exact fun d _ => remapped_getD map d

/-- One change keeps the numbers. -/
theorem Counted.edit (h : r.Counted) (e : ReportEdit) : (r.edit e).Counted := by
  cases e with
  | emit d => exact h.emit d
  | addMessages messages => exact h.addMessages messages
  | suggest known =>
    exact h.of_forall₂ rfl rfl ((forall₂_suggest r known).imp fun _ _ hd => hd.severity)
  | remap map => exact h.of_forall₂ rfl rfl ((forall₂_remap r map).imp fun _ _ hd => hd.severity)
  | clear => exact counted_empty

/-- All changes keep the numbers. -/
theorem counted_edited (edits : List ReportEdit) : (edited edits).Counted := by
  have hfold : ∀ r : Report, r.Counted → (edits.foldl Report.edit r).Counted := by
    induction edits with
    | nil => exact fun r h => h
    | cons e edits ih => exact fun r h => ih (r.edit e) (h.edit e)
  exact hfold empty counted_empty

theorem isEmpty_iff : r.isEmpty = true ↔ r.diagnostics = [] := List.isEmpty_iff

/-- There are errors exactly if a diagnostic is one. -/
theorem Counted.hasErrors_iff (h : r.Counted) :
    r.hasErrors = true ↔ ∃ d ∈ r.diagnostics, d.severity = .error := by
  rw [hasErrors, decide_eq_true_eq, h.errors, List.countP_pos_iff]
  simp

/-- **A report keeps count of its diagnostics** through every history of changes. Advice and line
maps keep the diagnostics in their places, and change of them what `Advised` and `Remapped` say. -/
theorem edited_counted (edits : List ReportEdit) :
    ((edited edits).errors = (edited edits).diagnostics.countP (·.severity = .error) ∧
      (edited edits).warnings = (edited edits).diagnostics.countP (·.severity = .warning)) ∧
    ((edited edits).isEmpty = true ↔ (edited edits).diagnostics = []) ∧
    ((edited edits).hasErrors = true ↔ ∃ d ∈ (edited edits).diagnostics, d.severity = .error) ∧
    (∀ known, List.Forall₂ (Advised known) (edited edits).diagnostics
      ((edited edits).suggest known).diagnostics) ∧
    ∀ map, List.Forall₂ (Remapped map) (edited edits).diagnostics
      ((edited edits).remap map).diagnostics := by
  have hcounted := counted_edited edits
  exact ⟨⟨hcounted.errors, hcounted.warnings⟩, isEmpty_iff, hcounted.hasErrors_iff,
    forall₂_suggest _, forall₂_remap _⟩

end Report

end LiveC
