import LiveC.Proofs.Diagnostic.Output
import LiveC.Proofs.Session.Missing
/-!
# Notes on missing names

`Report.suggest` advises on the missing names that the diagnostics of a report are about
(`Report.Misses`): it says which known names are alike, or in a note that the name is nowhere to be
found (`Report.Denies`). Which names are denied follows from the report and the known names alone
(`Report.denies_suggest_iff`), and it does not matter whether the spans were taken back through a
line map before (`Report.denies_advised_iff`). The linker's message about a readable name is a
diagnostic about that name (`undefinedSymbol_missingMessage`).
-/

namespace LiveC

open Diagnostic Text

namespace Report

/-- There is a diagnostic about a missing name. -/
def Misses (r : Report) (name : String) : Prop :=
  ∃ d ∈ r.diagnostics, d.undefinedSymbol = some name

/-- A note says of a name that it is no builtin and that no library exports it. -/
def Denies (r : Report) (name : String) : Prop := ∃ d ∈ r.diagnostics, missingNote name ∈ d.notes

/-- No diagnostic has a note or advice. -/
def Unadvised (r : Report) : Prop := ∀ d ∈ r.diagnostics, d.notes = [] ∧ d.help = none

/-- A missing name is like no known one. -/
def Unlike (known : List String) (name : String) : Prop :=
  likeNames name known suggestionThreshold suggestionLimit = []

variable {r : Report} {name other : String} {known : List String} {d : Diagnostic}

/-! ## What is denied -/

theorem missingNote_injective (h : missingNote name = missingNote other) : name = other := by
  have hchars := congrArg String.toList h
  rw [missingNote, missingNote, toList_append_append, toList_append_append] at hchars
  exact String.toList_injective (List.append_cancel_left (List.append_cancel_right hchars))

/-- The notes of a diagnostic that had none deny the name that it is about, if that is like no known
one. -/
theorem missingNote_mem_suggestFor (h : d.notes = [] ∧ d.help = none) :
    missingNote name ∈ (suggestFor known d).notes ↔
      d.undefinedSymbol = some name ∧ Unlike known name := by
  obtain ⟨hnotes, hhelp⟩ := h
  cases hmissing : d.undefinedSymbol with
  | none => simp [suggestFor, hhelp, hmissing, hnotes]
  | some missing =>
    cases hlike : likeNames missing known suggestionThreshold suggestionLimit with
    | nil =>
      simp only [suggestFor, hhelp, hmissing, hlike, hnotes, List.nil_append, List.mem_singleton,
        Option.some.injEq]
      constructor
      · intro heq
        obtain rfl := missingNote_injective heq
        exact ⟨rfl, hlike⟩
      · rintro ⟨rfl, -⟩
        rfl
    | cons found others =>
      simp only [suggestFor, hhelp, hmissing, hlike, hnotes, List.not_mem_nil, Option.some.injEq,
        false_iff, not_and]
      rintro rfl hunlike
      rw [Unlike, hlike] at hunlike
      exact absurd hunlike (by simp)

/-- **What the advice denies**: the missing names that are like no known one. -/
theorem denies_suggest_iff (h : r.Unadvised) :
    (r.suggest known).Denies name ↔ r.Misses name ∧ Unlike known name := by
  constructor
  · rintro ⟨d', hd', hnote⟩
    obtain ⟨d, hd, rfl⟩ := List.mem_map.1 hd'
    obtain ⟨hmissing, hunlike⟩ := (missingNote_mem_suggestFor (h d hd)).1 hnote
    exact ⟨⟨d, hd, hmissing⟩, hunlike⟩
  · rintro ⟨⟨d, hd, hmissing⟩, hunlike⟩
    exact ⟨suggestFor known d, List.mem_map_of_mem hd,
      (missingNote_mem_suggestFor (h d hd)).2 ⟨hmissing, hunlike⟩⟩

/-! ## Line maps and messages -/

theorem misses_remap_iff (map : LineMap) : (r.remap map).Misses name ↔ r.Misses name := by
  constructor
  · rintro ⟨d', hd', hmissing⟩
    obtain ⟨d, hd, rfl⟩ := List.mem_map.1 hd'
    exact ⟨d, hd, hmissing⟩
  · rintro ⟨d, hd, hmissing⟩
    exact ⟨_, List.mem_map_of_mem hd, hmissing⟩

theorem Unadvised.remap (h : r.Unadvised) (map : LineMap) : (r.remap map).Unadvised := by
  intro d' hd'
  obtain ⟨d, hd, rfl⟩ := List.mem_map.1 hd'
  exact h d hd

/-- Line maps make no difference to what is denied. -/
theorem denies_advised_iff (h : r.Unadvised) (map : Option LineMap) :
    ((map.elim r r.remap).suggest known).Denies name ↔ r.Misses name ∧ Unlike known name := by
  cases map with
  | none => exact denies_suggest_iff h
  | some map =>
    rw [← misses_remap_iff map]
    exact denies_suggest_iff (h.remap map)

/-- Whatever a message is read as, it is a diagnostic without notes and advice. -/
theorem exists_ofMessage_eq (m : String) :
    ∃ severity message span, ofMessage m = .plain severity message span := by
  rw [ofMessage]
  generalize trimEnd m.toList = text
  cases hinclude : ofInclude? text with
  | some d =>
    obtain ⟨location, -, rfl⟩ := Option.map_eq_some_iff.1 hinclude
    exact ⟨_, _, _, rfl⟩
  | none =>
    cases hmarked : messageSeverities.findSome? (ofMarked? text) with
    | some d =>
      obtain ⟨s, -, hfound⟩ := List.exists_of_findSome?_eq_some hmarked
      obtain ⟨parts, -, rfl⟩ := Option.map_eq_some_iff.1 hfound
      exact ⟨_, _, _, rfl⟩
    | none =>
      cases hbare : messageSeverities.findSome? (ofBare? text) with
      | some d =>
        obtain ⟨s, -, hfound⟩ := List.exists_of_findSome?_eq_some hbare
        obtain ⟨message, -, rfl⟩ := Option.map_eq_some_iff.1 hfound
        exact ⟨_, _, _, rfl⟩
      | none => exact ⟨_, _, _, rfl⟩

theorem unadvised_addMessages (messages : List String) :
    (empty.addMessages messages).Unadvised := by
  intro d hd
  rw [diagnostics_addMessages, empty, List.nil_append] at hd
  obtain ⟨m, -, rfl⟩ := List.mem_map.1 hd
  obtain ⟨severity, message, span, hplain⟩ := exists_ofMessage_eq m
  rw [hplain]
  exact ⟨rfl, rfl⟩

theorem misses_addMessages_iff {messages : List String} :
    (empty.addMessages messages).Misses name ↔
      ∃ m ∈ messages, (ofMessage m).undefinedSymbol = some name := by
  rw [Misses, diagnostics_addMessages, empty, List.nil_append]
  simp

end Report

/-! ## The linker's messages -/

theorem Readable.trimBy_eq {name : String} (h : Readable name) :
    trimBy isQuote name.toList = name.toList := by
  have hnamed := h.named
  rw [missingName?_missingMessage] at hnamed
  split at hnamed
  · exact absurd hnamed (by simp)
  · rw [← Option.some.inj hnamed, String.toList_ofList, Text.trimBy_trimBy]

/-- What the linker says of a name behind the announcement of an error: the name in quotation marks
behind a fixed beginning. -/
def complaint (name : String) : String := "undefined symbol '" ++ name ++ "'"

theorem toList_complaint (name : String) :
    (complaint name).toList = undefinedStart.toList ++ ('\'' :: name.toList ++ ['\'']) := by
  have hstart : "undefined symbol '".toList = undefinedStart.toList ++ ['\''] := by decide
  have htail : "'".toList = ['\''] := by decide
  have happend : (complaint name).toList =
      "undefined symbol '".toList ++ name.toList ++ "'".toList := toList_append_append _ _ _
  rw [happend, hstart, htail]
  simp only [List.append_assoc, List.cons_append, List.nil_append]

/-- Neither end of a complaint is blank. -/
theorem exists_complaint_eq (name : String) :
    ∃ s, (complaint name).toList = 'u' :: s ++ ['\''] := by
  have hfirst : undefinedStart.toList = 'u' :: undefinedStart.toList.tail := by decide
  exact ⟨undefinedStart.toList.tail ++ '\'' :: name.toList, by
    rw [toList_complaint, hfirst]
    simp⟩

theorem toList_missingMessage_eq (name : String) : (missingMessage name).toList =
    "tcc".toList ++ (marker .error ++ (complaint name).toList) := by
  have hmark : "tcc: error: ".toList ++ missingMark.toList ++ [' '] =
      "tcc".toList ++ (marker .error ++ undefinedStart.toList) := by decide
  calc (missingMessage name).toList
    _ = ("tcc: error: ".toList ++ missingMark.toList ++ [' ']) ++
        ('\'' :: name.toList ++ ['\'']) := by
      simp only [toList_missingMessage, List.append_assoc, List.cons_append, List.nil_append]
    _ = "tcc".toList ++ (marker .error ++ (complaint name).toList) := by
      rw [hmark, toList_complaint, List.append_assoc, List.append_assoc]

/-- What the linker says of a name is read as an error without a place. -/
theorem ofMessage_missingMessage (name : String) :
    ofMessage (missingMessage name) = .plain .error (complaint name) .unknown := by
  obtain ⟨s, hends⟩ := exists_complaint_eq name
  have htext := toList_missingMessage_eq name
  have htrim : trim (complaint name).toList = (complaint name).toList := by
    rw [hends, trim, trimBy_of_ends (by decide) (by decide)]
  have hend : trimEnd (missingMessage name).toList = (missingMessage name).toList := by
    rw [htext, hends, ← List.append_assoc, ← List.append_assoc, trimEnd,
      dropEndWhile_concat_of_neg (by decide)]
  have hnolink : ofInclude? (missingMessage name).toList = none := by
    have hlink : includeStart.toList = 'I' :: includeStart.toList.tail := by decide
    have htcc : "tcc".toList = 't' :: "cc".toList := by decide
    rw [ofInclude?_eq_none_iff, htext, hlink, htcc, List.cons_append, List.cons_prefix_cons]
    exact fun h => absurd h.1 (by decide)
  have hmarked : ofMarked? (missingMessage name).toList .error =
      some (.plain .error (complaint name) .unknown) := by
    have hplace : placeOf "tcc".toList = .unknown := by decide
    rw [htext, ofMarked?_of_first (by decide), htrim, hplace, String.ofList_toList]
  rw [ofMessage, hend, messageSeverities]
  simp only [hnolink, List.findSome?_cons, hmarked]
  rfl

theorem undefinedSymbol_missingMessage {name : String} (h : Readable name) :
    (ofMessage (missingMessage name)).undefinedSymbol = some name := by
  rw [ofMessage_missingMessage, undefinedSymbol, plain, toList_complaint, stripStart?_append,
    Option.map_some, trimBy_between (by decide), h.trimBy_eq, String.ofList_toList]

/-- A report on readable names that the linker misses is about these names. -/
theorem Report.misses_missing_iff {names : List String} (h : ∀ n ∈ names, Readable n)
    {name : String} :
    (empty.addMessages (names.map missingMessage)).Misses name ↔ name ∈ names := by
  rw [misses_addMessages_iff]
  constructor
  · rintro ⟨m, hm, hmissing⟩
    obtain ⟨n, hn, rfl⟩ := List.mem_map.1 hm
    rw [undefinedSymbol_missingMessage (h n hn)] at hmissing
    exact Option.some.inj hmissing ▸ hn
  · exact fun hn => ⟨_, List.mem_map_of_mem hn, undefinedSymbol_missingMessage (h name hn)⟩

end LiveC
