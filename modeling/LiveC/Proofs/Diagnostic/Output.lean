import LiveC.Failure
import LiveC.Proofs.Diagnostic.Message
import LiveC.Proofs.Lists
import LiveC.Proofs.Text.Lines
/-!
# Messages and lines of a compiler's output

A failed compilation carries messages. A message may have several lines, yet `Report.addMessages`
reads one diagnostic from it, while `Diagnostic.ofOutput` reads one from every line that is not
blank. When no message is blank, both give the same diagnostics exactly when every single message is
read alike both ways (`addMessages_eq_ofOutput_iff`), as is a message of one line. An error in a
line of a message is reported exactly when the message does not begin as a link of an include chain
does (`severity_ofMessage_eq_error_iff`): such a link takes the whole message.
-/

namespace LiveC

namespace Diagnostic

open Text

variable {m : String}

/-! ## One message -/

/-- The blanks at the end of a message make no difference. -/
theorem ofMessage_congr {m n : String} (h : trimEnd m.toList = trimEnd n.toList) :
    ofMessage m = ofMessage n := by
  rw [ofMessage, ofMessage, h]

/-- What an output says, by the pieces between its line feeds. -/
theorem ofOutput_eq (s : String) : ofOutput s =
    ((splitAll '\n' s.toList).filter (!isBlankText ·)).map fun p =>
      ofMessage (String.ofList p) := by
  have hmessage : (fun p => ofMessage (String.ofList p)) =
      (fun p => ofMessage (String.ofList p)) ∘ trimEnd := by
    funext p
    refine ofMessage_congr ?_
    rw [String.toList_ofList, String.toList_ofList, trimEnd_trimEnd]
  have hfilter : ((linesOf s).filter (!isBlankString ·)) =
      ((lines s.toList).filter (!isBlankText ·)).map String.ofList := by
    rw [linesOf, List.filter_map]
    congr 1
    refine List.filter_congr fun p _ => ?_
    rw [Function.comp_apply, isBlankString, String.toList_ofList]
  calc ofOutput s
    _ = ((lines s.toList).filter (!isBlankText ·)).map fun p => ofMessage (String.ofList p) := by
      rw [ofOutput, hfilter, List.map_map, Function.comp_def]
    _ = (((lines s.toList).filter (!isBlankText ·)).map trimEnd).map
          fun p => ofMessage (String.ofList p) := by rw [List.map_map, ← hmessage]
    _ = _ := by rw [lines, filter_linesOfPieces, List.map_map, ← hmessage]

/-- What an output says before a line feed and what it says after it. -/
theorem ofOutput_append (s t : String) : ofOutput (s ++ "\n" ++ t) = ofOutput s ++ ofOutput t := by
  have hfeed : "\n".toList = ['\n'] := by decide
  have hpieces : splitAll '\n' (s ++ "\n" ++ t).toList =
      splitAll '\n' s.toList ++ splitAll '\n' t.toList := by
    rw [String.toList_append, String.toList_append, hfeed, List.append_assoc,
      List.singleton_append, splitAll_append_cons (by decide)]
  rw [ofOutput_eq, hpieces, List.filter_append, List.map_append, ← ofOutput_eq, ← ofOutput_eq]

/-- What several messages say, put on lines of their own, is what each of them says. -/
theorem ofOutput_intercalate (messages : List String) :
    ofOutput (String.intercalate "\n" messages) = messages.flatMap ofOutput := by
  induction messages with
  | nil => decide
  | cons m messages ih =>
    cases messages with
    | nil => simp
    | cons m' messages =>
      rw [String.intercalate_cons_cons, ofOutput_append, ih]
      rfl

theorem ofOutput_ne_nil (h : isBlankString m = false) : ofOutput m ≠ [] := by
  obtain ⟨p, hp, hblank⟩ := exists_mem_splitAll_of_not_isBlankText h
  rw [ofOutput_eq]
  exact List.ne_nil_of_mem (List.mem_map_of_mem (List.mem_filter.2 ⟨hp, by simp [hblank]⟩))

/-- A message of one line says the same as a message and as an output. -/
theorem ofOutput_eq_singleton (h : isBlankString m = false) (hline : '\n' ∉ (trimmedEnd m).toList) :
    ofOutput m = [ofMessage m] := by
  rw [trimmedEnd, onString, String.toList_ofList] at hline
  obtain ⟨t, hm, ht⟩ := exists_eq_trimEnd_append m.toList
  obtain ⟨p, ps, hps⟩ := List.exists_cons_of_ne_nil (splitAll_ne_nil '\n' t)
  have hpieces : splitAll '\n' m.toList = (trimEnd m.toList ++ p) :: ps := by
    have hpass : ∀ c ∈ trimEnd m.toList, (c == '\n') = false := by
      intro c hc
      rw [beq_eq_false_iff_ne]
      rintro rfl
      exact hline hc
    rw [← splitAll_append hpass hps, ← hm]
  -- what follows the one line is blank
  have hrest : ∀ q ∈ p :: ps, isBlankText q = true := by
    intro q hq
    obtain ⟨l, r, hlr⟩ := exists_intercalate_eq_of_mem (hps ▸ hq) '\n'
    rw [intercalate_splitAll] at hlr
    rw [hlr, isBlankText_append, isBlankText_append] at ht
    simp only [Bool.and_eq_true] at ht
    exact ht.1.2
  have hfirst : isBlankText (trimEnd m.toList ++ p) = false := by
    rw [isBlankString, hm, isBlankText_append, ht, Bool.and_true] at h
    rw [isBlankText_append, h, Bool.false_and]
  have hsame : ofMessage (String.ofList (trimEnd m.toList ++ p)) = ofMessage m := by
    refine ofMessage_congr ?_
    rw [String.toList_ofList, trimEnd_append_of_isBlankText (hrest p (by simp)), trimEnd_trimEnd]
  have hnone : ps.filter (!isBlankText ·) = [] := by
    rw [List.filter_eq_nil_iff]
    intro q hq
    simp [hrest q (List.mem_cons_of_mem p hq)]
  rw [ofOutput_eq, hpieces, List.filter_cons, hfirst, hnone, if_pos (by rfl), List.map_cons, hsame,
    List.map_nil]

/-- There is a diagnostic for every line that is not blank. -/
theorem length_ofOutput (s : String) :
    (ofOutput s).length = (linesOf s).countP (!isBlankString ·) := by
  rw [ofOutput, List.length_map, List.countP_eq_length_filter]

/-- The severity of what an include chain says. -/
theorem severity_of_ofInclude? {text : List Char} {d : Diagnostic} (h : ofInclude? text = some d) :
    d.severity = .note := by
  obtain ⟨location, _, rfl⟩ := Option.map_eq_some_iff.1 h
  rfl

theorem ofInclude?_eq_none_iff {text : List Char} :
    ofInclude? text = none ↔ ¬includeStart.toList <+: text := by
  rw [ofInclude?, Option.map_eq_none_iff, stripStart?_eq_none_iff]

/-- **An error in a line of a message** is reported exactly when the message does not begin as a
link of an include chain does. -/
theorem severity_ofMessage_eq_error_iff {file text : String} {line : Nat}
    (htext : isBlankString text = false) (h : errorAt file line text ∈ linesOf m) :
    (ofMessage m).severity = .error ↔ startsWith (trimmedEnd m) includeStart = false := by
  obtain ⟨p, hp, hline⟩ := List.mem_map.1 h
  obtain ⟨l, r, hm⟩ := exists_eq_of_mem_lines hp
  have hlist : p =
      (file.toList ++ ':' :: (toString line).toList) ++ (marker .error ++ text.toList) := by
    rw [← toList_errorAt, ← hline, String.toList_ofList]
  have hrest : isBlankText (text.toList ++ r) = false := by
    rw [isBlankText_append, ← isBlankString, htext, Bool.false_and]
  have htrim : trimEnd m.toList =
      (l ++ (file.toList ++ ':' :: (toString line).toList)) ++ marker .error ++
        trimEnd (text.toList ++ r) := by
    rw [hm, hlist, ← trimEnd_append hrest]
    simp
  have hmarked : ∃ d, ofMarked? (trimEnd m.toList) .error = some d ∧ d.severity = .error := by
    have hfound : (splitOnce? (marker .error) (trimEnd m.toList)).isSome = true :=
      isSome_splitOnceFrom.2 ⟨_, _, htrim.symm⟩
    obtain ⟨parts, hparts⟩ := Option.isSome_iff_exists.1 hfound
    exact ⟨_, by rw [ofMarked?, hparts]; rfl, rfl⟩
  obtain ⟨d, hd, hseverity⟩ := hmarked
  rw [startsWith, trimmedEnd, onString, String.toList_ofList, ← Bool.not_eq_true,
    List.isPrefixOf_iff_prefix, ← ofInclude?_eq_none_iff, ofMessage]
  cases hinclude : ofInclude? (trimEnd m.toList) with
  | none => simp [messageSeverities, hd, hseverity]
  | some d' => simp [severity_of_ofInclude? hinclude]

end Diagnostic

namespace Report

open Text Diagnostic

/-! ## All messages -/

theorem diagnostics_addMessages (r : Report) (messages : List String) :
    (r.addMessages messages).diagnostics = r.diagnostics ++ messages.map Diagnostic.ofMessage := by
  induction messages generalizing r with
  | nil => rw [List.map_nil, List.append_nil]; rfl
  | cons m messages ih =>
    have hemit : (r.emit (.ofMessage m)).diagnostics = r.diagnostics ++ [.ofMessage m] := rfl
    have hrest := ih (r.emit (.ofMessage m))
    rw [hemit] at hrest
    rw [addMessages, List.foldl_cons, ← addMessages, hrest, List.map_cons, List.append_assoc]
    rfl

theorem errors_addMessages (r : Report) (messages : List String) :
    (r.addMessages messages).errors =
      r.errors + (messages.map ofMessage).countP (·.severity = .error) := by
  induction messages generalizing r with
  | nil => rfl
  | cons m messages ih =>
    have hemit : (r.emit (ofMessage m)).errors =
        r.errors + if (ofMessage m).severity = .error then 1 else 0 := by
      rw [emit]
      split <;> simp_all
    rw [addMessages, List.foldl_cons, ← addMessages, ih, hemit, List.map_cons, List.countP_cons]
    simp only [decide_eq_true_eq]
    omega

/-- Messages say the same one by one and as one output exactly when each of them does. -/
theorem addMessages_eq_ofOutput_iff {messages : List String}
    (h : ∀ m ∈ messages, isBlankString m = false) :
    (empty.addMessages messages).diagnostics = ofOutput (String.intercalate "\n" messages) ↔
      ∀ m ∈ messages, ofOutput m = [ofMessage m] := by
  rw [diagnostics_addMessages, ofOutput_intercalate]
  exact map_eq_flatMap_iff fun m hm => ofOutput_ne_nil (h m hm)

theorem hasErrors_addMessages_iff (messages : List String) :
    (empty.addMessages messages).hasErrors = true ↔
      ∃ m ∈ messages, (ofMessage m).severity = .error := by
  rw [hasErrors, decide_eq_true_eq, errors_addMessages, empty, Nat.zero_add, List.countP_pos_iff]
  simp

end Report

namespace Failure

open Text Diagnostic

/-- **What a failed compilation reports.** When none of the compiler's messages is blank, the report
holds what the messages say as one output exactly when every message by itself is read as one
diagnostic, as every message of a single line is and no message with two lines that are not blank.
The number of errors is that of the error diagnostics, and an error in a line of a message is among
them unless the message begins as a link of an include chain does. -/
theorem report?_compilation {messages : List String}
    (h : ∀ m ∈ messages, isBlankString m = false) (unitName : String) :
    ∃ r, (Failure.compilation unitName messages).report? = some r ∧
      (r.diagnostics = ofOutput (String.intercalate "\n" messages) ↔
        ∀ m ∈ messages, ofOutput m = [ofMessage m]) ∧
      (∀ m ∈ messages, '\n' ∉ (trimmedEnd m).toList → ofOutput m = [ofMessage m]) ∧
      (∀ m ∈ messages, ofOutput m = [ofMessage m] →
        (linesOf m).countP (!isBlankString ·) = 1) ∧
      r.errors = r.diagnostics.countP (·.severity = .error) ∧
      (r.hasErrors = true ↔ ∃ m ∈ messages, (ofMessage m).severity = .error) ∧
      ∀ m ∈ messages, ∀ file line text, isBlankString text = false →
        errorAt file line text ∈ linesOf m →
          ((ofMessage m).severity = .error ↔ startsWith (trimmedEnd m) includeStart = false) := by
  refine ⟨Report.empty.addMessages messages, rfl, Report.addMessages_eq_ofOutput_iff h,
    fun m hm => ofOutput_eq_singleton (h m hm), fun m _ hone => ?_, ?_,
    Report.hasErrors_addMessages_iff messages,
    fun m _ file line text htext hline => severity_ofMessage_eq_error_iff htext hline⟩
  · rw [← length_ofOutput, hone, List.length_singleton]
  · rw [Report.errors_addMessages, Report.diagnostics_addMessages]
    simp [Report.empty]

/-- Two messages of one line, the first of them a link of an include chain. -/
theorem report?_compilation_includeChain :
    (∀ m ∈ ["In file included from a.h:1:", "b.c:2: error: x"], isBlankString m = false) ∧
      ∃ r, (Failure.compilation "b.c" ["In file included from a.h:1:", "b.c:2: error: x"]).report? =
          some r ∧ r.hasErrors = true ∧
        r.diagnostics = ofOutput "In file included from a.h:1:\nb.c:2: error: x" := by
  have hblank : ∀ m ∈ ["In file included from a.h:1:", "b.c:2: error: x"],
      isBlankString m = false := by decide +kernel
  obtain ⟨r, hr, hall, hsingle, -, -, herrors, -⟩ := report?_compilation hblank "b.c"
  refine ⟨hblank, r, hr, herrors.2 ⟨"b.c:2: error: x", by simp, by decide +kernel⟩, ?_⟩
  have hjoin : String.intercalate "\n" ["In file included from a.h:1:", "b.c:2: error: x"] =
      "In file included from a.h:1:\nb.c:2: error: x" := by decide +kernel
  rw [← hjoin, hall]
  exact fun m hm => hsingle m hm (by
    rcases List.mem_pair.1 hm with rfl | rfl <;> decide +kernel)

/-- The same two lines in one message: the error is lost in the note about the include chain. -/
theorem includeChain_hides_error :
    let message := "In file included from a.h:1:\nb.c:2: error: x"
    isBlankString message = false ∧ errorAt "b.c" 2 "x" ∈ linesOf message ∧
      ∃ r, (Failure.compilation "b.c" [message]).report? = some r ∧
        r.hasErrors = false ∧ r.errors = 0 ∧
        r.diagnostics ≠ ofOutput (String.intercalate "\n" [message]) ∧
        (Diagnostic.plain .error "x" (.wholeLine "b.c" 2)) ∈
          ofOutput (String.intercalate "\n" [message]) := by
  refine ⟨by decide +kernel, by decide +kernel, _, rfl, ?_⟩
  decide +kernel

end Failure

end LiveC
