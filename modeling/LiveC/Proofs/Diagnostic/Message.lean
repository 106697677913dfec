import LiveC.Diagnostic.Message
import LiveC.Proofs.Text.Numeral
import LiveC.Proofs.Text.Search
import LiveC.Proofs.Text.Trim
import Mathlib.Data.List.TakeDrop
/-!
# Reading a compiler's message back

`errorAt` is the message of a compiler about an error at a line of a file. `ofMessage_errorAt` says
what diagnostic is read from it: an error with that text at that line, for every text that is not
blank. A message with a blank text loses the last blank of the announcement of its severity when the
blanks at its end are dropped, and is read as a text without a place (`ofMessage_errorAt_of_blank`).
-/

namespace LiveC

namespace Text

variable {s t : List Char}

/-- Only the end of a text loses blanks, if it is not blank. -/
theorem trimEnd_append (h : isBlankText t = false) : trimEnd (s ++ t) = s ++ trimEnd t := by
  have hne : (t.reverse.dropWhile isBlank).isEmpty = false := by
    rw [List.isEmpty_eq_false_iff]
    intro hnil
    rw [List.dropWhile_eq_nil_iff] at hnil
    rw [isBlankText, List.all_eq_true.2 fun c hc => hnil c (List.mem_reverse.2 hc)] at h
    exact absurd h (by simp)
  rw [trimEnd, dropEndWhile, List.reverse_append, List.dropWhile_append, hne, if_neg (by simp),
    List.reverse_append, List.reverse_reverse]
  rfl

theorem trim_of_forall (h : ∀ c ∈ s, isBlank c = false) : trim s = s := by
  have hstart : s.dropWhile isBlank = s := by
    cases s with
    | nil => rfl
    | cons c s => exact List.dropWhile_cons_of_neg (by simp [h c (by simp)])
  rw [trim, trimBy, hstart, dropEndWhile_of_forall h]

theorem isBlank_of_isDigit {c : Char} (h : c.isDigit = true) : isBlank c = false := by
  simp only [Char.isDigit, Bool.and_eq_true, decide_eq_true_eq] at h
  simp only [isBlank, blankRanges, Char.toNat, List.any_cons, List.any_nil, Bool.or_false,
    Bool.or_eq_false_iff, Bool.and_eq_false_iff, decide_eq_false_iff_not]
  have hlow : 48 ≤ c.val.toNat := UInt32.le_iff_toNat_le.1 h.1
  have hhigh : c.val.toNat ≤ 57 := UInt32.le_iff_toNat_le.1 h.2
  omega

end Text

namespace Diagnostic

open Text

/-! ## Where a severity is announced -/

variable {s : Severity} {location t : List Char}

theorem marker_eq (s : Severity) : marker s = ':' :: ' ' :: bareMarker s := rfl

theorem isDigit_of_mem_marker {c : Char} (h : c ∈ marker s) : c.isDigit = false := by
  have hall : (marker s).all (!·.isDigit) = true := by cases s <;> decide
  simpa using List.all_eq_true.1 hall c h

theorem marker_ne_nil (s : Severity) : marker s ≠ [] := by simp [marker]

theorem getLast?_marker (s : Severity) : (marker s).getLast? = some ' ' := by cases s <;> decide

/-- No announcement without its last blank holds another one. -/
theorem not_infix_dropLast_marker {v : Severity} (hv : v ∈ messageSeverities) (s : Severity) :
    ¬marker v <:+: (marker s).dropLast := by
  revert v
  cases s <;> decide

/-- An announcement does not reach into the number of a place, or over it. -/
theorem infix_of_infix_append_number {n : Nat}
    (h : marker s <:+: location ++ ':' :: (toString n).toList ++ t) :
    marker s <:+: location ∨ marker s <:+: t := by
  obtain ⟨d, ds, hdigits⟩ := List.exists_cons_of_ne_nil (toList_toString_ne_nil n)
  have hdigit : ∀ c ∈ d :: ds, c ∉ marker s := by
    intro c hc hmem
    have hc' : c.isDigit = true := isDigit_of_mem_toString (hdigits ▸ hc)
    rw [isDigit_of_mem_marker hmem] at hc'
    exact absurd hc' (by simp)
  have hparts : location ++ ':' :: (toString n).toList ++ t =
      (location ++ [':']) ++ d :: (ds ++ t) := by
    rw [hdigits]
    simp
  rw [hparts, infix_append_cons_iff (hdigit d (by simp))] at h
  rcases h with hlocation | hlater
  · rcases List.infix_concat_iff.1 hlocation with hlast | hlocation
    · -- an announcement ends in a blank
      obtain ⟨r, hr⟩ := hlast
      have hends := congrArg List.getLast? hr
      rw [List.getLast?_append_of_ne_nil _ (marker_ne_nil s), getLast?_marker,
        List.getLast?_concat] at hends
      exact absurd hends (by decide)
    · exact .inl hlocation
  · exact .inr (infix_of_infix_append (marker_ne_nil s)
      (fun c hc => hdigit c (List.mem_cons_of_mem d hc)) hlater)

/-- The announcement that is read is the first one. -/
theorem ofMarked?_of_first (h : ¬marker s <:+: location ++ (marker s).dropLast) (m : List Char) :
    ofMarked? (location ++ (marker s ++ m)) s =
      some (.plain s (String.ofList (trim m)) (placeOf location)) := by
  have hsplit : splitOnceFrom (marker s) [] (location ++ (marker s ++ m)) = some (location, m) :=
    splitOnceFrom_of_first h [] m
  rw [ofMarked?, splitOnce?, hsplit]
  rfl

/-- Behind a place the announcement that was put there is the first one. -/
theorem not_infix_append_number (h : ¬marker s <:+: location) (n : Nat) :
    ¬marker s <:+: location ++ ':' :: (toString n).toList ++ (marker s).dropLast := by
  intro hearlier
  rcases infix_of_infix_append_number hearlier with hlocation | hshorter
  · exact h hlocation
  · have hlength := hshorter.length_le
    have hpos := List.length_pos_iff.2 (marker_ne_nil s)
    rw [List.length_dropLast] at hlength
    omega

/-! ## Errors at a line of a file -/

/-- What a compiler says about an error at a line of a file. -/
def errorAt (file : String) (line : Nat) (text : String) : String :=
  file ++ ":" ++ toString line ++ ": error: " ++ text

theorem toList_errorAt (file : String) (line : Nat) (text : String) :
    (errorAt file line text).toList =
      (file.toList ++ ':' :: (toString line).toList) ++ (marker .error ++ text.toList) := by
  have hcolon : ":".toList = [':'] := by decide
  have hmarker : ": error: ".toList = marker .error := by decide
  simp only [errorAt, String.toList_append, hcolon, hmarker, List.append_assoc, List.cons_append,
    List.nil_append]

variable {file : String} {line : Nat}

/-- A number behind a colon is read back. -/
theorem numberAtEnd?_append (before : List Char) {n : Nat} (h : n < UInt64.size) :
    numberAtEnd? (before ++ ':' :: (toString n).toList) = some (before, n) := by
  have hcolon : ':' ∉ (toString n).toList := fun hc =>
    absurd (isDigit_of_mem_toString hc) (by decide)
  have htrim : trim (toString n).toList = (toString n).toList :=
    trim_of_forall fun c hc => isBlank_of_isDigit (isDigit_of_mem_toString hc)
  simp only [numberAtEnd?, splitLast?_append hcolon, Option.bind_eq_bind, Option.bind_some, htrim,
    wordOf?_toString h, Option.pure_def]

theorem placeOf_eq_wholeLine (hfile : numberAtEnd? file.toList = none)
    (hline : line < UInt64.size) :
    placeOf (file.toList ++ ':' :: (toString line).toList) = .wholeLine file line := by
  rw [placeOf, numberAtEnd?_append _ hline]
  simp only [hfile, String.ofList_toList]

/-- What starts with an angle bracket is no link of an include chain. -/
theorem ofInclude?_append (hstart : file.toList.head? = some '<') (s : List Char) :
    ofInclude? (file.toList ++ s) = none := by
  obtain ⟨r, hr⟩ := List.head?_eq_some_iff.1 hstart
  have hhead : includeStart.toList = 'I' :: includeStart.toList.tail := by decide
  rw [ofInclude?, stripStart?, hhead, hr, List.cons_append, List.isPrefixOf, if_neg (by simp)]
  rfl

/-- **A located error is read back**, when the file is one whose name stands in angle brackets and
the text is not blank. -/
theorem ofMessage_errorAt (hfile : ':' ∉ file.toList) (hstart : file.toList.head? = some '<')
    (hline : line < UInt64.size) {text : String} (htext : isBlankString text = false) :
    ofMessage (errorAt file line text) =
      .plain .error (trimmed text) (.wholeLine file line) := by
  have htrim : trimEnd (errorAt file line text).toList =
      (file.toList ++ ':' :: (toString line).toList) ++ (marker .error ++ trimEnd text.toList) := by
    rw [toList_errorAt, ← List.append_assoc, trimEnd_append htext, List.append_assoc]
  have hinclude := ofInclude?_append hstart
    (':' :: (toString line).toList ++ (marker .error ++ trimEnd text.toList))
  rw [← List.append_assoc] at hinclude
  have hmarked : ofMarked?
      ((file.toList ++ ':' :: (toString line).toList) ++ (marker .error ++ trimEnd text.toList))
        .error = some (.plain .error (trimmed text) (.wholeLine file line)) := by
    have hmessage : String.ofList (trim (trimEnd text.toList)) = trimmed text := by
      rw [trim, trimEnd, trimBy_dropEndWhile]
      rfl
    have hnumber : numberAtEnd? file.toList = none := by
      simp only [numberAtEnd?, splitLast?_of_notMem hfile, Option.bind_eq_bind, Option.bind_none]
    have hnone : ¬marker .error <:+: file.toList := fun h => hfile (h.subset (by decide))
    rw [ofMarked?_of_first (not_infix_append_number hnone line), hmessage,
      placeOf_eq_wholeLine hnumber hline]
  rw [ofMessage, htrim, messageSeverities]
  simp only [hinclude, List.findSome?_cons, hmarked]
  rfl

/-- **An error without a text is read as a text without a place**: the announcement of its severity
loses its last blank with the blanks at the end of the message. -/
theorem ofMessage_errorAt_of_blank (hfile : ':' ∉ file.toList)
    (hstart : file.toList.head? = some '<') {text : String} (htext : isBlankString text = true) :
    ofMessage (errorAt file line text) =
      .plain .error (file ++ ":" ++ toString line ++ ": error:") .unknown := by
  have hmarker : marker .error = (marker .error).dropLast ++ [' '] := by decide
  have hlast : (marker .error).dropLast = ": error".toList ++ [':'] := by decide
  have htrim : trimEnd (errorAt file line text).toList =
      file.toList ++ ':' :: (toString line).toList ++ (marker .error).dropLast := by
    rw [toList_errorAt, ← List.append_assoc, trimEnd_append_of_isBlankText htext, hmarker,
      ← List.append_assoc, trimEnd, dropEndWhile_concat_of_pos (by decide), List.dropLast_concat,
      hlast, ← List.append_assoc, dropEndWhile_concat_of_neg (by decide)]
  have hinclude := ofInclude?_append hstart
    (':' :: (toString line).toList ++ (marker .error).dropLast)
  rw [← List.append_assoc] at hinclude
  have hmarked (v : Severity) (hv : v ∈ messageSeverities) :
      ofMarked? (file.toList ++ ':' :: (toString line).toList ++ (marker .error).dropLast) v =
        none := by
    rw [ofMarked?, Option.map_eq_none_iff, splitOnce?_eq_none_iff]
    intro h
    rcases infix_of_infix_append_number h with h | h
    · exact hfile (h.subset (by rw [marker_eq]; exact List.mem_cons_self))
    · exact not_infix_dropLast_marker hv .error h
  have hbare (v : Severity) :
      ofBare? (file.toList ++ ':' :: (toString line).toList ++ (marker .error).dropLast) v =
        none := by
    obtain ⟨r, hr⟩ := List.head?_eq_some_iff.1 hstart
    obtain ⟨c, m, hc, hne⟩ : ∃ c m, bareMarker v = c :: m ∧ c ≠ '<' := by
      cases v <;> exact ⟨_, _, rfl, by decide⟩
    rw [ofBare?, stripStart?, hc, hr, List.cons_append, List.cons_append, List.isPrefixOf,
      if_neg (by simp [hne])]
    rfl
  have hwhole : String.ofList
      (file.toList ++ ':' :: (toString line).toList ++ (marker .error).dropLast) =
        file ++ ":" ++ toString line ++ ": error:" := by
    have hcolon : ":".toList = [':'] := by decide
    have hend : ": error:".toList = (marker .error).dropLast := by decide
    refine String.toList_inj.1 ?_
    simp only [String.toList_ofList, String.toList_append, hcolon, hend, List.append_assoc,
      List.cons_append, List.nil_append]
  rw [ofMessage, htrim, hinclude, List.findSome?_eq_none_iff.2 hmarked,
    List.findSome?_eq_none_iff.2 fun v _ => hbare v, hwhole]
  rfl

end Diagnostic

end LiveC
