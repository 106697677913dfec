import LiveC.Proofs.Diagnostic.Output
/-!
# Reading a printed diagnostic back

`Diagnostic.display` prints a diagnostic on one line, and `Diagnostic.ofMessage` reads such a line.
A diagnostic is `Printable` if nothing in its file and its message could be taken for an
announcement of a severity, for a link of an include chain or for a number of the place. What was
printed of it is read back as it was (`ofMessage_display`), and so is a list of them printed one per
line (`ofOutput_map_display`). The argument is about where the announcement of a severity can stand:
it holds no digit, so it does not reach into or over the numbers of a place
(`infix_of_infix_append_number`), and the first one is the one that was printed
(`ofMarked?_located`).
-/

namespace LiveC.Diagnostic

open Text

/-! ## Diagnostics that can be printed -/

/-- A text in which no severity is announced behind a place. -/
def Unmarked (s : List Char) : Prop := ∀ v ∈ messageSeverities, ¬marker v <:+: s

/-- A message of one line, with no blanks at its ends and no announcement of a severity in it. -/
structure IsMessage (message : String) : Prop where
  ne_empty : message ≠ ""
  trimmed_eq : trimmed message = message
  oneLine : '\n' ∉ message.toList
  unmarked : Unmarked message.toList
  unannounced : ∀ v ∈ messageSeverities, ¬bareMarker v <+: message.toList

/-- A name of a file on one line, without an announcement of a severity, that does not start as a
link of an include chain does. -/
structure IsFile (file : String) : Prop where
  oneLine : '\n' ∉ file.toList
  unmarked : Unmarked file.toList
  notInclude : ¬includeStart.toList <+: file.toList

/-- What follows the last colon is read as a number. -/
def EndsInNumber (s : List Char) : Prop :=
  ∃ before after n, s = before ++ ':' :: after ∧ ':' ∉ after ∧ wordOf? (trim after) = some n

/-- A place that can be printed: none at all, a whole line, or a line and a column. The numbers are
machine words, and a file in front of a line alone must not end as if it held the line. -/
inductive IsPlace : Span → Prop
  | unknown : IsPlace .unknown
  | wholeLine {file : String} {line : Nat} (hfile : IsFile file)
      (hnumber : ¬EndsInNumber file.toList) (hpos : 1 ≤ line) (hline : line < UInt64.size) :
      IsPlace (.wholeLine file line)
  | column {file : String} {line column : Nat} (hfile : IsFile file) (hpos : 1 ≤ line)
      (hline : line < UInt64.size) (hpos' : 1 ≤ column) (hcolumn : column < UInt64.size) :
      IsPlace ⟨file, line, column, 1⟩

/-- A diagnostic that can be printed on one line and be read back. -/
structure Printable (d : Diagnostic) : Prop where
  notes : d.notes = []
  help : d.help = none
  severity : d.severity ∈ messageSeverities
  message : IsMessage d.message
  place : IsPlace d.span

/-! ## Where a severity is announced -/

variable {s v : Severity} {m t file : List Char}

theorem bareMarker_eq (s : Severity) : bareMarker s = s.word.toList ++ ':' :: [' '] := rfl

theorem colon_notMem_word (s : Severity) : ':' ∉ s.word.toList := by cases s <;> decide

/-- The words for severities start differently. -/
theorem eq_of_bareMarker_start (h : bareMarker v <+: bareMarker s ++ m) : v = s := by
  have hwords : ∀ s v, (bareMarker v).head? = (bareMarker s).head? → v = s := by
    intro s v
    cases s <;> cases v <;> decide
  obtain ⟨t, ht⟩ := h
  have hhead := congrArg List.head? ht
  rw [List.head?_append_of_ne_nil _ (by simp [bareMarker]),
    List.head?_append_of_ne_nil _ (by simp [bareMarker])] at hhead
  exact hwords s v hhead

/-- Nothing is announced in a message and the word for a severity in front of it. -/
theorem unmarked_bareMarker_append (hm : Unmarked m)
    (hstart : ∀ v ∈ messageSeverities, ¬bareMarker v <+: m) (s : Severity) :
    Unmarked (bareMarker s ++ m) := by
  intro v hv h
  rw [bareMarker_eq, List.append_assoc] at h
  have hcolon : marker v <:+: ':' :: ' ' :: m := infix_append_of_notMem (colon_notMem_word s) h
  rcases List.infix_cons_iff.1 hcolon with hhere | hlater
  · rw [marker_eq, List.cons_prefix_cons, List.cons_prefix_cons] at hhere
    exact hstart v hv hhere.2.2
  · exact hm v hv (infix_append_of_notMem (s := [' ']) (by decide) hlater)

theorem Unmarked.append_number (h : Unmarked file) (n : Nat) :
    Unmarked (file ++ ':' :: (toString n).toList) := by
  intro v hv hmarker
  rw [← List.append_nil (file ++ _)] at hmarker
  rcases infix_of_infix_append_number hmarker with hfile | hnil
  · exact h v hv hfile
  · exact marker_ne_nil v (List.infix_nil.1 hnil)

/-! ## Reading a place -/

theorem numberAtEnd?_eq_none_iff : numberAtEnd? file = none ↔ ¬EndsInNumber file := by
  constructor
  · rintro hnone ⟨before, after, n, rfl, hafter, hnumber⟩
    simp [numberAtEnd?, splitLast?_append hafter, hnumber] at hnone
  · intro h
    cases hsplit : splitLast? ':' file with
    | none => rw [numberAtEnd?, hsplit]; rfl
    | some parts =>
      obtain ⟨before, after⟩ := parts
      obtain ⟨hfile, hafter⟩ := eq_of_splitLast? hsplit
      cases hnumber : wordOf? (trim after) with
      | none => simp [numberAtEnd?, hsplit, hnumber]
      | some n => exact absurd ⟨before, after, n, hfile, hafter, hnumber⟩ h

theorem placeOf_eq_column (file : String) {line column : Nat} (hline : line < UInt64.size)
    (hcolumn : column < UInt64.size) :
    placeOf (file.toList ++ ':' :: (toString line).toList ++ ':' :: (toString column).toList) =
      ⟨file, line, column, 1⟩ := by
  rw [placeOf, numberAtEnd?_append _ hcolumn]
  simp only [numberAtEnd?_append _ hline, String.ofList_toList]

/-! ## Reading a message -/

/-- A search by severities finds the one that answers. -/
theorem findSome?_severity {f : Severity → Option Diagnostic} {d : Diagnostic}
    (hs : s ∈ messageSeverities) (hfound : f s = some d)
    (hothers : ∀ v ∈ messageSeverities, v ≠ s → f v = none) :
    messageSeverities.findSome? f = some d := by
  obtain ⟨before, after, hsplit, hbefore⟩ := List.eq_append_cons_of_mem hs
  have hnone : before.findSome? f = none := by
    rw [List.findSome?_eq_none_iff]
    intro v hv
    refine hothers v (by simp [hsplit, hv]) ?_
    rintro rfl
    exact hbefore hv
  rw [hsplit, List.findSome?_append, hnone, Option.none_or, List.findSome?_cons, hfound]

/-- No other severity is announced. -/
theorem ofMarked?_located_of_ne (hfile : Unmarked file) (hm : Unmarked m)
    (hstart : ∀ v ∈ messageSeverities, ¬bareMarker v <+: m) (n : Nat)
    (hv : v ∈ messageSeverities) (hne : v ≠ s) :
    ofMarked? (file ++ ':' :: (toString n).toList ++ (marker s ++ m)) v = none := by
  rw [ofMarked?, Option.map_eq_none_iff, splitOnce?_eq_none_iff]
  intro h
  rcases infix_of_infix_append_number h with hearlier | hlater
  · exact hfile v hv hearlier
  rw [marker_eq s, List.cons_append] at hlater
  rcases List.infix_cons_iff.1 hlater with hhere | hlater
  · rw [marker_eq, List.cons_prefix_cons, List.cons_append, List.cons_prefix_cons] at hhere
    exact hne (eq_of_bareMarker_start hhere.2.2)
  · exact unmarked_bareMarker_append hm hstart s v hv
      (infix_append_of_notMem (s := [' ']) (by decide) hlater)

namespace IsMessage

variable {message : String}

theorem trim_eq (h : IsMessage message) : trim message.toList = message.toList := by
  have htrim := congrArg String.toList h.trimmed_eq
  rwa [trimmed, onString, String.toList_ofList] at htrim

theorem trimEnd_eq (h : IsMessage message) : trimEnd message.toList = message.toList := by
  rw [← h.trim_eq, trim, trimBy, trimEnd, dropEndWhile_dropEndWhile]

theorem not_isBlankText (h : IsMessage message) : isBlankText message.toList = false := by
  rw [← Bool.not_eq_true, isBlankText_iff]
  intro hblank
  have htrim := h.trim_eq
  rw [trim, trimBy, List.dropWhile_eq_nil_iff.2 hblank, dropEndWhile_nil] at htrim
  exact h.ne_empty (String.toList_eq_nil_iff.1 htrim.symm)

/-- A text keeps its end if the message is its end. -/
theorem trimEnd_append (h : IsMessage message) (s : List Char) :
    trimEnd (s ++ message.toList) = s ++ message.toList := by
  rw [Text.trimEnd_append h.not_isBlankText, h.trimEnd_eq]

end IsMessage

/-- A severity, its place and a message are read back. -/
theorem ofMessage_located {message : String} (hs : s ∈ messageSeverities) (hm : IsMessage message)
    (hfile : Unmarked file) (n : Nat)
    (hinclude : ¬includeStart.toList <+: file ++ ':' :: (toString n).toList ++
      (marker s ++ message.toList)) :
    ofMessage (String.ofList (file ++ ':' :: (toString n).toList ++ (marker s ++ message.toList))) =
      .plain s message (placeOf (file ++ ':' :: (toString n).toList)) := by
  have hend := hm.trimEnd_append (file ++ ':' :: (toString n).toList ++ marker s)
  have hnolink : ofInclude? (file ++ ':' :: (toString n).toList ++ (marker s ++ message.toList)) =
      none := ofInclude?_eq_none_iff.2 hinclude
  have hmarked := findSome?_severity hs
    (ofMarked?_of_first (not_infix_append_number (hfile s hs) n) message.toList)
    fun v hv hne => ofMarked?_located_of_ne hfile hm.unmarked hm.unannounced n hv hne
  rw [hm.trim_eq, String.ofList_toList] at hmarked
  rw [List.append_assoc] at hend
  rw [ofMessage, String.toList_ofList, hend]
  simp only [hnolink, hmarked]
  rfl

/-- A severity and a message without a place are read back. -/
theorem ofMessage_bare {message : String} (hs : s ∈ messageSeverities) (hm : IsMessage message) :
    ofMessage (String.ofList (bareMarker s ++ message.toList)) = .plain s message .unknown := by
  have hend := hm.trimEnd_append (bareMarker s)
  have hnolink : ofInclude? (bareMarker s ++ message.toList) = none := by
    have hlonger : ¬includeStart.toList <+: s.word.toList := by cases s <;> decide
    rw [ofInclude?_eq_none_iff, bareMarker_eq, List.append_assoc]
    exact fun h => hlonger (prefix_of_prefix_append_cons (by decide) h)
  have hmarked : messageSeverities.findSome? (ofMarked? (bareMarker s ++ message.toList)) =
      none := by
    rw [List.findSome?_eq_none_iff]
    intro v hv
    rw [ofMarked?, Option.map_eq_none_iff, splitOnce?_eq_none_iff]
    exact unmarked_bareMarker_append hm.unmarked hm.unannounced s v hv
  have hbare : messageSeverities.findSome? (ofBare? (bareMarker s ++ message.toList)) =
      some (.plain s message .unknown) := by
    refine findSome?_severity hs ?_ fun v _ hne => ?_
    · rw [ofBare?, stripStart?_append, Option.map_some, hm.trim_eq, String.ofList_toList]
    · rw [ofBare?, Option.map_eq_none_iff, stripStart?_eq_none_iff]
      exact fun h => hne (eq_of_bareMarker_start h)
  rw [ofMessage, String.toList_ofList, hend]
  simp only [hnolink, hmarked, hbare]
  rfl

/-! ## What is printed -/

variable {span : Span} {d : Diagnostic} {ds : List Diagnostic}

/-- A known place as it is printed: a number stands at its end, what stands before the number is
good for a file, and the place is read back. -/
structure Located (span : Span) (file : List Char) (n : Nat) : Prop where
  isKnown_eq : span.isKnown = true
  display_eq : span.display.toList = file ++ ':' :: (toString n).toList
  placeOf_eq : placeOf (file ++ ':' :: (toString n).toList) = span
  oneLine : '\n' ∉ file
  unmarked : Unmarked file
  notInclude : ∀ t, ¬includeStart.toList <+: file ++ ':' :: t

theorem Located.wholeLine {file : String} {line : Nat} (hfile : IsFile file)
    (hnumber : ¬EndsInNumber file.toList) (hpos : 1 ≤ line) (hline : line < UInt64.size) :
    Located (.wholeLine file line) file.toList line where
  isKnown_eq := decide_eq_true hpos
  display_eq := by
    have hcolon : ":".toList = [':'] := by decide
    simp [Span.display, Span.wholeLine, Nat.ne_of_gt hpos, hcolon]
  placeOf_eq := placeOf_eq_wholeLine (numberAtEnd?_eq_none_iff.2 hnumber) hline
  oneLine := hfile.oneLine
  unmarked := hfile.unmarked
  notInclude _ h := hfile.notInclude (prefix_of_prefix_append_cons (by decide) h)

theorem Located.column {file : String} {line column : Nat} (hfile : IsFile file) (hpos : 1 ≤ line)
    (hline : line < UInt64.size) (hpos' : 1 ≤ column) (hcolumn : column < UInt64.size) :
    Located ⟨file, line, column, 1⟩ (file.toList ++ ':' :: (toString line).toList) column where
  isKnown_eq := decide_eq_true hpos
  display_eq := by
    have hcolon : ":".toList = [':'] := by decide
    simp [Span.display, Nat.ne_of_gt hpos, Nat.ne_of_gt hpos', hcolon]
  placeOf_eq := placeOf_eq_column file hline hcolumn
  oneLine := by
    rw [List.mem_append, List.mem_cons, not_or, not_or]
    exact ⟨hfile.oneLine, by decide, feed_notMem_toString line⟩
  unmarked := hfile.unmarked.append_number line
  notInclude _ h := by
    rw [List.append_assoc, List.cons_append] at h
    exact hfile.notInclude (prefix_of_prefix_append_cons (by decide) h)

theorem IsPlace.eq_unknown_or_located (h : IsPlace span) :
    span = .unknown ∨ ∃ file n, Located span file n := by
  cases h with
  | unknown => exact .inl rfl
  | wholeLine hfile hnumber hpos hline => exact .inr ⟨_, _, .wholeLine hfile hnumber hpos hline⟩
  | column hfile hpos hline hpos' hcolumn =>
    exact .inr ⟨_, _, .column hfile hpos hline hpos' hcolumn⟩

theorem toList_display_of_unknown (h : d.span = .unknown) :
    d.display.toList = bareMarker d.severity ++ d.message.toList := by
  have hcolon : ": ".toList = [':', ' '] := by decide
  have hknown : d.span.isKnown = false := by rw [h]; rfl
  rw [display, hknown, if_neg (by simp), String.toList_append, String.toList_append, hcolon]
  rfl

theorem Located.toList_display {n : Nat} (h : Located d.span file n) : d.display.toList =
    file ++ ':' :: (toString n).toList ++ (marker d.severity ++ d.message.toList) := by
  have hcolon : ": ".toList = [':', ' '] := by decide
  rw [← h.display_eq]
  simp only [display, h.isKnown_eq, if_pos, String.toList_append, hcolon, marker, bareMarker,
    List.append_assoc]

/-! ## Reading what was printed -/

/-- **A printed diagnostic is read back.** -/
theorem ofMessage_display (h : d.Printable) : ofMessage d.display = d := by
  have hplain : .plain d.severity d.message d.span = d := by
    rw [plain, ← h.notes, ← h.help]
  rw [← String.ofList_toList (s := d.display)]
  rcases h.place.eq_unknown_or_located with hunknown | ⟨file, n, hlocated⟩
  · rw [toList_display_of_unknown hunknown, ofMessage_bare h.severity h.message, ← hunknown, hplain]
  · have hinclude := hlocated.notInclude
      ((toString n).toList ++ (marker d.severity ++ d.message.toList))
    rw [← List.cons_append, ← List.append_assoc] at hinclude
    rw [hlocated.toList_display,
      ofMessage_located h.severity h.message hlocated.unmarked n hinclude,
      hlocated.placeOf_eq, hplain]

theorem feed_notMem_marker (s : Severity) : '\n' ∉ marker s := by cases s <;> decide

theorem Printable.feed_notMem (h : d.Printable) : '\n' ∉ d.display.toList := by
  rcases h.place.eq_unknown_or_located with hunknown | ⟨file, n, hlocated⟩
  · have hword : '\n' ∉ bareMarker d.severity := fun hmem =>
      feed_notMem_marker d.severity (List.mem_append_right _ hmem)
    rw [toList_display_of_unknown hunknown, List.mem_append, not_or]
    exact ⟨hword, h.message.oneLine⟩
  · have hplace : '\n' ∉ file ++ ':' :: (toString n).toList := by
      rw [List.mem_append, List.mem_cons, not_or, not_or]
      exact ⟨hlocated.oneLine, by decide, feed_notMem_toString n⟩
    have hmessage : '\n' ∉ marker d.severity ++ d.message.toList := by
      rw [List.mem_append, not_or]
      exact ⟨feed_notMem_marker d.severity, h.message.oneLine⟩
    rw [hlocated.toList_display]
    exact fun hmem => (List.mem_append.1 hmem).elim hplace hmessage

/-- The message is not blank, and it is the end of the line. -/
theorem Printable.not_isBlankString (h : d.Printable) : isBlankString d.display = false := by
  obtain ⟨start, hstart⟩ : ∃ start, d.display.toList = start ++ d.message.toList := by
    rcases h.place.eq_unknown_or_located with hunknown | ⟨file, n, hlocated⟩
    · exact ⟨_, toList_display_of_unknown hunknown⟩
    · exact ⟨_, by rw [hlocated.toList_display, ← List.append_assoc]⟩
  rw [isBlankString, hstart, isBlankText_append, h.message.not_isBlankText, Bool.and_false]

/-- A printed diagnostic is a line of an output. -/
theorem ofOutput_display (h : d.Printable) : ofOutput d.display = [d] := by
  have hline : '\n' ∉ (trimmedEnd d.display).toList := by
    rw [trimmedEnd, onString, String.toList_ofList]
    obtain ⟨t, ht, -⟩ := exists_eq_trimEnd_append d.display.toList
    intro hmem
    refine h.feed_notMem ?_
    rw [ht]
    exact List.mem_append_left t hmem
  rw [ofOutput_eq_singleton h.not_isBlankString hline, ofMessage_display h]

/-- **Printing and reading are inverse.** Diagnostics that can be printed are read back from an
output that has one of them on each line, whether the last line ends in a line feed or not. -/
theorem ofOutput_map_display (h : ∀ d ∈ ds, d.Printable) :
    ofOutput (String.intercalate "\n" (ds.map display)) = ds ∧
      ofOutput (String.join (ds.map (·.display ++ "\n"))) = ds := by
  constructor
  · rw [ofOutput_intercalate, List.flatMap_map]
    calc ds.flatMap (fun d => ofOutput d.display)
      _ = ds.flatMap ([·]) := List.flatMap_congr fun d hd => ofOutput_display (h d hd)
      _ = ds := List.flatMap_singleton' ds
  · induction ds with
    | nil => decide
    | cons d ds ih =>
      have hrest : ofOutput (String.join (ds.map (·.display ++ "\n"))) = ds :=
        ih fun e he => h e (List.mem_cons_of_mem d he)
      rw [List.map_cons, String.join_cons, ofOutput_append, ofOutput_display (h d (by simp)), hrest]
      rfl

/-- Diagnostics without a place, at a line of a file with a colon in its name, and at a line and a
column of a file whose name ends in a number. -/
def threePlaces : List Diagnostic :=
  [.plain .error "cannot find crt1.o" .unknown,
    .plain .warning "see error: it is not marked" (.wholeLine "C:\\demo.c" 12),
    .plain .note "declared here" ⟨"demo.c:7", 3, 9, 1⟩]

theorem ofOutput_map_display_threePlaces :
    (∀ d ∈ threePlaces, d.Printable) ∧
      ofOutput ("error: cannot find crt1.o\n" ++
        "C:\\demo.c:12: warning: see error: it is not marked\n" ++
        "demo.c:7:3:9: note: declared here") = threePlaces := by
  have hmessages : ∀ d ∈ threePlaces, d.message ≠ "" ∧ trimmed d.message = d.message ∧
      '\n' ∉ d.message.toList ∧ (∀ v ∈ messageSeverities, ¬marker v <:+: d.message.toList) ∧
        ∀ v ∈ messageSeverities, ¬bareMarker v <+: d.message.toList := by decide +kernel
  have hfiles : ∀ file ∈ ["C:\\demo.c", "demo.c:7"], '\n' ∉ file.toList ∧
      (∀ v ∈ messageSeverities, ¬marker v <:+: file.toList) ∧
        ¬includeStart.toList <+: file.toList := by decide +kernel
  have hmessage : ∀ d ∈ threePlaces, IsMessage d.message := fun d hd =>
    have ⟨hne, htrim, hline, hmarked, hstart⟩ := hmessages d hd
    ⟨hne, htrim, hline, hmarked, hstart⟩
  have hfile : ∀ file ∈ ["C:\\demo.c", "demo.c:7"], IsFile file := fun file hmem =>
    have ⟨hline, hmarked, hinclude⟩ := hfiles file hmem
    ⟨hline, hmarked, hinclude⟩
  have hplace : ∀ d ∈ threePlaces, IsPlace d.span := by
    simp only [threePlaces, List.forall_mem_cons]
    refine ⟨.unknown, .wholeLine (hfile _ (by simp)) ?_ (by decide) (by decide),
      .column (hfile _ (by simp)) (by decide) (by decide) (by decide) (by decide), by simp⟩
    exact numberAtEnd?_eq_none_iff.1 (by decide +kernel)
  have hprintable : ∀ d ∈ threePlaces, d.Printable := fun d hd =>
    have hplain : d.notes = [] ∧ d.help = none ∧ d.severity ∈ messageSeverities := by
      revert d
      decide
    ⟨hplain.1, hplain.2.1, hplain.2.2, hmessage d hd, hplace d hd⟩
  refine ⟨hprintable, ?_⟩
  have htext : String.intercalate "\n" (threePlaces.map display) = "error: cannot find crt1.o\n" ++
      "C:\\demo.c:12: warning: see error: it is not marked\n" ++
      "demo.c:7:3:9: note: declared here" := by decide +kernel
  rw [← htext]
  exact (ofOutput_map_display hprintable).1

end LiveC.Diagnostic
