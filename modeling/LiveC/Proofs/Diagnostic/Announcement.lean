import LiveC.Proofs.Diagnostic.Display
/-!
# Which announcement is read

A message may announce several severities, as a warning does that quotes an error. The
`FirstAnnouncement` in a message is the leftmost one. `Diagnostic.ofMessage` does not look for it:
it drops the blanks at the end, and then looks through the whole message for one severity after the
other, in the order of `messageSeverities`. So it reads the first announcement exactly when what
follows it is not blank and no severity that is sought before is announced as well
(`ofMessage_first_iff`). A message is read as a warning under the conditions of
`severity_ofMessage_eq_warning_iff`.
-/

namespace LiveC

open Text

theorem Text.trimEnd_eq_nil_iff {s : List Char} : trimEnd s = [] ↔ isBlankText s = true := by
  rw [trimEnd, dropEndWhile, List.reverse_eq_nil_iff, List.dropWhile_eq_nil_iff, isBlankText_iff]
  exact forall_congr' fun c => imp_congr_left List.mem_reverse

theorem Text.trim_eq_nil_iff {s : List Char} : trim s = [] ↔ isBlankText s = true := by
  rw [trim, trimBy, ← dropWhile_dropEndWhile, ← trimEnd, List.dropWhile_eq_nil_iff,
    ← isBlankText_iff]
  obtain ⟨t, hs, ht⟩ := exists_eq_trimEnd_append s
  rw [hs, isBlankText_append, ht, Bool.and_true, trimEnd_append_of_isBlankText ht, trimEnd_trimEnd]

namespace Diagnostic

variable {s v : Severity} {raw : String} {t text location message : List Char}

/-! ## The first announcement -/

/-- The first announcement of a severity in a text: what is in front of it, and what follows it. -/
structure FirstAnnouncement (text location : List Char) (s : Severity) (message : List Char) :
    Prop where
  named : s ∈ messageSeverities
  eq_append : text = location ++ (marker s ++ message)
  /-- No announcement begins in front of it. -/
  first : ∀ n < location.length, ∀ v ∈ messageSeverities, ¬marker v <+: text.drop n

theorem exists_firstAnnouncement (h : ∃ v ∈ messageSeverities, marker v <:+: text) :
    ∃ location s message, FirstAnnouncement text location s message := by
  obtain ⟨v, hv, hinfix⟩ := h
  induction text with
  | nil => exact absurd (List.infix_nil.1 hinfix) (marker_ne_nil v)
  | cons c text ih =>
    by_cases hhere : ∃ s ∈ messageSeverities, marker s <+: c :: text
    · obtain ⟨s, hs, message, hmessage⟩ := hhere
      exact ⟨[], s, message, hs, hmessage.symm, by simp⟩
    · have hlater := (List.infix_cons_iff.1 hinfix).resolve_left fun hstart => hhere ⟨v, hv, hstart⟩
      obtain ⟨location, s, message, h⟩ := ih hlater
      refine ⟨c :: location, s, message, h.named, by rw [h.eq_append, List.cons_append], ?_⟩
      intro n hn u hu hstart
      cases n with
      | zero => exact hhere ⟨u, hu, hstart⟩
      | succ n => exact h.first n (Nat.lt_of_succ_lt_succ hn) u hu hstart

namespace FirstAnnouncement

/-- Every announcement begins behind what is in front of the first one. -/
theorem length_le (h : FirstAnnouncement text location s message) (hv : v ∈ messageSeverities)
    {before after : List Char} (htext : text = before ++ (marker v ++ after)) :
    location.length ≤ before.length := by
  by_contra hlt
  refine h.first before.length (Nat.lt_of_not_le hlt) v hv ⟨after, ?_⟩
  rw [htext, List.drop_left]

/-- Nothing is announced up to the last blank of the first announcement. -/
theorem unmarked (h : FirstAnnouncement text location s message) :
    Unmarked (location ++ (marker s).dropLast) := by
  rintro v hv ⟨before, after, heq⟩
  have hmarker : marker s = (marker s).dropLast ++ [' '] := by cases s <;> decide
  have htext : text = before ++ (marker v ++ (after ++ ' ' :: message)) := by
    rw [h.eq_append, hmarker, ← List.append_assoc, ← List.append_assoc, ← heq]
    simp only [List.append_assoc, List.singleton_append]
  have hbefore : before <+: location ++ (marker s).dropLast :=
    ⟨marker v ++ after, by rw [← heq, List.append_assoc]⟩
  -- so the other one stands within the first, which is too short for it
  obtain ⟨b, rfl⟩ := List.prefix_of_prefix_length_le (List.prefix_append location _) hbefore
    (h.length_le hv htext)
  refine not_infix_dropLast_marker hv s ⟨b, after, ?_⟩
  simpa only [List.append_assoc, List.append_cancel_left_eq] using heq

/-- The first announcement of its severity is read as it stands. -/
theorem ofMarked? (h : FirstAnnouncement text location s message) (m : List Char) :
    ofMarked? (location ++ (marker s ++ m)) s =
      some (.plain s (String.ofList (trim m)) (placeOf location)) :=
  ofMarked?_of_first (h.unmarked s h.named) m

theorem trimEnd_eq (h : FirstAnnouncement text location s message)
    (hmessage : isBlankText message = false) :
    trimEnd text = location ++ (marker s ++ trimEnd message) := by
  rw [h.eq_append, ← List.append_assoc, trimEnd_append hmessage, List.append_assoc]

/-- The announcement itself loses its last blank when what follows is blank. -/
theorem trimEnd_of_isBlankText (h : FirstAnnouncement text location s message)
    (hmessage : isBlankText message = true) : trimEnd text = location ++ (marker s).dropLast := by
  have hmarker : marker s = (':' :: ' ' :: s.word.toList ++ [':']) ++ [' '] := by
    cases s <;> decide
  rw [h.eq_append, ← List.append_assoc, trimEnd_append_of_isBlankText hmessage, hmarker,
    List.dropLast_concat, ← List.append_assoc, ← List.append_assoc, trimEnd,
    dropEndWhile_concat_of_pos (by decide), dropEndWhile_concat_of_neg (by decide)]

end FirstAnnouncement

/-! ## The order in which severities are sought -/

/-- The severities that are sought before one. -/
def soughtBefore (s : Severity) : List Severity := messageSeverities.takeWhile (· != s)

theorem ofMarked?_eq_none_iff : ofMarked? t v = none ↔ ¬marker v <:+: t := by
  rw [Diagnostic.ofMarked?, Option.map_eq_none_iff, splitOnce?_eq_none_iff]

theorem severity_of_ofMarked? {d : Diagnostic} (h : ofMarked? t v = some d) : d.severity = v := by
  obtain ⟨_, _, rfl⟩ := Option.map_eq_some_iff.1 h
  rfl

theorem ofBare?_eq_none_iff : ofBare? t v = none ↔ ¬bareMarker v <+: t := by
  rw [ofBare?, Option.map_eq_none_iff, stripStart?_eq_none_iff]

theorem severity_of_ofBare? {d : Diagnostic} (h : ofBare? t v = some d) : d.severity = v := by
  obtain ⟨_, _, rfl⟩ := Option.map_eq_some_iff.1 h
  rfl

/-- A severity that is announced is read unless one that is sought before is announced, too. -/
theorem findSome?_ofMarked?_iff {d : Diagnostic} (hs : s ∈ messageSeverities)
    (hread : ofMarked? t s = some d) : ∃ e, messageSeverities.findSome? (ofMarked? t) = some e ∧
      (e = d ↔ ∀ v ∈ soughtBefore s, ¬marker v <:+: t) := by
  have hsplit : ∃ after, messageSeverities = soughtBefore s ++ s :: after := by
    cases s <;> first | exact ⟨_, rfl⟩ | exact absurd hs (by decide)
  have hbefore : s ∉ soughtBefore s := by cases s <;> decide
  obtain ⟨after, hsplit⟩ := hsplit
  rw [hsplit, List.findSome?_append, List.findSome?_cons, hread]
  cases hfound : (soughtBefore s).findSome? (ofMarked? t) with
  | none =>
    refine ⟨d, rfl, iff_of_true rfl fun v hv => ?_⟩
    exact ofMarked?_eq_none_iff.1 (List.findSome?_eq_none_iff.1 hfound v hv)
  | some e =>
    obtain ⟨v, hv, hearlier⟩ := List.exists_of_findSome?_eq_some hfound
    refine ⟨e, rfl, iff_of_false ?_ fun hnone => ?_⟩
    · rintro rfl
      obtain rfl := (severity_of_ofMarked? hearlier).symm.trans (severity_of_ofMarked? hread)
      exact hbefore hv
    · rw [ofMarked?_eq_none_iff.2 (hnone v hv)] at hearlier
      exact absurd hearlier (by simp)

/-- A message that is not blank and announces nothing behind a place is read with a text. -/
theorem message_ofMessage_ne_empty (hblank : isBlankString raw = false)
    (hinclude : ¬includeStart.toList <+: trimEnd raw.toList)
    (hmarked : Unmarked (trimEnd raw.toList)) : (ofMessage raw).message ≠ "" := by
  have hnolink : ofInclude? (trimEnd raw.toList) = none := ofInclude?_eq_none_iff.2 hinclude
  have hnone : messageSeverities.findSome? (Diagnostic.ofMarked? (trimEnd raw.toList)) = none :=
    List.findSome?_eq_none_iff.2 fun v hv => ofMarked?_eq_none_iff.2 (hmarked v hv)
  rw [ofMessage, hnolink, hnone]
  cases hbare : messageSeverities.findSome? (ofBare? (trimEnd raw.toList)) with
  | none =>
    show String.ofList (trimEnd raw.toList) ≠ ""
    rw [Ne, String.ofList_eq_empty_iff, trimEnd_eq_nil_iff]
    rw [isBlankString] at hblank
    simp [hblank]
  | some d =>
    obtain ⟨v, -, hv⟩ := List.exists_of_findSome?_eq_some hbare
    obtain ⟨m, hm, rfl⟩ := Option.map_eq_some_iff.1 hv
    show String.ofList (trim m) ≠ ""
    rw [Ne, String.ofList_eq_empty_iff, trim_eq_nil_iff]
    intro hrest
    -- the blank that ends the word for a severity would be gone with what follows it
    have hlost : trimEnd raw.toList = trimEnd (bareMarker v) := by
      rw [← trimEnd_trimEnd, eq_of_stripStart? hm, trimEnd_append_of_isBlankText hrest]
    have hlength : (trimEnd (bareMarker v)).length < (bareMarker v).length := by
      cases v <;> decide
    rw [← hlost, eq_of_stripStart? hm, List.length_append] at hlength
    omega

/-! ## What is read -/

/-- A message that announces a severity is not blank. -/
theorem FirstAnnouncement.not_isBlankString
    (h : FirstAnnouncement raw.toList location s message) : isBlankString raw = false := by
  rw [isBlankString, ← Bool.not_eq_true, isBlankText_iff]
  intro hblank
  have hcolon : ':' ∈ raw.toList := by
    rw [h.eq_append, marker_eq]
    simp
  exact absurd (hblank ':' hcolon) (by decide)

/-- **When the first announcement is read**: when what follows it is not blank, and no severity that
is sought before is announced, once the blanks at the end are gone. -/
theorem FirstAnnouncement.ofMessage_iff (h : FirstAnnouncement raw.toList location s message)
    (hinclude : ¬includeStart.toList <+: raw.toList) :
    ofMessage raw = .plain s (String.ofList (trim message)) (placeOf location) ↔
      isBlankText message = false ∧ ∀ v ∈ soughtBefore s, ¬marker v <:+: trimEnd raw.toList := by
  have hnolink : ¬includeStart.toList <+: trimEnd raw.toList := by
    obtain ⟨t, ht, -⟩ := exists_eq_trimEnd_append raw.toList
    rw [ht] at hinclude
    exact fun hstart => hinclude (hstart.trans (List.prefix_append _ _))
  cases hmessage : isBlankText message with
  | true =>
    refine iff_of_false (fun hread => ?_) (by simp)
    have hunmarked : Unmarked (trimEnd raw.toList) := by
      rw [h.trimEnd_of_isBlankText hmessage]
      exact h.unmarked
    refine message_ofMessage_ne_empty h.not_isBlankString hnolink hunmarked ?_
    rw [hread, trim_eq_nil_iff.2 hmessage]
    rfl
  | false =>
    have hread : Diagnostic.ofMarked? (trimEnd raw.toList) s =
        some (.plain s (String.ofList (trim message)) (placeOf location)) := by
      rw [h.trimEnd_eq hmessage, h.ofMarked?, trim, trimEnd, trimBy_dropEndWhile, ← trim]
    obtain ⟨e, he, hiff⟩ := findSome?_ofMarked?_iff h.named hread
    have hmarked : ofMessage raw = e := by
      rw [ofMessage]
      simp only [ofInclude?_eq_none_iff.2 hnolink, he]
      rfl
    rw [hmarked, hiff]
    simp

/-- **The first announcement in a message**: every message that announces a severity has one, and it
is the one that is read exactly when what follows it is not blank and no severity that is sought
before is announced, too, once the blanks at the end are gone. -/
theorem ofMessage_first_iff (hinclude : ¬includeStart.toList <+: raw.toList)
    (hmarked : ∃ v ∈ messageSeverities, marker v <:+: raw.toList) :
    (∃ location s message, FirstAnnouncement raw.toList location s message) ∧
      ∀ location s message, FirstAnnouncement raw.toList location s message →
        (ofMessage raw = .plain s (String.ofList (trim message)) (placeOf location) ↔
          isBlankText message = false ∧
            ∀ v ∈ soughtBefore s, ¬marker v <:+: trimEnd raw.toList) :=
  ⟨exists_firstAnnouncement hmarked, fun _ _ _ h => h.ofMessage_iff hinclude⟩

/-- A warning with a column that quotes a note and another warning. -/
def warningQuotingNote : String := "m.c:4:9: warning: see: note: below: warning: x \n"

theorem ofMessage_first_iff_warningQuotingNote :
    (¬includeStart.toList <+: warningQuotingNote.toList) ∧
      (∃ v ∈ messageSeverities, marker v <:+: warningQuotingNote.toList) ∧
      ofMessage warningQuotingNote =
        .plain .warning "see: note: below: warning: x" ⟨"m.c", 4, 9, 1⟩ := by
  have hinclude : ¬includeStart.toList <+: warningQuotingNote.toList := by decide +kernel
  have hmarked : ∃ v ∈ messageSeverities, marker v <:+: warningQuotingNote.toList :=
    ⟨.warning, by decide, by decide +kernel⟩
  have hfirst : FirstAnnouncement warningQuotingNote.toList "m.c:4:9".toList .warning
      "see: note: below: warning: x \n".toList :=
    ⟨by decide, by decide +kernel, by decide +kernel⟩
  have hread := ((ofMessage_first_iff hinclude hmarked).2 _ _ _ hfirst).2 (by decide +kernel)
  refine ⟨hinclude, hmarked, hread.trans ?_⟩
  decide +kernel

/-- A warning that quotes an error. -/
def warningQuotingError : String := "a.c:1: warning: see: error: none"

/-- **A warning that quotes an error is read as an error without a place**, although the first
announcement in it is that of the warning. -/
theorem warningQuotingError_misread :
    '\n' ∉ warningQuotingError.toList ∧ (¬includeStart.toList <+: warningQuotingError.toList) ∧
      FirstAnnouncement warningQuotingError.toList "a.c:1".toList .warning
        "see: error: none".toList ∧
      Diagnostic.plain .warning (String.ofList (trim "see: error: none".toList))
          (placeOf "a.c:1".toList) =
        .plain .warning "see: error: none" (.wholeLine "a.c" 1) ∧
      ofMessage warningQuotingError = .plain .error "none" .unknown := by
  refine ⟨by decide +kernel, by decide +kernel, ⟨by decide, by decide +kernel, by decide +kernel⟩,
    by decide +kernel, by decide +kernel⟩

/-! ## Warnings -/

/-- **What is read as a warning**: no link of an include chain, and no error is announced; a warning
is announced, or the message starts with one and announces no note. -/
theorem severity_ofMessage_eq_warning_iff : (ofMessage raw).severity = .warning ↔
    (¬includeStart.toList <+: trimEnd raw.toList) ∧ (¬marker .error <:+: trimEnd raw.toList) ∧
      (marker .warning <:+: trimEnd raw.toList ∨
        (¬marker .note <:+: trimEnd raw.toList) ∧ bareMarker .warning <+: trimEnd raw.toList) := by
  generalize ht : trimEnd raw.toList = t
  have hmarked : marker .warning <:+: t ↔ ofMarked? t .warning ≠ none := by
    rw [Ne, ofMarked?_eq_none_iff, not_not]
  have hstarts : bareMarker .warning <+: t ↔ ofBare? t .warning ≠ none := by
    rw [Ne, ofBare?_eq_none_iff, not_not]
  have hone : ofBare? t .warning ≠ none → ofBare? t .error = none := by
    rw [← hstarts, ofBare?_eq_none_iff]
    rintro ⟨m, rfl⟩ herror
    exact absurd (eq_of_bareMarker_start herror) (by decide)
  rw [ofMessage, ht, hmarked, hstarts, ← ofInclude?_eq_none_iff, ← ofMarked?_eq_none_iff,
    ← ofMarked?_eq_none_iff]
  simp only [messageSeverities, List.findSome?_cons, List.findSome?_nil]
  -- one case for each place where a severity is sought, in that order
  cases hinclude : ofInclude? t with
  | some d => simp [severity_of_ofInclude? hinclude]
  | none =>
    cases herror : ofMarked? t .error with
    | some d => simp [severity_of_ofMarked? herror]
    | none =>
      cases hwarning : ofMarked? t .warning with
      | some d => simp [severity_of_ofMarked? hwarning]
      | none =>
        cases hnote : ofMarked? t .note with
        | some d => simp [severity_of_ofMarked? hnote]
        | none =>
          cases hbare : ofBare? t .warning with
          | some d => simp [hone (by simp [hbare]), severity_of_ofBare? hbare]
          | none =>
            cases herror' : ofBare? t .error with
            | some d => simp [severity_of_ofBare? herror']
            | none =>
              cases hnote' : ofBare? t .note with
              | some d => simp [severity_of_ofBare? hnote']
              | none => simp [plain]

end Diagnostic

end LiveC
