import LiveC.Proofs.Text.Search
import LiveC.Proofs.Text.Trim
import LiveC.Session.Build
/-!
# What the linker says of a missing name

The linker has one message for every name that it misses. `missingMessage` is that message, and a
name is `Readable` if it is read back from its message and that one is not taken for a warning. A C
identifier is (`IsIdentifier.readable`), and so is whatever was read from a message that was kept
(`readable_of_missingName?`). The names that a failure to link misses are those that the linker
missed, if they are readable (`missingNames_missing`).
-/

namespace LiveC

/-- A character of a C identifier. -/
def isIdentifierChar (c : Char) : Bool := c.isAlphanum || c == '_'

/-- A C identifier: letters, digits and underscores, no digit first. -/
def IsIdentifier (name : String) : Prop :=
  name ≠ "" ∧ (name.toList.all isIdentifierChar) = true ∧
    name.toList.head?.all (fun c => !c.isDigit) = true

instance (name : String) : Decidable (IsIdentifier name) := inferInstanceAs (Decidable (_ ∧ _ ∧ _))

/-- What the linker says of a name that it misses. -/
def missingMessage (name : String) : String := "tcc: error: undefined symbol '" ++ name ++ "'"

namespace IsIdentifier

variable {name : String}

theorem not_mem (h : IsIdentifier name) {c : Char} (hc : isIdentifierChar c = false) :
    c ∉ name.toList := by
  intro hmem
  rw [List.all_eq_true.1 h.2.1 c hmem] at hc
  exact absurd hc (by simp)

theorem hasNul (h : IsIdentifier name) : hasNul name = false := by
  simpa [LiveC.hasNul] using h.not_mem (c := '\x00') (by decide)

theorem isQuote {c : Char} (h : IsIdentifier name) (hc : c ∈ name.toList) :
    Text.isQuote c = false := by
  rw [Bool.eq_false_iff]
  intro hquote
  simp only [Text.isQuote, Bool.or_eq_true, beq_iff_eq] at hquote
  rcases hquote with (rfl | rfl) | rfl
  · exact h.not_mem (by decide) hc
  · exact h.not_mem (by decide) hc
  · exact h.not_mem (by decide) hc

end IsIdentifier

/-! ## Reading a name back -/

theorem toList_append_append (a b c : String) :
    (a ++ b ++ c).toList = a.toList ++ b.toList ++ c.toList := by
  rw [String.toList_append, String.toList_append]

theorem toList_missingMessage (name : String) : (missingMessage name).toList =
    "tcc: error: ".toList ++ (missingMark.toList ++ (' ' :: ('\'' :: name.toList ++ ['\'']))) := by
  have hhead : "tcc: error: undefined symbol '".toList =
      "tcc: error: ".toList ++ (missingMark.toList ++ [' ', '\'']) := by decide
  have hlast : "'".toList = ['\''] := by decide
  have happend : (missingMessage name).toList =
      "tcc: error: undefined symbol '".toList ++ name.toList ++ "'".toList :=
    toList_append_append _ _ _
  rw [happend, hhead, hlast]
  simp only [List.append_assoc, List.cons_append, List.nil_append]

/-- The first occurrence of the mark is behind the announcement of an error. -/
theorem splitOnce?_missingMark (rest : List Char) :
    Text.splitOnce? missingMark.toList ("tcc: error: ".toList ++ (missingMark.toList ++ rest)) =
      some ("tcc: error: ".toList, rest) := by
  have hmark : missingMark.toList = ['u', 'n', 'd', 'e', 'f', 'i', 'n', 'e', 'd', ' ', 's', 'y',
    'm', 'b', 'o', 'l'] := by decide
  have hhead : "tcc: error: ".toList = ['t', 'c', 'c', ':', ' ', 'e', 'r', 'r', 'o', 'r', ':',
    ' '] := by decide
  simp [hmark, hhead, Text.splitOnce?, Text.splitOnceFrom, List.isPrefixOf]

/-- What is read from the message about a name: the name without quotation marks at its ends. -/
theorem missingName?_missingMessage (name : String) : missingName? (missingMessage name) =
    if (Text.trimBy Text.isQuote name.toList).isEmpty then none
    else some (String.ofList (Text.trimBy Text.isQuote name.toList)) := by
  have htrim : Text.trim (' ' :: ('\'' :: name.toList ++ ['\''])) =
      '\'' :: name.toList ++ ['\''] := by
    have hblank : Text.isBlank ' ' = true := by decide
    have hquote : Text.isBlank '\'' = false := by decide
    rw [Text.trim, Text.trimBy, List.dropWhile_cons_of_pos hblank, List.cons_append,
      List.dropWhile_cons_of_neg (by simp [hquote]), ← List.cons_append,
      Text.dropEndWhile_concat_of_neg hquote]
  have hquotes := Text.trimBy_between (p := Text.isQuote) (q := '\'') (by decide) name.toList
  rw [missingName?, toList_missingMessage, splitOnce?_missingMark]
  simp only [Option.bind_eq_bind, Option.bind_some, htrim, hquotes]

/-! ## The messages are kept -/

/-- The message about a name is taken for a warning only if the name holds the mark of one. -/
theorem contains_missingMessage {name : String} (h : Text.contains name warningMark = false) :
    Text.contains (missingMessage name) warningMark = false := by
  have hmark : warningMark.toList = ['w', 'a', 'r', 'n', 'i', 'n', 'g', ':'] := by decide
  have hname (passed : List Char) :
      Text.splitOnceFrom warningMark.toList passed (name.toList ++ ['\'']) = none := by
    rw [← Option.not_isSome_iff_eq_none, Text.isSome_splitOnceFrom, List.infix_concat_iff]
    rintro (hsuffix | hpart)
    · obtain ⟨r, hr⟩ := hsuffix
      rw [hmark] at hr
      exact absurd (congrArg List.getLast? hr) (by simp)
    · rw [← Bool.not_eq_true, Text.contains_iff] at h
      exact h hpart
  have hhead : "tcc: error: ".toList = ['t', 'c', 'c', ':', ' ', 'e', 'r', 'r', 'o', 'r', ':',
    ' '] := by decide
  have hmissing : missingMark.toList = ['u', 'n', 'd', 'e', 'f', 'i', 'n', 'e', 'd', ' ', 's', 'y',
    'm', 'b', 'o', 'l'] := by decide
  rw [hmark] at hname
  rw [Text.contains, Text.occursIn, Text.splitOnce?, toList_missingMessage, hmark, hhead, hmissing]
  simp [Text.splitOnceFrom, List.isPrefixOf, hname]

/-! ## Names that are read back -/

/-- A name that is read back from the message about it, which is not taken for a warning. -/
structure Readable (name : String) : Prop where
  named : missingName? (missingMessage name) = some name
  kept : Text.contains (missingMessage name) warningMark = false

theorem IsIdentifier.readable {name : String} (h : IsIdentifier name) : Readable name where
  named := by
    have htrim : Text.trimBy Text.isQuote name.toList = name.toList := by
      rw [← Text.trimBy_between (q := '\'') (by decide)]
      exact Text.trimBy_quoted fun c hc => h.isQuote hc
    rw [missingName?_missingMessage, htrim, if_neg (by simpa using h.1), String.ofList_toList]
  kept := by
    refine contains_missingMessage ?_
    rw [← Bool.not_eq_true, Text.contains_iff]
    intro hpart
    exact h.not_mem (c := ':') (by decide) (hpart.subset (by decide))

/-- A name that was read from a message that was kept is readable. -/
theorem readable_of_missingName? {message name : String} (h : missingName? message = some name)
    (hkept : Text.contains message warningMark = false) : Readable name := by
  obtain ⟨⟨before, rest⟩, hsplit, hname⟩ := Option.bind_eq_some_iff.1 h
  dsimp only at hname
  split at hname
  · exact absurd hname (by simp)
  next hne =>
  have htoList : name.toList = Text.trimBy Text.isQuote (Text.trim rest) := by
    rw [← Option.some.inj hname, String.toList_ofList]
  constructor
  · rw [missingName?_missingMessage, htoList, Text.trimBy_trimBy, if_neg hne, hname]
  · refine contains_missingMessage ?_
    rw [← Bool.not_eq_true, Text.contains_iff] at hkept ⊢
    intro hpart
    have hrest : name.toList <:+: rest := by
      rw [htoList]
      exact (Text.trimBy_isInfix _ _).trans (Text.trimBy_isInfix _ _)
    exact hkept ((hpart.trans hrest).trans (Text.isSuffix_of_splitOnceFrom hsplit).isInfix)

/-- All messages about readable names are kept. -/
theorem keptMessages_missing {names : List String} (h : ∀ n ∈ names, Readable n) :
    keptMessages (names.map missingMessage) = names.map missingMessage := by
  rw [keptMessages, List.filter_eq_self]
  intro m hm
  obtain ⟨name, hname, rfl⟩ := List.mem_map.1 hm
  rw [(h name hname).kept]
  rfl

/-- The names that the messages about some readable names miss are those names. -/
theorem missingNames_missing {names : List String} (h : ∀ n ∈ names, Readable n) :
    missingNames (names.map missingMessage) = names := by
  induction names with
  | nil => rfl
  | cons name names ih =>
    rw [List.map_cons, missingNames, List.filterMap_cons, (h name (by simp)).named]
    have htail := ih fun n hn => h n (by simp [hn])
    rw [missingNames] at htail
    simp only [htail]

/-- A failure that is about some readable names misses those names. -/
theorem missingNames_failure {unitName : String} {names : List String}
    (h : ∀ n ∈ names, Readable n) :
    (Failure.compilation unitName (names.map missingMessage)).missingNames = names :=
  missingNames_missing h

/-- What is missed in messages that were kept is readable. -/
theorem readable_of_mem_missingNames {messages : List String} {name : String}
    (h : name ∈ missingNames (keptMessages messages)) : Readable name := by
  obtain ⟨message, hmessage, hname⟩ := List.mem_filterMap.1 h
  exact readable_of_missingName? hname (by simpa using (List.mem_filter.1 hmessage).2)

end LiveC
