import LiveC.Text.Blank
import LiveC.Text.Split
import Mathlib.Data.List.Infix
import Mathlib.Data.List.TakeWhile
/-!
# Where a pattern stands

A search for a pattern succeeds exactly when the pattern is a part of the text
(`isSome_splitOnceFrom`), and it ends at the first occurrence (`splitOnceFrom_of_first`). A text is
split at the last occurrence of a character (`splitLast?_append`, `eq_of_splitLast?`). A pattern
does not reach over a character that it does not hold, so a text can be searched in parts between
such characters (`infix_append_cons_iff`), and a pattern does not stand where no character is its
first one (`infix_append_of_notMem`).
-/

namespace LiveC.Text

variable {pattern passed s t : List Char} {c : Char}

/-! ## Searching -/

/-- A pattern occurs in a text exactly when it is a part of it. -/
theorem isSome_splitOnceFrom : (splitOnceFrom pattern passed s).isSome = true ↔ pattern <:+: s := by
  induction s generalizing passed with
  | nil => cases pattern <;> simp [splitOnceFrom]
  | cons c s ih =>
    have hrest := @ih (c :: passed)
    rw [splitOnceFrom, List.infix_cons_iff, ← hrest, ← List.isPrefixOf_iff_prefix]
    split
    · next h => simp [h]
    · next h => simp [h]

theorem splitOnce?_eq_none_iff : splitOnce? pattern s = none ↔ ¬pattern <:+: s := by
  have hfound : (splitOnce? pattern s).isSome = true ↔ pattern <:+: s := isSome_splitOnceFrom
  rw [← hfound, Option.not_isSome_iff_eq_none]

theorem contains_iff {s pattern : String} :
    contains s pattern = true ↔ pattern.toList <:+: s.toList := isSome_splitOnceFrom

/-- What follows a pattern is the end of the text. -/
theorem isSuffix_of_splitOnceFrom {r : List Char × List Char}
    (h : splitOnceFrom pattern passed s = some r) : r.2 <:+ s := by
  induction s generalizing passed with
  | nil =>
    rw [splitOnceFrom] at h
    split at h
    · obtain rfl := Option.some.inj h
      exact List.suffix_rfl
    · exact absurd h (by simp)
  | cons c s ih =>
    rw [splitOnceFrom] at h
    split at h
    · obtain rfl := Option.some.inj h
      exact List.drop_suffix _ _
    · exact (ih h).trans (List.suffix_cons c s)

/-- A search ends where the pattern stands. -/
theorem splitOnceFrom_self (c : Char) :
    splitOnceFrom (c :: pattern) passed (c :: pattern ++ t) = some (passed.reverse, t) := by
  have hstart : (c :: pattern).isPrefixOf (c :: (pattern ++ t)) = true :=
    List.isPrefixOf_iff_prefix.2 (List.prefix_append (c :: pattern) t)
  rw [List.cons_append, splitOnceFrom, if_pos hstart, ← List.cons_append, List.drop_left]

/-- A search ends where the pattern stands for the first time: where it would not be found if its
last character were missing. -/
theorem splitOnceFrom_of_first (h : ¬(c :: pattern) <:+: s ++ (c :: pattern).dropLast)
    (passed t : List Char) :
    splitOnceFrom (c :: pattern) passed (s ++ (c :: pattern ++ t)) =
      some (passed.reverse ++ s, t) := by
  induction s generalizing passed with
  | nil => rw [List.nil_append, splitOnceFrom_self, List.append_nil]
  | cons d s ih =>
    have hhere : (c :: pattern).isPrefixOf (d :: (s ++ (c :: pattern ++ t))) = false := by
      rw [← Bool.not_eq_true, List.isPrefixOf_iff_prefix]
      intro hstart
      -- the pattern is not longer than what comes before its last character
      have hlonger : (d :: s) ++ (c :: pattern).dropLast <+:
          d :: (s ++ (c :: pattern ++ t)) := by
        rw [List.cons_append]
        exact List.cons_prefix_cons.2 ⟨rfl, (List.prefix_append_right_inj s).2
          ((List.dropLast_prefix _).trans (List.prefix_append _ _))⟩
      refine h (List.prefix_of_prefix_length_le hstart hlonger ?_).isInfix
      simp only [List.length_cons, List.length_append, List.length_dropLast]
      omega
    have hrest : ¬(c :: pattern) <:+: s ++ (c :: pattern).dropLast := fun hlater =>
      h (hlater.trans (List.infix_cons List.infix_rfl))
    rw [List.cons_append, splitOnceFrom, hhere, if_neg (by simp), ih hrest, List.reverse_cons,
      List.append_assoc, List.singleton_append]

/-! ## Splitting at the last occurrence -/

theorem splitLast?_append {mark : Char} (h : mark ∉ t) :
    splitLast? mark (s ++ mark :: t) = some (s, t) := by
  have hpass : ∀ c ∈ t.reverse, (c != mark) = true := by
    intro c hc
    rw [bne_iff_ne]
    rintro rfl
    exact h (List.mem_reverse.1 hc)
  rw [splitLast?, List.reverse_append, List.reverse_cons, List.append_assoc, List.singleton_append,
    List.span_eq_takeWhile_dropWhile, List.takeWhile_append_of_pos hpass,
    List.dropWhile_append_of_pos hpass, List.takeWhile_cons_of_neg (by simp),
    List.dropWhile_cons_of_neg (by simp)]
  simp

theorem splitLast?_of_notMem {mark : Char} (h : mark ∉ s) : splitLast? mark s = none := by
  have hpass : ∀ c ∈ s.reverse, (c != mark) = true := by
    intro c hc
    rw [bne_iff_ne]
    rintro rfl
    exact h (List.mem_reverse.1 hc)
  rw [splitLast?, List.span_eq_takeWhile_dropWhile, List.dropWhile_eq_nil_iff.2 hpass]

/-- What is split at the last occurrence of a mark is put together again. -/
theorem eq_of_splitLast? {mark : Char} {before after : List Char}
    (h : splitLast? mark s = some (before, after)) :
    s = before ++ mark :: after ∧ mark ∉ after := by
  by_cases hmem : mark ∈ s
  · obtain ⟨after', before', hs, hnone⟩ := List.eq_append_cons_of_mem (List.mem_reverse.2 hmem)
    have hsplit : s = before'.reverse ++ mark :: after'.reverse := by
      rw [← List.reverse_reverse s, hs, List.reverse_append, List.reverse_cons, List.append_assoc,
        List.singleton_append]
    have hnone' : mark ∉ after'.reverse := fun hmark => hnone (List.mem_reverse.1 hmark)
    rw [hsplit, splitLast?_append hnone'] at h
    obtain ⟨rfl, rfl⟩ := Prod.mk.inj (Option.some.inj h)
    exact ⟨hsplit, hnone'⟩
  · rw [splitLast?_of_notMem hmem] at h
    exact absurd h (by simp)

/-! ## Stripping and trimming -/

theorem stripStart?_append (start s : List Char) : stripStart? start (start ++ s) = some s := by
  rw [stripStart?, if_pos (List.isPrefixOf_iff_prefix.2 (List.prefix_append _ _)), List.drop_left]

/-- What is stripped of its start is put together again. -/
theorem eq_of_stripStart? {start s r : List Char} (h : stripStart? start s = some r) :
    s = start ++ r := by
  unfold stripStart? at h
  split at h
  · next hstart =>
    obtain ⟨r', rfl⟩ := List.isPrefixOf_iff_prefix.1 hstart
    rw [List.drop_left] at h
    rw [Option.some.inj h]
  · simp at h

theorem stripStart?_eq_none_iff {start s : List Char} :
    stripStart? start s = none ↔ ¬start <+: s := by
  rw [stripStart?, ← List.isPrefixOf_iff_prefix]
  split <;> simp_all

theorem trimBy_isInfix (p : Char → Bool) (s : List Char) : trimBy p s <:+: s := by
  have hend : trimBy p s <+: s.dropWhile p := by
    rw [trimBy, dropEndWhile, ← List.reverse_suffix, List.reverse_reverse]
    exact List.dropWhile_suffix p
  exact hend.isInfix.trans (List.dropWhile_suffix p).isInfix

/-! ## Parts between characters that a pattern does not hold -/

/-- What stands at the start of a text ends before a character that it does not hold. -/
theorem prefix_of_prefix_append_cons (hc : c ∉ pattern) (h : pattern <+: s ++ c :: t) :
    pattern <+: s := by
  induction pattern generalizing s with
  | nil => exact List.nil_prefix
  | cons d pattern ih =>
    cases s with
    | nil =>
      obtain ⟨rfl, -⟩ := List.cons_prefix_cons.1 h
      exact absurd List.mem_cons_self hc
    | cons e s =>
      obtain ⟨rfl, hrest⟩ := List.cons_prefix_cons.1 h
      exact List.cons_prefix_cons.2 ⟨rfl, ih (fun hmem => hc (List.mem_cons_of_mem d hmem)) hrest⟩

/-- A pattern does not reach over a character that it does not hold. -/
theorem infix_append_cons_iff (hc : c ∉ pattern) :
    pattern <:+: s ++ c :: t ↔ pattern <:+: s ∨ pattern <:+: t := by
  constructor
  · intro h
    induction s with
    | nil =>
      rcases List.infix_cons_iff.1 h with hstart | hlater
      · exact .inl (prefix_of_prefix_append_cons (s := []) hc hstart).isInfix
      · exact .inr hlater
    | cons d s ih =>
      rcases List.infix_cons_iff.1 h with hstart | hlater
      · exact .inl (prefix_of_prefix_append_cons (s := d :: s) hc hstart).isInfix
      · exact (ih hlater).imp_left fun hs => List.infix_cons hs
  · rintro (h | h)
    · exact h.trans (List.prefix_append s (c :: t)).isInfix
    · exact (List.infix_cons h).trans (List.suffix_append s (c :: t)).isInfix

/-- A pattern stands behind characters that it does not hold. -/
theorem infix_of_infix_append (hne : pattern ≠ []) (hs : ∀ c ∈ s, c ∉ pattern)
    (h : pattern <:+: s ++ t) : pattern <:+: t := by
  induction s with
  | nil => exact h
  | cons c s ih =>
    have hrest : ∀ d ∈ s, d ∉ pattern := fun d hd => hs d (List.mem_cons_of_mem c hd)
    rcases (infix_append_cons_iff (s := []) (hs c List.mem_cons_self)).1 h with hnil | hlater
    · exact absurd (List.infix_nil.1 hnil) hne
    · exact ih hrest hlater

/-- A pattern does not start where no character is its first one. -/
theorem infix_append_of_notMem (hc : c ∉ s) (h : (c :: pattern) <:+: s ++ t) :
    (c :: pattern) <:+: t := by
  induction s with
  | nil => exact h
  | cons d s ih =>
    rcases List.infix_cons_iff.1 h with hstart | hlater
    · obtain ⟨rfl, -⟩ := List.cons_prefix_cons.1 hstart
      exact absurd List.mem_cons_self hc
    · exact ih (fun hmem => hc (List.mem_cons_of_mem d hmem)) hlater

end LiveC.Text
