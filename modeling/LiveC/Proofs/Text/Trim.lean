import LiveC.Text.Blank
import Mathlib.Data.List.DropRight
import Mathlib.Data.List.Induction
/-!
# What trimming leaves

Dropping characters of a class from the end does not get in the way of dropping them from the start.
So a text that has lost the blanks at its end is trimmed to what it was trimmed to before
(`trimmed_trimmedEnd`). Two further characters of the class, one at each end, make no difference
(`trimBy_between`): a text without quotation marks is what remains of it between two of them
(`trimBy_quoted`). A text is what `trimEnd` leaves of it and blanks behind that
(`exists_eq_trimEnd_append`).
-/

namespace LiveC.Text

variable {p : Char → Bool}

@[simp] theorem dropEndWhile_nil : dropEndWhile p [] = [] := rfl

theorem dropEndWhile_cons (c : Char) (s : List Char) : dropEndWhile p (c :: s) =
    if dropEndWhile p s = [] ∧ p c then [] else c :: dropEndWhile p s := by
  simp only [dropEndWhile, List.reverse_cons, List.dropWhile_append, List.reverse_eq_nil_iff]
  cases h : s.reverse.dropWhile p with
  | nil => by_cases hc : p c <;> simp [hc]
  | cons d r => simp

/-- What is dropped from both ends can be dropped from the end first. -/
theorem dropWhile_dropEndWhile (s : List Char) :
    (dropEndWhile p s).dropWhile p = dropEndWhile p (s.dropWhile p) := by
  induction s with
  | nil => rfl
  | cons c s ih =>
    by_cases hc : p c
    · rw [List.dropWhile_cons_of_pos hc, ← ih, dropEndWhile_cons]
      split
      · next h => rw [h.1]
      · rw [List.dropWhile_cons_of_pos hc]
    · rw [List.dropWhile_cons_of_neg hc, dropEndWhile_cons, if_neg (by simp [hc]),
        List.dropWhile_cons_of_neg hc]

theorem dropEndWhile_dropEndWhile (s : List Char) :
    dropEndWhile p (dropEndWhile p s) = dropEndWhile p s := by
  induction s with
  | nil => rfl
  | cons c s ih =>
    rw [dropEndWhile_cons]
    split
    · rfl
    · next h => rw [dropEndWhile_cons, ih, if_neg h]

theorem trimBy_dropEndWhile (s : List Char) : trimBy p (dropEndWhile p s) = trimBy p s := by
  rw [trimBy, dropWhile_dropEndWhile, dropEndWhile_dropEndWhile, trimBy]

/-- A string that has lost the blanks at its end is trimmed to what it was trimmed to before. -/
theorem trimmed_trimmedEnd (s : String) : trimmed (trimmedEnd s) = trimmed s := by
  simp only [trimmed, trimmedEnd, onString, String.toList_ofList]
  rw [trim, trimEnd, trimBy_dropEndWhile, trim]

theorem dropEndWhile_concat_of_pos {p : Char → Bool} {c : Char} (h : p c = true) (s : List Char) :
    dropEndWhile p (s ++ [c]) = dropEndWhile p s := by
  simp [dropEndWhile, h]

theorem dropEndWhile_concat_of_neg {p : Char → Bool} {c : Char} (h : p c = false) (s : List Char) :
    dropEndWhile p (s ++ [c]) = s ++ [c] := by
  simp [dropEndWhile, h]

/-- A text without characters of a class is left as it is. -/
theorem dropEndWhile_of_forall {p : Char → Bool} {s : List Char} (h : ∀ c ∈ s, p c = false) :
    dropEndWhile p s = s := by
  rcases List.eq_nil_or_concat s with rfl | ⟨r, c, rfl⟩
  · rfl
  · rw [List.concat_eq_append]
    exact dropEndWhile_concat_of_neg (h c (by simp)) r

/-- A text that was trimmed is left as it is. -/
theorem trimBy_trimBy (s : List Char) : trimBy p (trimBy p s) = trimBy p s := calc
  trimBy p (trimBy p s) = trimBy p (s.dropWhile p) := trimBy_dropEndWhile (s.dropWhile p)
  _ = trimBy p s := by rw [trimBy, List.dropWhile_idempotent, trimBy]

/-- A text between two characters of the class is trimmed to what it is trimmed to by itself. -/
theorem trimBy_between {q : Char} (hq : p q = true) (s : List Char) :
    trimBy p (q :: s ++ [q]) = trimBy p s := by
  rw [trimBy, List.cons_append, List.dropWhile_cons_of_pos hq, List.dropWhile_append]
  cases h : s.dropWhile p with
  | nil => simp [trimBy, h, List.dropWhile_cons_of_pos hq]
  | cons c r =>
    rw [if_neg (by simp), dropEndWhile_concat_of_pos hq, trimBy, h]

/-- A text is left as it is if its ends are not of the class. -/
theorem trimBy_of_ends {c d : Char} (hc : p c = false) (hd : p d = false) (s : List Char) :
    trimBy p (c :: s ++ [d]) = c :: s ++ [d] := by
  rw [trimBy, List.cons_append, List.dropWhile_cons_of_neg (by simp [hc]), ← List.cons_append,
    dropEndWhile_concat_of_neg hd]

/-- A text between quotation marks is what remains when they are trimmed. -/
theorem trimBy_quoted {s : List Char} (h : ∀ c ∈ s, isQuote c = false) :
    trimBy isQuote ('\'' :: s ++ ['\'']) = s := by
  rw [trimBy_between (by decide), trimBy]
  cases s with
  | nil => rfl
  | cons c s =>
    rw [List.dropWhile_cons_of_neg (by simp [h c (by simp)]), dropEndWhile_of_forall h]

/-! ## Blank ends -/

variable {s t : List Char}

theorem isBlankText_iff : isBlankText s = true ↔ ∀ c ∈ s, isBlank c = true := List.all_eq_true

theorem isBlankText_append :
    isBlankText (s ++ t) = (isBlankText s && isBlankText t) := List.all_append

/-- A text loses what is blank at its end. -/
theorem trimEnd_append_of_isBlankText (h : isBlankText t = true) :
    trimEnd (s ++ t) = trimEnd s := by
  induction t using List.reverseRecOn with
  | nil => rw [List.append_nil]
  | append_singleton t c ih =>
    rw [isBlankText_append, Bool.and_eq_true] at h
    have hc : isBlank c = true := isBlankText_iff.1 h.2 c (by simp)
    rw [← List.append_assoc, trimEnd, dropEndWhile_concat_of_pos hc, ← trimEnd, ih h.1]

theorem trimEnd_trimEnd (s : List Char) : trimEnd (trimEnd s) = trimEnd s :=
  dropEndWhile_dropEndWhile s

/-- A text is what is left of it and the blanks that it lost. -/
theorem exists_eq_trimEnd_append (s : List Char) :
    ∃ t, s = trimEnd s ++ t ∧ isBlankText t = true := by
  refine ⟨(s.reverse.takeWhile isBlank).reverse, ?_, ?_⟩
  · rw [trimEnd, dropEndWhile, ← List.reverse_append, List.takeWhile_append_dropWhile,
      List.reverse_reverse]
  · rw [isBlankText_iff]
    intro c hc
    exact List.mem_takeWhile_imp (List.mem_reverse.1 hc)

end LiveC.Text
