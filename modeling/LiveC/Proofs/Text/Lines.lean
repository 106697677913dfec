import LiveC.Proofs.Text.Trim
import LiveC.Text.Split
/-!
# Pieces and lines

Two rules split a text into lines. A compiler splits it at every line feed (`splitAll`), which makes
one piece more than there are line feeds; `lines` drops a last piece that is empty, and a carriage
return before a line feed. `splitAll_append_cons` says that the pieces of a text are those of its
parts on both sides of a line feed. For a text that does not end in a line feed both rules give the
same number of lines (`length_lines`). The lines that are not blank are the pieces that are not, up
to blanks at their ends (`filter_linesOfPieces`).
-/

namespace LiveC.Text

section Pieces

variable {α : Type} [BEq α] {mark c : α} {s t : List α}

@[simp] theorem splitAll_nil : splitAll mark ([] : List α) = [[]] := rfl

theorem splitAll_cons (c : α) (s : List α) : splitAll mark (c :: s) =
    if c == mark then [] :: splitAll mark s
    else match splitAll mark s with
      | [] => [[c]]
      | p :: ps => (c :: p) :: ps := rfl

theorem splitAll_ne_nil (mark : α) (s : List α) : splitAll mark s ≠ [] := by
  cases s with
  | nil => simp
  | cons c s =>
    rw [splitAll_cons]
    split
    · simp
    · split <;> simp

theorem splitAll_cons_of_eq (h : (c == mark) = true) (s : List α) :
    splitAll mark (c :: s) = [] :: splitAll mark s := by
  rw [splitAll_cons, if_pos h]

theorem splitAll_cons_of_ne (h : (c == mark) = false) {p : List α} {ps : List (List α)}
    (hs : splitAll mark s = p :: ps) : splitAll mark (c :: s) = (c :: p) :: ps := by
  rw [splitAll_cons, h, if_neg (by simp), hs]

/-- The pieces of a text are those before a mark and those after it. -/
theorem splitAll_append_cons (h : (mark == mark) = true) (s t : List α) :
    splitAll mark (s ++ mark :: t) = splitAll mark s ++ splitAll mark t := by
  induction s with
  | nil => rw [List.nil_append, splitAll_cons_of_eq h]; rfl
  | cons c s ih =>
    obtain ⟨p, ps, hs⟩ := List.exists_cons_of_ne_nil (splitAll_ne_nil mark s)
    rw [hs] at ih
    cases hc : c == mark with
    | true => rw [List.cons_append, splitAll_cons_of_eq hc, splitAll_cons_of_eq hc, ih, hs]; rfl
    | false =>
      rw [List.cons_append, splitAll_cons_of_ne hc hs, splitAll_cons_of_ne hc ih]
      rfl

/-- A text without a mark is one piece. -/
theorem splitAll_eq_singleton (h : ∀ c ∈ s, (c == mark) = false) : splitAll mark s = [s] := by
  induction s with
  | nil => rfl
  | cons c s ih => exact splitAll_cons_of_ne (h c (by simp)) (ih fun d hd => h d (by simp [hd]))

/-- What stands in front of a text without a mark belongs to its first piece. -/
theorem splitAll_append (h : ∀ c ∈ s, (c == mark) = false) {p : List α} {ps : List (List α)}
    (ht : splitAll mark t = p :: ps) : splitAll mark (s ++ t) = (s ++ p) :: ps := by
  induction s with
  | nil => exact ht
  | cons c s ih =>
    exact splitAll_cons_of_ne (h c (by simp)) (ih fun d hd => h d (by simp [hd]))

/-- The last piece is empty exactly when the text is, or ends in a mark. -/
theorem splitAll_concat {mark : α} (h : (c == mark) = false) (s : List α) :
    ∃ ps p, splitAll mark (s ++ [c]) = ps ++ [p ++ [c]] := by
  induction s with
  | nil => exact ⟨[], [], splitAll_cons_of_ne h rfl⟩
  | cons d s ih =>
    obtain ⟨ps, p, hs⟩ := ih
    cases hd : d == mark with
    | true => exact ⟨[] :: ps, p, by rw [List.cons_append, splitAll_cons_of_eq hd, hs]; rfl⟩
    | false =>
      cases ps with
      | nil => exact ⟨[], d :: p, splitAll_cons_of_ne hd hs⟩
      | cons q ps => exact ⟨(d :: q) :: ps, p, splitAll_cons_of_ne hd hs⟩

theorem length_splitAll_le (mark : α) (s : List α) : (splitAll mark s).length ≤ s.length + 1 := by
  induction s with
  | nil => simp
  | cons c s ih =>
    obtain ⟨p, ps, hs⟩ := List.exists_cons_of_ne_nil (splitAll_ne_nil mark s)
    rw [hs] at ih
    cases hc : c == mark with
    | true => rw [splitAll_cons_of_eq hc, hs]; simpa using ih
    | false =>
      rw [splitAll_cons_of_ne hc hs]
      simp only [List.length_cons] at ih ⊢
      omega

end Pieces

/-! ## Pieces and what they hold -/

/-- No piece holds a mark. -/
theorem not_mem_of_mem_splitAll {mark : Char} {s p : List Char} (hp : p ∈ splitAll mark s) :
    mark ∉ p := by
  induction s generalizing p with
  | nil =>
    obtain rfl := List.mem_singleton.1 hp
    simp
  | cons d s ih =>
    obtain ⟨q, qs, hs⟩ := List.exists_cons_of_ne_nil (splitAll_ne_nil mark s)
    rw [hs] at ih
    cases hc : d == mark with
    | true =>
      rw [splitAll_cons_of_eq hc, hs] at hp
      rcases List.mem_cons.1 hp with rfl | hp
      · simp
      · exact ih hp
    | false =>
      rw [splitAll_cons_of_ne hc hs] at hp
      rcases List.mem_cons.1 hp with rfl | hp
      · have hq := ih List.mem_cons_self
        have hne : mark ≠ d := fun h => absurd hc (by simp [h])
        simp [hne, hq]
      · exact ih (List.mem_cons_of_mem _ hp)

theorem splitAll_of_notMem {mark : Char} {s : List Char} (h : mark ∉ s) : splitAll mark s = [s] :=
  splitAll_eq_singleton fun _ hc => beq_eq_false_iff_ne.2 fun e => h (e ▸ hc)


section Join

variable {α : Type} {mark c : α} {p : List α} {ps : List (List α)}

theorem splitAll_eq_splitOn [BEq α] (mark : α) (s : List α) : splitAll mark s = s.splitOn mark := by
  induction s with
  | nil => simp [List.splitOn]
  | cons c s ih =>
    rw [splitAll_cons, List.splitOn, List.splitOnP_cons_eq_if_modifyHead, ← List.splitOn, ← ih]
    split
    · rfl
    · obtain ⟨p, ps, hs⟩ := List.exists_cons_of_ne_nil (splitAll_ne_nil mark s)
      rw [hs, List.modifyHead_cons]

/-- The pieces of a text with the marks between them are the text. -/
theorem intercalate_splitAll [BEq α] [LawfulBEq α] (mark : α) (s : List α) :
    [mark].intercalate (splitAll mark s) = s := by
  rw [splitAll_eq_splitOn, List.intercalate_splitOn]

theorem eq_or_exists_mem_of_mem_intercalate (h : c ∈ [mark].intercalate ps) :
    c = mark ∨ ∃ p ∈ ps, c ∈ p := by
  induction ps with
  | nil => simp at h
  | cons p ps ih =>
    cases ps with
    | nil => exact .inr ⟨p, by simp, by simpa using h⟩
    | cons q ps =>
      rw [List.intercalate_cons_cons, List.mem_append, List.mem_append, List.mem_singleton] at h
      rcases h with (h | h) | h
      · exact .inr ⟨p, by simp, h⟩
      · exact .inl h
      · rcases ih h with hmark | ⟨r, hr, hc⟩
        · exact .inl hmark
        · exact .inr ⟨r, List.mem_cons_of_mem p hr, hc⟩

theorem exists_intercalate_eq_of_mem (h : p ∈ ps) (mark : α) :
    ∃ l r, [mark].intercalate ps = l ++ p ++ r := by
  induction ps with
  | nil => simp at h
  | cons q ps ih =>
    cases ps with
    | nil =>
      obtain rfl := List.mem_singleton.1 h
      exact ⟨[], [], by simp⟩
    | cons q' ps =>
      rw [List.intercalate_cons_cons]
      rcases List.mem_cons.1 h with rfl | h
      · exact ⟨[], [mark] ++ [mark].intercalate (q' :: ps), by simp⟩
      · obtain ⟨l, r, hlr⟩ := ih h
        exact ⟨q ++ [mark] ++ l, r, by simp [hlr]⟩

end Join

/-! ## Texts that do not end in a line feed -/

/-- A text whose last character is no line feed. -/
def Closed (s : List Char) : Prop := ∃ r c, s = r ++ [c] ∧ c ≠ '\n'

variable {s : List Char}

theorem length_linesOfPieces {ps : List (List Char)} {p : List Char} (hp : p ≠ []) :
    (linesOfPieces (ps ++ [p])).length = (ps ++ [p]).length := by
  induction ps with
  | nil => simp [linesOfPieces, List.isEmpty_eq_false_iff.2 hp]
  | cons q ps ih =>
    obtain ⟨q', qs, hqs⟩ := List.exists_cons_of_ne_nil (l := ps ++ [p]) (by simp)
    rw [List.cons_append, hqs, linesOfPieces, ← hqs, List.length_cons, List.length_cons, ih]

/-- Nothing behind the last line feed is no line. -/
theorem length_linesOfPieces_nil (ps : List (List Char)) :
    (linesOfPieces (ps ++ [[]])).length = ps.length := by
  induction ps with
  | nil => rfl
  | cons q ps ih =>
    obtain ⟨q', qs, hqs⟩ := List.exists_cons_of_ne_nil (l := ps ++ [[]]) (by simp)
    rw [List.cons_append, hqs, linesOfPieces, ← hqs, List.length_cons, List.length_cons, ih]

/-- A text that does not end in a line feed has as many lines as pieces. -/
theorem length_lines (h : Closed s) : (lines s).length = (splitAll '\n' s).length := by
  obtain ⟨r, c, rfl, hc⟩ := h
  have hmark : (c == '\n') = false := beq_eq_false_iff_ne.2 hc
  obtain ⟨ps, p, hs⟩ := splitAll_concat hmark r
  rw [lines, hs, length_linesOfPieces (by simp)]

/-! ## Lines that are not blank -/

variable {p : List Char}

/-- A carriage return at the end is blank. -/
theorem exists_eq_withoutReturn_append (s : List Char) :
    ∃ t, s = withoutReturn s ++ t ∧ isBlankText t = true := by
  unfold withoutReturn stripEnd?
  split
  · next h =>
    rw [List.isSuffixOf_iff_suffix] at h
    obtain ⟨r, hr⟩ := h
    exact ⟨['\r'], by simp [← hr], by decide⟩
  · exact ⟨[], by simp, rfl⟩

theorem trimEnd_withoutReturn (s : List Char) : trimEnd (withoutReturn s) = trimEnd s := by
  obtain ⟨t, hs, ht⟩ := exists_eq_withoutReturn_append s
  have hboth : trimEnd (withoutReturn s ++ t) = trimEnd (withoutReturn s) :=
    trimEnd_append_of_isBlankText ht
  rw [← hs] at hboth
  exact hboth.symm

theorem isBlankText_withoutReturn (s : List Char) :
    isBlankText (withoutReturn s) = isBlankText s := by
  obtain ⟨t, hs, ht⟩ := exists_eq_withoutReturn_append s
  have hboth : isBlankText (withoutReturn s ++ t) = isBlankText (withoutReturn s) := by
    rw [isBlankText_append, ht, Bool.and_true]
  rw [← hs] at hboth
  exact hboth.symm

/-- A text that is not blank has a piece that is not. -/
theorem exists_mem_splitAll_of_not_isBlankText (h : isBlankText s = false) :
    ∃ p ∈ splitAll '\n' s, isBlankText p = false := by
  by_contra! hblank
  have hall : isBlankText s = true := by
    rw [isBlankText_iff]
    intro c hc
    rw [← intercalate_splitAll '\n' s] at hc
    rcases eq_or_exists_mem_of_mem_intercalate hc with rfl | ⟨p, hp, hcp⟩
    · decide
    · exact isBlankText_iff.1 (by simpa using hblank p hp) c hcp
  simp [hall] at h

/-- The lines that are not blank are the pieces that are not, up to a carriage return at their
ends. -/
theorem filter_linesOfPieces (ps : List (List Char)) :
    ((linesOfPieces ps).filter (!isBlankText ·)).map trimEnd =
      (ps.filter (!isBlankText ·)).map trimEnd := by
  induction ps using linesOfPieces.induct with
  | case1 => rfl
  | case2 last hlast => simp [linesOfPieces, List.isEmpty_iff.1 hlast, isBlankText]
  | case3 last hlast => simp [linesOfPieces, hlast]
  | case4 p q ps ih =>
    rw [linesOfPieces, List.filter_cons, List.filter_cons, isBlankText_withoutReturn]
    split
    · rw [List.map_cons, List.map_cons, trimEnd_withoutReturn, ih]
    · exact ih

/-- A line is a piece, or the beginning of one. -/
theorem exists_of_mem_linesOfPieces {ps : List (List Char)} (h : p ∈ linesOfPieces ps) :
    ∃ q ∈ ps, ∃ t, q = p ++ t := by
  induction ps using linesOfPieces.induct with
  | case1 => simp [linesOfPieces] at h
  | case2 last hlast => simp [linesOfPieces, hlast] at h
  | case3 last hlast =>
    have hlast : p = last := by simpa [linesOfPieces, hlast] using h
    exact ⟨last, by simp, [], by rw [hlast, List.append_nil]⟩
  | case4 q q' ps ih =>
    rw [linesOfPieces] at h
    rcases List.mem_cons.1 h with rfl | h
    · obtain ⟨t, ht, _⟩ := exists_eq_withoutReturn_append q
      exact ⟨q, by simp, t, ht⟩
    · obtain ⟨r, hr, ht⟩ := ih h
      exact ⟨r, List.mem_cons_of_mem q hr, ht⟩

/-- A line stands in the text. -/
theorem exists_eq_of_mem_lines (h : p ∈ lines s) : ∃ l r, s = l ++ p ++ r := by
  obtain ⟨q, hq, t, rfl⟩ := exists_of_mem_linesOfPieces h
  obtain ⟨l, r, hlr⟩ := exists_intercalate_eq_of_mem hq '\n'
  exact ⟨l, t ++ r, by rw [← intercalate_splitAll '\n' s, hlr]; simp⟩

/-- A line holds no line feed. -/
theorem feed_notMem_of_mem_lines (h : p ∈ lines s) : '\n' ∉ p := by
  obtain ⟨q, hq, t, rfl⟩ := exists_of_mem_linesOfPieces h
  intro hmem
  exact not_mem_of_mem_splitAll hq (List.mem_append_left t hmem)

end LiveC.Text
