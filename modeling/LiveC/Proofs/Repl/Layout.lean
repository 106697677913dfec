import LiveC.Arguments
import LiveC.Proofs.Text.Lines
import LiveC.Repl.Fragment
/-!
# Where the lines of a unit come from

The unit of an interactive session is laid out line by line: `Code.laid` lists its lines, each with
its origin, which is a line of a fragment or nothing for the lines that the engine adds. These are
the lines that a compiler sees (`splitAll_unit`). The line map, which is made from line counts
alone, says the same: it takes a line of the unit back to its origin, whatever the fragments hold,
as long as none of them ends in a line feed (`resolve?_lineMap`).
-/

namespace LiveC

open Text

/-- A line of a unit: its text, and the label and the line of the fragment that it came from. -/
structure UnitLine where
  text : List Char
  origin : Option (String × Nat)
  deriving DecidableEq, Repr

namespace Fragment

/-- The lines of a fragment that stands behind an indentation. -/
def laid (indent : List Char) (f : Fragment) : List UnitLine :=
  (splitAll '\n' (indent ++ f.text.toList)).mapIdx fun i text => ⟨text, some (f.label, i + 1)⟩

/-- A fragment whose text does not end in a line feed. -/
def Closed (f : Fragment) : Prop := Text.Closed f.text.toList

end Fragment

namespace Code

/-- The lines of a text of the engine's own, which ends in a line feed. -/
def injected (text : String) : List UnitLine :=
  (splitAll '\n' text.toList).dropLast.map fun line => ⟨line, none⟩

/-- The lines of the unit. -/
def laid (c : Code) : List UnitLine :=
  injected apiDeclarations ++ c.declarations.flatMap (Fragment.laid []) ++ injected wrapperHead ++
    c.statements.flatMap (Fragment.laid indent.toList) ++ injected wrapperTail

/-- The label and the line of the fragment that a line of the unit came from; lines are counted from
one. -/
def originAt? (c : Code) (line : Nat) : Option (String × Nat) :=
  c.laid[line - 1]?.bind UnitLine.origin

/-- All fragments of the code. -/
def fragments (c : Code) : List Fragment := c.declarations ++ c.statements

end Code

/-! ## The lines that a compiler sees -/

theorem Fragment.map_text_laid (indent : List Char) (f : Fragment) :
    (f.laid indent).map UnitLine.text = splitAll '\n' (indent ++ f.text.toList) := by
  refine List.ext_getElem? fun i => ?_
  rw [laid, List.getElem?_map, List.getElem?_mapIdx, Option.map_map]
  exact Option.map_id'

theorem Fragment.toList_layOut_cons (indent : String) (f : Fragment) (fs : List Fragment) :
    (layOut indent (f :: fs)).toList =
      indent.toList ++ f.text.toList ++ '\n' :: (layOut indent fs).toList := by
  simp [layOut, String.toList_append]

/-- Fragments that are laid out in front of a text give their lines in front of its lines. -/
theorem Fragment.splitAll_layOut (indent : String) (fs : List Fragment) (t : List Char) :
    splitAll '\n' ((layOut indent fs).toList ++ t) =
      (fs.flatMap (laid indent.toList)).map UnitLine.text ++ splitAll '\n' t := by
  induction fs with
  | nil => rfl
  | cons f fs ih =>
    rw [toList_layOut_cons, List.append_assoc, List.cons_append,
      splitAll_append_cons (by decide), ih, List.flatMap_cons, List.map_append, map_text_laid,
      List.append_assoc]

namespace Code

theorem map_text_injected {text : String} {r : List Char} (h : text.toList = r ++ ['\n']) :
    (injected text).map UnitLine.text = splitAll '\n' r := by
  rw [injected, List.map_map, h, splitAll_append_cons (by decide)]
  simp [Function.comp_def]

/-- A text of the engine's own in front of a text gives its lines in front of that text's. -/
theorem splitAll_injected {text : String} {r : List Char} (h : text.toList = r ++ ['\n'])
    (t : List Char) : splitAll '\n' (text.toList ++ t) =
      (injected text).map UnitLine.text ++ splitAll '\n' t := by
  have hself : ('\n' == '\n') = true := by decide
  rw [map_text_injected h, h, List.append_assoc, List.cons_append, splitAll_append_cons hself]
  rfl

theorem length_injected {text : String} {r : List Char} (h : text.toList = r ++ ['\n']) :
    (injected text).length = (linesOf text).length := by
  rw [← List.length_map UnitLine.text, map_text_injected h, linesOf, List.length_map, lines, h,
    splitAll_append_cons (by decide), splitAll_nil, length_linesOfPieces_nil]

theorem toList_apiDeclarations : ∃ r, apiDeclarations.toList = r ++ ['\n'] := by
  refine List.getLast?_eq_some_iff.1 ((congrArg List.getLast? String.toList_append).trans ?_)
  exact List.getLast?_append.trans
    (congrArg (Option.or · _) ((congrArg List.getLast? String.toList_ofList).trans rfl))

theorem toList_wrapperHead : ∃ r, wrapperHead.toList = r ++ ['\n'] :=
  ⟨wrapperHead.toList.dropLast, by decide⟩

theorem toList_wrapperTail : ∃ r, wrapperTail.toList = r ++ ['\n'] :=
  ⟨wrapperTail.toList.dropLast, by decide⟩

theorem hasNul_apiDeclarations : hasNul apiDeclarations = false :=
  (hasNul_append _ _).trans
    (Bool.or_eq_false_iff.2 ⟨(hasNul_ofList _).trans rfl, (hasNul_ofList _).trans rfl⟩)

/-- What the engine adds to the fragments holds no NUL. -/
theorem hasNul_unit (c : Code) :
    hasNul c.unit = (hasNul c.declarationText || hasNul c.statementText) := by
  have hhead : hasNul wrapperHead = false := by decide +kernel
  have htail : hasNul wrapperTail = false := by decide +kernel
  rw [unit, hasNul_append, hasNul_append, hasNul_append, hasNul_append, hasNul_apiDeclarations,
    hhead, htail, Bool.or_false, Bool.or_false, Bool.false_or]

/-- **The lines of a unit** are those laid out, and nothing follows the last line feed. -/
theorem splitAll_unit (c : Code) :
    splitAll '\n' c.unit.toList = c.laid.map UnitLine.text ++ [[]] := by
  obtain ⟨r₁, h₁⟩ := toList_apiDeclarations
  obtain ⟨r₂, h₂⟩ := toList_wrapperHead
  obtain ⟨r₃, h₃⟩ := toList_wrapperTail
  have hempty : "".toList = [] := rfl
  have hunit : c.unit.toList = apiDeclarations.toList ++ ((Fragment.layOut "" c.declarations).toList
      ++ (wrapperHead.toList ++ ((Fragment.layOut indent c.statements).toList ++
        (wrapperTail.toList ++ [])))) := by
    simp only [unit, declarationText, statementText, String.toList_append, List.append_assoc,
      List.append_nil]
  rw [hunit, splitAll_injected h₁, Fragment.splitAll_layOut, splitAll_injected h₂,
    Fragment.splitAll_layOut, splitAll_injected h₃, laid, hempty]
  simp only [List.map_append, List.append_assoc, splitAll_nil]

end Code

/-! ## The line map -/

/-- What the segments of a map say of a line. -/
def Segment.lookup (segments : List Segment) (line : Nat) : Option (String × Nat) :=
  (segments.find? (·.covers line)).map fun s => (s.origin, s.originLine + (line - s.first))

theorem Segment.lookup_append (ss ts : List Segment) (line : Nat) :
    lookup (ss ++ ts) line = (lookup ss line).or (lookup ts line) := by
  rw [lookup, lookup, lookup, List.find?_append, Option.map_or]

/-- The map resolves a span by the segments. -/
theorem Code.resolve?_eq_lookup (c : Code) {line : Nat} (h : 1 ≤ line) (column length : Nat) :
    c.lineMap.resolve? ⟨generatedFile, line, column, length⟩ =
      (Segment.lookup c.lineMap.segments line).map fun o => ⟨o.1, o.2, column, length⟩ := by
  have hfile : (generatedFile == c.lineMap.file) = true := beq_self_eq_true _
  have hknown : Span.isKnown ⟨generatedFile, line, column, length⟩ = true := by
    simpa [Span.isKnown] using Nat.lt_of_lt_of_le Nat.zero_lt_one h
  rw [LineMap.resolve?, hfile, hknown, Bool.and_self, if_pos rfl, Segment.lookup, Option.map_map]
  rfl

namespace Fragment

variable {f : Fragment} {fs : List Fragment}

/-- A fragment that does not end in a line feed is counted as many lines as it is laid out in. -/
theorem length_laid (h : f.Closed) {indent : List Char}
    (hindent : ∀ c ∈ indent, (c == '\n') = false) :
    (f.laid indent).length = f.lineCount := by
  obtain ⟨p, ps, hp⟩ := List.exists_cons_of_ne_nil (splitAll_ne_nil '\n' f.text.toList)
  have hlines : (linesOf f.text).length = (p :: ps).length := by
    rw [linesOf, List.length_map, length_lines h, hp]
  rw [laid, List.length_mapIdx, splitAll_append hindent hp, lineCount, hlines, List.length_cons,
    List.length_cons]
  omega

theorem length_flatMap_laid (h : ∀ f ∈ fs, f.Closed) {indent : List Char}
    (hindent : ∀ c ∈ indent, (c == '\n') = false) :
    (fs.flatMap (laid indent)).length = totalLines fs := by
  induction fs with
  | nil => rfl
  | cons f fs ih =>
    have hrest := ih fun g hg => h g (by simp [hg])
    rw [List.flatMap_cons, List.length_append, length_laid (h f (by simp)) hindent, hrest]
    rfl

/-- The origin of a line of a fragment. -/
theorem origin_laid (indent : List Char) (f : Fragment) (i : Nat) :
    (f.laid indent)[i]?.bind UnitLine.origin =
      if i < (f.laid indent).length then some (f.label, i + 1) else none := by
  split
  · next h =>
    rw [List.getElem?_eq_getElem h, Option.bind_some, List.getElem_of_eq (by rw [laid]) h,
      List.getElem_mapIdx]
  · next h => rw [List.getElem?_eq_none (Nat.le_of_not_lt h), Option.bind_none]

/-- No segment of fragments that are laid out from a line on covers an earlier line. -/
theorem lookup_segments_of_lt {first line : Nat} (h : line < first) (fs : List Fragment) :
    Segment.lookup (segments first fs) line = none := by
  induction fs generalizing first with
  | nil => rfl
  | cons f fs ih =>
    have hcovers : Segment.covers ⟨first, f.lineCount, f.label, 1⟩ line = false := by
      simp only [Segment.covers, Bool.and_eq_false_iff, decide_eq_false_iff_not]
      exact .inl (by omega)
    have hrest : Segment.lookup (segments (first + f.lineCount) fs) line = none := ih (by omega)
    rw [Segment.lookup] at hrest ⊢
    rw [segments, List.find?_cons_of_neg (by simp [hcovers]), hrest]

/-- The segments of fragments that are laid out from a line on say where their lines come from. -/
theorem lookup_segments {first line : Nat} (h : first ≤ line) (hfs : ∀ f ∈ fs, f.Closed)
    {indent : List Char} (hindent : ∀ c ∈ indent, (c == '\n') = false) :
    Segment.lookup (segments first fs) line =
      (fs.flatMap (laid indent))[line - first]?.bind UnitLine.origin := by
  induction fs generalizing first with
  | nil => rfl
  | cons f fs ih =>
    have hlength := length_laid (hfs f (by simp)) hindent
    have hpos : 1 ≤ f.lineCount := Nat.le_max_left 1 _
    rw [List.flatMap_cons, List.getElem?_append, Segment.lookup, segments]
    by_cases hline : line < first + f.lineCount
    · have hcovers : Segment.covers ⟨first, f.lineCount, f.label, 1⟩ line = true := by
        simp only [Segment.covers, Bool.and_eq_true, decide_eq_true_eq]
        exact ⟨h, by omega⟩
      rw [List.find?_cons_of_pos (by simp [hcovers]), if_pos (by omega), origin_laid,
        if_pos (by omega), Option.map_some, Nat.add_comm]
    · have hcovers : Segment.covers ⟨first, f.lineCount, f.label, 1⟩ line = false := by
        simp only [Segment.covers, Bool.and_eq_false_iff, decide_eq_false_iff_not]
        exact .inr (by omega)
      have hnext : first + f.lineCount ≤ line := by omega
      have hrest := ih hnext fun g hg => hfs g (by simp [hg])
      rw [Segment.lookup] at hrest
      rw [List.find?_cons_of_neg (by simp [hcovers]), if_neg (by omega), hrest, hlength,
        Nat.sub_add_eq]

end Fragment

namespace Code

theorem length_injected_apiDeclarations : (injected apiDeclarations).length + 1 = firstLine := by
  obtain ⟨r, h⟩ := toList_apiDeclarations
  exact congrArg (· + 1) (length_injected h)

theorem length_injected_wrapperHead : (injected wrapperHead).length = 1 := by decide

theorem origin_injected (text : String) (i : Nat) :
    (injected text)[i]?.bind UnitLine.origin = none := by
  rw [injected, List.getElem?_map]
  cases (splitAll '\n' text.toList).dropLast[i]? <;> rfl

theorem feed_notMem_indent : ∀ d ∈ indent.toList, (d == '\n') = false := by
  have hall : indent.toList.all (· != '\n') = true := by decide
  intro d hd
  simpa using List.all_eq_true.1 hall d hd

/-- **The line map is exact.** A line of the unit is resolved to its origin, and a line that is of
the engine's own, or beyond the unit, is not resolved. -/
theorem resolve?_lineMap {c : Code} (hc : ∀ f ∈ c.fragments, f.Closed) {line : Nat} (h : 1 ≤ line)
    (column length : Nat) : c.lineMap.resolve? ⟨generatedFile, line, column, length⟩ =
      (c.originAt? line).map fun o => ⟨o.1, o.2, column, length⟩ := by
  have hdeclarations : ∀ f ∈ c.declarations, f.Closed := fun f hf =>
    hc f (List.mem_append_left _ hf)
  have hstatements : ∀ f ∈ c.statements, f.Closed := fun f hf => hc f (List.mem_append_right _ hf)
  have hnone : ∀ d ∈ ([] : List Char), (d == '\n') = false := by simp
  have hindent := feed_notMem_indent
  have hapi := length_injected_apiDeclarations
  have hhead := length_injected_wrapperHead
  have hlength := Fragment.length_flatMap_laid hdeclarations hnone
  have hlength' := Fragment.length_flatMap_laid hstatements hindent
  have hfirst : c.firstStatementLine = firstLine + Fragment.totalLines c.declarations + 1 := rfl
  have htail := origin_injected wrapperTail
  rw [resolve?_eq_lookup c h, lineMap, Segment.lookup_append, originAt?, laid]
  refine congrArg (Option.map _) ?_
  simp only [List.getElem?_append, List.length_append, hlength, hlength', hhead]
  by_cases h₁ : line < firstLine
  · -- the declarations of the engine's routines
    rw [Fragment.lookup_segments_of_lt h₁, Fragment.lookup_segments_of_lt (by omega),
      if_pos (by omega), if_pos (by omega), if_pos (by omega), if_pos (by omega), origin_injected]
    rfl
  rw [Fragment.lookup_segments (Nat.le_of_not_lt h₁) hdeclarations hnone]
  by_cases h₂ : line < firstLine + Fragment.totalLines c.declarations
  · rw [Fragment.lookup_segments_of_lt (by omega), if_pos (by omega), if_pos (by omega),
      if_pos (by omega), if_neg (by omega), Option.or_none]
    have hplace : line - firstLine = line - 1 - (injected apiDeclarations).length := by omega
    rw [hplace]
  rw [List.getElem?_eq_none (by rw [hlength]; omega), Option.bind_none]
  by_cases h₃ : line < c.firstStatementLine
  · rw [Fragment.lookup_segments_of_lt h₃, if_pos (by omega), if_pos (by omega), if_neg (by omega),
      origin_injected]
    rfl
  rw [Fragment.lookup_segments (Nat.le_of_not_lt h₃) hstatements hindent]
  by_cases h₄ : line < c.firstStatementLine + Fragment.totalLines c.statements
  · rw [if_pos (by omega), if_neg (by omega), Option.none_or]
    refine congrArg (Option.bind · _) (congrArg (_[·]?) ?_)
    omega
  · rw [List.getElem?_eq_none (by rw [hlength']; omega), if_neg (by omega), htail]
    rfl

end Code

end LiveC
