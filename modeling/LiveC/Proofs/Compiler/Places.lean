import LiveC.Module.Import
import LiveC.Proofs.Compiler.Texts
import LiveC.Proofs.Repl.Layout
import LiveC.Proofs.Text.Quoted
import LiveC.Proofs.Text.Search
/-!
# Where the lines of a unit are said to be

A directive gives the next line of a unit a file and a number, and from there on lines are counted
(`LinePlace.next`, `placeOf`). A compilation keeps to that rule: where it stands when it comes to a
line is the place of that line (`State.place_of_at?`). So behind a directive the lines of a text are
numbered as in the text itself, whatever stands in front of it (`numbers_of_lines`). That is how the
engine makes a unit of a source file and of a piece of code. As a quoted name is read back,
`numbered_behind_literal` says of both that no line loses its place, whatever the file is called.
-/

namespace LiveC.Scripted

open Text

/-! ## The rule -/

/-- The file and the number of a line. -/
structure LinePlace where
  file : String
  line : Nat
  deriving DecidableEq, Repr

/-- The place of the next line: what a directive says, or the next number in the same file. -/
def LinePlace.next (p : LinePlace) (line : List Char) : LinePlace :=
  match lineMark? line with
  | some (number, file) => ⟨file, number⟩
  | none => ⟨p.file, p.line + 1⟩

/-- The place of a line of a unit that is called `name`. The lines of the unit are counted from zero
here. -/
def placeOf (name unit : String) (i : Nat) : LinePlace :=
  ((splitAll '\n' unit.toList).take i).foldl LinePlace.next ⟨name, 1⟩

/-- A text none of whose lines is a directive. -/
def Unnumbered (text : String) : Prop :=
  ∀ line ∈ splitAll '\n' text.toList, ¬"#line ".toList <+: line

instance (text : String) : Decidable (Unnumbered text) :=
  inferInstanceAs (Decidable (∀ line ∈ splitAll '\n' text.toList, ¬"#line ".toList <+: line))

theorem lineMark?_eq_none_iff {line : List Char} :
    lineMark? line = none ↔ ¬"#line ".toList <+: line := by
  rw [← stripStart?_eq_none_iff, lineMark?]
  cases stripStart? "#line ".toList line <;> simp

/-- The directive in front of a text names the file of the text, whatever characters the name holds.
-/
theorem lineMark?_literal (name : List Char) :
    lineMark? ("#line 1 ".toList ++ Quoted.encode name) = some (1, String.ofList name) := by
  have hhead : "#line 1 ".toList = "#line ".toList ++ ['1', ' '] := by decide
  have hcut : splitOnce? [' '] (['1', ' '] ++ Quoted.encode name) =
      some (['1'], Quoted.encode name) := rfl
  have hone : wordOf? ['1'] = some 1 := by decide
  rw [hhead, List.append_assoc, lineMark?, stripStart?_append]
  dsimp only [Option.bind_eq_bind, Option.bind_some]
  rw [hcut, Option.getD_some, hone, Quoted.decode_encode]
  rfl

/-- Lines that are no directives are counted. -/
theorem LinePlace.foldl_next {lines : List (List Char)}
    (h : ∀ line ∈ lines, ¬"#line ".toList <+: line) (p : LinePlace) :
    lines.foldl next p = ⟨p.file, p.line + lines.length⟩ := by
  induction lines generalizing p with
  | nil => rfl
  | cons line lines ih =>
    obtain ⟨hline, hlines⟩ := List.forall_mem_cons.1 h
    have hnext : p.next line = ⟨p.file, p.line + 1⟩ := by
      rw [next, lineMark?_eq_none_iff.2 hline]
    rw [List.foldl_cons, hnext, ih hlines, List.length_cons]
    dsimp only
    congr 1
    omega

/-! ## A compilation keeps to the rule -/

namespace Progress

variable {p : Progress} {loading : Bool}

/-- The place of the line at hand. -/
def place (p : Progress) : LinePlace := ⟨p.file, p.line⟩

theorem place_obey (p : Progress) (loading : Bool) (d : Directive) :
    (p.obey loading d).place = p.place := by
  cases d <;> cases loading <;> rfl

theorem place_obeyAll (p : Progress) (loading : Bool) (ds : List Directive) :
    (p.obeyAll loading ds).place = p.place := by
  induction ds generalizing p with
  | nil => rfl
  | cons d ds ih =>
    rw [obeyAll]
    split
    · exact place_obey p loading d
    · rw [ih, place_obey]

/-- A compilation goes on behind the lines that did not make it fail. -/
theorem compileLines_append (h : p.failed = false) (xs ys : List (List Char)) :
    p.compileLines loading (xs ++ ys) =
      if (p.compileLines loading xs).failed then p.compileLines loading xs
      else (p.compileLines loading xs).compileLines loading ys := by
  induction xs generalizing p with
  | nil => rw [List.nil_append, compileLines, h, if_neg (by simp)]
  | cons line xs ih =>
    have hrest (p : Progress) : p.compileRest loading line (xs ++ ys) =
        if (p.compileRest loading line xs).failed then p.compileRest loading line xs
        else (p.compileRest loading line xs).compileLines loading ys := by
      unfold compileRest
      dsimp only
      by_cases hfailed : (p.obeyAll loading (directivesOf line)).failed = true
      · rw [if_pos hfailed, if_pos hfailed, if_pos hfailed]
      · rw [if_neg hfailed, if_neg hfailed]
        exact ih (eq_false_of_ne_true hfailed)
    rw [List.cons_append, compileLines_cons, compileLines_cons]
    split
    · exact ih h
    · exact hrest p
    · split
      · rfl
      · exact hrest _

/-- **A compilation that has not failed stands at the place that the rule gives**, behind the lines
that it has compiled. -/
theorem place_compileLines {lines : List (List Char)}
    (h : (p.compileLines loading lines).failed = false) :
    (p.compileLines loading lines).place = lines.foldl LinePlace.next p.place := by
  induction lines generalizing p with
  | nil => rfl
  | cons line lines ih =>
    have hrest {p : Progress} (hmark : lineMark? line = none)
        (h : (p.compileRest loading line lines).failed = false) :
        (p.compileRest loading line lines).place =
          lines.foldl LinePlace.next (p.place.next line) := by
      have hnext : p.place.next line = ⟨p.file, p.line + 1⟩ := by
        rw [LinePlace.next, hmark]
        rfl
      have hstays := place_obeyAll p loading (directivesOf line)
      unfold compileRest at h ⊢
      dsimp only at h ⊢
      split at h
      · next hfailed => exact absurd h (by simp [hfailed])
      · next hfailed =>
        rw [if_neg hfailed, ih h, hnext]
        exact congrArg (fun q : LinePlace => lines.foldl LinePlace.next ⟨q.file, q.line + 1⟩) hstays
    rw [compileLines_cons] at h ⊢
    rw [List.foldl_cons]
    split at h
    · next hmark =>
      rw [ih h, LinePlace.next, hmark]
      rfl
    · next hmark _ => exact hrest hmark h
    · next hmark _ =>
      split at h
      · exact absurd h (by simp [failing])
      · next hnew =>
        rw [if_neg hnew]
        exact hrest hmark h

end Progress

namespace State

variable {s : State} {loading : Bool} {name unit : String} {i : Nat} {p : Progress}

/-- How the compilation of a unit stands when it comes to one of the unit's lines, unless it fails
before. -/
def at? (s : State) (loading : Bool) (name unit : String) (i : Nat) : Option Progress :=
  let start : Progress := ⟨{ s with text := s.text ++ unit }, name, 1, #[], false⟩
  let p := start.compileLines loading ((splitAll '\n' unit.toList).take i)
  if p.failed then none else some p

/-- The rest of the unit is compiled from there. -/
theorem compile_of_at? (h : s.at? loading name unit i = some p) :
    s.compile loading name unit =
      p.compileLines loading ((splitAll '\n' unit.toList).drop i) := by
  unfold at? at h
  dsimp only at h
  split at h
  · exact absurd h (by simp)
  · next hfailed =>
    obtain rfl := Option.some.inj h
    have hparts := List.take_append_drop i (splitAll '\n' unit.toList)
    conv_lhs => rw [compile, ← hparts, Progress.compileLines_append rfl, if_neg hfailed]

/-- A compilation stands at the place of the line that it has come to. -/
theorem place_of_at? (h : s.at? loading name unit i = some p) : p.place = placeOf name unit i := by
  unfold at? at h
  dsimp only at h
  split at h
  · exact absurd h (by simp)
  · next hfailed =>
    obtain rfl := Option.some.inj h
    exact Progress.place_compileLines (eq_false_of_ne_true hfailed)

end State

/-! ## Lines behind a directive -/

/-- From one of its lines on, a unit holds the lines of a text, and they are numbered as in the
text: line `k + 1` of the text is line `k + 1` of `file`, whatever the unit itself is called, and a
compilation that comes to it goes on from that place. -/
structure Numbers (file unit text : String) (first : Nat) : Prop where
  lines : ∀ k < (splitAll '\n' text.toList).length,
    (splitAll '\n' unit.toList)[first + k]? = (splitAll '\n' text.toList)[k]?
  places : ∀ k < (splitAll '\n' text.toList).length, ∀ name,
    placeOf name unit (first + k) = ⟨file, k + 1⟩
  compiled : ∀ k < (splitAll '\n' text.toList).length, ∀ (s : State) loading name p,
    s.at? loading name unit (first + k) = some p → p.place = ⟨file, k + 1⟩ ∧
      s.compile loading name unit =
        p.compileLines loading ((splitAll '\n' unit.toList).drop (first + k))

/-- **Behind a directive a text is numbered as by itself**, if it holds no further one. -/
theorem numbers_of_lines {file unit text : String} {front rest : List (List Char)}
    (h : splitAll '\n' unit.toList = front ++ ("#line 1 ".toList ++ Quoted.encode file.toList) ::
      (splitAll '\n' text.toList ++ rest)) (htext : Unnumbered text) :
    Numbers file unit text (front.length + 1) := by
  have hplaces : ∀ k < (splitAll '\n' text.toList).length, ∀ name,
      placeOf name unit (front.length + 1 + k) = ⟨file, k + 1⟩ := by
    intro k hk name
    have htake : (splitAll '\n' unit.toList).take (front.length + 1 + k) = front ++
        ("#line 1 ".toList ++ Quoted.encode file.toList) :: (splitAll '\n' text.toList).take k := by
      rw [h, Nat.add_assoc, List.take_length_add_append, Nat.add_comm 1 k, List.take_succ_cons,
        List.take_append_of_le_length hk.le]
    have hmark (p : LinePlace) :
        p.next ("#line 1 ".toList ++ Quoted.encode file.toList) = ⟨file, 1⟩ := by
      rw [LinePlace.next, lineMark?_literal, String.ofList_toList]
    have hcounted : ∀ line ∈ (splitAll '\n' text.toList).take k, ¬"#line ".toList <+: line :=
      fun line hline => htext line (List.mem_of_mem_take hline)
    rw [placeOf, htake, List.foldl_append, List.foldl_cons, hmark, LinePlace.foldl_next hcounted,
      List.length_take_of_le hk.le, Nat.add_comm 1 k]
  refine ⟨?_, hplaces, ?_⟩
  · intro k hk
    rw [h, Nat.add_assoc, List.getElem?_append_right (Nat.le_add_right _ _),
      Nat.add_sub_cancel_left, Nat.add_comm 1 k, List.getElem?_cons_succ,
      List.getElem?_append_left hk]
  · intro k hk s loading name p hp
    exact ⟨(State.place_of_at? hp).trans (hplaces k hk name), State.compile_of_at? hp⟩

/-! ## The units of the engine -/

/-- A directive and a text behind it, each with a line feed at its end. -/
theorem splitAll_directive (name text : List Char) :
    splitAll '\n' ("#line 1 ".toList ++ Quoted.encode name ++ '\n' :: (text ++ ['\n'])) =
      ("#line 1 ".toList ++ Quoted.encode name) :: (splitAll '\n' text ++ [[]]) := by
  have hself : ('\n' == '\n') = true := by decide
  have hdirective : '\n' ∉ "#line 1 ".toList ++ Quoted.encode name := by
    rw [List.mem_append, not_or]
    exact ⟨by decide, Quoted.feed_notMem_encode name⟩
  rw [splitAll_append_cons hself, splitAll_append_cons hself, splitAll_of_notMem hdirective]
  rfl

theorem toList_directive (name text : String) :
    ("#line 1 " ++ Quoted.literal name ++ "\n" ++ text ++ "\n").toList =
      "#line 1 ".toList ++ Quoted.encode name.toList ++ '\n' :: (text.toList ++ ['\n']) := by
  have hfeed : "\n".toList = ['\n'] := by decide
  simp only [String.toList_append, Quoted.literal, String.toList_ofList, hfeed, List.append_assoc,
    List.cons_append, List.nil_append]

/-- A piece of code has a unit exactly if it is not blank and leaves room for what is put around
it. -/
theorem inlineSource_eq_ok_iff {code source : String} : inlineSource code = .ok source ↔
    source = apiDeclarations ++ ("#line 1 " ++ Quoted.literal inlineUnit ++ "\n" ++ code ++ "\n") ∧
      isBlankString code = false ∧ code.utf8ByteSize + 115 ≤ codeLimit := by
  have hframe : apiDeclarations.utf8ByteSize + "#line 1 ".utf8ByteSize +
      (Quoted.literal inlineUnit).utf8ByteSize = 113 := by decide +kernel
  have hfeed : "\n".utf8ByteSize = 1 := rfl
  have hunit : apiDeclarations ++ "#line 1 " ++ Quoted.literal inlineUnit ++ "\n" ++ code ++ "\n" =
      apiDeclarations ++ ("#line 1 " ++ Quoted.literal inlineUnit ++ "\n" ++ code ++ "\n") := by
    simp only [String.append_assoc]
  have hsize : (apiDeclarations ++ ("#line 1 " ++ Quoted.literal inlineUnit ++ "\n" ++ code ++
      "\n")).utf8ByteSize = code.utf8ByteSize + 115 := by
    simp only [String.utf8ByteSize_append, hfeed]
    omega
  have hchecked : inlineSource code = (checkCode code).bind fun _ =>
      if codeLimit < code.utf8ByteSize + 115 then .error (.codeTooLong codeLimit)
      else .ok (apiDeclarations ++ ("#line 1 " ++ Quoted.literal inlineUnit ++ "\n" ++ code ++
        "\n")) := by
    rw [← hsize, ← hunit]
    rfl
  rw [hchecked, checkCode]
  cases hblank : isBlankString code with
  | true => simp [Except.bind]
  | false =>
    by_cases hlong : codeLimit < code.utf8ByteSize
    · have hroom : ¬code.utf8ByteSize + 115 ≤ codeLimit := by omega
      simp [Except.bind, hlong, hroom]
    · by_cases hroom : codeLimit < code.utf8ByteSize + 115
      · simp [Except.bind, hlong, hroom]
      · simp [Except.bind, hlong, hroom, Nat.le_of_not_lt hroom, eq_comm]

/-- **No line loses its place behind a quoted name.** A literal stands on one line between double
quotes and is read back as its text. So the lines of a source file are numbered in that file as in
its text, whatever the path holds, and so are the lines of a piece of code, in the unit that stands
for it whenever it has one. -/
theorem numbered_behind_literal :
    (∀ s, '\n' ∉ Quoted.encode s ∧ (∃ body, Quoted.encode s = '"' :: body ++ ['"']) ∧
      Quoted.decode (Quoted.encode s) = s) ∧
    (∀ path text, Unnumbered text → Numbers path (sourceOfFile path text) text 1) ∧
    (∀ code source, Unnumbered code → inlineSource code = .ok source →
      Numbers inlineUnit source code 3) ∧
    ∀ code, (∃ source, inlineSource code = .ok source) ↔
      isBlankString code = false ∧ code.utf8ByteSize + 115 ≤ codeLimit := by
  refine ⟨fun s => ⟨Quoted.feed_notMem_encode s, ⟨_, Quoted.encode_eq s⟩, Quoted.decode_encode s⟩,
    fun path text htext => ?_, fun code source hcode hsource => ?_, fun code => ?_⟩
  · have hlines : splitAll '\n' (sourceOfFile path text).toList =
        [] ++ ("#line 1 ".toList ++ Quoted.encode path.toList) ::
          (splitAll '\n' text.toList ++ [[]]) := by
      rw [sourceOfFile, toList_directive, splitAll_directive, List.nil_append]
    exact numbers_of_lines hlines htext
  · obtain ⟨rfl, -, -⟩ := inlineSource_eq_ok_iff.1 hsource
    obtain ⟨r, hr⟩ := Code.toList_apiDeclarations
    have hlines := Code.splitAll_injected hr
      ("#line 1 " ++ Quoted.literal inlineUnit ++ "\n" ++ code ++ "\n").toList
    rw [← String.toList_append, toList_directive, splitAll_directive] at hlines
    have hfront : ((Code.injected apiDeclarations).map UnitLine.text).length = 2 := by decide
    have hnumbers := numbers_of_lines hlines hcode
    rwa [hfront] at hnumbers
  · constructor
    · rintro ⟨source, hsource⟩
      exact (inlineSource_eq_ok_iff.1 hsource).2
    · intro hfits
      exact ⟨_, inlineSource_eq_ok_iff.2 ⟨rfl, hfits⟩⟩

/-- A file whose path holds all that is escaped, and a piece of code: an error on the second line of
the text is told as one there. -/
theorem numbered_behind_literal_awkwardPath :
    Unnumbered "int main() \x7b\n@[error no]\n\x7d" ∧
    Numbers "a \"b\\\n.c" (sourceOfFile "a \"b\\\n.c" "int main() \x7b\n@[error no]\n\x7d")
      "int main() \x7b\n@[error no]\n\x7d" 1 ∧
    (State.fresh.compile false textFile
      (sourceOfFile "a \"b\\\n.c" "int main() \x7b\n@[error no]\n\x7d")).messages =
        #["a \"b\\\n.c:2: error: no"] ∧
    ∃ source, inlineSource "int main() \x7b\n@[error no]\n\x7d" = .ok source ∧
      Numbers inlineUnit source "int main() \x7b\n@[error no]\n\x7d" 3 := by
  have htext : Unnumbered "int main() \x7b\n@[error no]\n\x7d" := by decide +kernel
  obtain ⟨-, hfile, hinline, hfits⟩ := numbered_behind_literal
  obtain ⟨source, hsource⟩ := (hfits "int main() \x7b\n@[error no]\n\x7d").2
    ⟨by decide +kernel, by decide +kernel⟩
  exact ⟨htext, hfile _ _ htext, by decide +kernel, source, hsource, hinline _ _ htext hsource⟩

end LiveC.Scripted
