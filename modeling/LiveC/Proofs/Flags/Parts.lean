import LiveC.Proofs.Flags.Inputs
import LiveC.Proofs.Text.Search
/-!
# Flags sorted in parts

Arguments that can be sorted are one part of a longer list: what comes of the whole is what comes of
them, and behind it, field by field, what comes of the rest (`parse_append`). How a flag is written
is never the beginning of how another one is (`ValueFlag.eq_of_text_isPrefix`), so an argument
starts with one flag at most, and a value is read alike whether it is joined to its flag or follows
it (`parseAfter_joined`). Sorting succeeds for the lists in which each bare flag has its value
(`Complete`), and it fails for such a list with one more bare flag behind it (`parse_eq_error_iff`).
`parse_inParts` puts the three together.
-/

namespace LiveC

namespace ValueFlag

variable {flag other : ValueFlag} {s : List Char}

/-- How a flag is written does not start with how another one is. -/
theorem eq_of_text_isPrefix (h : flag.text.toList <+: other.text.toList) : flag = other := by
  revert h
  cases flag <;> cases other <;> decide

/-- A text starts with one flag at most. -/
theorem eq_of_isPrefix (h : flag.text.toList <+: s) (h' : other.text.toList <+: s) :
    flag = other := by
  rcases List.prefix_or_prefix_of_prefix h h' with hprefix | hprefix
  · exact eq_of_text_isPrefix hprefix
  · exact (eq_of_text_isPrefix hprefix).symm

/-- A flag is told from what is joined to it, whichever flags are compared before it. -/
theorem ofArgument?_append (flag : ValueFlag) (value : String) :
    ofArgument? (flag.text ++ value) = some (flag, value) := by
  have hsome : (ofArgument? (flag.text ++ value)).isSome = true := by
    rw [ofArgument?, List.findSome?_isSome_iff]
    refine ⟨flag, mem_all flag, ?_⟩
    rw [String.toList_append, Text.stripStart?_append]
    rfl
  obtain ⟨⟨found, joined⟩, hfound⟩ := Option.isSome_iff_exists.1 hsome
  have htext := Flags.toList_of_ofArgument? hfound
  rw [String.toList_append] at htext
  obtain rfl : flag = found := eq_of_isPrefix ⟨value.toList, rfl⟩ ⟨joined.toList, htext.symm⟩
  rw [hfound, String.toList_inj.1 (List.append_cancel_left htext)]

end ValueFlag

namespace Flags

/-- Two sortings as one: the lists of the second behind those of the first, the second output if
there is one, and an object file only if either of them wants no more. -/
def append (f g : Flags) : Flags where
  options := f.options ++ g.options
  includePaths := f.includePaths ++ g.includePaths
  systemIncludePaths := f.systemIncludePaths ++ g.systemIncludePaths
  libraryPaths := f.libraryPaths ++ g.libraryPaths
  libraries := f.libraries ++ g.libraries
  defines := f.defines ++ g.defines
  files := f.files ++ g.files
  output := g.output.or f.output
  objectOnly := f.objectOnly || g.objectOnly

instance : Append Flags := ⟨append⟩

/-- Arguments in which each bare flag has its value: a bare flag takes the next argument, whatever
that is, and every other argument stands by itself. -/
inductive Complete : List String → Prop
  | nil : Complete []
  | single {arg : String} {args : List String} (h : takesNextArgument arg = false)
      (hargs : Complete args) : Complete (arg :: args)
  | valued {arg : String} {args : List String} (h : takesNextArgument arg = true) (value : String)
      (hargs : Complete args) : Complete (arg :: value :: args)

variable {f g : Flags} {args front : List String}

/-! ## One sorting after another -/

theorem append_empty (f : Flags) : f ++ empty = f := by
  change append f empty = f
  simp [append, empty]

theorem append_objectOnly (f g : Flags) :
    { f ++ g with objectOnly := true } = f ++ { g with objectOnly := true } :=
  congrArg (fun objectOnly => { f ++ g with objectOnly := objectOnly }) (Bool.or_true _).symm

theorem append_file (f g : Flags) (arg : String) :
    { f ++ g with files := (f ++ g).files ++ [arg] } = f ++ { g with files := g.files ++ [arg] } :=
  congrArg (fun files => { f ++ g with files := files }) (List.append_assoc _ _ _)

theorem append_option (f g : Flags) (arg : String) :
    { f ++ g with options := (f ++ g).options ++ [arg] } =
      f ++ { g with options := g.options ++ [arg] } :=
  congrArg (fun options => { f ++ g with options := options }) (List.append_assoc _ _ _)

theorem append_addValue (f g : Flags) (flag : ValueFlag) (value : String) :
    (f ++ g).addValue flag value = f ++ g.addValue flag value := by
  change (append f g).addValue flag value = append f (g.addValue flag value)
  cases flag <;> simp [append, addValue]

/-- What was sorted in front of some flags stays in front of what is sorted after them. -/
theorem parseAfter_append_left (f g : Flags) (args : List String) :
    parseAfter (f ++ g) args = (parseAfter g args).map (f ++ ·) := by
  fun_induction parseAfter g args with
  | case1 g => rw [parseAfter]; rfl
  | case2 g arg args hkind ih => rw [parseAfter_cons, hkind, ← ih, ← append_objectOnly]
  | case3 g arg args hkind ih => rw [parseAfter_cons, hkind, ← ih, ← append_file]
  | case4 g arg args hkind ih => rw [parseAfter_cons, hkind, ← ih, ← append_option]
  | case5 g arg flag joined hkind hempty =>
    rw [parseAfter_cons, hkind]
    dsimp only
    rw [if_pos hempty]
    rfl
  | case6 g arg flag joined hkind hempty value args ih =>
    rw [parseAfter_cons, hkind, ← ih, ← append_addValue]
    dsimp only
    rw [if_pos hempty]
  | case7 g arg args flag joined hkind hempty ih =>
    rw [parseAfter_cons, hkind, ← ih, ← append_addValue]
    dsimp only
    rw [if_neg hempty]

/-- **Behind arguments that can be sorted, the rest is sorted by itself**, and comes after them
field by field. -/
theorem parse_append (h : parse args = .ok f) (rest : List String) :
    parse (args ++ rest) = (parse rest).map (f ++ ·) := calc
  parse (args ++ rest) = parseAfter f rest := parseAfter_append h rest
  _ = parseAfter (f ++ empty) rest := by rw [append_empty]
  _ = (parse rest).map (f ++ ·) := parseAfter_append_left f empty rest

/-! ## Values -/

/-- A flag with something joined to it is that flag, and never a file or the wish for an object. -/
theorem kindOf_append (flag : ValueFlag) (value : String) :
    kindOf (flag.text ++ value) = .valueFlag flag value := by
  have hstart : flag.text.toList <+: (flag.text ++ value).toList :=
    ⟨value.toList, (String.toList_append).symm⟩
  have hobject : (flag.text ++ value == "-c") = false := by
    rw [beq_eq_false_iff_ne]
    intro heq
    rw [heq] at hstart
    exact absurd hstart (by cases flag <;> decide)
  have hdash : Text.startsWith (flag.text ++ value) "-" = true := by
    rw [Text.startsWith, List.isPrefixOf_iff_prefix]
    exact List.IsPrefix.trans (by cases flag <;> decide) hstart
  have hlone : (flag.text ++ value == "-") = false := by
    rw [beq_eq_false_iff_ne]
    intro heq
    rw [heq] at hstart
    exact absurd hstart (by cases flag <;> decide)
  rw [kindOf, hobject, if_neg (by simp), isFile, hdash, hlone, if_neg (by simp),
    ValueFlag.ofArgument?_append]

/-- A value is read alike whether it is joined to its flag or follows it. -/
theorem parseAfter_joined (f : Flags) (flag : ValueFlag) {value : String} (h : value ≠ "")
    (rest : List String) :
    parseAfter f ((flag.text ++ value) :: rest) = parseAfter f (flag.text :: value :: rest) := by
  have hjoined : ¬ value.isEmpty = true := by simpa using h
  rw [parseAfter_cons, kindOf_append, parseAfter_cons, kindOf_text]
  dsimp only
  rw [if_neg hjoined]
  rfl

/-! ## Lists that cannot be sorted -/

theorem Complete.exists_parseAfter (h : Complete args) (f : Flags) :
    ∃ g, parseAfter f args = .ok g := by
  induction h generalizing f with
  | nil => exact ⟨f, by rw [parseAfter]⟩
  | single harg _ ih =>
    obtain ⟨g, hg⟩ := exists_parseAfter_cons f harg
    rw [hg]
    exact ih g
  | valued harg value _ ih =>
    obtain ⟨g, hg⟩ := exists_parseAfter_value f harg value
    rw [hg]
    exact ih g

/-- In a list that is not complete the last argument is a bare flag, and what is in front of it is
complete: so nothing takes that flag for a value. -/
theorem complete_or (args : List String) :
    Complete args ∨ ∃ front flag, Complete front ∧ args = front ++ [ValueFlag.text flag] := by
  induction args using inputs.induct with
  | case1 => exact .inl .nil
  | case2 arg htakes =>
    obtain ⟨flag, rfl⟩ := exists_text_of_takesNextArgument htakes
    exact .inr ⟨[], flag, .nil, rfl⟩
  | case3 arg htakes value args ih =>
    rcases ih with hargs | ⟨front, flag, hfront, rfl⟩
    · exact .inl (.valued htakes value hargs)
    · exact .inr ⟨arg :: value :: front, flag, .valued htakes value hfront, rfl⟩
  | case4 arg args htakes _ ih | case5 arg args htakes _ ih =>
    have hsingle : takesNextArgument arg = false := eq_false_of_ne_true htakes
    rcases ih with hargs | ⟨front, flag, hfront, rfl⟩
    · exact .inl (.single hsingle hargs)
    · exact .inr ⟨arg :: front, flag, .single hsingle hfront, rfl⟩

/-- A bare flag behind a complete list has no value. -/
theorem parse_missing (h : Complete front) (flag : ValueFlag) :
    parse (front ++ [flag.text]) = .error (.missingValue flag.text) := by
  obtain ⟨g, hg⟩ := h.exists_parseAfter empty
  rw [parse_append hg, parse, parseAfter_cons, kindOf_text]
  rfl

/-- **Sorting only fails at a bare flag that ends the list** and is no value itself. -/
theorem parse_eq_error_iff {misuse : Misuse} : parse args = .error misuse ↔
    ∃ front flag, Complete front ∧ args = front ++ [ValueFlag.text flag] ∧
      misuse = .missingValue flag.text := by
  constructor
  · intro h
    rcases complete_or args with hargs | ⟨front, flag, hfront, rfl⟩
    · obtain ⟨g, hg⟩ := hargs.exists_parseAfter empty
      rw [parse, hg] at h
      exact absurd h (by simp)
    · rw [parse_missing hfront] at h
      exact ⟨front, flag, hfront, rfl, (Except.error.inj h).symm⟩
  · rintro ⟨front, flag, hfront, rfl, rfl⟩
    exact parse_missing hfront flag

/-- **Flags are sorted in parts.** Behind arguments that can be sorted, a list is sorted as if it
stood alone: what comes of it follows what came of them field by field, and its misuse is the misuse
of the whole. A value that is not empty may be joined to its flag there or follow it. The only
misuse is a bare flag that ends a list in which each other bare flag has its value. -/
theorem parse_inParts {a : List String} (h : parse a = .ok f) (b : List String) :
    parse (a ++ b) = (parse b).map (f ++ ·) ∧
    (∀ (flag : ValueFlag) (value : String), value ≠ "" →
      parse (a ++ [flag.text ++ value] ++ b) = parse (a ++ [flag.text, value] ++ b)) ∧
    ∀ (args : List String) (misuse : Misuse), parse args = .error misuse ↔
      ∃ front flag, Complete front ∧ args = front ++ [ValueFlag.text flag] ∧
        misuse = .missingValue flag.text := by
  refine ⟨parse_append h b, fun flag value hvalue => ?_, fun args misuse => parse_eq_error_iff⟩
  rw [List.append_assoc, List.append_assoc, parse_append h, parse_append h]
  exact congrArg (Except.map (f ++ ·)) (parseAfter_joined empty flag hvalue b)

/-- A flag may be the value of another one, and the later of two outputs counts. -/
theorem parse_inParts_flagAsValue :
    parse ["-I", "-c", "-oa.o", "x.c"] = .ok ⟨[], ["-c"], [], [], [], [], ["x.c"], "a.o", false⟩ ∧
    "-o" ≠ "" ∧
    parse (["-I", "-c", "-oa.o", "x.c"] ++ ["-c", "-o", "b.o"]) =
      .ok ⟨[], ["-c"], [], [], [], [], ["x.c"], "b.o", true⟩ ∧
    parse (["-I", "-c", "-oa.o", "x.c"] ++ ["-isystem" ++ "-o"] ++ ["-o"]) =
      parse (["-I", "-c", "-oa.o", "x.c"] ++ ["-isystem", "-o"] ++ ["-o"]) ∧
    parse ["x.c", "-include"] = .error (.missingValue "-include") := by
  have hsorted : parse ["-I", "-c", "-oa.o", "x.c"] =
      .ok ⟨[], ["-c"], [], [], [], [], ["x.c"], "a.o", false⟩ := by decide +kernel
  have hvalue : "-o" ≠ "" := by decide
  have hrest : parse ["-c", "-o", "b.o"] = .ok ⟨[], [], [], [], [], [], [], "b.o", true⟩ := by
    decide +kernel
  obtain ⟨hparts, hjoined, hmisuse⟩ := parse_inParts hsorted ["-c", "-o", "b.o"]
  refine ⟨hsorted, hvalue, by rw [hparts, hrest]; rfl,
    (parse_inParts hsorted ["-o"]).2.1 .systemIncludePath "-o" hvalue, ?_⟩
  exact (hmisuse _ _).2 ⟨["x.c"], .includeFile, .single (by decide +kernel) .nil, rfl, rfl⟩

end Flags

end LiveC
