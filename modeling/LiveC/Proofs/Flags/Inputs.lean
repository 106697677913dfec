import LiveC.Flags.Basic
import Mathlib.Data.List.Infix
/-!
# The files among some flags

`Flags.parse` reads the arguments of a compiler one after the other. `Flags.inputs` are those that
it takes for files, and `Flags.separateValues` those that it passes over as values of the bare flags
in front of them. Sorting goes on behind a list that can be sorted as if that list stood alone
(`parseAfter_append`), and it only fails at a bare flag that ends the list
(`getLast?_of_parseAfter_error`). So the files that come of it are the inputs (`files_of_parse`),
and some first arguments hold a file exactly when there is an input at all
(`exists_prefix_files_iff`).
-/

namespace LiveC

theorem ValueFlag.mem_all (flag : ValueFlag) : flag ∈ all := by
  cases flag <;> decide

namespace Flags

/-- The arguments that are read as files, in their order. -/
def inputs : List String → List String
  | [] => []
  | arg :: args =>
    if takesNextArgument arg then
      match args with
      | [] => []
      | _ :: args => inputs args
    else if isFile arg then arg :: inputs args
    else inputs args

/-- The arguments that are values of the bare flags in front of them. -/
def separateValues : List String → List String
  | [] => []
  | arg :: args =>
    if takesNextArgument arg then
      match args with
      | [] => []
      | value :: args => value :: separateValues args
    else separateValues args

/-- Whether an argument of a kind is a bare flag. -/
def Kind.isBare : Kind → Bool
  | .valueFlag _ joined => joined.isEmpty
  | _ => false

variable {f g : Flags} {arg value : String} {args rest : List String}

/-! ## What one argument is -/

/-- A bare flag takes the next argument, as nothing is joined to it. -/
theorem kindOf_text (flag : ValueFlag) : kindOf flag.text = .valueFlag flag "" := by
  cases flag <;> decide +kernel

/-- What is joined to a flag is the rest of the argument. -/
theorem toList_of_ofArgument? {flag : ValueFlag}
    (h : ValueFlag.ofArgument? arg = some (flag, value)) :
    arg.toList = flag.text.toList ++ value.toList := by
  obtain ⟨flag', -, hstrip⟩ := List.exists_of_findSome?_eq_some h
  obtain ⟨joined, hjoined, heq⟩ := Option.map_eq_some_iff.1 hstrip
  obtain ⟨rfl, rfl⟩ := Prod.mk.inj heq
  unfold Text.stripStart? at hjoined
  split at hjoined
  · next hprefix =>
    obtain ⟨t, ht⟩ := List.isPrefixOf_iff_prefix.1 hprefix
    rw [← Option.some.inj hjoined, String.toList_ofList, ← ht, List.drop_left]
  · exact absurd hjoined (by simp)

theorem isFile_eq (arg : String) : isFile arg = decide (kindOf arg = .file) := by
  unfold kindOf
  split
  · next hobject =>
    obtain rfl := eq_of_beq hobject
    decide +kernel
  split
  · next hfile => simpa using hfile
  next hfile =>
  split
  · simpa using hfile
  · simpa using hfile

/-- An argument takes the next one exactly when it is a flag to which nothing is joined. -/
theorem takesNextArgument_eq (arg : String) : takesNextArgument arg = (kindOf arg).isBare := by
  rw [Bool.eq_iff_iff, takesNextArgument, List.any_eq_true]
  constructor
  · rintro ⟨flag, -, htext⟩
    obtain rfl := eq_of_beq htext
    rw [kindOf_text]
    rfl
  · intro h
    unfold kindOf at h
    split at h
    · exact absurd h (by simp [Kind.isBare])
    split at h
    · exact absurd h (by simp [Kind.isBare])
    split at h
    · next flag joined hflag =>
      have hjoined : joined = "" := by simpa [Kind.isBare] using h
      have htext := toList_of_ofArgument? hflag
      rw [hjoined, String.toList_empty, List.append_nil] at htext
      exact ⟨flag, flag.mem_all, beq_iff_eq.2 (String.toList_inj.1 htext).symm⟩
    · exact absurd h (by simp [Kind.isBare])

/-- A bare flag is how a flag is written. -/
theorem exists_text_of_takesNextArgument (h : takesNextArgument arg = true) :
    ∃ flag : ValueFlag, flag.text = arg := by
  obtain ⟨flag, -, htext⟩ := List.any_eq_true.1 h
  exact ⟨flag, eq_of_beq htext⟩

/-- The inputs from one argument on, by what it is. -/
theorem inputs_cons (arg : String) (args : List String) : inputs (arg :: args) =
    match kindOf arg with
    | .file => arg :: inputs args
    | .valueFlag _ joined => if joined.isEmpty then inputs args.tail else inputs args
    | .objectOnly | .option => inputs args := by
  rw [inputs.eq_def]
  dsimp only
  rw [takesNextArgument_eq, isFile_eq]
  cases kindOf arg with
  | objectOnly | file | option => rfl
  | valueFlag flag joined =>
    cases args with
    | nil => rfl
    | cons value args => rfl

/-! ## Sorting -/

/-- Behind arguments that can be sorted, sorting goes on with the rest. -/
theorem parseAfter_append (h : parseAfter f args = .ok g) (rest : List String) :
    parseAfter f (args ++ rest) = parseAfter g rest := by
  fun_induction parseAfter f args with
  | case1 f =>
    obtain rfl := Except.ok.inj h
    rfl
  | case2 f arg args hkind ih | case3 f arg args hkind ih | case4 f arg args hkind ih =>
    rw [List.cons_append, parseAfter_cons, hkind]
    exact ih h
  | case5 f arg flag joined hkind hempty => exact absurd h (by simp)
  | case6 f arg flag joined hkind hempty value args ih =>
    rw [List.cons_append, List.cons_append, parseAfter_cons, hkind]
    dsimp only
    rw [if_pos hempty]
    exact ih h
  | case7 f arg args flag joined hkind hempty ih =>
    rw [List.cons_append, parseAfter_cons, hkind]
    dsimp only
    rw [if_neg hempty]
    exact ih h

/-- Sorting only fails at a bare flag that ends the arguments. -/
theorem getLast?_of_parseAfter_error {misuse : Misuse} (h : parseAfter f args = .error misuse) :
    ∃ flag : ValueFlag, args.getLast? = some flag.text ∧ misuse = .missingValue flag.text := by
  have hlonger {arg : String} {args : List String} {a : String} (h : args.getLast? = some a) :
      (arg :: args).getLast? = some a := by
    rw [List.getLast?_cons, h]
    rfl
  fun_induction parseAfter f args with
  | case1 f => exact absurd h (by simp)
  | case2 f arg args hkind ih | case3 f arg args hkind ih | case4 f arg args hkind ih
  | case7 f arg args flag joined hkind hempty ih =>
    obtain ⟨flag, hlast, hmisuse⟩ := ih h
    exact ⟨flag, hlonger hlast, hmisuse⟩
  | case5 f arg flag joined hkind hempty =>
    have hbare : takesNextArgument arg = true := by
      rw [takesNextArgument_eq, hkind]
      exact hempty
    obtain ⟨flag', rfl⟩ := exists_text_of_takesNextArgument hbare
    rw [kindOf_text] at hkind
    obtain rfl := (Kind.valueFlag.inj hkind).1
    exact ⟨flag', rfl, (Except.error.inj h).symm⟩
  | case6 f arg flag joined hkind hempty value args ih =>
    obtain ⟨flag, hlast, hmisuse⟩ := ih h
    exact ⟨flag, hlonger (hlonger hlast), hmisuse⟩

theorem files_addValue (f : Flags) (flag : ValueFlag) (value : String) :
    (f.addValue flag value).files = f.files := by
  cases flag <;> rfl

/-- What comes of sorting are the files before and the inputs. -/
theorem files_of_parseAfter (h : parseAfter f args = .ok g) : g.files = f.files ++ inputs args := by
  fun_induction parseAfter f args with
  | case1 f =>
    obtain rfl := Except.ok.inj h
    rw [inputs, List.append_nil]
  | case2 f arg args hkind ih =>
    rw [ih h, inputs_cons, hkind]
  | case3 f arg args hkind ih =>
    rw [ih h, inputs_cons, hkind, List.append_assoc]
    rfl
  | case4 f arg args hkind ih =>
    rw [ih h, inputs_cons, hkind]
  | case5 f arg flag joined hkind hempty => exact absurd h (by simp)
  | case6 f arg flag joined hkind hempty value args ih =>
    rw [ih h, inputs_cons, hkind, files_addValue]
    dsimp only
    rw [if_pos hempty, List.tail_cons]
  | case7 f arg args flag joined hkind hempty ih =>
    rw [ih h, inputs_cons, hkind, files_addValue]
    dsimp only
    rw [if_neg hempty]

/-- **The files that come of sorting are the inputs.** -/
theorem files_of_parse (h : parse args = .ok g) : g.files = inputs args := files_of_parseAfter h

/-- The inputs of a list whose first part can be sorted are those of its two parts. -/
theorem inputs_append (h : parseAfter f args = .ok g) (rest : List String) :
    inputs (args ++ rest) = inputs args ++ inputs rest := by
  fun_induction parseAfter f args with
  | case1 f => rfl
  | case2 f arg args hkind ih | case4 f arg args hkind ih =>
    rw [List.cons_append, inputs_cons, inputs_cons, hkind]
    exact ih h
  | case3 f arg args hkind ih =>
    rw [List.cons_append, inputs_cons, inputs_cons, hkind]
    dsimp only
    rw [ih h, List.cons_append]
  | case5 f arg flag joined hkind hempty => exact absurd h (by simp)
  | case6 f arg flag joined hkind hempty value args ih =>
    rw [List.cons_append, List.cons_append, inputs_cons arg, inputs_cons arg, hkind]
    dsimp only
    rw [if_pos hempty, if_pos hempty]
    exact ih h
  | case7 f arg args flag joined hkind hempty ih =>
    rw [List.cons_append, inputs_cons, inputs_cons, hkind]
    dsimp only
    rw [if_neg hempty, if_neg hempty]
    exact ih h

/-! ## The first input of a kind -/

theorem inputs_bare (h : takesNextArgument arg = true) : inputs [arg] = [] := by
  rw [inputs, if_pos h]

theorem inputs_value (h : takesNextArgument arg = true) (value : String) (args : List String) :
    inputs (arg :: value :: args) = inputs args := by
  rw [inputs, if_pos h]

theorem inputs_file (h : isFile arg = true) (args : List String) :
    inputs (arg :: args) = arg :: inputs args := by
  rw [isFile_eq, decide_eq_true_iff] at h
  rw [inputs_cons, h]

theorem inputs_option (htakes : takesNextArgument arg = false) (hfile : isFile arg = false)
    (args : List String) : inputs (arg :: args) = inputs args := by
  rw [inputs.eq_def]
  dsimp only
  rw [htakes, hfile]
  rfl

theorem separateValues_value (h : takesNextArgument arg = true) (value : String)
    (args : List String) :
    separateValues (arg :: value :: args) = value :: separateValues args := by
  rw [separateValues, if_pos h]

theorem separateValues_cons (h : takesNextArgument arg = false) (args : List String) :
    separateValues (arg :: args) = separateValues args := by
  rw [separateValues.eq_def]
  dsimp only
  rw [h]
  rfl

/-- A bare flag without a value cannot be sorted. -/
theorem parseAfter_bare (f : Flags) (h : takesNextArgument arg = true) :
    ∃ misuse, parseAfter f [arg] = .error misuse := by
  obtain ⟨flag, rfl⟩ := exists_text_of_takesNextArgument h
  refine ⟨.missingValue flag.text, ?_⟩
  rw [parseAfter_cons, kindOf_text]
  rfl

/-- Sorting a bare flag goes on behind its value. -/
theorem exists_parseAfter_value (f : Flags) (h : takesNextArgument arg = true) (value : String) :
    ∃ g, ∀ args, parseAfter f (arg :: value :: args) = parseAfter g args := by
  obtain ⟨flag, rfl⟩ := exists_text_of_takesNextArgument h
  refine ⟨f.addValue flag value, fun args => ?_⟩
  rw [parseAfter_cons, kindOf_text]
  rfl

/-- Sorting any other argument goes on with the next one. -/
theorem exists_parseAfter_cons (f : Flags) (h : takesNextArgument arg = false) :
    ∃ g, ∀ args, parseAfter f (arg :: args) = parseAfter g args := by
  rw [takesNextArgument_eq] at h
  cases hkind : kindOf arg with
  | objectOnly =>
    exact ⟨{ f with objectOnly := true }, fun args => by rw [parseAfter_cons, hkind]⟩
  | file =>
    exact ⟨{ f with files := f.files ++ [arg] },
      fun args => by rw [parseAfter_cons, hkind]⟩
  | option =>
    exact ⟨{ f with options := f.options ++ [arg] },
      fun args => by rw [parseAfter_cons, hkind]⟩
  | valueFlag flag joined =>
    rw [hkind] at h
    have hjoined : ¬ joined.isEmpty = true := ne_true_of_eq_false h
    exact ⟨f.addValue flag joined,
      fun args => by simp only [parseAfter_cons, hkind, if_neg hjoined]⟩

/-- **Some arguments can be cut at the first input of a kind.** What is in front of it can be
sorted, whatever was sorted before, and holds no input of the kind. -/
theorem exists_cut (P : String → Prop) (h : ∃ x ∈ inputs args, P x) :
    ∃ before x after, args = before ++ x :: after ∧ isFile x = true ∧ P x ∧
      (∀ y ∈ inputs before, ¬ P y) ∧ ∀ f, ∃ g, parseAfter f before = .ok g := by
  induction args using inputs.induct with
  | case1 => exact absurd h (by simp [inputs])
  | case2 arg htakes =>
    rw [inputs_bare htakes] at h
    exact absurd h (by simp)
  | case3 arg htakes value args ih =>
    rw [inputs_value htakes] at h
    obtain ⟨before, x, after, rfl, hfile, hx, hbefore, hsorted⟩ := ih h
    refine ⟨arg :: value :: before, x, after, rfl, hfile, hx, ?_, fun f => ?_⟩
    · rw [inputs_value htakes]
      exact hbefore
    · obtain ⟨g, hg⟩ := exists_parseAfter_value f htakes value
      rw [hg]
      exact hsorted g
  | case4 arg args htakes hfile ih =>
    by_cases harg : P arg
    · exact ⟨[], arg, args, rfl, hfile, harg, by simp [inputs], fun f => ⟨f, rfl⟩⟩
    rw [inputs_file hfile] at h
    obtain ⟨y, hy, hPy⟩ := h
    have hlater := (List.mem_cons.1 hy).resolve_left fun heq => harg (heq ▸ hPy)
    obtain ⟨before, x, after, rfl, hfilex, hx, hbefore, hsorted⟩ := ih ⟨y, hlater, hPy⟩
    refine ⟨arg :: before, x, after, rfl, hfilex, hx, ?_, fun f => ?_⟩
    · rw [inputs_file hfile]
      exact List.forall_mem_cons.2 ⟨harg, hbefore⟩
    · obtain ⟨g, hg⟩ := exists_parseAfter_cons f (eq_false_of_ne_true htakes)
      rw [hg]
      exact hsorted g
  | case5 arg args htakes hfile ih =>
    have htakes := eq_false_of_ne_true htakes
    have hfile := eq_false_of_ne_true hfile
    rw [inputs_option htakes hfile] at h
    obtain ⟨before, x, after, rfl, hfilex, hx, hbefore, hsorted⟩ := ih h
    refine ⟨arg :: before, x, after, rfl, hfilex, hx, ?_, fun f => ?_⟩
    · rw [inputs_option htakes hfile]
      exact hbefore
    · obtain ⟨g, hg⟩ := exists_parseAfter_cons f htakes
      rw [hg]
      exact hsorted g

/-- Behind a part that can be sorted, a file is the next input. -/
theorem inputs_cut (h : parseAfter f args = .ok g) (hfile : isFile arg = true)
    (rest : List String) : inputs (args ++ arg :: rest) = inputs args ++ arg :: inputs rest := by
  rw [inputs_append h, inputs_file hfile]

/-- A part that can be sorted can be sorted with a file behind it. -/
theorem parseAfter_snoc (h : parseAfter f args = .ok g) (hfile : isFile arg = true) :
    parseAfter f (args ++ [arg]) = .ok { g with files := g.files ++ [arg] } := by
  rw [isFile_eq, decide_eq_true_iff] at hfile
  rw [parseAfter_append h, parseAfter, hfile]
  rfl

/-- **Some first arguments hold a file exactly when there is an input at all.** -/
theorem exists_prefix_files_iff (args : List String) :
    (∃ part, part <+: args ∧ ∃ f, parse part = .ok f ∧ f.files ≠ []) ↔ inputs args ≠ [] := by
  constructor
  · rintro ⟨part, ⟨rest, rfl⟩, f, hpart, hfiles⟩
    rw [files_of_parse hpart] at hfiles
    rw [inputs_append hpart]
    exact List.append_ne_nil_of_left_ne_nil hfiles _
  · intro h
    obtain ⟨y, hy⟩ := List.exists_mem_of_ne_nil _ h
    obtain ⟨before, x, after, rfl, hfile, -, -, hsorted⟩ :=
      exists_cut (fun _ => True) ⟨y, hy, trivial⟩
    obtain ⟨g, hg⟩ := hsorted empty
    refine ⟨before ++ [x], ⟨after, by simp⟩, _, parseAfter_snoc hg hfile, ?_⟩
    exact List.append_ne_nil_of_right_ne_nil _ (by simp)

end Flags

end LiveC
