import LiveC.Command.Route
import LiveC.Proofs.Flags.Inputs
import Mathlib.Data.List.TakeWhile
/-!
# Where the flags end

`splitAtFile` cuts the arguments of a command line behind the first file, and `Flags.parse` then
sorts what is in front. The two agree on bare flags and their values, and on every file but a lone
dash, which is a file for `Flags.parse` only (`splitAtFile_of_undashed`, `splitAtFile_of_dashed`).
And `CommandLine.route` takes any argument without a dash for a sign that there is a file, also the
value of a bare flag (`exists_undashed_iff`). So compiling is chosen exactly for the arguments that
hold a file, with flags that end at it, unless the first input is a lone dash, or there is no input
but a value without a dash: `CommandLine.routesByFile_iff`.
-/

namespace LiveC

variable {arg value : String} {args : List String}

/-! ## Arguments with and without a dash -/

/-- What does not start with a dash is a file. -/
theorem isFile_of_undashed (h : isDashed arg = false) : Flags.isFile arg = true := by
  unfold isDashed at h
  rw [Flags.isFile, h]
  rfl

theorem isDashed_of_not_isFile (h : ¬ Flags.isFile arg = true) : isDashed arg = true := by
  by_contra hdashed
  exact h (isFile_of_undashed (eq_false_of_ne_true hdashed))

/-- A file that starts with a dash is a lone dash. -/
theorem isDashed_eq_true_iff_of_isFile (h : Flags.isFile arg = true) :
    isDashed arg = true ↔ arg = "-" := by
  constructor
  · intro hdashed
    unfold isDashed at hdashed
    rw [Flags.isFile, hdashed] at h
    exact eq_of_beq h
  · rintro rfl
    decide +kernel

theorem isDashed_of_takesNextArgument (h : takesNextArgument arg = true) : isDashed arg = true := by
  obtain ⟨flag, rfl⟩ := Flags.exists_text_of_takesNextArgument h
  cases flag <;> decide +kernel

/-- The inputs are files. -/
theorem isFile_of_mem_inputs (h : arg ∈ Flags.inputs args) : Flags.isFile arg = true := by
  obtain ⟨-, x, -, -, hfile, rfl, -⟩ := Flags.exists_cut (· = arg) ⟨arg, h, rfl⟩
  exact hfile

/-- **An argument without a dash is an input or the value of a bare flag.** -/
theorem exists_undashed_iff (args : List String) :
    (∃ arg ∈ args, isDashed arg = false) ↔
      (∃ x ∈ Flags.inputs args, isDashed x = false) ∨
        ∃ value ∈ Flags.separateValues args, isDashed value = false := by
  induction args using Flags.inputs.induct with
  | case1 => simp [Flags.inputs, Flags.separateValues]
  | case2 arg htakes =>
    rw [Flags.inputs_bare htakes, Flags.separateValues, if_pos htakes]
    simp [isDashed_of_takesNextArgument htakes]
  | case3 arg htakes value args ih =>
    rw [Flags.inputs_value htakes, Flags.separateValues_value htakes]
    simp only [List.exists_mem_cons_iff, ih, isDashed_of_takesNextArgument htakes, reduceCtorEq,
      false_or]
    exact or_left_comm
  | case4 arg args htakes hfile ih =>
    rw [Flags.inputs_file hfile, Flags.separateValues_cons (eq_false_of_ne_true htakes)]
    simp only [List.exists_mem_cons_iff, ih]
    exact or_assoc.symm
  | case5 arg args htakes hfile ih =>
    have hdashed := isDashed_of_not_isFile hfile
    rw [Flags.inputs_option (eq_false_of_ne_true htakes) (eq_false_of_ne_true hfile),
      Flags.separateValues_cons (eq_false_of_ne_true htakes)]
    simp only [List.exists_mem_cons_iff, ih, hdashed, reduceCtorEq, false_or]

/-! ## The cut -/

theorem splitAtFile_value (h : takesNextArgument arg = true) (value : String)
    (args : List String) : splitAtFile (arg :: value :: args) =
      (arg :: value :: (splitAtFile args).1, (splitAtFile args).2) := by
  rw [splitAtFile, if_pos h]

theorem splitAtFile_dashed (htakes : takesNextArgument arg = false) (hdashed : isDashed arg = true)
    (args : List String) :
    splitAtFile (arg :: args) = (arg :: (splitAtFile args).1, (splitAtFile args).2) := by
  rw [splitAtFile.eq_def]
  dsimp only
  rw [htakes, hdashed]
  rfl

theorem splitAtFile_undashed (h : isDashed arg = false) (args : List String) :
    splitAtFile (arg :: args) = ([arg], args) := by
  have htakes : takesNextArgument arg = false := by
    by_contra htakes
    exact absurd (isDashed_of_takesNextArgument (eq_true_of_ne_false htakes)) (by simp [h])
  rw [splitAtFile.eq_def]
  dsimp only
  rw [htakes, h]
  rfl

/-- The two parts of a cut are the arguments. -/
theorem splitAtFile_append (args : List String) :
    (splitAtFile args).1 ++ (splitAtFile args).2 = args := by
  induction args using Flags.inputs.induct with
  | case1 => rfl
  | case2 arg htakes =>
    rw [splitAtFile, if_pos htakes]
    rfl
  | case3 arg htakes value args ih =>
    rw [splitAtFile_value htakes, List.cons_append, List.cons_append, ih]
  | case4 arg args htakes hfile ih | case5 arg args htakes hfile ih =>
    cases hdashed : isDashed arg with
    | true => rw [splitAtFile_dashed (eq_false_of_ne_true htakes) hdashed, List.cons_append, ih]
    | false => rw [splitAtFile_undashed hdashed, List.singleton_append]

/-- Without an input that has no dash, everything is in front of the cut. -/
theorem splitAtFile_of_dashed (h : ∀ x ∈ Flags.inputs args, isDashed x = true) :
    splitAtFile args = (args, []) := by
  induction args using Flags.inputs.induct with
  | case1 => rfl
  | case2 arg htakes => rw [splitAtFile, if_pos htakes]
  | case3 arg htakes value args ih =>
    rw [Flags.inputs_value htakes] at h
    rw [splitAtFile_value htakes, ih h]
  | case4 arg args htakes hfile ih =>
    rw [Flags.inputs_file hfile] at h
    obtain ⟨hdashed, h⟩ := List.forall_mem_cons.1 h
    rw [splitAtFile_dashed (eq_false_of_ne_true htakes) hdashed, ih h]
  | case5 arg args htakes hfile ih =>
    have hdashed := isDashed_of_not_isFile hfile
    rw [Flags.inputs_option (eq_false_of_ne_true htakes) (eq_false_of_ne_true hfile)] at h
    rw [splitAtFile_dashed (eq_false_of_ne_true htakes) hdashed, ih h]

/-- **The cut is behind the first input that has no dash.** -/
theorem splitAtFile_of_undashed {f g : Flags} {before after : List String}
    (hsorted : f.parseAfter before = .ok g) (hbefore : ∀ x ∈ Flags.inputs before, isDashed x = true)
    (harg : isDashed arg = false) :
    splitAtFile (before ++ arg :: after) = (before ++ [arg], after) := by
  induction before using Flags.inputs.induct generalizing f with
  | case1 => exact splitAtFile_undashed harg after
  | case2 arg htakes =>
    obtain ⟨misuse, herror⟩ := Flags.parseAfter_bare f htakes
    exact absurd (herror.symm.trans hsorted) (by simp)
  | case3 arg htakes value before ih =>
    obtain ⟨f', hstep⟩ := Flags.exists_parseAfter_value f htakes value
    rw [hstep] at hsorted
    rw [Flags.inputs_value htakes] at hbefore
    rw [List.cons_append, List.cons_append, splitAtFile_value htakes, ih hsorted hbefore]
    rfl
  | case4 arg before htakes hfile ih =>
    obtain ⟨f', hstep⟩ := Flags.exists_parseAfter_cons f (eq_false_of_ne_true htakes)
    rw [hstep] at hsorted
    rw [Flags.inputs_file hfile] at hbefore
    obtain ⟨hdashed, hbefore⟩ := List.forall_mem_cons.1 hbefore
    rw [List.cons_append, splitAtFile_dashed (eq_false_of_ne_true htakes) hdashed,
      ih hsorted hbefore]
    rfl
  | case5 arg before htakes hfile ih =>
    have hdashed := isDashed_of_not_isFile hfile
    obtain ⟨f', hstep⟩ := Flags.exists_parseAfter_cons f (eq_false_of_ne_true htakes)
    rw [hstep] at hsorted
    rw [Flags.inputs_option (eq_false_of_ne_true htakes) (eq_false_of_ne_true hfile)] at hbefore
    rw [List.cons_append, splitAtFile_dashed (eq_false_of_ne_true htakes) hdashed,
      ih hsorted hbefore]
    rfl

/-- Without a separator, the flags end at the first file. -/
theorem splitFlags_of_notMem (h : Invocation.separator ∉ args) :
    splitFlags args = splitAtFile args := by
  have hspan : args.span (· != Invocation.separator) = (args, []) := by
    rw [List.span_eq_takeWhile_dropWhile, List.takeWhile_eq_self_iff.2, List.dropWhile_eq_nil_iff.2]
    all_goals
      intro arg harg
      exact bne_iff_ne.2 fun heq => h (heq ▸ harg)
  rw [splitFlags, hspan]

/-! ## Compiling with flags -/

namespace CommandLine

variable {l : CommandLine} {i : Invocation} {flags : List String}

/-- A command line that starts with a flag for the compiler, and holds no separator. -/
structure StartsWithFlag (l : CommandLine) : Prop where
  not_repl : l.repl = false
  no_code : l.eval = none
  dashed : ∃ first ∈ l.args.head?, isDashed first = true
  no_separator : Invocation.separator ∉ l.args

/-- **The router and the sorting of flags agree on what a file is**: compiling is chosen exactly if
some first arguments can be sorted and hold a file, and then the flags hold that file alone, as the
last of them, and what follows is for the program. -/
structure RoutesByFile (l : CommandLine) : Prop where
  compiles_iff : (∃ i flags, l.route = .ok i ∧ i.mode = .compile flags) ↔
    ∃ part, part <+: l.args ∧ ∃ f, Flags.parse part = .ok f ∧ f.files ≠ []
  ends_at_file : ∀ i flags, l.route = .ok i → i.mode = .compile flags →
    flags ++ i.args = l.args ∧
      ∃ f file, Flags.parse flags = .ok f ∧ f.files = [file] ∧ flags.getLast? = some file

theorem StartsWithFlag.splitFlags (hl : l.StartsWithFlag) :
    splitFlags l.args = splitAtFile l.args :=
  splitFlags_of_notMem hl.no_separator

/-- What is behind the cut starts with no separator. -/
theorem StartsWithFlag.dropWhile (hl : l.StartsWithFlag) :
    (splitAtFile l.args).2.dropWhile (· == Invocation.separator) = (splitAtFile l.args).2 := by
  refine List.dropWhile_eq_self_iff.2 fun hlength heq => hl.no_separator ?_
  have hmem := List.mem_append_right (splitAtFile l.args).1 (List.getElem_mem hlength)
  rwa [splitAtFile_append, eq_of_beq heq] at hmem

/-- **Compiling is chosen when an argument in front of the cut has no dash.** -/
theorem StartsWithFlag.route (hl : l.StartsWithFlag) :
    l.route = if ∃ arg ∈ (splitAtFile l.args).1, isDashed arg = false then
        .ok ⟨.compile (splitAtFile l.args).1, (splitAtFile l.args).2⟩
      else .error .noInput := by
  obtain ⟨first, hfirst, hdashed⟩ := hl.dashed
  obtain ⟨rest, hargs⟩ : ∃ rest, l.args = first :: rest := List.head?_eq_some_iff.1 hfirst
  have hsplit := hl.splitFlags
  have hdrop := hl.dropWhile
  rw [hargs] at hsplit hdrop ⊢
  simp only [CommandLine.route, hl.not_repl, hl.no_code, hargs, hdashed, hsplit, Invocation.make,
    hdrop, if_true, Bool.false_eq_true, if_false, List.any_eq_true, Bool.not_eq_true']

theorem StartsWithFlag.compiles_iff (hl : l.StartsWithFlag) :
    (∃ i flags, l.route = .ok i ∧ i.mode = .compile flags) ↔
      ∃ arg ∈ (splitAtFile l.args).1, isDashed arg = false := by
  rw [hl.route]
  constructor
  · rintro ⟨i, flags, hroute, -⟩
    by_contra h
    rw [if_neg h] at hroute
    exact absurd hroute (by simp)
  · intro h
    exact ⟨_, _, if_pos h, rfl⟩

/-- When compiling is chosen, the flags are what is in front of the cut. -/
theorem StartsWithFlag.eq_of_route (hl : l.StartsWithFlag) (h : l.route = .ok i)
    (hmode : i.mode = .compile flags) :
    flags = (splitAtFile l.args).1 ∧ i.args = (splitAtFile l.args).2 := by
  rw [hl.route] at h
  split at h
  · obtain rfl := Except.ok.inj h
    exact ⟨(Mode.compile.inj hmode).symm, rfl⟩
  · exact absurd h (by simp)

/-- With an input that has no dash, the two agree exactly if it is the first input. -/
theorem StartsWithFlag.routesByFile_of_undashed (hl : l.StartsWithFlag) {g : Flags}
    {before after : List String} (hargs : l.args = before ++ arg :: after)
    (hsorted : Flags.parse before = .ok g)
    (hbefore : ∀ x ∈ Flags.inputs before, isDashed x = true) (harg : isDashed arg = false) :
    l.RoutesByFile ↔ Flags.inputs before = [] := by
  have hcut : splitAtFile l.args = (before ++ [arg], after) := by
    rw [hargs]
    exact splitAtFile_of_undashed hsorted hbefore harg
  have hflags := Flags.parseAfter_snoc hsorted (isFile_of_undashed harg)
  have hfiles := Flags.files_of_parse hsorted
  constructor
  · intro h
    have hundashed : ∃ x ∈ (splitAtFile l.args).1, isDashed x = false :=
      ⟨arg, by rw [hcut]; simp, harg⟩
    obtain ⟨i, flags, hroute, hmode⟩ := hl.compiles_iff.2 hundashed
    obtain ⟨-, f, file, hparse, hsingle, -⟩ := h.ends_at_file i flags hroute hmode
    rw [(hl.eq_of_route hroute hmode).1, hcut] at hparse
    obtain rfl := Except.ok.inj (hflags.symm.trans hparse)
    rw [← hfiles]
    exact (List.append_eq_singleton_iff.1 hsingle).elim And.left fun h => absurd h.2 (by simp)
  · intro hnone
    refine ⟨iff_of_true ?_ ?_, fun i flags hroute hmode => ?_⟩
    · exact hl.compiles_iff.2 ⟨arg, by rw [hcut]; simp, harg⟩
    · refine ⟨before ++ [arg], ⟨after, by rw [hargs]; simp⟩, _, hflags, ?_⟩
      exact List.append_ne_nil_of_right_ne_nil _ (by simp)
    · obtain ⟨rfl, hrest⟩ := hl.eq_of_route hroute hmode
      rw [hrest]
      refine ⟨splitAtFile_append l.args, _, arg, by rw [hcut]; exact hflags, ?_, by rw [hcut]; simp⟩
      show g.files ++ [arg] = [arg]
      rw [hfiles, hnone, List.nil_append]

/-- Without such an input, compiling is chosen for a value without a dash. -/
theorem StartsWithFlag.compiles_iff_of_dashed (hl : l.StartsWithFlag)
    (h : ∀ x ∈ Flags.inputs l.args, isDashed x = true) :
    (∃ i flags, l.route = .ok i ∧ i.mode = .compile flags) ↔
      ∃ value ∈ Flags.separateValues l.args, isDashed value = false := by
  rw [hl.compiles_iff, splitAtFile_of_dashed h, exists_undashed_iff, or_iff_right]
  rintro ⟨x, hx, hundashed⟩
  exact absurd (h x hx) (by simp [hundashed])

/-- Without such an input and without such a value, the two agree if there is no input. -/
theorem StartsWithFlag.routesByFile_of_no_value (hl : l.StartsWithFlag)
    (h : ∀ x ∈ Flags.inputs l.args, isDashed x = true)
    (hvalue : ¬ ∃ value ∈ Flags.separateValues l.args, isDashed value = false) :
    l.RoutesByFile ↔ Flags.inputs l.args = [] := by
  have hnone : ¬ ∃ i flags, l.route = .ok i ∧ i.mode = .compile flags :=
    mt (hl.compiles_iff_of_dashed h).1 hvalue
  constructor
  · intro hroutes
    have hiff := hroutes.compiles_iff.trans (Flags.exists_prefix_files_iff _)
    exact not_not.1 (mt hiff.2 hnone)
  · intro hinputs
    refine ⟨iff_of_false hnone ?_, fun i flags hroute hmode => ?_⟩
    · rw [Flags.exists_prefix_files_iff]
      exact not_not.2 hinputs
    · exact absurd ⟨i, flags, hroute, hmode⟩ hnone

/-- Without such an input, but with such a value, nothing is left for the program; the two agree if
the only input is a lone dash at the end. -/
theorem StartsWithFlag.routesByFile_of_value (hl : l.StartsWithFlag)
    (h : ∀ x ∈ Flags.inputs l.args, isDashed x = true)
    (hvalue : ∃ value ∈ Flags.separateValues l.args, isDashed value = false) :
    l.RoutesByFile ↔ Flags.inputs l.args = ["-"] ∧ l.args.getLast? = some "-" := by
  have hcut := splitAtFile_of_dashed h
  have hchosen := (hl.compiles_iff_of_dashed h).2 hvalue
  constructor
  · intro hroutes
    obtain ⟨i, flags, hroute, hmode⟩ := hchosen
    obtain ⟨-, f, file, hparse, hfiles, hlast⟩ := hroutes.ends_at_file i flags hroute hmode
    rw [(hl.eq_of_route hroute hmode).1, hcut] at hparse hlast
    have hinputs := (Flags.files_of_parse hparse).symm.trans hfiles
    have hmem : file ∈ Flags.inputs l.args := by rw [hinputs]; exact List.mem_singleton_self file
    obtain rfl := (isDashed_eq_true_iff_of_isFile (isFile_of_mem_inputs hmem)).1 (h file hmem)
    exact ⟨hinputs, hlast⟩
  · rintro ⟨hinputs, hlast⟩
    refine ⟨iff_of_true hchosen ?_, fun i flags hroute hmode => ?_⟩
    · rw [Flags.exists_prefix_files_iff, hinputs]
      exact List.cons_ne_nil _ _
    · obtain ⟨rfl, hrest⟩ := hl.eq_of_route hroute hmode
      rw [hrest]
      refine ⟨splitAtFile_append l.args, ?_⟩
      rw [hcut]
      cases hparse : Flags.parse l.args with
      | ok f => exact ⟨f, "-", rfl, (Flags.files_of_parse hparse).trans hinputs, hlast⟩
      | error misuse =>
        -- Only a bare flag at the end cannot be sorted, and a lone dash is none.
        obtain ⟨flag, hflag, -⟩ := Flags.getLast?_of_parseAfter_error hparse
        have htext := Option.some.inj (hlast.symm.trans hflag)
        cases flag <;> exact absurd htext (by decide)

/-- **When the router and the sorting of flags agree.** They do exactly if the first input is a file
with a name, if there is neither an input nor a value of a bare flag without a dash, or if the only
input is a lone dash at the end and there is such a value. -/
theorem routesByFile_iff (hl : l.StartsWithFlag) :
    l.RoutesByFile ↔
      (∃ x ∈ (Flags.inputs l.args).head?, x ≠ "-") ∨
      (Flags.inputs l.args = [] ∧ ∀ value ∈ Flags.separateValues l.args, isDashed value = true) ∨
      (Flags.inputs l.args = ["-"] ∧ l.args.getLast? = some "-" ∧
        ∃ value ∈ Flags.separateValues l.args, isDashed value = false) := by
  by_cases h : ∃ x ∈ Flags.inputs l.args, isDashed x = false
  · obtain ⟨before, x, after, hargs, hfile, hx, hbefore, hsorted⟩ := Flags.exists_cut _ h
    obtain ⟨g, hg⟩ := hsorted .empty
    have hdashed : ∀ y ∈ Flags.inputs before, isDashed y = true :=
      fun y hy => eq_true_of_ne_false (hbefore y hy)
    have hinputs : Flags.inputs l.args = Flags.inputs before ++ x :: Flags.inputs after := by
      rw [hargs]
      exact Flags.inputs_cut hg hfile after
    have hne : x ≠ "-" := fun heq =>
      absurd ((isDashed_eq_true_iff_of_isFile hfile).2 heq) (by simp [hx])
    rw [hl.routesByFile_of_undashed hargs hg hdashed hx, hinputs]
    cases hfirst : Flags.inputs before with
    | nil => exact iff_of_true rfl (.inl ⟨x, rfl, hne⟩)
    | cons y ys =>
      refine iff_of_false (List.cons_ne_nil y ys) ?_
      have hy : y ∈ Flags.inputs before := by rw [hfirst]; exact List.mem_cons_self
      rintro (⟨first, hhead, hname⟩ | ⟨hnone, -⟩ | ⟨hsingle, -⟩)
      · obtain rfl := Option.some.inj hhead
        exact hname ((isDashed_eq_true_iff_of_isFile (isFile_of_mem_inputs hy)).1 (hdashed y hy))
      · exact absurd hnone (by simp)
      · exact absurd hsingle (by simp)
  · have hall : ∀ x ∈ Flags.inputs l.args, isDashed x = true := fun x hx =>
      eq_true_of_ne_false fun hundashed => h ⟨x, hx, hundashed⟩
    have hnamed : ¬ ∃ x ∈ (Flags.inputs l.args).head?, x ≠ "-" := by
      rintro ⟨x, hx, hne⟩
      have hmem := List.mem_of_mem_head? hx
      exact hne ((isDashed_eq_true_iff_of_isFile (isFile_of_mem_inputs hmem)).1 (hall x hmem))
    rw [or_iff_right hnamed]
    by_cases hvalue : ∃ value ∈ Flags.separateValues l.args, isDashed value = false
    · have hsome : ¬ ∀ value ∈ Flags.separateValues l.args, isDashed value = true := by
        obtain ⟨value, hmem, hundashed⟩ := hvalue
        exact fun hdashed => absurd (hdashed value hmem) (by simp [hundashed])
      rw [hl.routesByFile_of_value hall hvalue]
      simp only [hsome, hvalue, and_true, and_false, false_or]
    · have hdashed : ∀ value ∈ Flags.separateValues l.args, isDashed value = true :=
        fun value hmem => eq_true_of_ne_false fun hundashed => hvalue ⟨value, hmem, hundashed⟩
      rw [hl.routesByFile_of_no_value hall hvalue]
      simp only [hvalue, and_false, or_false]
      exact (and_iff_left hdashed).symm

/-- Flags with values, a file and what is for the program. -/
def withFlags : CommandLine := ⟨false, none, false, ["-I", "inc", "-Wall", "a.c", "-v", "b.c"]⟩

theorem startsWithFlag_withFlags : withFlags.StartsWithFlag := by
  refine ⟨rfl, rfl, ⟨"-I", rfl, ?_⟩, ?_⟩ <;> decide +kernel

theorem routesByFile_iff_withFlags : withFlags.StartsWithFlag ∧ withFlags.RoutesByFile := by
  refine ⟨startsWithFlag_withFlags, (routesByFile_iff startsWithFlag_withFlags).2 (.inl ?_)⟩
  exact ⟨"a.c", by decide +kernel, by decide⟩

/-- Flags that hold no file. -/
def withoutFile : CommandLine := ⟨false, none, false, ["-I", "inc"]⟩

/-- **The value of a bare flag passes for a file**: compiling is chosen for flags that hold none. -/
theorem withoutFile_compiles : withoutFile.StartsWithFlag ∧ ¬ withoutFile.RoutesByFile := by
  refine ⟨⟨rfl, rfl, ⟨"-I", rfl, by decide +kernel⟩, by decide +kernel⟩, fun hroutes => ?_⟩
  have hchosen := hroutes.compiles_iff.1 ⟨⟨.compile ["-I", "inc"], []⟩, _, by decide +kernel, rfl⟩
  exact (Flags.exists_prefix_files_iff _).1 hchosen (by decide +kernel)

end CommandLine

end LiveC
