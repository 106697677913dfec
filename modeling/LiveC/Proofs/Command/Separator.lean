import LiveC.Proofs.Command.Routing
/-!
# What becomes of a separator

Two dashes separate what the compiler is given from what the program is given. `splitFlags` takes
one of them away (`splitFlags_separated`), and `Invocation.make` then drops all that are left in
front (`Invocation.exists_make`), also those that the program was to be given. So at most one is
consumed exactly when no two stand side by side behind what the mode of use takes
(`CommandLine.Consumes`), and the arguments behind a separator reach the program as they are exactly
when they do not start with another one: `CommandLine.route_separated_iff`.
-/

namespace LiveC

open Invocation (separator)

variable {arg file : String} {flags rest xs : List String}

/-! ## Arguments that are no option -/

/-- What does not start with a dash is no option of the program. -/
theorem ProgramOption.ofArgument?_of_undashed (h : isDashed arg = false) :
    ofArgument? arg = none := by
  have hstart : ¬ "-".toList <+: arg.toList := fun hprefix => by
    have hdashed : isDashed arg = true := List.isPrefixOf_iff_prefix.2 hprefix
    simp [h] at hdashed
  unfold ofArgument?
  split
  · next heq => exact absurd ⟨_, heq.symm⟩ hstart
  · next heq => exact absurd ⟨_, heq.symm⟩ hstart
  · rfl

theorem ne_separator_of_undashed (h : isDashed arg = false) : arg ≠ separator := by
  rintro rfl
  exact absurd h (by decide +kernel)

/-! ## What an invocation drops -/

/-- What a mode of use takes from the arguments of a command line. -/
def Mode.taken : Mode → List String
  | repl => []
  | inline _ => []
  | importFile path => [path]
  | compile flags => flags

namespace Invocation

@[simp] theorem make_separator (mode : Mode) (xs : List String) :
    make mode (separator :: xs) = make mode xs := by
  rw [make, List.dropWhile_cons_of_pos (by simp), make]

theorem make_cons (mode : Mode) (h : arg ≠ separator) (xs : List String) :
    make mode (arg :: xs) = ⟨mode, arg :: xs⟩ := by
  rw [make, List.dropWhile_cons_of_neg (by simpa using h)]

/-- The arguments of an invocation are what it was given, behind the separators in front. -/
theorem exists_make (mode : Mode) (xs : List String) :
    ∃ n, xs = List.replicate n separator ++ (make mode xs).args ∧
      (make mode xs).args.head? ≠ some separator := by
  induction xs with
  | nil => exact ⟨0, rfl, by simp [make]⟩
  | cons x xs ih =>
    by_cases hx : x = separator
    · obtain ⟨n, heq, hhead⟩ := ih
      rw [hx, make_separator]
      exact ⟨n + 1, by rw [List.replicate_succ, List.cons_append, ← heq], hhead⟩
    · rw [make_cons mode hx]
      exact ⟨0, rfl, by simpa using hx⟩

/-- Nothing is dropped exactly when there is no separator in front. -/
theorem make_eq_iff (mode : Mode) (xs : List String) :
    make mode xs = ⟨mode, xs⟩ ↔ xs.head? ≠ some separator := by
  constructor
  · intro h
    obtain ⟨-, -, hhead⟩ := exists_make mode xs
    rwa [h] at hhead
  · intro h
    cases xs with
    | nil => rfl
    | cons x xs => exact make_cons mode (fun hx => h (by rw [hx, List.head?_cons])) xs

end Invocation

/-- The flags end at the first separator. -/
theorem splitFlags_separated (h : separator ∉ flags) (xs : List String) :
    splitFlags (flags ++ separator :: xs) = (flags, xs) := by
  have hspan : (flags ++ separator :: xs).span (· != separator) = (flags, separator :: xs) := by
    rw [List.span_eq_takeWhile_dropWhile]
    have hflags : ∀ arg ∈ flags, (arg != separator) = true :=
      fun arg harg => bne_iff_ne.2 fun heq => h (heq ▸ harg)
    rw [List.takeWhile_append_of_pos hflags, List.dropWhile_append_of_pos hflags]
    simp
  rw [splitFlags, hspan]

/-- What stands in front of a separator is no separator. -/
theorem two_separators_prefix_iff {n : Nat} (h : xs.head? ≠ some separator) :
    [separator, separator] <+: List.replicate n separator ++ xs ↔ 2 ≤ n := by
  match n with
  | 0 =>
    refine iff_of_false (fun hprefix => h ?_) (by simp)
    obtain ⟨t, ht⟩ := hprefix
    rw [← List.nil_append xs, ← List.replicate_zero, ← ht]
    rfl
  | 1 =>
    refine iff_of_false (fun hprefix => h ?_) (by simp)
    obtain ⟨t, ht⟩ := hprefix
    obtain rfl := (List.cons.inj ht).2
    rfl
  | n + 2 => exact iff_of_true ⟨List.replicate n separator ++ xs, rfl⟩ (by omega)

namespace CommandLine

variable {l : CommandLine} {i : Invocation} {trace : Bool}

/-- A command line without options but that for a log: its arguments decide. -/
def ofArgs (trace : Bool) (args : List String) : CommandLine := ⟨false, none, trace, args⟩

/-- Behind a file, nothing is an option. -/
theorem parse_of_undashed (h : isDashed file = false) (rest : List String) :
    parse (file :: rest) = .ok (ofArgs false (file :: rest)) := by
  have hne : ¬(file == "--") = true := fun heq => ne_separator_of_undashed h (eq_of_beq heq)
  have hread : parseAfter empty (file :: rest) = .ok (ofArgs false (file :: rest)) := by
    rw [parseAfter.eq_def]
    dsimp only
    rw [if_neg hne, ProgramOption.ofArgument?_of_undashed h]
    rfl
  rw [parse, hread]
  rfl

/-! ## Importing a file -/

theorem route_import (h : isDashed file = false) (rest : List String) :
    (ofArgs trace (file :: rest)).route = .ok (.make (.importFile file) rest) := by
  simp [ofArgs, route, h]

/-! ## Compiling with flags -/

/-- In front of a separator, an argument without a dash passes for a file. -/
theorem route_compile (hdashed : ∃ first ∈ flags.head?, isDashed first = true)
    (h : separator ∉ flags) (xs : List String) :
    (ofArgs trace (flags ++ separator :: xs)).route =
      if ∃ arg ∈ flags, isDashed arg = false then .ok (.make (.compile flags) xs)
      else .error .noInput := by
  obtain ⟨first, hfirst, hdashed⟩ := hdashed
  obtain ⟨rest, rfl⟩ := List.head?_eq_some_iff.1 hfirst
  have hsplit := splitFlags_separated h xs
  rw [List.cons_append] at hsplit ⊢
  simp only [ofArgs, route, hdashed, hsplit, if_true, Bool.false_eq_true, if_false,
    List.any_eq_true, Bool.not_eq_true']

/-! ## Every mode of use -/

/-- What is not for the compiler is for the program, but for a separator between them. -/
theorem exists_splitFlags (args : List String) :
    ∃ rest, args = (splitFlags args).1 ++ rest ∧
      ∀ mode, Invocation.make mode (splitFlags args).2 = .make mode rest := by
  by_cases h : separator ∈ args
  · obtain ⟨flags, xs, rfl, hflags⟩ := List.eq_append_cons_of_mem h
    rw [splitFlags_separated hflags]
    exact ⟨separator :: xs, rfl, fun mode => (Invocation.make_separator mode xs).symm⟩
  · rw [splitFlags_of_notMem h]
    exact ⟨_, (splitAtFile_append args).symm, fun mode => rfl⟩

/-- What the program is given is what the mode of use does not take. -/
theorem eq_make_of_route (h : l.route = .ok i) :
    ∃ rest, l.args = i.mode.taken ++ rest ∧ i = .make i.mode rest := by
  unfold route at h
  split at h
  · -- The shell takes no arguments.
    split at h
    · next hnone =>
      obtain rfl := Except.ok.inj h
      exact ⟨[], List.isEmpty_iff.1 hnone, rfl⟩
    · exact absurd h (by simp)
  split at h
  · split at h
    · exact absurd h (by simp)
    · obtain rfl := Except.ok.inj h
      exact ⟨l.args, rfl, rfl⟩
  split at h
  · next hnone =>
    obtain rfl := Except.ok.inj h
    exact ⟨[], hnone, rfl⟩
  next first rest hargs =>
  split at h
  · obtain ⟨rest', heq, hmake⟩ := exists_splitFlags l.args
    split at h
    next flags args hsplit =>
    rw [hsplit] at heq hmake
    split at h
    · obtain rfl := Except.ok.inj h
      exact ⟨rest', heq, hmake (.compile flags)⟩
    · exact absurd h (by simp)
  · obtain rfl := Except.ok.inj h
    exact ⟨rest, hargs, rfl⟩

/-- **What is consumed** of the arguments of a command line: what the mode of use takes, and then
separators. -/
theorem exists_consumed (h : l.route = .ok i) :
    ∃ n, l.args = i.mode.taken ++ (List.replicate n separator ++ i.args) ∧
      i.args.head? ≠ some separator := by
  obtain ⟨rest, hargs, hmake⟩ := eq_make_of_route h
  obtain ⟨n, hrest, hhead⟩ := Invocation.exists_make i.mode rest
  rw [← hmake] at hrest hhead
  exact ⟨n, by rw [hargs, ← hrest], hhead⟩

/-- **When at most one separator is consumed.** However a command line is used, the program is given
what stands behind what the mode of use takes and a number of separators, which is one at most
exactly when no two of them follow there. And when the arguments decide: behind a file, or behind
flags that pass for holding one, and a separator, the program is given what follows as it is exactly
when that starts with no other separator; behind a file alone, it is given what starts with none. -/
theorem route_separated_iff (l : CommandLine) (trace : Bool) (xs : List String) :
    (∀ i, l.route = .ok i → ∃ n,
      l.args = i.mode.taken ++ (List.replicate n separator ++ i.args) ∧
      (n ≤ 1 ↔ ¬ i.mode.taken ++ [separator, separator] <+: l.args)) ∧
    (∀ file, isDashed file = false →
      parse (file :: xs) = .ok (ofArgs false (file :: xs)) ∧
      ((ofArgs trace (file :: separator :: xs)).route = .ok ⟨.importFile file, xs⟩ ↔
        xs.head? ≠ some separator) ∧
      ((ofArgs trace (file :: xs)).route = .ok ⟨.importFile file, xs⟩ ↔
        xs.head? ≠ some separator)) ∧
    ∀ flags, (∃ first ∈ flags.head?, isDashed first = true) → separator ∉ flags →
      ((ofArgs trace (flags ++ separator :: xs)).route = .ok ⟨.compile flags, xs⟩ ↔
        (∃ arg ∈ flags, isDashed arg = false) ∧ xs.head? ≠ some separator) := by
  refine ⟨fun i h => ?_, fun file hfile => ?_, fun flags hdashed hflags => ?_⟩
  · obtain ⟨n, hargs, hhead⟩ := exists_consumed h
    refine ⟨n, hargs, ?_⟩
    rw [hargs, List.prefix_append_right_inj, two_separators_prefix_iff hhead]
    omega
  · refine ⟨parse_of_undashed hfile xs, ?_, ?_⟩
    · rw [route_import hfile, Invocation.make_separator, Except.ok.injEq, Invocation.make_eq_iff]
    · rw [route_import hfile, Except.ok.injEq, Invocation.make_eq_iff]
  · rw [route_compile hdashed hflags]
    split
    · next hfile => rw [and_iff_right hfile, Except.ok.injEq, Invocation.make_eq_iff]
    · next hnone => exact iff_of_false (by simp) fun h => hnone h.1

/-- A separator among the arguments of the program reaches it. -/
theorem route_separated_iff_laterSeparator :
    ["x", "--"].head? ≠ some separator ∧
    (ofArgs false ("a.c" :: separator :: ["x", "--"])).route =
      .ok ⟨.importFile "a.c", ["x", "--"]⟩ ∧
    (ofArgs false (["-O2", "a.c"] ++ separator :: ["x", "--"])).route =
      .ok ⟨.compile ["-O2", "a.c"], ["x", "--"]⟩ := by
  have hhead : ["x", "--"].head? ≠ some separator := by decide
  have hfile : isDashed "a.c" = false := by decide +kernel
  have hdashed : isDashed "-O2" = true := by decide +kernel
  obtain ⟨-, himport, hcompile⟩ := route_separated_iff .empty false ["x", "--"]
  refine ⟨hhead, (himport "a.c" hfile).2.1.2 hhead, ?_⟩
  exact (hcompile ["-O2", "a.c"] ⟨"-O2", rfl, hdashed⟩ (by decide)).2
    ⟨⟨"a.c", by decide, hfile⟩, hhead⟩

/-- **A second separator in front is dropped**, which the program was to be given. -/
theorem secondSeparator_dropped :
    parse (["-O2", "a.c"] ++ separator :: ["--", "x"]) =
      .ok (ofArgs false (["-O2", "a.c"] ++ separator :: ["--", "x"])) ∧
    (ofArgs false (["-O2", "a.c"] ++ separator :: ["--", "x"])).route =
      .ok ⟨.compile ["-O2", "a.c"], ["x"]⟩ ∧
    (ofArgs false ("a.c" :: separator :: ["--", "x"])).route = .ok ⟨.importFile "a.c", ["x"]⟩ := by
  decide +kernel

end CommandLine

end LiveC
