import LiveC.Proofs.Repl.LineMap
import LiveC.Proofs.Session.Failing
/-!
# The size of a unit

Code is measured at two places: a line when it is taken, and the whole unit when a statement is
built. So no statement makes the unit of what is kept longer than `codeLimit`, but a declaration
may, as it is kept without a build (`Repl.Grows`, `Repl.eval_grows`). The unit only shrinks at a
reset. Hence the unit fits exactly when it did after each declaration since then, and once no
statement fits any more, every statement is refused until the next reset: `Repl.play_unitSize_iff`.
-/

namespace LiveC

variable {σ : Type}

namespace Repl

/-! ## Sizes -/

/-- The size of the unit of what is kept, in bytes. -/
def unitSize (r : Repl) : Nat := r.code.unit.utf8ByteSize

theorem unitSize_of_code_eq {r r' : Repl} (h : r'.code = r.code) : r'.unitSize = r.unitSize := by
  rw [unitSize, unitSize, h]

theorem unitSize_addDeclaration (r : Repl) (f : Fragment) :
    (r.addDeclaration f).unitSize = r.unitSize + f.text.utf8ByteSize + 1 := by
  have hempty : "".utf8ByteSize = 0 := rfl
  have hbreak : "\n".utf8ByteSize = 1 := rfl
  simp only [unitSize, addDeclaration, Code.unit, Code.declarationText, Code.statementText,
    Fragment.layOut_append, String.utf8ByteSize_append, hempty, hbreak]
  omega

/-- A statement stands on a line of its own, behind an indentation. -/
theorem size_nextUnit (r : Repl) (statement : String) :
    (r.nextUnit statement).utf8ByteSize = r.unitSize + statement.utf8ByteSize + 5 := by
  have hindent : Code.indent.utf8ByteSize = 4 := rfl
  have hbreak : "\n".utf8ByteSize = 1 := rfl
  simp only [unitSize, nextUnit, Code.unit, String.utf8ByteSize_append, hindent, hbreak]
  omega

theorem unitSize_start_le : start.unitSize ≤ codeLimit := by decide +kernel

/-- A statement has at least its semicolon. -/
theorem size_statementText_pos (line : String) : 1 ≤ (statementText line).utf8ByteSize := by
  have hmark : ";".utf8ByteSize = 1 := rfl
  unfold statementText
  dsimp only
  split
  · next hends =>
    obtain ⟨t, ht⟩ := List.isSuffixOf_iff_suffix.1 hends
    have heq : Text.trimmed line = String.ofList t ++ ";" := by
      rw [← String.toList_inj, String.toList_append, String.toList_ofList, ht]
    rw [heq, String.utf8ByteSize_append, hmark]
    omega
  · rw [String.utf8ByteSize_append, hmark]
    omega

/-! ## One line -/

/-- How a line with a result changes the size of the unit from `n` to `n'`: a declaration adds a
line to it, whatever the size is then, and any other line that makes it longer leaves it within the
limit. -/
structure Grows (line : String) (result : Except Failure EvalOutcome) (n n' : Nat) : Prop where
  le : n ≤ n'
  declared : result = .ok .declared → n' = n + (Text.trimmedEnd line).utf8ByteSize + 1
  other : result ≠ .ok .declared → n' = n ∨ n' ≤ codeLimit

variable {r r' : Repl} {line : String} {result : Except Failure EvalOutcome} {n n' : Nat}

theorem Grows.refl (h : result ≠ .ok .declared) : Grows line result n n :=
  ⟨le_rfl, fun hdeclared => absurd hdeclared h, fun _ => .inl rfl⟩

/-- The unit fits after a line exactly when it did before, and a declaration leaves it within the
limit. -/
theorem Grows.fits_iff (h : Grows line result n n') : n' ≤ codeLimit ↔ n ≤ codeLimit ∧
    (result = .ok .declared → n + (Text.trimmedEnd line).utf8ByteSize + 1 ≤ codeLimit) := by
  have hle := h.le
  by_cases hdeclared : result = .ok .declared
  · have heq := h.declared hdeclared
    constructor
    · exact fun hfits => ⟨by omega, fun _ => by omega⟩
    · exact fun hfits => heq ▸ hfits.2 hdeclared
  · constructor
    · exact fun hfits => ⟨by omega, fun hd => absurd hd hdeclared⟩
    · rintro ⟨hfits, -⟩
      rcases h.other hdeclared with heq | hle
      · exact heq ▸ hfits
      · exact hle

/-- A statement that was run is kept only in a unit that fits. -/
theorem grows_ran {f : Fragment} (hsize : (r.nextUnit f.text).utf8ByteSize ≤ codeLimit)
    (hresult : result ≠ .ok .declared) (s : Session) :
    Grows line result r.unitSize (r.ran f s result).unitSize := by
  have hnext := size_nextUnit r f.text
  have hcode : (r.ran f s result).unitSize = r.unitSize ∨
      (r.ran f s result).unitSize = (r.nextUnit f.text).utf8ByteSize := by
    unfold unitSize ran
    dsimp only
    split
    · exact .inr (by rw [unit_addStatement])
    · exact .inl rfl
  refine ⟨?_, fun hd => absurd hd hresult, fun _ => ?_⟩
  · rcases hcode with h | h <;> omega
  · exact hcode.imp_right fun h => h.trans_le hsize

variable [Compiler σ]

/-- **How a line changes the size of the unit.** -/
theorem eval_grows (line : String) (r : Repl) (w : World σ) :
    Grows line (eval line (r, w)).1 r.unitSize (eval line (r, w)).2.1.unitSize := by
  rcases eval_cases line r w with ⟨result, h, hresult⟩ | h | h
  · rw [h]
    exact .refl (by rcases hresult with ⟨e, rfl⟩ | rfl <;> simp)
  · rw [h]
    have hsame : ({ r with inputs := r.inputs + 1 } : Repl).unitSize = r.unitSize :=
      unitSize_of_code_eq rfl
    rw [unitSize_addDeclaration, hsame]
    exact ⟨by omega, fun _ => rfl, by simp⟩
  · rw [h]
    rcases execute_cases ⟨Fragment.labelOf (r.inputs + 1), statementText line⟩
      { r with inputs := r.inputs + 1 } w with
      ⟨result, w', cs, h', -, -, hresult⟩ |
      ⟨result, s, w₁, w', cs, h', -, -, -, -, -, hsize, hresult⟩
    · rw [h']
      exact .refl (by rcases hresult with ⟨e, rfl⟩ | ⟨report, text, rfl⟩ <;> simp)
    · have hnot : result ≠ .ok .declared := by rcases hresult with ⟨e, rfl⟩ | ⟨x, rfl⟩ <;> simp
      rw [h']
      exact grows_ran hsize hnot s

/-! ## Declarations and statements -/

/-- The shortest statement is a lone semicolon. -/
theorem takenAs_semicolon : TakenAs .statement ";" := by
  refine ⟨?_, ?_, ?_⟩ <;> decide +kernel

/-- What a statement is refused with when the unit has become too long. -/
def tooLong : Failure := .invalidArgument (.accumulatedTooLong codeLimit)

open Attempt (FailsWith)

theorem runEntry_failsWith (s : Session) (entry program : String) (args : List String) :
    FailsWith (· ≠ tooLong) (Execution.runEntry s entry program args : Attempt (World σ) _) := by
  have hfind : FailsWith (· ≠ tooLong)
      (s.inside (InSession.find entry) : Attempt (World σ) (Option Address)) :=
    .of_ok fun w => by
      rw [Session.inside_find_apply]
      split <;> exact ⟨_, rfl⟩
  refine hfind.bind fun found => ?_
  cases found with
  | none => exact .fail (by simp [tooLong])
  | some address =>
    dsimp only
    split
    · exact .fail (by simp [tooLong])
    · exact .of_ok fun _ => ⟨_, rfl⟩

/-- A statement whose unit fits is not refused for its size, whatever comes of the build. -/
theorem execute_ne_tooLong {f : Fragment} (h : (r.nextUnit f.text).utf8ByteSize ≤ codeLimit)
    (w : World σ) : (execute f (r, w)).1 ≠ .error tooLong := by
  have hload : FailsWith Failure.OfBuild
      (InSession.compile (r.nextUnit f.text) : InSession σ Unit) :=
    InSession.demandWith_failsWith _ _
  have hbuild := Engine.build_failsWith hload Code.unitName w
  rcases hb : Engine.build Code.unitName (InSession.compile (r.nextUnit f.text)) w with ⟨e | s, w₁⟩
  · have he : e.OfBuild := hbuild e (by rw [hb])
    rw [execute_eq_of_error (Nat.not_lt.2 h) hb]
    cases e.report? with
    | some report => simp [explain_eq]
    | none =>
      intro hrefused
      rw [Except.error.inj hrefused] at he
      cases he
  · obtain ⟨result, hrun, hresult⟩ := execute_eq_of_ok (Nat.not_lt.2 h) hb
    have hentry := runEntry_failsWith s Code.entry Code.unitName [] (r.dropped w₁)
    rw [hrun, hresult]
    cases hran : (Execution.runEntry s Code.entry Code.unitName [] (r.dropped w₁)).1 with
    | error e => exact fun hrefused => hentry e hran (Except.error.inj hrefused)
    | ok x => simp [Except.map]

theorem execute_eq_tooLong_iff (f : Fragment) (r : Repl) (w : World σ) :
    (execute f (r, w)).1 = .error tooLong ↔
      codeLimit < r.unitSize + f.text.utf8ByteSize + 5 := by
  rw [← size_nextUnit]
  constructor
  · intro he
    by_contra hfits
    exact absurd he (execute_ne_tooLong (Nat.not_lt.1 hfits) w)
  · intro hlong
    rw [execute_of_long hlong, tooLong]

/-- **A statement is refused for its size** exactly when its unit does not fit. -/
theorem eval_eq_tooLong_iff (h : TakenAs .statement line) (r : Repl) (w : World σ) :
    (eval line (r, w)).1 = .error tooLong ↔
      codeLimit < r.unitSize + (statementText line).utf8ByteSize + 5 := by
  have hsize : ({ r with inputs := r.inputs + 1 } : Repl).unitSize = r.unitSize :=
    unitSize_of_code_eq rfl
  rw [eval_of_takenAs h, execute_eq_tooLong_iff, hsize]

/-! ## Playing inputs -/

theorem play_nil_snd (p : Repl × World σ) : (play [] p).2 = p := rfl

theorem play_cons_snd (i : ReplInput) (inputs : List ReplInput) (p : Repl × World σ) :
    (play (i :: inputs) p).2 = (play inputs (turn p i).2).2 := rfl

theorem play_snoc (inputs : List ReplInput) (i : ReplInput) (p : Repl × World σ) :
    (play (inputs ++ [i]) p).2 = (turn (play inputs p).2 i).2 := by
  induction inputs generalizing p with
  | nil => rw [List.nil_append, play_cons_snd, play_nil_snd, play_nil_snd]
  | cons j inputs ih => rw [List.cons_append, play_cons_snd, ih, play_cons_snd]

/-- The unit does not shrink until the next reset. -/
theorem unitSize_le_play {later : List ReplInput} (h : .reset ∉ later) (p : Repl × World σ) :
    p.1.unitSize ≤ (play later p).2.1.unitSize := by
  induction later generalizing p with
  | nil => exact le_rfl
  | cons i later ih =>
    cases i with
    | reset => exact absurd List.mem_cons_self h
    | line text =>
      obtain ⟨r, w⟩ := p
      have hlater : .reset ∉ later := fun hm => h (List.mem_cons_of_mem _ hm)
      have hturn := (eval_grows text r w).le
      rw [play_cons_snd, turn_line_snd]
      exact hturn.trans (ih hlater (eval text (r, w)).2)

/-- Where some inputs and a last one can be taken apart: at the last one, or before it. -/
theorem snoc_eq_append_cons_iff {inputs before after : List ReplInput} {i j : ReplInput} :
    inputs ++ [i] = before ++ j :: after ↔ (after = [] ∧ inputs = before ∧ i = j) ∨
      ∃ rest, after = rest ++ [i] ∧ inputs = before ++ j :: rest := by
  constructor
  · intro h
    rcases List.eq_nil_or_concat after with rfl | ⟨rest, k, rfl⟩
    · obtain ⟨rfl, hlast⟩ := List.append_inj' h rfl
      exact .inl ⟨rfl, rfl, List.singleton_inj.1 hlast⟩
    · rw [List.concat_eq_append, ← List.cons_append, ← List.append_assoc] at h
      obtain ⟨rfl, hlast⟩ := List.append_inj' h rfl
      exact .inr ⟨rest, by rw [List.concat_eq_append, hlast], rfl⟩
  · rintro (⟨rfl, rfl, rfl⟩ | ⟨rest, rfl, rfl⟩)
    · rfl
    · simp

/-- **When the unit fits**: each declaration since the last reset has left it within the limit. -/
theorem unitSize_play_le_iff (w : World σ) (inputs : List ReplInput) :
    (play inputs (start, w)).2.1.unitSize ≤ codeLimit ↔
      ∀ before line after, inputs = before ++ .line line :: after → .reset ∉ after →
        (eval line (play before (start, w)).2).1 = .ok .declared →
        (play before (start, w)).2.1.unitSize + (Text.trimmedEnd line).utf8ByteSize + 1 ≤
          codeLimit := by
  induction inputs using List.reverseRecOn with
  | nil => exact iff_of_true unitSize_start_le (by simp)
  | append_singleton inputs i ih =>
    rw [play_snoc]
    cases i with
    | reset =>
      rw [(turn_reset _).2]
      refine iff_of_true unitSize_start_le fun before line after heq hreset => ?_
      rcases snoc_eq_append_cons_iff.1 heq with ⟨-, -, hline⟩ | ⟨rest, rfl, -⟩
      · cases hline
      · simp at hreset
    | line text =>
      rw [turn_line_snd, (eval_grows text _ _).fits_iff, ih]
      constructor
      · rintro ⟨hbefore, hlast⟩ before line after heq hreset
        rcases snoc_eq_append_cons_iff.1 heq with ⟨-, rfl, hline⟩ | ⟨rest, rfl, hinputs⟩
        · obtain rfl := ReplInput.line.inj hline
          exact hlast
        · exact hbefore before line rest hinputs fun hm => hreset (List.mem_append_left _ hm)
      · intro h
        refine ⟨fun before line after heq hreset => ?_, h inputs text [] rfl (by simp)⟩
        exact h before line (after ++ [.line text]) (by rw [heq]; simp) (by simpa using hreset)

/-- **When every statement is refused for its size** until the next reset: no statement fits any
more, not even a lone semicolon with its indentation and the end of its line. -/
theorem forall_eval_eq_tooLong_iff (p : Repl × World σ) :
    (∀ later, .reset ∉ later → ∀ line, TakenAs .statement line →
      (eval line (play later p).2).1 = .error tooLong) ↔ codeLimit < p.1.unitSize + 6 := by
  constructor
  · intro h
    have hsemicolon : (statementText ";").utf8ByteSize = 1 := by decide +kernel
    have hrefused := h [] (by simp) ";" takenAs_semicolon
    rw [play_nil_snd] at hrefused
    have hlong := (eval_eq_tooLong_iff takenAs_semicolon p.1 p.2).1 hrefused
    rw [hsemicolon] at hlong
    omega
  · intro h later hreset line hline
    have hgrown := unitSize_le_play hreset p
    have hpos := size_statementText_pos line
    refine (eval_eq_tooLong_iff hline (play later p).2.1 (play later p).2.2).2 ?_
    omega

/-- **The size of the unit of an interactive session.** Whatever a new session was played, the unit
of what it keeps fits exactly when each declaration since the last reset left it within the limit;
statements never make it too long. And every statement until the next reset is refused for its size
exactly when the unit leaves no six bytes, whether or not it fits itself. -/
theorem play_unitSize_iff (w : World σ) (inputs : List ReplInput) :
    ((play inputs (start, w)).2.1.unitSize ≤ codeLimit ↔
      ∀ before line after, inputs = before ++ .line line :: after → .reset ∉ after →
        (eval line (play before (start, w)).2).1 = .ok .declared →
        (play before (start, w)).2.1.unitSize + (Text.trimmedEnd line).utf8ByteSize + 1 ≤
          codeLimit) ∧
    ((∀ later, .reset ∉ later → ∀ line, TakenAs .statement line →
        (eval line (play later (play inputs (start, w)).2).2).1 = .error tooLong) ↔
      codeLimit < (play inputs (start, w)).2.1.unitSize + 6) :=
  ⟨unitSize_play_le_iff w inputs, forall_eval_eq_tooLong_iff _⟩

/-- A declaration that leaves room for statements. -/
theorem play_unitSize_iff_declared :
    let line := "int one() \x7b return 1; \x7d"
    let p := (play [.line line] (start, scriptedWorld)).2
    (eval line (start, scriptedWorld)).1 = .ok .declared ∧ p.1.unitSize ≤ codeLimit ∧
      start.unitSize + (Text.trimmedEnd line).utf8ByteSize + 1 ≤ codeLimit ∧
      ¬ ∀ later, .reset ∉ later → ∀ line, TakenAs .statement line →
        (eval line (play later p).2).1 = .error tooLong := by
  intro line p
  have hline : TakenAs .declaration line := by refine ⟨?_, ?_, ?_⟩ <;> decide +kernel
  have hdeclared : (eval line (start, scriptedWorld)).1 = .ok .declared := by
    rw [eval_of_takenAs hline]
  have hsize : p.1.unitSize + 6 ≤ codeLimit := by decide +kernel
  obtain ⟨hfits, hrefused⟩ := play_unitSize_iff scriptedWorld [.line line]
  have hp : p.1.unitSize ≤ codeLimit := by omega
  exact ⟨hdeclared, hp, hfits.1 hp [] line [] rfl (by simp) hdeclared,
    fun h => absurd (hrefused.1 h) (Nat.not_lt.2 hsize)⟩

/-! ## A declaration that is too long -/

/-- **A declaration that is too long is taken**, and every statement until the next reset is
refused. -/
theorem eval_of_long (h : TakenAs .declaration line)
    (hlong : codeLimit < r.unitSize + (Text.trimmedEnd line).utf8ByteSize + 1) (w : World σ) :
    (eval line (r, w)).1 = .ok .declared ∧ codeLimit < (eval line (r, w)).2.1.unitSize ∧
      ∀ later, .reset ∉ later → ∀ line', TakenAs .statement line' →
        (eval line' (play later (eval line (r, w)).2).2).1 = .error tooLong := by
  have hdeclared : (eval line (r, w)).1 = .ok .declared := by rw [eval_of_takenAs h]
  have hsize := (eval_grows line r w).declared hdeclared
  have hunit : codeLimit < (eval line (r, w)).2.1.unitSize := hsize ▸ hlong
  exact ⟨hdeclared, hunit, (forall_eval_eq_tooLong_iff _).2 (Nat.lt_add_right 6 hunit)⟩

theorem size_replicate (n : Nat) (s : List Char) :
    (String.ofList (List.replicate n s).flatten).utf8ByteSize =
      n * (String.ofList s).utf8ByteSize := by
  induction n with
  | zero => simp
  | succ n ih =>
    rw [List.replicate_succ, List.flatten_cons, String.ofList_append, String.utf8ByteSize_append,
      ih, Nat.succ_mul, Nat.add_comm]

/-- The definition of a function, behind other code on the same line. -/
theorem takenAs_declaration (front : String) (h : front.utf8ByteSize + 10 ≤ codeLimit) :
    TakenAs .declaration (front ++ "int f() \x7b\x7d") ∧
      Text.trimmedEnd (front ++ "int f() \x7b\x7d") = front ++ "int f() \x7b\x7d" := by
  have hdefinition : "int f() \x7b\x7d".toList = "int f() \x7b".toList ++ ['\x7d'] := by decide
  have htrimmed : Text.trimmedEnd (front ++ "int f() \x7b\x7d") = front ++ "int f() \x7b\x7d" := by
    rw [Text.trimmedEnd, Text.onString, String.toList_append, hdefinition, ← List.append_assoc,
      Text.trimEnd, Text.dropEndWhile_concat_of_neg (by decide +kernel), List.append_assoc,
      ← hdefinition, ← String.toList_append, String.ofList_toList]
  refine ⟨⟨?_, ?_, ?_⟩, htrimmed⟩ <;> rw [htrimmed]
  · have hnot : Text.isBlankText "int f() \x7b\x7d".toList = false := by decide +kernel
    rw [Text.isBlankString, String.toList_append, Text.isBlankText_append, hnot, Bool.and_false]
  · rw [String.utf8ByteSize_append]
    exact h
  · have hcontains : ∀ c ∈ "int f() \x7b\x7d".toList,
        (front ++ "int f() \x7b\x7d").toList.contains c = true := by
      intro c hc
      rw [String.toList_append]
      exact List.contains_iff_mem.2 (List.mem_append_right _ hc)
    unfold LineKind.of
    dsimp only
    rw [hcontains '(' (by decide), hcontains ')' (by decide), hcontains '\x7b' (by decide)]
    rfl

/-- Many declarations of a variable. -/
def manyVariables : String := String.ofList (List.replicate 16382 "int a;".toList).flatten

theorem size_manyVariables : manyVariables.utf8ByteSize = 98292 := by
  have hvariable : "int a;".utf8ByteSize = 6 := rfl
  unfold manyVariables
  rw [size_replicate, String.ofList_toList, hvariable]

/-- A line of code that fits by itself. -/
def longDeclaration : String := manyVariables ++ "int f() \x7b\x7d"

/-- **A declaration leaves no room for any statement**, though it fits by itself. -/
theorem longDeclaration_blocks :
    (eval longDeclaration (start, scriptedWorld)).1 = .ok .declared ∧
      codeLimit < (eval longDeclaration (start, scriptedWorld)).2.1.unitSize ∧
      ∀ later, .reset ∉ later → ∀ line, TakenAs .statement line →
        (eval line (play later (eval longDeclaration (start, scriptedWorld)).2).2).1 =
          .error tooLong := by
  have hfront := size_manyVariables
  have hfunction : "int f() \x7b\x7d".utf8ByteSize = 10 := rfl
  have hbase : 12 ≤ start.unitSize := by decide +kernel
  obtain ⟨htaken, htrimmed⟩ := takenAs_declaration manyVariables (by rw [hfront]; decide)
  have hlong : codeLimit < start.unitSize +
      (Text.trimmedEnd (manyVariables ++ "int f() \x7b\x7d")).utf8ByteSize + 1 := by
    rw [htrimmed, String.utf8ByteSize_append, hfront, hfunction, codeLimit]
    omega
  unfold longDeclaration
  exact eval_of_long htaken hlong scriptedWorld

end Repl

end LiveC
