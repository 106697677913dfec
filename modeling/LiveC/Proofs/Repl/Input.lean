import LiveC.Proofs.Execution.Growth
import LiveC.Proofs.Text.Trim
import LiveC.Repl.Session
/-!
# One input of an interactive session

A statement is built together with all that was kept before it, as the text `Repl.nextUnit`.
`execute_cases` says what comes of it: as long as no link succeeds, the session is left as it was
and nothing but that text was compiled; after a link the new session is adopted, and the statement
is kept exactly when its run did not crash. `eval_cases` adds the inputs that are no statements.
-/

namespace LiveC

open InSession

variable {σ : Type}

theorem Fragment.layOut_append (indent : String) (fs : List Fragment) (f : Fragment) :
    layOut indent (fs ++ [f]) = layOut indent fs ++ (indent ++ f.text ++ "\n") := by
  simp [layOut]

namespace Repl

/-- The text that is built for a next statement: the declarations of the engine's routines, what was
declared, and a function whose body is what was kept and then the statement. -/
def nextUnit (r : Repl) (statement : String) : String :=
  apiDeclarations ++ r.code.declarationText ++ Code.wrapperHead ++
    (r.code.statementText ++ (Code.indent ++ statement ++ "\n")) ++ Code.wrapperTail

theorem nextUnit_of_code_eq {r r' : Repl} (h : r'.code = r.code) : r'.nextUnit = r.nextUnit := by
  funext statement
  rw [nextUnit, nextUnit, h]

theorem unit_addStatement (r : Repl) (f : Fragment) :
    (r.addStatement f).code.unit = r.nextUnit f.text := by
  simp only [Code.unit, addStatement, nextUnit, Code.declarationText, Code.statementText,
    Fragment.layOut_append]

theorem statementText_trimmedEnd (s : String) :
    statementText (Text.trimmedEnd s) = statementText s := by
  simp only [statementText, Text.trimmed_trimmedEnd]

/-- Whether a result has its statement kept. -/
def keepsStatement : Except Failure EvalOutcome → Bool
  | .ok (.executed (.exited _)) => true
  | _ => false

theorem explain_eq (code : Code) (report : Report) (r : Repl) (w : World σ) :
    explain code report (r, w) =
      (.ok (.compileFailed ((report.remap code.lineMap).suggest builtins.names)
        (code.render w.colors ((report.remap code.lineMap).suggest builtins.names))), (r, w)) := rfl

variable [Compiler σ]

/-- The world after the session of a unit, if there is one, was given up. -/
def dropped (r : Repl) (w : World σ) : World σ := r.session.elim w fun s => (s.delete w).2

theorem dropped_leads (r : Repl) (w : World σ) : w.Leads (r.dropped w) := by
  unfold dropped
  cases r.session with
  | none => exact .refl w
  | some s => exact s.delete_plain.leads w

theorem dropSession_apply (r : Repl) (w : World σ) :
    dropSession (r, w) = (.ok (), ({ r with session := none }, r.dropped w)) := by
  rw [dropSession, Attempt.bind_of_ok (x := current) rfl, dropped]
  cases r.session <;> rfl

theorem reset_apply (r : Repl) (w : World σ) : reset (r, w) = (.ok (), (start, r.dropped w)) :=
  Attempt.bind_of_ok (dropSession_apply r w) _

theorem adopt_apply (s : Session) (r : Repl) (w : World σ) : adopt s (r, w) =
    (.ok (), ({ r with session := some s, executions := r.executions + 1 }, r.dropped w)) := by
  rw [adopt, Attempt.bind_of_ok (dropSession_apply r w)]
  rfl

/-- The state of a session after a statement was built into `s` and run. -/
def ran (r : Repl) (f : Fragment) (s : Session) (result : Except Failure EvalOutcome) : Repl :=
  { r with
    code := if keepsStatement result then (r.addStatement f).code else r.code
    session := some s
    executions := r.executions + 1 }

/-- A statement whose unit is too long is refused. -/
theorem execute_of_long {f : Fragment} {r : Repl}
    (h : codeLimit < (r.nextUnit f.text).utf8ByteSize) (w : World σ) : execute f (r, w) =
      (.error (.invalidArgument (.accumulatedTooLong codeLimit)), (r, w)) := by
  rw [execute, Attempt.bind_of_ok (x := current) rfl]
  simp only [unit_addStatement]
  rw [if_pos h]
  rfl

/-- A statement whose unit is not built is told about, if the compiler said something. -/
theorem execute_eq_of_error {f : Fragment} {r : Repl} {w w₁ : World σ} {e : Failure}
    (hsize : ¬codeLimit < (r.nextUnit f.text).utf8ByteSize)
    (hb : Engine.build Code.unitName (InSession.compile (r.nextUnit f.text)) w = (.error e, w₁)) :
    execute f (r, w) = match e.report? with
      | some report => explain (r.addStatement f).code report (r, w₁)
      | none => (.error e, (r, w₁)) := by
  have hcapture : (onWorld (Engine.build Code.unitName
      (InSession.compile (r.nextUnit f.text)))).capture (r, w) = (.ok (.error e), (r, w₁)) := by
    rw [Attempt.capture, onWorld_apply, hb]
  rw [execute, Attempt.bind_of_ok (x := current) rfl]
  simp only [unit_addStatement]
  rw [if_neg hsize, Attempt.bind_of_ok hcapture]
  dsimp only
  cases e.report? <;> rfl

/-- A statement whose unit is not built changes nothing. -/
theorem execute_of_error {f : Fragment} {r : Repl} {w w₁ : World σ} {e : Failure}
    (hsize : ¬codeLimit < (r.nextUnit f.text).utf8ByteSize)
    (hb : Engine.build Code.unitName (InSession.compile (r.nextUnit f.text)) w = (.error e, w₁)) :
    ∃ result, execute f (r, w) = (result, (r, w₁)) ∧
      ((∃ e, result = .error e) ∨ ∃ report text, result = .ok (.compileFailed report text)) := by
  have hrun := execute_eq_of_error hsize hb
  cases hreport : e.report? with
  | none =>
    rw [hreport] at hrun
    exact ⟨.error e, hrun, .inl ⟨e, rfl⟩⟩
  | some report =>
    rw [hreport] at hrun
    exact ⟨_, hrun.trans (explain_eq _ report r w₁), .inr ⟨_, _, rfl⟩⟩

/-- A statement whose unit is built is run in the new session, after the old one was given up, and
kept unless it crashes. -/
theorem execute_eq_of_ok {f : Fragment} {r : Repl} {w w₁ : World σ} {s : Session}
    (hsize : ¬codeLimit < (r.nextUnit f.text).utf8ByteSize)
    (hb : Engine.build Code.unitName (InSession.compile (r.nextUnit f.text)) w = (.ok s, w₁)) :
    ∃ result, execute f (r, w) = (result, (r.ran f s result,
        (Execution.runEntry s Code.entry Code.unitName [] (r.dropped w₁)).2)) ∧
      result = (Execution.runEntry s Code.entry Code.unitName [] (r.dropped w₁)).1.map
        .executed := by
  have hcapture : (onWorld (Engine.build Code.unitName
      (InSession.compile (r.nextUnit f.text)))).capture (r, w) = (.ok (.ok s), (r, w₁)) := by
    rw [Attempt.capture, onWorld_apply, hb]
  rw [execute, Attempt.bind_of_ok (x := current) rfl]
  simp only [unit_addStatement]
  rw [if_neg hsize, Attempt.bind_of_ok hcapture]
  dsimp only
  rw [Attempt.bind_of_ok (adopt_apply s r w₁)]
  rcases h : Execution.runEntry s Code.entry Code.unitName [] (r.dropped w₁) with ⟨e | x, w₃⟩
  · refine ⟨.error e, ?_, rfl⟩
    rw [Attempt.bind_of_error (by rw [onWorld_apply, h])]
    rfl
  · refine ⟨.ok (.executed x), ?_, rfl⟩
    rw [Attempt.bind_of_ok (by rw [onWorld_apply, h])]
    cases x <;> rfl

theorem execute_of_ok {f : Fragment} {r : Repl} {w w₁ : World σ} {s : Session}
    (hsize : ¬codeLimit < (r.nextUnit f.text).utf8ByteSize)
    (hb : Engine.build Code.unitName (InSession.compile (r.nextUnit f.text)) w = (.ok s, w₁)) :
    ∃ result w', execute f (r, w) = (result, (r.ran f s result, w')) ∧ w₁.Precedes w' ∧
      ((∃ e, result = .error e) ∨ ∃ x, result = .ok (.executed x)) := by
  obtain ⟨result, h, hresult⟩ := execute_eq_of_ok hsize hb
  refine ⟨result, _, h, ((dropped_leads r w₁).trans
    (Execution.runEntry_leads s Code.entry Code.unitName [] _)).precedes, ?_⟩
  rw [hresult]
  rcases (Execution.runEntry s Code.entry Code.unitName [] (r.dropped w₁)).1 with e | x
  · exact .inl ⟨e, rfl⟩
  · exact .inr ⟨x, rfl⟩

/-- A statement: nothing changes as long as no link succeeds, and afterwards it is kept exactly when
its run did not crash. Only the text made for it is compiled before that. -/
theorem execute_cases (f : Fragment) (r : Repl) (w : World σ) :
    (∃ result w' cs, execute f (r, w) = (result, (r, w')) ∧ w.Adds cs w' ∧
      BuildCalls (· = .compile (r.nextUnit f.text)) 2 false cs ∧
      ((∃ e, result = .error e) ∨ ∃ report text, result = .ok (.compileFailed report text))) ∨
    ∃ result s w₁ w' cs, execute f (r, w) = (result, (r.ran f s result, w')) ∧ w.Adds cs w₁ ∧
      w₁.Precedes w' ∧ BuildCalls (· = .compile (r.nextUnit f.text)) 2 true cs ∧
      Engine.Loaded (InSession.compile (σ := σ) (r.nextUnit f.text)) s cs ∧ s.relocated = true ∧
      (r.nextUnit f.text).utf8ByteSize ≤ codeLimit ∧
      ((∃ e, result = .error e) ∨ ∃ x, result = .ok (.executed x)) := by
  by_cases hsize : codeLimit < (r.nextUnit f.text).utf8ByteSize
  · exact .inl ⟨_, w, [], execute_of_long hsize w, .refl w, .nil, .inl ⟨_, rfl⟩⟩
  have hload : AsksOnly (· = .compile (r.nextUnit f.text))
      (InSession.compile (r.nextUnit f.text) : InSession σ Unit) := .demandWith _ rfl
  obtain ⟨cs, linked, hw, hcs, hlinked, hok⟩ :=
    Engine.build_calls hload (by simp) Code.unitName w
  rcases hb : Engine.build Code.unitName (InSession.compile (r.nextUnit f.text)) w with ⟨built, w₁⟩
  rw [hb] at hw hlinked hok
  cases built with
  | error e =>
    have hfalse : linked = false := by simpa using hlinked
    rw [hfalse] at hcs
    obtain ⟨result, h, hresult⟩ := execute_of_error hsize hb
    exact .inl ⟨result, w₁, cs, h, hw, hcs, hresult⟩
  | ok s =>
    have htrue : linked = true := hlinked.1 ⟨s, rfl⟩
    rw [htrue] at hcs
    obtain ⟨result, w', h, hw', hresult⟩ := execute_of_ok hsize hb
    exact .inr ⟨result, s, w₁, w', cs, h, hw, hw', hcs, (hok s rfl).2, (hok s rfl).1,
      Nat.le_of_not_lt hsize, hresult⟩

/-- A blank input is passed over. -/
theorem eval_of_blank {line : String} (h : Text.isBlankString (Text.trimmedEnd line) = true)
    (r : Repl) (w : World σ) : eval line (r, w) = (.ok .empty, (r, w)) := by
  rw [eval, if_pos h]
  rfl

/-- Code is let pass if it is neither blank nor too long. -/
theorem checkCode_eq_ok_iff {code : String} : checkCode code = .ok () ↔
    Text.isBlankString code = false ∧ code.utf8ByteSize ≤ codeLimit := by
  unfold checkCode
  cases Text.isBlankString code with
  | true => simp
  | false => by_cases h : codeLimit < code.utf8ByteSize <;> simp [h, Nat.le_of_not_lt]

/-- A line that is taken as code of a kind: neither blank nor too long by itself. -/
structure TakenAs (kind : LineKind) (line : String) : Prop where
  not_blank : Text.isBlankString (Text.trimmedEnd line) = false
  fits : (Text.trimmedEnd line).utf8ByteSize ≤ codeLimit
  kind_eq : LineKind.of (Text.trimmedEnd line) = kind

/-- A line that is taken is looked at for its kind only: no other code is measured with it. -/
theorem eval_of_takenAs {kind : LineKind} {line : String} (h : TakenAs kind line) (r : Repl)
    (w : World σ) :
    eval line (r, w) = match kind with
      | .declaration => (.ok .declared, (({ r with inputs := r.inputs + 1 } : Repl).addDeclaration
        ⟨Fragment.labelOf (r.inputs + 1), Text.trimmedEnd line⟩, w))
      | .statement => execute ⟨Fragment.labelOf (r.inputs + 1), statementText line⟩
        ({ r with inputs := r.inputs + 1 }, w) := by
  rw [eval, if_neg (by simp [h.not_blank]), checkCode_eq_ok_iff.2 ⟨h.not_blank, h.fits⟩,
    ← statementText_trimmedEnd line]
  dsimp only
  rw [Attempt.bind_of_ok (x := modify fun r => { r with inputs := r.inputs + 1 }) rfl,
    Attempt.bind_of_ok (x := current) rfl, h.kind_eq]
  cases kind <;> rfl

/-- An input, by what it is: one that is blank or refused changes nothing, a declaration is kept,
and a statement is executed. Every input but the first two kinds is given a label. -/
theorem eval_cases (line : String) (r : Repl) (w : World σ) :
    (∃ result, eval line (r, w) = (result, (r, w)) ∧
      ((∃ e, result = .error e) ∨ result = .ok .empty)) ∨
    eval line (r, w) = (.ok .declared, (({ r with inputs := r.inputs + 1 } : Repl).addDeclaration
      ⟨Fragment.labelOf (r.inputs + 1), Text.trimmedEnd line⟩, w)) ∨
    eval line (r, w) = execute ⟨Fragment.labelOf (r.inputs + 1), statementText line⟩
      ({ r with inputs := r.inputs + 1 }, w) := by
  by_cases hblank : Text.isBlankString (Text.trimmedEnd line)
  · exact .inl ⟨.ok .empty, eval_of_blank hblank r w, .inr rfl⟩
  cases hcode : checkCode (Text.trimmedEnd line) with
  | error misuse =>
    refine .inl ⟨.error (.invalidArgument misuse), ?_, .inl ⟨_, rfl⟩⟩
    rw [eval, if_neg hblank, hcode]
    rfl
  | ok u =>
    obtain ⟨hnot, hfits⟩ := checkCode_eq_ok_iff.1 hcode
    cases hkind : LineKind.of (Text.trimmedEnd line) with
    | declaration => exact .inr (.inl (eval_of_takenAs ⟨hnot, hfits, hkind⟩ r w))
    | statement => exact .inr (.inr (eval_of_takenAs ⟨hnot, hfits, hkind⟩ r w))

end Repl

end LiveC
