import Mathlib.Data.List.DropRight
import LiveC.Proofs.Repl.Input
/-!
# The history of an interactive session

A session is played a list of inputs, lines and resets, and each becomes a `Turn`: the result of a
line and the calls of the compiler that were made for it. `play_kept` says that what a session keeps
can be read off its turns, whatever the compiler does: since the last reset, the declarations are
the lines that were declared, the statements are the lines whose run returned, and the number of
executions is the number of lines for which a session was linked. A line whose session was not
linked leaves everything as it was, and the text that is compiled for a line is always the one that
the session shows.

What is kept of a line is spelled out by the line itself (`Turn.statementOf`, `Turn.declarationOf`),
and what is compiled for it by the texts that are kept (`Repl.unitFor`).
-/

namespace LiveC

variable {σ : Type}

/-- The calls that one world has beyond those of another. -/
def World.since (w w' : World σ) : List Call := w'.calls.toList.drop w.calls.toList.length

theorem World.Adds.since {w w' : World σ} {cs : List Call} (h : w.Adds cs w') :
    w.since w' = cs := by
  rw [World.since, h, List.drop_left]

/-! ## Turns -/

/-- Something that is done with an interactive session. -/
inductive ReplInput
  | line (text : String)
  | reset
  deriving DecidableEq, Repr

/-- What became of an input. -/
inductive Turn
  /-- A line gave a result, after some calls of the compiler. -/
  | evaluated (line : String) (result : Except Failure EvalOutcome) (calls : List Call)
  | reset

namespace Turn

/-- A line as a statement: without the blanks around it, and with a semicolon at its end, unless
there is one already. -/
def statementOf (line : String) : String :=
  let text := (line.toList.dropWhile Text.isBlank).rdropWhile Text.isBlank
  String.ofList (if text.getLast? = some ';' then text else text ++ [';'])

/-- A line as a declaration: without the blanks at its end. -/
def declarationOf (line : String) : String := String.ofList (line.toList.rdropWhile Text.isBlank)

/-- The statement of a line whose run returned, as it is kept. -/
def statement? : Turn → Option String
  | evaluated line (.ok (.executed (.exited _))) _ => some (statementOf line)
  | _ => none

/-- The line of a declaration, as it is kept. -/
def declaration? : Turn → Option String
  | evaluated line (.ok .declared) _ => some (declarationOf line)
  | _ => none

/-- Whether a session was linked. -/
def links : Turn → Bool
  | evaluated _ _ calls => calls.any Call.links
  | reset => false

/-- Whether everything was forgotten. -/
def isReset : Turn → Bool
  | evaluated _ _ _ => false
  | reset => true

/-- The turns after the last reset. -/
def sinceReset (turns : List Turn) : List Turn := (turns.reverse.takeWhile (!·.isReset)).reverse

theorem sinceReset_append_reset (turns : List Turn) : sinceReset (turns ++ [reset]) = [] := by
  simp [sinceReset, isReset]

theorem sinceReset_append {t : Turn} (h : t.isReset = false) (turns : List Turn) :
    sinceReset (turns ++ [t]) = sinceReset turns ++ [t] := by
  simp [sinceReset, h]

end Turn

/-! ## Texts -/

theorem Text.trimmedEnd_eq (line : String) : Text.trimmedEnd line = Turn.declarationOf line := rfl

namespace Repl

theorem statementText_eq (line : String) : statementText line = Turn.statementOf line := by
  have hsemicolon : ";".toList = [';'] := by decide
  have hends (text : List Char) :
      Text.endsWith (String.ofList text) ";" = true ↔ text.getLast? = some ';' := by
    rw [Text.endsWith, hsemicolon, String.toList_ofList, List.isSuffixOf_iff_suffix,
      List.singleton_suffix_iff_getLast?_eq_some]
  have htrimmed : Text.trimmed line = String.ofList
      ((line.toList.dropWhile Text.isBlank).rdropWhile Text.isBlank) := rfl
  rw [statementText, Turn.statementOf, htrimmed]
  simp only [hends]
  split
  · rfl
  · rw [String.ofList_append]

/-- The unit that is compiled for a line, after what a session has kept: the declarations of the
engine's routines, the declarations, and a function with the statements and the line's own. -/
def unitFor (r : Repl) (line : String) : String :=
  apiDeclarations ++ String.join (r.code.declarations.map fun f => f.text ++ "\n") ++
    "int __repl_main(void) \x7b\n" ++
    (String.join (r.code.statements.map fun f => "    " ++ f.text ++ "\n") ++
      ("    " ++ Turn.statementOf line ++ "\n")) ++
    "    return 0;\n\x7d\n"

theorem nextUnit_statementText (r : Repl) (line : String) :
    r.nextUnit (statementText line) = r.unitFor line := by
  have hhead : Code.wrapperHead = "int __repl_main(void) \x7b\n" := by decide
  have htail : Code.wrapperTail = "    return 0;\n\x7d\n" := by decide
  rw [nextUnit, unitFor, statementText_eq, hhead, htail, Code.declarationText, Fragment.layOut]
  simp only [String.empty_append]
  rfl

/-- What is kept of a session can be read off the turns since the last reset. -/
structure Kept (turns : List Turn) (r : Repl) : Prop where
  statements : r.code.statements.map Fragment.text =
    (Turn.sinceReset turns).filterMap Turn.statement?
  declarations : r.code.declarations.map Fragment.text =
    (Turn.sinceReset turns).filterMap Turn.declaration?
  executions : r.executions = (Turn.sinceReset turns).countP Turn.links

/-- What a line does to a session `r`, told by its result, the calls that were made for it, and the
session `r'` after it. -/
structure Takes (r : Repl) (line : String) (result : Except Failure EvalOutcome) (calls : List Call)
    (r' : Repl) : Prop where
  /-- As long as no link succeeds, only a declaration changes anything. -/
  unchanged : calls.any Call.links = false → result ≠ .ok .declared →
    r'.code = r.code ∧ r'.executions = r.executions ∧ r'.session = r.session
  /-- A declaration changes neither the statements nor the executions nor the kept session. -/
  declared : result = .ok .declared → calls = [] ∧ r'.code.statements = r.code.statements ∧
    r'.executions = r.executions ∧ r'.session = r.session
  compileFailed : ∀ report text, result = .ok (.compileFailed report text) →
    calls.any Call.links = false
  executed : ∀ x, result = .ok (.executed x) → calls.any Call.links = true
  /-- A text that is too long is not linked. -/
  size : calls.any Call.links = true → (r.unitFor line).utf8ByteSize ≤ codeLimit
  /-- Up to the first link, one text only is compiled. -/
  compiles : ∀ n source failed,
    .asked n (.compile source) failed ∈ calls.takeWhile (!·.links) →
      source = r.unitFor line
  /-- The first link is that of the session kept then, and it compiled that text. -/
  linked : calls.any Call.links = true → ∃ s, r'.session = some s ∧ s.relocated = true ∧
    calls.find? Call.links = some (.asked s.serial .relocate false) ∧
    .asked s.serial (.compile (r.unitFor line)) false ∈
      calls.takeWhile (!·.links)

/-- How one line changes what is kept. -/
structure Extends (r : Repl) (t : Turn) (r' : Repl) : Prop where
  statements : r'.code.statements.map Fragment.text =
    r.code.statements.map Fragment.text ++ [t].filterMap Turn.statement?
  declarations : r'.code.declarations.map Fragment.text =
    r.code.declarations.map Fragment.text ++ [t].filterMap Turn.declaration?
  executions : r'.executions = r.executions + [t].countP Turn.links

theorem kept_start : Kept [] start := ⟨rfl, rfl, rfl⟩

theorem Kept.reset (turns : List Turn) : Kept (turns ++ [.reset]) start := by
  have hsince := Turn.sinceReset_append_reset turns
  exact ⟨by rw [hsince]; rfl, by rw [hsince]; rfl, by rw [hsince]; rfl⟩

theorem Kept.append {turns : List Turn} {r r' : Repl} {t : Turn} (h : Kept turns r)
    (ht : t.isReset = false) (hr : r.Extends t r') : Kept (turns ++ [t]) r' := by
  have hsince := Turn.sinceReset_append ht turns
  refine ⟨?_, ?_, ?_⟩
  · rw [hsince, hr.statements, h.statements, List.filterMap_append]
  · rw [hsince, hr.declarations, h.declarations, List.filterMap_append]
  · rw [hsince, hr.executions, h.executions, List.countP_append]

/-! ## One line -/

variable {r : Repl} {line : String} {result : Except Failure EvalOutcome} {cs rest : List Call}

theorem takes_of_idle {r' : Repl} (hcode : r'.code = r.code) (hexec : r'.executions = r.executions)
    (hsession : r'.session = r.session)
    (h : (∃ e, result = .error e) ∨ result = .ok .empty) : Takes r line result [] r' where
  unchanged _ _ := ⟨hcode, hexec, hsession⟩
  declared := by rcases h with ⟨e, rfl⟩ | rfl <;> simp
  compileFailed _ _ _ := rfl
  executed := by rcases h with ⟨e, rfl⟩ | rfl <;> simp
  size := by simp
  compiles := by simp
  linked := by simp

theorem BuildCalls.eq_of_compile {source unit : String} {k n : Nat} {linked failed : Bool}
    (h : BuildCalls (· = .compile unit) k linked cs) (hc : .asked n (.compile source) failed ∈ cs) :
    source = unit := by
  rcases h.asked n _ failed hc with hq | hq | hq | hq
  · exact hq.elim
  · exact Request.compile.inj hq
  · exact absurd hq (by simp)
  · exact absurd hq (by simp)

theorem takes_of_unlinked {r' : Repl} (hcode : r'.code = r.code)
    (hexec : r'.executions = r.executions) (hsession : r'.session = r.session)
    (hcs : BuildCalls (· = .compile (r.unitFor line)) 2 false cs)
    (h : (∃ e, result = .error e) ∨ ∃ report text, result = .ok (.compileFailed report text)) :
    Takes r line result cs r' where
  unchanged _ _ := ⟨hcode, hexec, hsession⟩
  declared := by rcases h with ⟨e, rfl⟩ | ⟨report, text, rfl⟩ <;> simp
  compileFailed _ _ _ := hcs.links
  executed := by rcases h with ⟨e, rfl⟩ | ⟨report, text, rfl⟩ <;> simp
  size hl := absurd hl (by simp [hcs.links])
  compiles _ _ _ hc := BuildCalls.eq_of_compile hcs (List.takeWhile_subset _ hc)
  linked hl := absurd hl (by simp [hcs.links])

theorem takes_of_linked [Compiler σ] {r' : Repl} {s : Session} (hsession : r'.session = some s)
    (hrel : s.relocated = true)
    (hcs : BuildCalls (· = .compile (r.unitFor line)) 2 true cs)
    (hloaded : Engine.Loaded (InSession.compile (σ := σ) (r.unitFor line)) s cs)
    (hsize : (r.unitFor line).utf8ByteSize ≤ codeLimit)
    (h : (∃ e, result = .error e) ∨ ∃ x, result = .ok (.executed x)) :
    Takes r line result (cs ++ rest) r' := by
  have hlinks : (cs ++ rest).any Call.links = true := by
    rw [List.any_append, hcs.links, Bool.true_or]
  refine ⟨?_, ?_, ?_, fun _ _ => hlinks, fun _ => hsize, ?_, fun _ => ?_⟩
  · intro hfalse
    rw [hlinks] at hfalse
    exact absurd hfalse (by simp)
  · rcases h with ⟨e, rfl⟩ | ⟨x, rfl⟩ <;> simp
  · rcases h with ⟨e, rfl⟩ | ⟨x, rfl⟩ <;> simp
  · intro n source failed hc
    rw [hcs.takeWhile_append] at hc
    exact BuildCalls.eq_of_compile hcs (List.dropLast_subset cs hc)
  · obtain ⟨hlink, p, t, p', hrun, hsub⟩ := hloaded
    obtain rfl := hrun.demandWith
    rw [hrel, Bool.not_true] at hlink
    rw [hcs.takeWhile_append]
    exact ⟨s, hsession, hrel, hcs.find?_append hlink rfl rest,
      hcs.mem_dropLast (hsub (by simp [Call.ofRequests])) rfl⟩

theorem extends_ran {label : String} {s : Session} {inputs : Nat}
    (hlinks : cs.any Call.links = true) (hnot : result ≠ .ok .declared) :
    r.Extends (.evaluated line result cs)
      (ran { r with inputs := inputs } ⟨label, statementText line⟩ s result) := by
  have hexec : [Turn.evaluated line result cs].countP Turn.links = 1 := by
    rw [List.countP_singleton, Turn.links, if_pos hlinks]
  refine ⟨?_, ?_, by rw [hexec]; rfl⟩
  · rcases result with e | (_ | _ | (status | _) | _) <;>
      simp [ran, keepsStatement, Turn.statement?, addStatement, statementText_eq]
  · rcases result with e | (_ | _ | (status | _) | _) <;>
      simp_all [ran, keepsStatement, Turn.declaration?, addStatement]

theorem extends_of_idle {r' : Repl} (hcode : r'.code = r.code)
    (hexec : r'.executions = r.executions) (hlinks : cs.any Call.links = false)
    (hnot : result ≠ .ok .declared)
    (hnot' : ∀ x, result ≠ .ok (.executed x)) : r.Extends (.evaluated line result cs) r' := by
  have hlinks' : [Turn.evaluated line result cs].countP Turn.links = 0 := by
    rw [List.countP_singleton, Turn.links, hlinks]
    rfl
  refine ⟨?_, ?_, by rw [hlinks', hexec, Nat.add_zero]⟩
  · rw [hcode]
    rcases result with e | (_ | _ | x | _) <;> simp_all [Turn.statement?]
  · rw [hcode]
    rcases result with e | (_ | _ | x | _) <;> simp_all [Turn.declaration?]

variable [Compiler σ]

/-- A line, told by its result and the calls that were made for it. -/
theorem eval_takes (line : String) (r : Repl) (w : World σ) :
    ∃ result r' w' cs, eval line (r, w) = (result, (r', w')) ∧ w.Adds cs w' ∧
      Takes r line result cs r' ∧ r.Extends (.evaluated line result cs) r' := by
  rcases eval_cases line r w with ⟨result, h, hresult⟩ | h | h
  · refine ⟨result, r, w, [], h, .refl w, takes_of_idle rfl rfl rfl hresult, ?_⟩
    refine extends_of_idle rfl rfl rfl ?_ ?_
    · rcases hresult with ⟨e, rfl⟩ | rfl <;> simp
    · rcases hresult with ⟨e, rfl⟩ | rfl <;> simp
  · refine ⟨_, _, w, [], h, .refl w, ?_, ?_⟩
    · exact ⟨by simp, fun _ => ⟨rfl, rfl, rfl, rfl⟩, by simp, by simp, by simp, by simp, by simp⟩
    · exact ⟨by simp [addDeclaration, Turn.statement?],
        by simp [addDeclaration, Turn.declaration?, Text.trimmedEnd_eq], rfl⟩
  · rw [h]
    rcases execute_cases ⟨Fragment.labelOf (r.inputs + 1), statementText line⟩
      { r with inputs := r.inputs + 1 } w with
      ⟨result, w', cs, h', hw, hcs, hresult⟩ |
      ⟨result, s, w₁, w', cs, h', hw, hw', hcs, hloaded, hrel, hsize, hresult⟩
    · simp only [nextUnit_statementText] at hcs
      have htakes : Takes r line result cs { r with inputs := r.inputs + 1 } :=
        takes_of_unlinked rfl rfl rfl hcs hresult
      refine ⟨result, _, w', cs, h', hw, htakes, ?_⟩
      refine extends_of_idle rfl rfl hcs.links ?_ ?_
      · rcases hresult with ⟨e, rfl⟩ | ⟨report, text, rfl⟩ <;> simp
      · rcases hresult with ⟨e, rfl⟩ | ⟨report, text, rfl⟩ <;> simp
    · simp only [nextUnit_statementText] at hcs hloaded hsize
      obtain ⟨rest, hrest⟩ := World.precedes_iff.1 hw'
      refine ⟨result, _, w', cs ++ rest, h', hw.trans hrest,
        takes_of_linked rfl hrel hcs hloaded hsize hresult, extends_ran ?_ ?_⟩
      · rw [List.any_append, hcs.links, Bool.true_or]
      · rcases hresult with ⟨e, rfl⟩ | ⟨x, rfl⟩ <;> simp

/-! ## Playing inputs -/

/-- What becomes of one input. -/
def turn (p : Repl × World σ) : ReplInput → Turn × (Repl × World σ)
  | .line text => (.evaluated text (eval text p).1 (p.2.since (eval text p).2.2), (eval text p).2)
  | .reset => (.reset, (reset p).2)

/-- What becomes of some inputs, one after the other. -/
def play : List ReplInput → Repl × World σ → List Turn × (Repl × World σ)
  | [], p => ([], p)
  | i :: is, p =>
    let (t, p) := turn p i
    let (ts, p) := play is p
    (t :: ts, p)

theorem turn_line_snd (line : String) (p : Repl × World σ) :
    (turn p (.line line)).2 = (eval line p).2 := by
  rw [turn]

theorem turn_line (line : String) (p : Repl × World σ) :
    ∃ result cs, (turn p (.line line)).1 = .evaluated line result cs ∧
      Takes p.1 line result cs (turn p (.line line)).2.1 ∧
      p.1.Extends (turn p (.line line)).1 (turn p (.line line)).2.1 := by
  obtain ⟨result, r', w', cs, h, hw, htakes, hextends⟩ := eval_takes line p.1 p.2
  have hturn : turn p (.line line) = (.evaluated line result cs, (r', w')) := by
    have h' : eval line p = (result, (r', w')) := h
    rw [turn, h', hw.since]
  rw [hturn]
  exact ⟨result, cs, rfl, htakes, hextends⟩

theorem turn_reset (p : Repl × World σ) :
    (turn p .reset).1 = .reset ∧ (turn p .reset).2.1 = start := by
  refine ⟨rfl, ?_⟩
  rw [turn, reset_apply p.1 p.2]

/-- One more input adds its turn to what the session can be read off. -/
theorem Kept.turn {turns : List Turn} {p : Repl × World σ} (h : Kept turns p.1) (i : ReplInput) :
    Kept (turns ++ [(Repl.turn p i).1]) (Repl.turn p i).2.1 := by
  cases i with
  | line text =>
    obtain ⟨result, cs, heq, -, hextends⟩ := turn_line text p
    exact h.append (by rw [heq]; rfl) hextends
  | reset =>
    obtain ⟨hturn, hstart⟩ := turn_reset p
    rw [hturn, hstart]
    exact .reset turns

/-- Playing some inputs adds their turns to what the session can be read off. -/
theorem Kept.play {turns : List Turn} {p : Repl × World σ} (h : Kept turns p.1)
    (inputs : List ReplInput) :
    Kept (turns ++ (Repl.play inputs p).1) (Repl.play inputs p).2.1 := by
  induction inputs generalizing turns p with
  | nil => rwa [Repl.play, List.append_nil]
  | cons i is ih =>
    have := ih (h.turn i)
    rwa [List.append_assoc] at this

/-- **The history of an interactive session.** Whatever inputs a new session is played and whatever
the compiler makes of them, its code and the number of its executions can be read off the turns
since the last reset, and the next line does to it what `Takes` says. -/
theorem play_kept (w : World σ) (inputs : List ReplInput) :
    Kept (play inputs (start, w)).1 (play inputs (start, w)).2.1 ∧
    ∀ line, ∃ result calls,
      (turn (play inputs (start, w)).2 (.line line)).1 = .evaluated line result calls ∧
      Takes (play inputs (start, w)).2.1 line result calls
        (turn (play inputs (start, w)).2 (.line line)).2.1 := by
  have hstart : Kept [] (start, w).1 := kept_start
  refine ⟨hstart.play inputs, fun line => ?_⟩
  obtain ⟨result, cs, heq, htakes, -⟩ := turn_line line (play inputs (start, w)).2
  exact ⟨result, cs, heq, htakes⟩

end Repl

end LiveC
