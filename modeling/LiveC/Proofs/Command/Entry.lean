import LiveC.Command.Program
import LiveC.Compiler.Scripted
import LiveC.Proofs.Execution.Ending
import LiveC.Proofs.Module.Deciding
/-!
# How a program is entered

A program that runs code builds it first, finds its entry and makes the vectors for it; then the
entry is called, once and under a guard. `Program.reached` is everything up to that call, and
`Program.run_of_reached` says that a run of the program is that and the call. What comes before the
call leaves the world calm: no code was entered.

The three ways to the code name it each in its own way: by the unit, by the path of the module, by
the first file among the flags. `built_name` says that it is always the name that the invocation
predicts, so that the entry is given the vector that it predicts (`Program.run_enters`).
-/

namespace LiveC

variable {σ : Type} [Compiler σ]

/-- Code that is ready to be run: the session that it is in, the address of its entry, and the
vectors that the entry is given. -/
structure ProgramEntry where
  session : Session
  address : Address
  arguments : Arguments
  deriving DecidableEq, Repr

/-- An invocation runs a program: it starts no shell, and does not ask for an object file. -/
def Invocation.RunsProgram (i : Invocation) : Prop :=
  match i.mode with
  | .repl => False
  | .compile flags => ∀ f, Flags.parse flags = .ok f → f.objectOnly = false
  | _ => True

namespace ProgramEntry

/-- The identity that a crash is reported under. -/
def identity (e : ProgramEntry) : Identity := ⟨e.session.unitName, Execution.mainEntry, 0⟩

/-- The world in which the entry is called: under a guard of its own. -/
def entered (e : ProgramEntry) (w : World σ) : World σ :=
  Guarded.setGuard w ((Guarded.guard w).enter e.identity e.session.address)

/-- Call the entry with its arguments. -/
def call (e : ProgramEntry) (w : World σ) : Outcome × World σ :=
  Execution.callAddress Execution.callDepth e.address e.arguments.passed (e.entered w)

/-- Run the entry under a guard, and give its session up. -/
def run (e : ProgramEntry) : Attempt (World σ) RunResult :=
  Attempt.andThenAlways (do
    let outcome ← .take (guarded e.identity e.session.address
      (Execution.callAddress Execution.callDepth e.address e.arguments.passed))
    return Execution.resultOf outcome) e.session.delete

theorem run_apply (e : ProgramEntry) (w : World σ) : ∃ guard, e.run w =
    (.ok (Execution.resultOf (guarded e.identity e.session.address
      (Execution.callAddress Execution.callDepth e.address e.arguments.passed) w).1),
      (e.session.delete { (e.call w).2 with guard := guard }).2) := by
  obtain ⟨guard, h⟩ := Execution.exists_guarded_eq e.identity e.session.address
    (Execution.callAddress Execution.callDepth e.address e.arguments.passed) w
  refine ⟨guard, ?_⟩
  rw [call, entered, ← h]
  rfl

end ProgramEntry

namespace Engine

/-- Find the entry of a session, and make the vectors that it is to be given. -/
def entryOf (s : Session) (program : String) (args : List String) :
    Attempt (World σ) ProgramEntry := do
  match ← s.inside (InSession.find Execution.mainEntry) with
  | none => .fail (.symbolNotFound Execution.mainEntry)
  | some address =>
    match Arguments.make (program :: args) [] with
    | .error fault => .fail (.runtime fault)
    | .ok arguments => return ⟨s, address, arguments⟩

/-- Make the code of a session ready to be run. If that fails the session is given up. -/
def readied (s : Session) (program : String) (args : List String) :
    Attempt (World σ) ProgramEntry :=
  fun w => match entryOf s program args w with
    | (.ok e, w) => (.ok e, w)
    | (.error e, w) => (.error e, (s.delete w).2)

end Engine

namespace Program

/-- Build the code that a mode runs, and say what the program is called. -/
def built : Mode → Attempt (World σ) (Session × String)
  | .repl => .fail (.invalidArgument .noInput)
  | .inline code =>
    match inlineSource code with
    | .error misuse => .fail (.invalidArgument misuse)
    | .ok source => do
      let s ← Engine.build inlineUnit (InSession.compile source)
      return (s, inlineUnit)
  | .importFile path => do
    let m ← Engine.importModule path
    return (m.session, m.path)
  | .compile flags =>
    match Flags.parse flags with
    | .error misuse => .fail (.invalidArgument misuse)
    | .ok f =>
      match f.programName?, f.output with
      | none, _ => .fail (.invalidArgument .noInput)
      | some _, some output => .fail (.invalidArgument (.outputNeedsObject output))
      | some program, none => do
        let s ← Engine.build program f.load
        return (s, program)

/-- Everything that an invocation does before code is entered. -/
def ready (i : Invocation) : Attempt (World σ) ProgramEntry := do
  let (s, program) ← built i.mode
  Engine.readied s program i.args

/-- The settings that a command line and the environment ask for, and the world after they were
read. -/
def configured (line : CommandLine) (lookup : String → Option String) (w : World σ) :
    Config × World σ :=
  let (config, warnings) := Config.ofLookup lookup
  let config := { config with trace := line.trace || config.trace }
  (config, (openLog config.trace lookup w).warnAll warnings)

/-- Everything that the program does before code is entered. -/
def reached (line : CommandLine) (i : Invocation) (lookup : String → Option String) :
    Attempt (World σ) ProgramEntry := fun w =>
  let (config, w) := configured line lookup w
  (do
    Engine.launch config
    Engine.install
    ready i : Attempt (World σ) ProgramEntry) w

end Program

/-! ## A run is what comes before the call, and the call -/

namespace Engine

/-- To run the entry of a session and give the session up is to make it ready, and to call it. -/
theorem readied_run (s : Session) (program : String) (args : List String) :
    (readied s program args >>= ProgramEntry.run : Attempt (World σ) RunResult) =
      (Execution.runEntry s Execution.mainEntry program args).andThenAlways s.delete := by
  funext w
  rcases hfind : s.inside (InSession.find Execution.mainEntry) w with ⟨e | _ | address, w₁⟩
  · have hready : readied s program args w = (.error e, (s.delete w₁).2) := by
      rw [readied, entryOf, Attempt.bind_of_error hfind]
    rw [Attempt.bind_of_error hready, Attempt.andThenAlways, Execution.runEntry,
      Attempt.bind_of_error hfind]
  · have hready : readied s program args w =
        (.error (.symbolNotFound Execution.mainEntry), (s.delete w₁).2) := by
      rw [readied, entryOf, Attempt.bind_of_ok hfind]
      rfl
    rw [Attempt.bind_of_error hready, Attempt.andThenAlways, Execution.runEntry,
      Attempt.bind_of_ok hfind]
    rfl
  cases hargs : Arguments.make (program :: args) [] with
  | error fault =>
    have hready : readied s program args w = (.error (.runtime fault), (s.delete w₁).2) := by
      rw [readied, entryOf, Attempt.bind_of_ok hfind]
      dsimp only
      rw [hargs]
      rfl
    rw [Attempt.bind_of_error hready, Attempt.andThenAlways, Execution.runEntry,
      Attempt.bind_of_ok hfind]
    dsimp only
    rw [hargs]
    rfl
  | ok arguments =>
    have hready : readied s program args w = (.ok ⟨s, address, arguments⟩, w₁) := by
      rw [readied, entryOf, Attempt.bind_of_ok hfind]
      dsimp only
      rw [hargs]
      rfl
    rw [Attempt.bind_of_ok hready, Attempt.andThenAlways, Execution.runEntry,
      Attempt.bind_of_ok hfind]
    dsimp only
    rw [hargs]
    rfl

/-- A build whose entry is run, however the program is called. -/
theorem bind_readied_run (x : Attempt (World σ) Session) (program : String) (args : List String) :
    ((do
      let s ← x
      return (s, program) : Attempt (World σ) (Session × String)) >>= fun r =>
        readied r.1 r.2 args >>= ProgramEntry.run) =
      x >>= fun s =>
        (Execution.runEntry s Execution.mainEntry program args).andThenAlways s.delete := by
  rw [Attempt.bind_assoc]
  refine congrArg (x >>= ·) (funext fun s => ?_)
  exact readied_run s program args

theorem path_of_loadObject {path object : String} {origin : Origin} {m : Module} {w w' : World σ}
    (h : loadObject path object origin w = (.ok m, w')) : m.path = path := by
  obtain ⟨s, w₁, -, hpure⟩ := Attempt.bind_eq_ok h
  obtain rfl := Except.ok.inj (Prod.mk.inj hpure).1
  rfl

theorem path_of_compileSource {c : ObjectCache} {m : Module} {w w' : World σ}
    (h : compileSource c w = (.ok m, w')) : m.path = c.source := by
  obtain ⟨text, w₁, -, h⟩ := Attempt.bind_eq_ok h
  obtain ⟨written, w₂, -, h⟩ := Attempt.bind_eq_ok h
  have hbuilt {w₃ : World σ} (h : (do
      let session ← build c.source (InSession.compile (sourceOfFile c.source text))
      return ⟨c.source, .compiled, session⟩ : Attempt (World σ) Module) w₃ = (.ok m, w')) :
      m.path = c.source := by
    obtain ⟨s, w₄, -, hpure⟩ := Attempt.bind_eq_ok h
    obtain rfl := Except.ok.inj (Prod.mk.inj hpure).1
    rfl
  cases written with
  | ok _ => exact hbuilt h
  | error e =>
    obtain ⟨-, w₃, -, h⟩ := Attempt.bind_eq_ok h
    exact hbuilt h

/-- A module is called by the path that was asked for, however it came to be. -/
theorem path_of_importModule {path : String} {m : Module} {w w' : World σ}
    (h : importModule path w = (.ok m, w')) : m.path = path := by
  cases hpath : checkModulePath path with
  | error misuse =>
    rw [importModule, hpath] at h
    exact absurd (Prod.mk.inj h).1 (by simp)
  | ok _ =>
    cases hobject : Path.isObject path with
    | true =>
      rw [Translator.importModule_of_object hpath hobject] at h
      split at h
      · exact path_of_loadObject h
      · exact absurd (Prod.mk.inj h).1 (by simp)
    | false =>
      rw [Translator.importModule_of_source hpath hobject] at h
      rcases Translator.importSource_cases (.ofSource path w.linkage.platform.arch) w with
        ⟨-, m', w₁, hload, hrun⟩ | ⟨-, e, w₁, errors, -, hrun⟩ | ⟨-, e, w₁, -, hrun⟩ | ⟨-, hrun⟩
      · obtain rfl := Except.ok.inj (Prod.mk.inj (h.symm.trans hrun)).1
        exact path_of_loadObject hload
      · exact path_of_compileSource (hrun.symm.trans h)
      · exact absurd (Prod.mk.inj (h.symm.trans hrun)).1 (by simp)
      · exact path_of_compileSource (hrun.symm.trans h)

end Engine

namespace Program

variable {i : Invocation}

/-- An invocation that runs a program makes its code ready, and calls it. -/
theorem perform_eq (hruns : i.RunsProgram) (input : List UInt8) :
    (perform input i : Attempt (World σ) RunResult) = ready i >>= ProgramEntry.run := by
  obtain ⟨mode, args⟩ := i
  rw [ready, Attempt.bind_assoc]
  unfold perform built
  cases mode with
  | repl => exact hruns.elim
  | inline code =>
    dsimp only
    rw [Engine.runInline]
    cases inlineSource code with
    | error misuse => rfl
    | ok source => exact (Engine.bind_readied_run _ inlineUnit args).symm
  | importFile path =>
    dsimp only
    rw [Engine.runFile, Attempt.bind_assoc]
    exact congrArg (Engine.importModule path >>= ·)
      (funext fun m => (Engine.readied_run m.session m.path args).symm)
  | compile flags =>
    have hobject : ∀ f, Flags.parse flags = .ok f → f.objectOnly = false := hruns
    dsimp only
    cases hparse : Flags.parse flags with
    | error misuse => rfl
    | ok f =>
      dsimp only
      rw [Engine.runFlags, hobject f hparse]
      rcases f.programName? with _ | program
      · rfl
      rcases f.output with _ | output
      · exact (Engine.bind_readied_run _ program args).symm
      · rfl

/-- The program is called as its invocation predicts, however its code was built. -/
theorem built_name {s : Session} {program : String} {w w' : World σ}
    (h : built i.mode w = (.ok (s, program), w')) : program = i.programName := by
  unfold built at h
  unfold Invocation.programName
  have hnot {α : Type} {e : Failure} {a : α} {w w' : World σ}
      (h : (Attempt.fail e : Attempt (World σ) α) w = (.ok a, w')) : False := by
    exact absurd (Prod.mk.inj h).1 (by simp)
  have hcalled {x : Attempt (World σ) Session} {name : String} (h : (do
      let s ← x
      return (s, name) : Attempt (World σ) (Session × String)) w = (.ok (s, program), w')) :
      program = name := by
    obtain ⟨s', w₁, -, hpure⟩ := Attempt.bind_eq_ok h
    exact (Prod.mk.inj (Except.ok.inj (Prod.mk.inj hpure).1)).2.symm
  cases hmode : i.mode with
  | repl =>
    rw [hmode] at h
    exact (hnot h).elim
  | inline code =>
    rw [hmode] at h
    dsimp only at h ⊢
    cases hsource : inlineSource code with
    | error misuse =>
      rw [hsource] at h
      exact (hnot h).elim
    | ok source =>
      rw [hsource] at h
      exact hcalled h
  | importFile path =>
    rw [hmode] at h
    obtain ⟨m, w₁, himport, hpure⟩ := Attempt.bind_eq_ok h
    rw [← (Prod.mk.inj (Except.ok.inj (Prod.mk.inj hpure).1)).2]
    exact Engine.path_of_importModule himport
  | compile flags =>
    rw [hmode] at h
    dsimp only at h ⊢
    cases hparse : Flags.parse flags with
    | error misuse =>
      rw [hparse] at h
      exact (hnot h).elim
    | ok f =>
      rw [hparse] at h
      dsimp only at h ⊢
      rcases hname : f.programName? with _ | name
      · rw [hname] at h
        exact (hnot h).elim
      rw [hname] at h
      rcases houtput : f.output with _ | output
      · rw [houtput] at h
        exact hcalled h
      · rw [houtput] at h
        exact (hnot h).elim

/-- What is ready was made with the vector that the invocation predicts, at the entry that was
found. -/
theorem exists_of_ready {e : ProgramEntry} {w w' : World σ} (h : ready i w = (.ok e, w')) :
    e.arguments.argv = i.argv.map some ++ [none] ∧ (∀ arg ∈ i.argv, hasNul arg = false) ∧
      ∃ w₀, e.session.inside (InSession.find Execution.mainEntry) w₀ =
        (.ok (some e.address), w') := by
  obtain ⟨⟨s, program⟩, w₀, hbuilt, h⟩ := Attempt.bind_eq_ok h
  have hname := built_name hbuilt
  dsimp only at h
  rw [Engine.readied] at h
  rcases hentry : Engine.entryOf s program i.args w₀ with ⟨f | e', w₁⟩
  · rw [hentry] at h
    exact absurd (Prod.mk.inj h).1 (by simp)
  rw [hentry] at h
  obtain ⟨he, rfl⟩ := Prod.mk.inj h
  obtain rfl := Except.ok.inj he
  obtain ⟨found, w₂, hfind, h⟩ := Attempt.bind_eq_ok hentry
  cases found with
  | none => exact absurd (Prod.mk.inj h).1 (by simp)
  | some address =>
    dsimp only at h
    cases hmake : Arguments.make (program :: i.args) [] with
    | error fault =>
      rw [hmake] at h
      exact absurd (Prod.mk.inj h).1 (by simp)
    | ok arguments =>
      rw [hmake] at h
      obtain ⟨he, rfl⟩ := Prod.mk.inj h
      obtain rfl := Except.ok.inj he
      obtain ⟨hargv, hclean⟩ := Arguments.argv_of_make hmake
      rw [Invocation.argv, ← hname]
      exact ⟨hargv, hclean, w₀, hfind⟩

/-! ## What comes before the call is calm -/

open World

theorem built_calm (mode : Mode) :
    calmLaw.Keeps (built mode : Attempt (World σ) (Session × String)) := by
  have hcalled {x : Attempt (World σ) Session} (hx : calmLaw.Keeps x) (name : String) :
      calmLaw.Keeps (do
        let s ← x
        return (s, name) : Attempt (World σ) (Session × String)) := hx.bind fun _ => .pure _
  unfold built
  cases mode with
  | repl => exact .fail _
  | inline code =>
    dsimp only
    cases inlineSource code with
    | error misuse => exact .fail _
    | ok source => exact hcalled (calm_rules.build (calm_rules.demandWith _ _) _) _
  | importFile path => exact (calm_rules.importModule path).bind fun _ => .pure _
  | compile flags =>
    dsimp only
    cases Flags.parse flags with
    | error misuse => exact .fail _
    | ok f =>
      dsimp only
      rcases f.programName? with _ | program
      · exact .fail _
      rcases f.output with _ | output
      · exact hcalled (calm_rules.build (load_calm f) program) program
      · exact .fail _

theorem readied_calm (s : Session) (program : String) (args : List String) (w : World σ) :
    w.Calm (Engine.readied s program args w).2 := by
  have hentry : calmLaw.Keeps (Engine.entryOf s program args : Attempt (World σ) ProgramEntry) := by
    refine (calm_rules.inside_find s _).bind fun found => ?_
    cases found with
    | none => exact .fail _
    | some address =>
      dsimp only
      cases Arguments.make (program :: args) [] with
      | error fault => exact .fail _
      | ok arguments => exact .pure _
  have hleads : w.Calm (Engine.entryOf s program args w).2 := hentry.leads w
  unfold Engine.readied
  split
  · next e w₁ hrun =>
    rw [hrun] at hleads
    exact hleads
  · next e w₁ hrun =>
    rw [hrun] at hleads
    exact hleads.trans ((calm_rules.delete s).leads w₁)

omit [Compiler σ] in
theorem configured_calm (line : CommandLine) (lookup : String → Option String) (w : World σ) :
    w.Calm (configured line lookup w).2 := by
  unfold configured
  rcases Config.ofLookup lookup with ⟨config, warnings⟩
  dsimp only
  have hlog : w.Calm (openLog (line.trace || config.trace) lookup w) := by
    unfold openLog
    rcases Log.ofLookup (line.trace || config.trace) lookup with ⟨log, faults⟩
    exact ⟨rfl, rfl, rfl, rfl⟩
  exact hlog.trans (warnAll_calm _ warnings)

/-- Nothing that the program does before code is entered is done by compiled code. -/
theorem reached_calm (line : CommandLine) (i : Invocation) (lookup : String → Option String)
    (w : World σ) : w.Calm (reached line i lookup w).2 := by
  have hready : calmLaw.Keeps (do
      Engine.launch (configured line lookup w).1
      Engine.install
      ready i : Attempt (World σ) ProgramEntry) := by
    have hlaunch : calmLaw.Keeps
        (Engine.launch (configured line lookup w).1 : Attempt (World σ) Unit) :=
      ⟨launch_calm _, fun h => h.elim⟩
    have hinstall : calmLaw.Keeps (Engine.install : Attempt (World σ) Unit) :=
      ⟨fun _ => ⟨rfl, rfl, rfl, rfl⟩, fun h => h.elim⟩
    exact hlaunch.bind fun _ => hinstall.bind fun _ => (built_calm i.mode).bind fun r =>
      ⟨readied_calm r.1 r.2 i.args, fun h => h.elim⟩
  exact (configured_calm line lookup w).trans (hready.leads _)

/-! ## The whole run -/

variable {args : List String} {line : CommandLine} {w : World σ}

/-- A run of the program is what comes before the call, and the call: if code is reached it is
called and the result is reported, and else the program ends with the status of a failure. -/
theorem run_of_reached (hparse : CommandLine.parse args = .ok line) (hroute : line.route = .ok i)
    (hruns : i.RunsProgram) (lookup : String → Option String) (input : List UInt8)
    (hended : w.ended = none) :
    (∃ f w₁ text, reached line i lookup w = (.error f, w₁) ∧
      run args lookup input w = (1, w₁.printError text)) ∨
    ∃ e w₁, reached line i lookup w = (.ok e, w₁) ∧
      run args lookup input w = finish i.mode (e.run w₁).1 (e.run w₁).2 := by
  have hcalm := reached_calm line i lookup w
  have hrun : run args lookup input w =
      execute input (configured line lookup w).1 i (configured line lookup w).2 := by
    rw [run, hparse]
    dsimp only
    rw [hroute]
    rfl
  have hreached : reached line i lookup w = (do
      Engine.launch (configured line lookup w).1
      Engine.install
      ready i : Attempt (World σ) ProgramEntry) (configured line lookup w).2 := rfl
  rw [hrun, execute]
  rcases hlaunch : Engine.launch (configured line lookup w).1 (configured line lookup w).2 with
    ⟨f | u, w₀⟩
  · rw [Attempt.bind_of_error hlaunch] at hreached
    exact .inl ⟨f, w₀, _, hreached, rfl⟩
  rw [Attempt.bind_of_ok hlaunch, Attempt.bind_of_ok (x := Engine.install) rfl] at hreached
  dsimp only
  rw [perform_eq hruns]
  rcases hready : ready i { w₀ with installed := true } with ⟨f | e, w₁⟩
  · rw [hready] at hreached
    rw [hreached] at hcalm
    rw [Attempt.bind_of_error hready]
    refine .inl ⟨f, w₁, f.complaint w₁.colors w₁.files (sourceOfMode i.mode), hreached, ?_⟩
    rw [finish, hcalm.ended.trans hended]
  · rw [hready] at hreached
    rw [Attempt.bind_of_ok hready]
    exact .inr ⟨e, w₁, hreached, rfl⟩

/-- What comes of a call: a crash goes no further than the guard of the entry, and only code that
ends the process leaves no result but its status. -/
theorem result_of_call (e : ProgramEntry) (w : World σ) :
    Execution.resultOf (guarded e.identity e.session.address
      (Execution.callAddress Execution.callDepth e.address e.arguments.passed) w).1 =
      match (e.call w).1 with
      | .returned n => .exited n
      | .raised signal _ => .ofSignal e.identity signal
      | .ended n => .exited n := by
  have hlanding : (e.entered w).guard.landing? = some w.guard.nextPlace := rfl
  have hsettled := Execution.callAddress_settles Execution.callDepth e.address
    e.arguments.passed (e.entered w) _ hlanding
  have hguarded : (guarded e.identity e.session.address
      (Execution.callAddress Execution.callDepth e.address e.arguments.passed) w).1 =
      (e.call w).1.ending e.identity w.guard.nextPlace := guarded_fst ..
  rw [hguarded]
  cases hcall : (e.call w).1 with
  | returned n => rfl
  | raised signal landing =>
    obtain rfl := hsettled.raised signal landing hcall
    rw [Outcome.ending, if_pos rfl]
    rfl
  | ended n => rfl

/-- The status after a call is the one that the code ended with, or one for a crash. -/
theorem status_of_call (e : ProgramEntry) (mode : Mode) (hended : w.ended = none) :
    (finish mode (e.run w).1 (e.run w).2).1 = (e.call w).1.status := by
  have hlanding : (e.entered w).guard.landing? = some w.guard.nextPlace := rfl
  have hsettled := Execution.callAddress_settles Execution.callDepth e.address
    e.arguments.passed (e.entered w) _ hlanding
  obtain ⟨guard, hrun⟩ := e.run_apply w
  have hdeleted : (e.session.delete { (e.call w).2 with guard := guard }).2.ended =
      (e.call w).2.ended := rfl
  rw [hrun, finish, hdeleted, result_of_call]
  cases hcall : (e.call w).1 with
  | returned n =>
    have hstill : (e.call w).2.ended = none :=
      (hsettled.notEnded fun m hm => Outcome.noConfusion (hcall.symm.trans hm)).trans hended
    rw [hstill]
    rfl
  | raised signal landing =>
    have hstill : (e.call w).2.ended = none :=
      (hsettled.notEnded fun m hm => Outcome.noConfusion (hcall.symm.trans hm)).trans hended
    rw [hstill]
    rfl
  | ended n =>
    have hdone : (e.call w).2.ended = some n := hsettled.ended n hcall
    rw [hdone]
    rfl

/-- **A program that runs code either fails, and then no code was entered and the status is one, or
its entry is called**, once and under a guard: at the address under which the session of the code
knows it, with pointers to the texts that the invocation predicts, none of which holds a NUL, and a
null pointer behind them, and with the number of the texts, as far as a C integer goes. Then the
status is that of the code, or one if it crashed. -/
theorem run_enters (hparse : CommandLine.parse args = .ok line) (hroute : line.route = .ok i)
    (hruns : i.RunsProgram) (lookup : String → Option String) (input : List UInt8)
    (hended : w.ended = none) :
    (∃ f w₁ text, reached line i lookup w = (.error f, w₁) ∧ w.Calm w₁ ∧
      run args lookup input w = (1, w₁.printError text)) ∨
    ∃ e w₀ w₁, reached line i lookup w = (.ok e, w₁) ∧ w.Calm w₁ ∧
      e.session.inside (InSession.find Execution.mainEntry) w₀ = (.ok (some e.address), w₁) ∧
      e.arguments.argv = i.argv.map some ++ [none] ∧
      e.arguments.argc.toInt = min i.argv.length 0x7FFFFFFF ∧
      (∀ arg ∈ i.argv, hasNul arg = false) ∧
      e.call w₁ = Execution.callAddress Execution.callDepth e.address
        ⟨e.arguments.argc, some (i.argv.map some ++ [none])⟩ (e.entered w₁) ∧
      run args lookup input w = finish i.mode (e.run w₁).1 (e.run w₁).2 ∧
      (run args lookup input w).1 = (e.call w₁).1.status := by
  have hcalm := reached_calm line i lookup w
  rcases run_of_reached hparse hroute hruns lookup input hended with
    ⟨f, w₁, text, hreached, hrun⟩ | ⟨e, w₁, hreached, hrun⟩
  · rw [hreached] at hcalm
    exact .inl ⟨f, w₁, text, hreached, hcalm, hrun⟩
  · have hready := hreached
    rw [reached] at hready
    obtain ⟨-, w₂, -, hready⟩ := Attempt.bind_eq_ok hready
    obtain ⟨-, w₃, -, hready⟩ := Attempt.bind_eq_ok hready
    obtain ⟨hargv, hclean, w₀, hfind⟩ := exists_of_ready hready
    rw [hreached] at hcalm
    refine .inr ⟨e, w₀, w₁, hreached, hcalm, hfind, hargv, ?_, hclean, ?_, hrun, ?_⟩
    · rw [Arguments.argc_of_argv hargv, toInt_clampedToInt]
    · rw [ProgramEntry.call, Arguments.passed, hargv]
    · rw [hrun]
      exact status_of_call e i.mode (hcalm.ended.trans hended)

/-- A world in which the compiler library can be opened. -/
def compilerWorld : World Scripted.Library :=
  .start (.start []) (.empty 0)
    (.start ⟨[]⟩ ⟨[]⟩ [⟨"libtcc.so", ⟨neededFunctions.map .function⟩, none⟩]) false

/-- Code that shows its arguments and returns how many they are. -/
def showingText : String := "int main() \x7b\n@[args]@[argc]\n\x7d\n"

/-- Code from the command line is given its name and the two arguments behind it. -/
theorem run_enters_showingText :
    ∃ line i, CommandLine.parse ["--eval", showingText, "--", "x", "y"] = .ok line ∧
      line.route = .ok i ∧ i.RunsProgram ∧
      ∃ e w₁, reached line i (fun _ => none) compilerWorld = (.ok e, w₁) ∧
        e.arguments.argv = [some "(inline)", some "x", some "y", none] ∧ (e.call w₁).1.status = 3 ∧
        (run ["--eval", showingText, "--", "x", "y"] (fun _ => none) [] compilerWorld).2.events =
          #[.arguments ["(inline)", "x", "y"] true] := by
  have hparse : CommandLine.parse ["--eval", showingText, "--", "x", "y"] =
      .ok ⟨false, some showingText, false, ["x", "y"]⟩ := by decide +kernel
  have hroute : CommandLine.route ⟨false, some showingText, false, ["x", "y"]⟩ =
      .ok ⟨.inline showingText, ["x", "y"]⟩ := by decide +kernel
  have hruns : Invocation.RunsProgram ⟨.inline showingText, ["x", "y"]⟩ := trivial
  have hseen : (run ["--eval", showingText, "--", "x", "y"] (fun _ => none) [] compilerWorld).map
      id World.events = (3, #[.arguments ["(inline)", "x", "y"] true]) := by decide +kernel
  rcases hran : run ["--eval", showingText, "--", "x", "y"] (fun _ => none) [] compilerWorld with
    ⟨status, u⟩
  rw [hran] at hseen
  obtain ⟨hstatus, hevents⟩ := Prod.mk.inj hseen
  refine ⟨_, _, hparse, hroute, hruns, ?_⟩
  rcases run_enters hparse hroute hruns (fun _ => none) [] (w := compilerWorld) rfl with
    ⟨f, w₁, text, -, -, hrun⟩ | ⟨e, w₀, w₁, hreached, -, -, hargv, -, -, -, -, hcall⟩
  · have hone : status = 1 := (Prod.mk.inj (hran.symm.trans hrun)).1
    exact absurd (hone.symm.trans hstatus) (by decide)
  · rw [hran] at hcall
    exact ⟨e, w₁, hreached, hargv, hcall.symm.trans hstatus, hevents⟩

end Program

end LiveC
