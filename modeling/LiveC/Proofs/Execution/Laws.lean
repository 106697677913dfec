import LiveC.Execution
import LiveC.Proofs.Session.Laws
/-!
# Compiled code keeps to laws

Compiled code is made of few moves: it sees what code there is, something is noted, a signal is
raised, a module is imported and given up. `World.CodeRules` says that these moves keep to a law of
worlds. Each step of a routine is a computation that is made of them (`Execution.take_calls`,
`Execution.take_imports`), so the steps of a routine keep to the law if the code that they call does
(`World.CodeRules.runSteps`), and code does by induction on how deep its calls are nested
(`World.CodeRules.callAddress`).
-/

namespace LiveC

variable {σ α : Type}

theorem Attempt.state_apply {S : Type} (s : S) : Attempt.state s = (.ok s, s) := rfl

theorem Attempt.take_apply {S : Type} (f : S → α × S) (s : S) :
    Attempt.take f s = (.ok (f s).1, (f s).2) := rfl

theorem Attempt.capture_apply {S : Type} (x : Attempt S α) (s : S) :
    x.capture s = (.ok (x s).1, (x s).2) := rfl

/-- A look at the state, if alike states make no difference to what follows. -/
theorem Attempt.Law.Keeps.state {S : Type} {F : Attempt.Law S} {f : S → Attempt S α}
    (hsame : ∀ {s s'}, F.alike s s' → f s = f s') (hf : ∀ s, F.Keeps (f s)) :
    F.Keeps (.state >>= f) where
  leads s := (hf s).leads s
  alike {s s'} hs := by
    have hright : (Attempt.state >>= f) s' = f s s' := by
      rw [hsame hs]
      rfl
    rw [hright]
    exact (hf s).alike hs

/-! ## Code as a computation -/

namespace Execution

/-- Running a body under a guard, as a computation. -/
theorem take_guarded (identity : Identity) (session : Address)
    (body : World σ → Outcome × World σ) :
    (.take (guarded identity session body) : Attempt (World σ) (Except Outcome RunResult)) = (do
      let w ← .state
      .change fun w => Guarded.setGuard w ((Guarded.guard w).enter identity session)
      let outcome ← .take body
      match outcome.ending identity (Guarded.guard w).nextPlace with
      | .ok result =>
        .change fun after => Guarded.setGuard after
          ((Guarded.guard after).exit (Guarded.guard w).checkpoint (Guarded.guard w).hasRoom)
        pure (.ok result)
      | .error outcome => pure (.error outcome)) := by
  funext w
  rw [Attempt.take_apply, guarded, Attempt.bind_of_ok (Attempt.state_apply w),
    Attempt.bind_of_ok (x := .change _) rfl, Attempt.bind_of_ok (Attempt.take_apply _ _)]
  dsimp only
  cases Outcome.ending identity (Guarded.guard w).nextPlace _ <;> rfl

/-- A call of a routine outside, as a computation. -/
theorem take_callOutside (address : Address) :
    (.take (callOutside address) : Attempt (World σ) Outcome) = (do
      let w ← .state
      match reactionAt w address with
      | .returns value => pure (.returned value)
      | .raises signal => .take (raise signal)
      | .ends status =>
        .change fun w => { w with ended := some status }
        pure (.ended status)) := by
  funext w
  rw [Attempt.bind_of_ok (Attempt.state_apply w), Attempt.take_apply, callOutside_eq]
  cases reactionAt w address with
  | returns value => simp only [Attempt.pure_apply]
  | raises signal => simp only [Attempt.take_apply]
  | ends status =>
    dsimp only
    rfl

variable [Compiler σ] {call : Address → World σ → Outcome × World σ} {owner : Nat}
  {passed : Passed} {steps : List Action}

/-- A call of a routine, as a computation. -/
theorem take_calls (name : String) :
    (.take (runSteps call owner passed (.calls name :: steps)) : Attempt (World σ) Outcome) = (do
      let w ← .state
      match Compiler.reach? w.compiler owner name with
      | none =>
        .change fun w => w.note (.called name none)
        .take (runSteps call owner passed steps)
      | some address =>
        match ← .take (call address) with
        | .returned value =>
          .change fun w => w.note (.called name (some value))
          .take (runSteps call owner passed steps)
        | outcome => pure outcome) := by
  funext w
  rw [Attempt.bind_of_ok (Attempt.state_apply w), Attempt.take_apply, runSteps]
  cases Compiler.reach? w.compiler owner name with
  | none => rfl
  | some address =>
    dsimp only
    rw [Attempt.bind_of_ok (Attempt.take_apply (call address) w)]
    rcases call address w with ⟨_ | _ | _, w₁⟩ <;> rfl

/-- An import, as a computation. -/
theorem take_imports (path name : String) :
    (.take (runSteps call owner passed (.imports path name :: steps)) : Attempt (World σ) Outcome) =
      (do
      match ← (Contract.importModule path).capture with
      | .ok (some m) =>
        match ← (m.session.inside (InSession.find name)).capture with
        | .ok (some address) =>
          .change fun w => w.note (.imported path (some true))
          match ← .take (call address) with
          | .returned value =>
            .change fun w => w.note (.resulted name value)
            m.session.delete
            .take (runSteps call owner passed steps)
          | outcome => pure outcome
        | _ =>
          .change fun w => w.note (.imported path (some false))
          m.session.delete
          .take (runSteps call owner passed steps)
      | _ =>
        .change fun w => w.note (.imported path none)
        .take (runSteps call owner passed steps)) := by
  funext w
  rw [Attempt.bind_of_ok (Attempt.capture_apply _ w), Attempt.take_apply, runSteps]
  rcases Contract.importModule path w with ⟨_ | _ | m, w₁⟩
  · rfl
  · rfl
  have hfind : Contract.findSymbol (some m) (some name) w₁ =
    m.session.inside (InSession.find name) w₁ := rfl
  dsimp only
  rw [hfind, Attempt.bind_of_ok (Attempt.capture_apply _ w₁)]
  rcases m.session.inside (InSession.find name) w₁ with ⟨_ | _ | address, w₂⟩
  · rfl
  · rfl
  dsimp only
  rw [Attempt.bind_of_ok (x := .change _) rfl, Attempt.bind_of_ok (Attempt.take_apply _ _)]
  rcases call address (w₂.note (.imported path (some true))) with ⟨_ | _ | _, w₃⟩ <;> rfl

/-- A call of the code at an address, as a computation. -/
theorem take_callAddress (depth : Nat) (address : Address) (passed : Passed) :
    (.take (callAddress (depth + 1) address passed) : Attempt (World σ) Outcome) = (do
      let w ← .state
      match Compiler.routine? w.compiler address with
      | some routine => .take (runSteps (fun address w => callAddress depth address .nothing w)
          routine.owner passed routine.steps)
      | none => .take (callOutside address)) := by
  funext w
  rw [Attempt.bind_of_ok (Attempt.state_apply w), Attempt.take_apply, callAddress]
  cases Compiler.routine? w.compiler address with
  | none => simp only [Attempt.take_apply]
  | some routine => simp only [Attempt.take_apply]

end Execution

/-! ## Laws that code keeps to -/

open Execution

/-- The moves of compiled code keep to a law of worlds, and it sees the same in worlds that are
alike. -/
structure World.CodeRules [Compiler σ] (F : Attempt.Law (World σ)) : Prop where
  compiler : ∀ {w w'}, F.alike w w' → w.compiler = w'.compiler
  reaction : ∀ {w w'}, F.alike w w' → ∀ address, reactionAt w address = reactionAt w' address
  guard : ∀ {w w'}, F.alike w w' → w.guard = w'.guard
  note : ∀ e, F.Keeps (.change (·.note e) : Attempt (World σ) Unit)
  raise : ∀ signal, F.Keeps (.take (raise signal) : Attempt (World σ) Outcome)
  ends : ∀ status : Int32,
    F.Keeps (.change fun w => { w with ended := some status } : Attempt (World σ) Unit)
  guards : ∀ f : Guard → Guard,
    F.Keeps (.change fun w => { w with guard := f w.guard } : Attempt (World σ) Unit)
  imports : ∀ path, F.Keeps (Contract.importModule path : Attempt (World σ) (Option Module))
  finds : ∀ (s : Session) name,
    F.Keeps (s.inside (InSession.find name) : Attempt (World σ) (Option Address))
  deletes : ∀ s : Session, F.Keeps (s.delete : Attempt (World σ) Unit)

namespace World.CodeRules

open Attempt.Law

variable [Compiler σ] {F : Attempt.Law (World σ)} (h : World.CodeRules F)
  {call : Address → World σ → Outcome × World σ} {owner : Nat} {passed : Passed}
  {steps : List Action}
include h

theorem callOutside (address : Address) :
    F.Keeps (.take (callOutside address) : Attempt (World σ) Outcome) := by
  rw [take_callOutside]
  refine .state (fun hw => ?_) fun w => ?_
  · rw [h.reaction hw]
  cases reactionAt w address with
  | returns value => exact .pure _
  | raises signal => exact h.raise signal
  | ends status => exact (h.ends status).bind fun _ => .pure _

/-- A call of a routine, if the routine and the steps after it keep to the law. -/
theorem callStep (hcall : ∀ a, F.Keeps (.take (call a) : Attempt (World σ) Outcome))
    (ih : F.Keeps (.take (runSteps call owner passed steps) : Attempt (World σ) Outcome))
    (name : String) :
    F.Keeps (.take (runSteps call owner passed (.calls name :: steps)) :
      Attempt (World σ) Outcome) := by
  rw [take_calls]
  refine .state (fun hw => ?_) fun w => ?_
  · rw [h.compiler hw]
  cases Compiler.reach? w.compiler owner name with
  | none => exact (h.note _).bind fun _ => ih
  | some address =>
    refine (hcall address).bind fun outcome => ?_
    cases outcome with
    | returned value => exact (h.note _).bind fun _ => ih
    | raised signal landing => exact .pure _
    | ended status => exact .pure _

/-- An import, if the routine called in the module and the steps after it keep to the law. -/
theorem importStep (hcall : ∀ a, F.Keeps (.take (call a) : Attempt (World σ) Outcome))
    (ih : F.Keeps (.take (runSteps call owner passed steps) : Attempt (World σ) Outcome))
    (path name : String) :
    F.Keeps (.take (runSteps call owner passed (.imports path name :: steps)) :
      Attempt (World σ) Outcome) := by
  rw [take_imports]
  refine (h.imports path).capture.bind fun r => ?_
  rcases r with _ | _ | m
  · exact (h.note _).bind fun _ => ih
  · exact (h.note _).bind fun _ => ih
  -- the module is released before the steps after it
  have hrest (e : Event) := (h.note e).bind fun _ => (h.deletes m.session).bind fun _ => ih
  refine (h.finds m.session name).capture.bind fun r => ?_
  rcases r with _ | _ | address
  · exact hrest _
  · exact hrest _
  refine (h.note _).bind fun _ => (hcall address).bind fun outcome => ?_
  cases outcome with
  | returned value => exact hrest _
  | raised signal landing => exact .pure _
  | ended status => exact .pure _

/-- The steps of a routine keep to the law, if the code that they call does. -/
theorem runSteps (hcall : ∀ a, F.Keeps (.take (call a) : Attempt (World σ) Outcome))
    (steps : List Action) :
    F.Keeps (.take (runSteps call owner passed steps) : Attempt (World σ) Outcome) := by
  induction steps with
  | nil => exact .pure _
  | cons step steps ih =>
    cases step with
    | returns status => exact .pure _
    | returnsCount => exact .pure _
    | raises number =>
      cases hsignal : Signal.ofNumber? number with
      | some signal =>
        have hraise : Execution.runSteps call owner passed (.raises number :: steps) =
            LiveC.raise signal := by
          funext w
          rw [Execution.runSteps, hsignal]
        rw [hraise]
        exact h.raise signal
      | none =>
        have hgo : Execution.runSteps call owner passed (.raises number :: steps) =
            Execution.runSteps call owner passed steps := by
          funext w
          rw [Execution.runSteps, hsignal]
        rw [hgo]
        exact ih
    | speaks text => exact (h.note _).bind fun _ => ih
    | showsArguments => exact (h.note _).bind fun _ => ih
    | calls name => exact h.callStep hcall ih name
    | imports path name => exact h.importStep hcall ih path name

/-- **Compiled code keeps to the law**, however deep its calls are nested. -/
theorem callAddress (depth : Nat) (address : Address) (passed : Passed) :
    F.Keeps (.take (callAddress depth address passed) : Attempt (World σ) Outcome) := by
  induction depth generalizing address passed with
  | zero => exact h.raise .segv
  | succ depth ih =>
    rw [take_callAddress]
    refine .state (fun hw => ?_) fun w => ?_
    · rw [h.compiler hw]
    cases Compiler.routine? w.compiler address with
    | none => exact h.callOutside address
    | some routine => exact h.runSteps (fun a => ih a .nothing) routine.steps

/-- So does a body that runs under a guard, if it does without one. -/
theorem guarded (identity : Identity) (session : Address) {body : World σ → Outcome × World σ}
    (hbody : F.Keeps (.take body : Attempt (World σ) Outcome)) :
    F.Keeps (.take (guarded identity session body) :
      Attempt (World σ) (Except Outcome RunResult)) := by
  rw [take_guarded]
  refine .state (fun {w w'} hw => ?_) fun w => ?_
  · have hguard : Guarded.guard w = Guarded.guard w' := h.guard hw
    rw [hguard]
  refine (h.guards fun guard => guard.enter identity session).bind fun _ =>
    hbody.bind fun outcome => ?_
  cases outcome.ending identity (Guarded.guard w).nextPlace with
  | ok result => exact (h.guards fun guard => guard.exit _ _).bind fun _ => .pure _
  | error outcome => exact .pure _

/-- So does the run of an entry. -/
theorem runEntry (s : Session) (entry program : String) (args : List String) :
    F.Keeps (runEntry s entry program args : Attempt (World σ) RunResult) := by
  refine (h.finds s entry).bind fun found => ?_
  cases found with
  | none => exact .fail _
  | some address =>
    dsimp only
    cases Arguments.make (program :: args) [] with
    | error fault => exact .fail _
    | ok arguments =>
      exact (h.guarded ⟨s.unitName, entry, 0⟩ s.address
        (h.callAddress callDepth address arguments.passed)).bind fun _ => .pure _

end World.CodeRules

end LiveC
