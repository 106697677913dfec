import LiveC.Proofs.Execution.Twins
import LiveC.Proofs.Session.Sources
/-!
# Running code in two worlds

Code that is run in two worlds that are abreast does the same in both, and leaves them abreast
(`callAddress_abreast`). Of the arguments only the number matters for how it ends: what it shows of
them is no part of what the engine sees. So the entries of two sessions of one number have the same
verdict, whatever the program is called (`runEntry_abreast`).
-/

namespace LiveC

open Execution

variable {σ : Type} [Compiler σ]

namespace SourceTranslator

variable {T : SourceTranslator σ} {k : Nat} {w w' : World σ}

variable (T) in
/-- Two runs end in the same way, and leave two worlds abreast. -/
def KeepsPace (k : Nat) (r r' : Outcome × World σ) : Prop := r.1 = r'.1 ∧ T.Abreast k r.2 r'.2

namespace Abreast

/-- What code does to a world, but for the names of the active guards, is the same in both worlds,
or not seen by the engine. -/
theorem run (h : T.Abreast k w w') {guard guard' : Guard} {events events' : Array Event}
    {errors errors' : String} {ended ended' : Option Int32}
    (hguard : { guard with frames := [] } = { guard' with frames := [] })
    (hended : ended = ended') : T.Abreast k
      { w with guard := guard, events := events, errors := errors, ended := ended }
      { w' with guard := guard', events := events', errors := errors', ended := ended' } where
  surface c := by
    have hsame := h.surface c
    simp only [World.surface, World.mk.injEq] at hsame ⊢
    obtain ⟨hcompiler, hmade, hcalls, hfiles, hlinkage, hconfig, hbinding, hinstalled, -, hevents,
      houtput, herrors, hcolors, hlog, hcomplaint, -⟩ := hsame
    exact ⟨hcompiler, hmade, hcalls, hfiles, hlinkage, hconfig, hbinding, hinstalled, hguard,
      hevents, houtput, herrors, hcolors, hlog, hcomplaint, hended⟩
  compiler := h.compiler
  made := h.made

theorem guard (h : T.Abreast k w w') :
    { w.guard with frames := [] } = { w'.guard with frames := [] } := by
  have hsame := congrArg World.guard (h.surface w.compiler)
  exact hsame

theorem state (h : T.Abreast k w w') : w.guard.state = w'.guard.state := by
  have hsame := congrArg Guard.state h.guard
  exact hsame

theorem checkpoint (h : T.Abreast k w w') : w.guard.checkpoint = w'.guard.checkpoint := by
  have hsame := congrArg Guard.checkpoint h.guard
  exact hsame

theorem ended (h : T.Abreast k w w') : w.ended = w'.ended := by
  have hsame := congrArg World.ended (h.surface w.compiler)
  exact hsame

theorem note (h : T.Abreast k w w') (e e' : Event) : T.Abreast k (w.note e) (w'.note e') :=
  h.run h.guard h.ended

theorem reactionAt_eq (h : T.Abreast k w w') (address : Address) :
    reactionAt w address = reactionAt w' address := by
  have hinstalled : w.installed = w'.installed := by
    have hsame := congrArg World.installed (h.surface w.compiler)
    exact hsame
  exact reactionAt_congr h.linkage hinstalled address

/-- A signal does the same in both worlds. -/
theorem raise (h : T.Abreast k w w') (signal : Signal) :
    T.KeepsPace k (raise signal w) (raise signal w') := by
  rw [World.raise_eq, World.raise_eq, h.state, Guard.landing?_congr h.state h.checkpoint]
  split
  · exact ⟨rfl, h⟩
  · split
    · refine ⟨rfl, h.run ?_ h.ended⟩
      exact congrArg (fun n => (⟨[], n, .armed⟩ : Guard)) h.checkpoint
    · refine ⟨rfl, h.run ?_ h.ended⟩
      exact congrArg (fun n => (⟨[], n, .reporting⟩ : Guard)) h.checkpoint

theorem callOutside (h : T.Abreast k w w') (address : Address) :
    T.KeepsPace k (callOutside address w) (callOutside address w') := by
  rw [callOutside_eq, callOutside_eq, h.reactionAt_eq]
  cases reactionAt w' address with
  | returns value => exact ⟨rfl, h⟩
  | raises signal => exact h.raise signal
  | ends status => exact ⟨rfl, h.run h.guard rfl⟩

end Abreast

section Steps

variable {call : Address → World σ → Outcome × World σ} {owner : Nat}
  {passed passed' : Passed} {steps : List Action}

/-- A call of a routine, if the routine and the steps after it are run alike. -/
theorem callStep_abreast
    (hcall : ∀ a (w w' : World σ), T.Abreast k w w' → T.KeepsPace k (call a w) (call a w'))
    (ih : ∀ w w' : World σ, T.Abreast k w w' →
      T.KeepsPace k (runSteps call owner passed steps w) (runSteps call owner passed' steps w'))
    (h : T.Abreast k w w') (name : String) :
    T.KeepsPace k (runSteps call owner passed (.calls name :: steps) w)
      (runSteps call owner passed' (.calls name :: steps) w') := by
  rw [runSteps, runSteps, T.alike_reach h.compiler]
  cases Compiler.reach? w'.compiler owner name with
  | none => exact ih _ _ (h.note _ _)
  | some address =>
    dsimp only
    have hrun := hcall address w w' h
    rcases hw : call address w with ⟨outcome, w₁⟩
    rcases hw' : call address w' with ⟨outcome', w₁'⟩
    rw [hw, hw'] at hrun
    obtain ⟨rfl, hafter⟩ := hrun
    cases outcome with
    | returned value => exact ih _ _ (hafter.note _ _)
    | raised signal landing => exact ⟨rfl, hafter⟩
    | ended status => exact ⟨rfl, hafter⟩

/-- An import, if the routine called in the module and the steps after it are run alike. -/
theorem importStep_abreast
    (hcall : ∀ a (w w' : World σ), T.Abreast k w w' → T.KeepsPace k (call a w) (call a w'))
    (ih : ∀ w w' : World σ, T.Abreast k w w' →
      T.KeepsPace k (runSteps call owner passed steps w) (runSteps call owner passed' steps w'))
    (h : T.Abreast k w w') (path name : String) :
    T.KeepsPace k (runSteps call owner passed (.imports path name :: steps) w)
      (runSteps call owner passed' (.imports path name :: steps) w') := by
  obtain ⟨hresult, himported⟩ := ((abreast_rules T k).contract_importModule path).alike h
  rw [runSteps, runSteps]
  rcases h₁ : Contract.importModule path w with ⟨r, w₁⟩
  rcases h₁' : Contract.importModule path w' with ⟨r', w₁'⟩
  rw [h₁, h₁'] at hresult himported
  obtain rfl : r = r' := hresult
  have hab₁ : T.Abreast k w₁ w₁' := himported
  rcases r with e | _ | m
  · exact ih _ _ (hab₁.note _ _)
  · exact ih _ _ (hab₁.note _ _)
  dsimp only
  -- the module is released before the steps after it
  have hrest {w₂ w₂' : World σ} (hab₂ : T.Abreast k w₂ w₂') (e : Event) : T.KeepsPace k
      (runSteps call owner passed steps (Contract.releaseModule (some m) (w₂.note e)).2)
      (runSteps call owner passed' steps (Contract.releaseModule (some m) (w₂'.note e)).2) :=
    ih _ _ (((abreast_rules T k).delete m.session).alike (hab₂.note e e)).2
  obtain ⟨hfound, hlooked⟩ := ((abreast_rules T k).inside_find m.session name).alike hab₁
  have hsymbol (w : World σ) : Contract.findSymbol (some m) (some name) w =
      m.session.inside (InSession.find name) w := rfl
  rw [hsymbol, hsymbol]
  rcases h₂ : m.session.inside (InSession.find name) w₁ with ⟨r, w₂⟩
  rcases h₂' : m.session.inside (InSession.find name) w₁' with ⟨r', w₂'⟩
  rw [h₂, h₂'] at hfound hlooked
  obtain rfl : r = r' := hfound
  have hab₂ : T.Abreast k w₂ w₂' := hlooked
  rcases r with e | _ | address
  · exact hrest hab₂ _
  · exact hrest hab₂ _
  dsimp only
  have hrun := hcall address _ _
    (hab₂.note (.imported path (some true)) (.imported path (some true)))
  rcases h₃ : call address (w₂.note (.imported path (some true))) with ⟨outcome, w₃⟩
  rcases h₃' : call address (w₂'.note (.imported path (some true))) with ⟨outcome', w₃'⟩
  rw [h₃, h₃'] at hrun
  obtain ⟨rfl, hab₃⟩ := hrun
  cases outcome with
  | returned value => exact hrest hab₃ _
  | raised signal landing => exact ⟨rfl, hab₃⟩
  | ended status => exact ⟨rfl, hab₃⟩

/-- The steps of a routine, if the code that they call is run alike. -/
theorem runSteps_abreast
    (hcall : ∀ a (w w' : World σ), T.Abreast k w w' → T.KeepsPace k (call a w) (call a w'))
    (hargc : passed.argc = passed'.argc) (steps : List Action)
    (h : T.Abreast k w w') :
    T.KeepsPace k (runSteps call owner passed steps w) (runSteps call owner passed' steps w') := by
  induction steps generalizing w w' with
  | nil => exact ⟨rfl, h⟩
  | cons step steps ih =>
    cases step with
    | returns status => exact ⟨rfl, h⟩
    | returnsCount =>
      rw [runSteps, runSteps, hargc]
      exact ⟨rfl, h⟩
    | raises number =>
      rw [runSteps, runSteps]
      split
      · exact h.raise _
      · exact ih h
    | speaks said => exact ih (h.note _ _)
    | showsArguments => exact ih (h.note _ _)
    | calls name => exact callStep_abreast hcall (fun _ _ => ih) h name
    | imports path name => exact importStep_abreast hcall (fun _ _ => ih) h path name

end Steps

/-- **Code does the same in two worlds that are abreast**, however deep its calls are nested, if it
is given as many arguments. -/
theorem callAddress_abreast (depth : Nat) (address : Address) {passed passed' : Passed}
    (hargc : passed.argc = passed'.argc) (h : T.Abreast k w w') :
    T.KeepsPace k (callAddress depth address passed w) (callAddress depth address passed' w') := by
  induction depth generalizing address passed passed' w w' with
  | zero => exact h.raise .segv
  | succ depth ih =>
    rw [callAddress, callAddress, T.alike_routine h.compiler]
    cases Compiler.routine? w'.compiler address with
    | none => exact h.callOutside address
    | some routine =>
      exact runSteps_abreast (fun a w w' h => ih a rfl h) hargc routine.steps h

/-- **The entries of two sessions of one number have the same verdict**, whatever the program is
called. -/
theorem runEntry_abreast (h : T.Abreast k w w') {s s' : Session} (hserial : s.serial = s'.serial)
    (hrelocated : s.relocated = s'.relocated) {program program' : String}
    (hprogram : hasNul program = false) (hprogram' : hasNul program' = false) (entry : String)
    (args : List String) :
    (runEntry s entry program args w).1.toOption.map RunResult.verdict =
      (runEntry s' entry program' args w').1.toOption.map RunResult.verdict := by
  obtain ⟨hfound, hlooked⟩ := ((abreast_rules T k).inside_find s entry).alike h
  have hsame : s'.inside (InSession.find entry) w' = s.inside (InSession.find entry) w' := by
    rw [Session.inside_find_apply, Session.inside_find_apply, hserial, hrelocated]
  rcases h₁ : s.inside (InSession.find entry) w with ⟨r, w₁⟩
  rcases h₁' : s.inside (InSession.find entry) w' with ⟨r', w₁'⟩
  rw [h₁, h₁'] at hfound hlooked
  obtain rfl : r = r' := hfound
  have hab₁ : T.Abreast k w₁ w₁' := hlooked
  rw [h₁'] at hsame
  rcases r with e | _ | address
  · rw [runEntry, runEntry, Attempt.bind_of_error h₁, Attempt.bind_of_error hsame]
  · rw [runEntry, runEntry, Attempt.bind_of_ok h₁, Attempt.bind_of_ok hsame]
    rfl
  rw [runEntry, runEntry, Attempt.bind_of_ok h₁, Attempt.bind_of_ok hsame]
  dsimp only
  have hfind (program : String) (hprogram : hasNul program = false) :
      (program :: args).find? hasNul = args.find? hasNul := by
    rw [List.find?_cons, hprogram]
  rw [Arguments.make, Arguments.make, hfind program hprogram, hfind program' hprogram']
  cases args.find? hasNul with
  | some bad => rfl
  | none =>
    have hentered : T.Abreast k (entered ⟨s.unitName, entry, 0⟩ s.address w₁)
        (entered ⟨s'.unitName, entry, 0⟩ s'.address w₁') := by
      refine hab₁.run ?_ hab₁.ended
      exact congrArg (fun n => (⟨[], some n, .armed⟩ : Guard)) (nextPlace_congr hab₁.checkpoint)
    have hargc (program program' : String) :
        (⟨pointersTo (program :: args), pointersTo []⟩ : Arguments).passed.argc =
          (⟨pointersTo (program' :: args), pointersTo []⟩ : Arguments).passed.argc := rfl
    have hrun := callAddress_abreast callDepth address (hargc program program') hentered
    exact congrArg some (guarded_verdict hab₁.checkpoint hrun.1)

end SourceTranslator

end LiveC
