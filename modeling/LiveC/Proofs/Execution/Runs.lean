import LiveC.Execution
/-!
# The runs of compiled code

What can be said of a run of compiled code depends on how it ends: a call that does not come back
leaves the code that made it, and the module that was open for the call. `World.RunRules` relates
what is said of runs to what is said of the worlds that code goes through on the way, with the state
of an open module or without. What is said of runs holds of compiled code then, by induction on its
steps (`World.RunRules.runSteps`) and on how deep its calls are nested
(`World.RunRules.callAddress`).
-/

namespace LiveC

open Execution

variable {σ : Type} [Compiler σ]

/-- What is said of runs from a world on, and of the worlds on the way: with the state of a number
that is open for a call, or with none. -/
structure World.RunRules (P : World σ → Outcome × World σ → Prop)
    (Way : Option Nat → World σ → World σ → Prop) : Prop where
  returned : ∀ w value, P w (.returned value, w)
  raise : ∀ signal w, P w (raise signal w)
  outside : ∀ address w, P w (callOutside address w)
  refl : ∀ w, Way none w w
  note : ∀ {opened w w₁} e, Way opened w w₁ → Way opened w (w₁.note e)
  imports : ∀ path w, Way
    ((Contract.importModule path w).1.toOption.bind fun m => m.map (·.session.serial)) w
    (Contract.importModule path w).2
  finds : ∀ {w w₁} (s : Session) name, Way (some s.serial) w w₁ →
    Way (some s.serial) w (s.inside (InSession.find name) w₁).2
  deletes : ∀ {w w₁} (s : Session), Way (some s.serial) w w₁ → Way none w (s.delete w₁).2
  /-- A call that came back. -/
  back : ∀ {opened w w₁ w₂ value}, Way opened w w₁ → P w₁ (.returned value, w₂) → Way opened w w₂
  /-- A call that did not come back. -/
  away : ∀ {opened w w₁ r}, Way opened w w₁ → P w₁ r → (∀ value, r.1 ≠ .returned value) → P w r
  /-- The run goes on. -/
  after : ∀ {w w₁ r}, Way none w w₁ → P w₁ r → P w r

namespace World.RunRules

variable {P : World σ → Outcome × World σ → Prop} {Way : Option Nat → World σ → World σ → Prop}
  (h : World.RunRules P Way) {call : Address → World σ → Outcome × World σ} {owner : Nat}
  {passed : Passed} {steps : List Action}
include h

/-- A call of a routine, if what is said holds of the routine and of the steps after it. -/
theorem callStep (hcall : ∀ a w, P w (call a w))
    (ih : ∀ w, P w (Execution.runSteps call owner passed steps w)) (name : String) (w : World σ) :
    P w (Execution.runSteps call owner passed (.calls name :: steps) w) := by
  rw [Execution.runSteps]
  split
  · exact h.after (h.note _ (h.refl w)) (ih _)
  · next address _ =>
    have hrun := hcall address w
    split
    · next hcalled =>
      rw [hcalled] at hrun
      exact h.after (h.note _ (h.back (h.refl w) hrun)) (ih _)
    · next hcalled =>
      rw [hcalled] at hrun
      exact hrun

/-- An import, if what is said holds of the routine called in the module and of the steps after it.
The module is released unless the call of the routine does not come back. -/
theorem importStep (hcall : ∀ a w, P w (call a w))
    (ih : ∀ w, P w (Execution.runSteps call owner passed steps w)) (path name : String)
    (w : World σ) : P w (Execution.runSteps call owner passed (.imports path name :: steps) w) := by
  rw [Execution.runSteps]
  have himport := h.imports path w
  split
  · next m w₁ h₁ =>
    rw [h₁] at himport
    have hopen : Way (some m.session.serial) w w₁ := himport
    have hfind := h.finds m.session name hopen
    -- the module is released before the steps after it
    have hrest {w₂ : World σ} (e : Event) (h₂ : Way (some m.session.serial) w w₂) : P w
        (Execution.runSteps call owner passed steps
          (Contract.releaseModule (some m) (w₂.note e)).2) :=
      h.after (h.deletes m.session (h.note e h₂)) (ih _)
    split
    · next address w₂ h₂ =>
      have hfound : (m.session.inside (InSession.find name) w₁).2 = w₂ := congrArg Prod.snd h₂
      rw [hfound] at hfind
      have hbefore := h.note (.imported path (some true)) hfind
      have hrun := hcall address (w₂.note (.imported path (some true)))
      split
      · next value w₃ h₃ =>
        rw [h₃] at hrun
        exact hrest _ (h.back hbefore hrun)
      · next hnot h₃ =>
        rw [h₃] at hrun
        exact h.away hbefore hrun hnot
    · next w₂ _ h₂ =>
      have hfound : (m.session.inside (InSession.find name) w₁).2 = w₂ := congrArg Prod.snd h₂
      rw [hfound] at hfind
      exact hrest _ hfind
  · next r w₁ hnot h₁ =>
    rw [h₁] at himport
    have hnone : (r.toOption.bind fun m : Option Module => m.map (·.session.serial)) = none := by
      rcases r with e | _ | m
      · rfl
      · rfl
      · exact (hnot m rfl).elim
    have hclosed : Way none w w₁ := hnone ▸ himport
    exact h.after (h.note _ hclosed) (ih _)

/-- The steps of a routine, if what is said holds of the code that they call. -/
theorem runSteps (hcall : ∀ a w, P w (call a w)) (steps : List Action) (w : World σ) :
    P w (Execution.runSteps call owner passed steps w) := by
  induction steps generalizing w with
  | nil => exact h.returned w 0
  | cons step steps ih =>
    have note (e : Event) : P w (Execution.runSteps call owner passed steps (w.note e)) :=
      h.after (h.note e (h.refl w)) (ih _)
    cases step with
    | returns status => exact h.returned w status
    | returnsCount => exact h.returned w _
    | raises number =>
      rw [Execution.runSteps]
      split
      · exact h.raise _ w
      · exact ih w
    | speaks text => exact note _
    | showsArguments => exact note _
    | calls name => exact h.callStep hcall ih name w
    | imports path name => exact h.importStep hcall ih path name w

/-- **What is said of runs holds of compiled code**, however deep its calls are nested. -/
theorem callAddress (depth : Nat) (address : Address) (passed : Passed)
    (w : World σ) : P w (Execution.callAddress depth address passed w) := by
  induction depth generalizing address passed w with
  | zero => exact h.raise .segv w
  | succ depth ih =>
    rw [Execution.callAddress]
    split
    · exact h.runSteps (fun a w => ih a .nothing w) _ w
    · exact h.outside address w

end World.RunRules

end LiveC
