import LiveC.Contract
import LiveC.Proofs.Session.Visits
/-!
# The states of an import

An import visits one state of the compiler after the other: that of the cached object, which may
turn out to be unusable, that of the object written anew, and that of the code in memory. Only the
last one stays open, for the module (`importModule_leaves`), whether the engine imports or compiled
code does.
-/

namespace LiveC

open InSession

variable {σ : Type}

namespace Engine

/-- The state of a module. -/
abbrev moduleState (m : Module) : Option Nat := some m.session.serial

theorem readSource_leaves (path : String) :
    LeavesNone (readSource path : Attempt (World σ) String) := by
  refine Leaves.state.bind fun w => ?_
  split
  · split
    · exact .pure _
    · exact .fail _ _
  · exact .fail _ _

variable [Compiler σ]

theorem loadObject_leaves (path object : String) (origin : Origin) :
    Leaves moduleState (loadObject path object origin : Attempt (World σ) Module) :=
  Leaves.map (build_leaves (P := fun q => q = .addFile object) (.addFile rfl) (by simp) (by simp)
    object) fun _ => rfl

/-- Writing an object leaves no state open. -/
theorem writeObject_leaves (unitName source object : String) :
    LeavesNone (writeObject unitName source object : Attempt (World σ) Unit) := by
  refine Session.opened_delete_leaves
    (P := fun q => Prepares q ∨ q = .compile source ∨ q = .writeFile object)
    ?_ ?_ ?_ .object unitName
  · exact (prepare_asksOnly.mono fun _ => .inl).bind fun _ =>
      (AsksOnly.demandWith source (.inr (.inl rfl))).bind fun _ =>
        .demandWith object (.inr (.inr rfl))
  · simp [Prepares]
  · simp [Prepares]

theorem compileSource_leaves (c : ObjectCache) :
    Leaves moduleState (compileSource c : Attempt (World σ) Module) := by
  refine (readSource_leaves c.source).bind fun text =>
    (writeObject_leaves _ _ _).capture_none.bind fun r => ?_
  have hcompiled : Leaves moduleState (do
      let session ← build c.source (InSession.compile (sourceOfFile c.source text))
      return ⟨c.source, .compiled, session⟩ : Attempt (World σ) Module) :=
    Leaves.map (build_leaves (P := fun q => q = .compile (sourceOfFile c.source text))
      (.demandWith _ rfl) (by simp) (by simp) c.source) fun _ => rfl
  cases r with
  | ok u => exact hcompiled
  | error e => exact (Leaves.of_silent (silent_warn _)).bind fun _ => hcompiled

theorem importSource_leaves (c : ObjectCache) :
    Leaves moduleState (importSource c : Attempt (World σ) Module) := by
  refine Leaves.state.bind fun w => ?_
  dsimp only
  split
  · refine (loadObject_leaves _ _ _).recover (fun m w => ⟨m, rfl, rfl⟩) fun e => ?_
    dsimp only
    split
    · exact (Leaves.of_silent (silent_warn _)).bind fun _ => compileSource_leaves c
    · exact .fail _ _
  · exact compileSource_leaves c

/-- **An import leaves the state of its module open**, which is the only one that it links, and no
state when it fails. -/
theorem importModule_leaves (path : String) :
    Leaves moduleState (importModule path : Attempt (World σ) Module) := by
  unfold importModule
  split
  · exact .fail _ _
  · refine Leaves.state.bind fun w => ?_
    dsimp only
    split
    · split
      · exact loadObject_leaves _ _ _
      · exact .fail _ _
    · exact importSource_leaves _

end Engine

/-- An import of compiled code leaves the state of its module open, if it gives one. -/
theorem Contract.importModule_leaves [Compiler σ] (path : String) :
    Leaves (fun m : Option Module => m.bind Engine.moduleState)
      (importModule path : Attempt (World σ) (Option Module)) := by
  refine Leaves.state.bind fun w => ?_
  split
  · refine (Engine.importModule_leaves path).recover (fun m w => ⟨some m, rfl, rfl⟩) fun e => ?_
    have hcomplain : LeavesNone (complain e : Attempt (World σ) Unit) :=
      .of_silent fun _ => ⟨rfl, rfl⟩
    exact hcomplain.bind fun _ w => ⟨[], .of_calls_eq rfl rfl, rfl⟩
  · exact fun w => ⟨[], .of_calls_eq rfl rfl, rfl⟩

end LiveC
