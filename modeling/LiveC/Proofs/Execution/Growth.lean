import LiveC.Proofs.Execution.Laws
import LiveC.Proofs.Session.Course
/-!
# The course of compiled code

Imports and compiled code move a world along a course as well. Imports have it by their parts
(`Engine.importModule_plain`). Compiled code keeps to every relation that holds of what it is made
of (`World.Lasting`), since that is a law (`World.Lasting.rules`). So nothing that the engine or
compiled code does takes a call of the compiler back: the calls before are the first ones of the
calls after (`World.Precedes`).
-/

namespace LiveC

variable {σ α : Type}

/-- The calls of one world are the first ones of another. -/
def World.Precedes (w w' : World σ) : Prop := w.calls.toList <+: w'.calls.toList

namespace World

theorem precedes_iff {w w' : World σ} : w.Precedes w' ↔ ∃ cs, w.Adds cs w' := by
  constructor
  · rintro ⟨cs, h⟩
    exact ⟨cs, h.symm⟩
  · rintro ⟨cs, h⟩
    exact ⟨cs, h.symm⟩

theorem Leads.precedes [Compiler σ] {w w' : World σ} (h : w.Leads w') : w.Precedes w' := by
  obtain ⟨cs, hcs⟩ := h
  exact precedes_iff.2 ⟨cs, hcs.adds⟩

end World

variable [Compiler σ]

/-! ## Modules -/

namespace Engine

theorem loadObject_plain (path object : String) (origin : Origin) :
    Plain (loadObject path object origin : Attempt (World σ) Module) :=
  (World.law_rules).loadObject path object origin

theorem writeObject_plain (unitName source object : String) :
    Plain (writeObject unitName source object : Attempt (World σ) Unit) :=
  (World.law_rules).writeObject unitName source object

theorem importSource_plain (c : ObjectCache) :
    Plain (importSource c : Attempt (World σ) Module) := (World.law_rules).importSource c

theorem importModule_plain (path : String) :
    Plain (importModule path : Attempt (World σ) Module) := (World.law_rules).importModule path

end Engine

/-! ## Compiled code -/

namespace Contract

theorem importModule_plain (path : String) :
    Plain (importModule path : Attempt (World σ) (Option Module)) :=
  (World.law_rules).contract_importModule path

end Contract

/-- A relation between worlds that holds of whatever compiled code is made of: what no session
depends on changes, a module is imported, a name is looked up in a session, a session is given up.
-/
structure World.Lasting (R : World σ → World σ → Prop) : Prop where
  rest : ∀ {w w' : World σ}, w.Rests w' → R w w'
  trans : ∀ {w w' w'' : World σ}, R w w' → R w' w'' → R w w''
  imports : ∀ path w, R w (Contract.importModule path w).2
  finds : ∀ (s : Session) name w, R w (s.inside (InSession.find name) w).2
  deletes : ∀ (s : Session) w, R w (s.delete w).2

/-- Moving along a course is such a relation. -/
theorem World.Leads.lasting : World.Lasting (World.Leads (σ := σ)) where
  rest := .rest
  trans := .trans
  imports path w := (Contract.importModule_plain path).leads w
  finds s name w := (Session.inside_plain (InSession.Plain.find name) s).leads w
  deletes s w := s.delete_plain.leads w

namespace World.Lasting

variable {R : World σ → World σ → Prop}

/-- The law of computations that lead to related worlds. Nothing is said of two worlds. -/
def law (h : Lasting R) : Attempt.Law (World σ) where
  leads := R
  alike _ _ := False
  refl w := h.rest (.refl w)
  trans := h.trans

theorem keeps (h : Lasting R) {x : Attempt (World σ) α} (hx : ∀ w, R w (x w).2) :
    h.law.Keeps x where
  leads := hx
  alike hw := hw.elim

theorem raise (h : Lasting R) (signal : Signal) (w : World σ) : R w (raise signal w).2 := by
  rw [World.raise_eq]
  split
  · exact h.rest (.refl w)
  · split
    · exact h.rest ⟨rfl, rfl, rfl, rfl, rfl, rfl, rfl⟩
    · exact h.rest ⟨rfl, rfl, rfl, rfl, rfl, rfl, rfl⟩

/-- Compiled code keeps to the law. -/
theorem rules (h : Lasting R) : World.CodeRules h.law where
  compiler hw := hw.elim
  reaction hw := hw.elim
  guard hw := hw.elim
  note _ := h.keeps fun _ => h.rest ⟨rfl, rfl, rfl, rfl, rfl, rfl, rfl⟩
  raise signal := h.keeps (h.raise signal)
  ends _ := h.keeps fun _ => h.rest ⟨rfl, rfl, rfl, rfl, rfl, rfl, rfl⟩
  guards _ := h.keeps fun _ => h.rest ⟨rfl, rfl, rfl, rfl, rfl, rfl, rfl⟩
  imports path := h.keeps (h.imports path)
  finds s name := h.keeps (h.finds s name)
  deletes s := h.keeps (h.deletes s)

end World.Lasting

namespace Execution

open World

variable {R : World σ → World σ → Prop}

/-- Such a relation holds of compiled code, however deep its calls are nested. -/
theorem callAddress_lasts (h : Lasting R) (depth : Nat) (address : Address)
    (passed : Passed) (w : World σ) : R w (callAddress depth address passed w).2 :=
  (h.rules.callAddress depth address passed).leads w

omit [Compiler σ] in
/-- A guard changes nothing of what its body leaves but the guard itself. -/
theorem exists_guarded_eq (identity : Identity) (session : Address)
    (body : World σ → Outcome × World σ) (w : World σ) :
    ∃ guard, (guarded identity session body w).2 =
      { (body (Guarded.setGuard w ((Guarded.guard w).enter identity session))).2 with
        guard := guard } := by
  rcases hbody : body (Guarded.setGuard w ((Guarded.guard w).enter identity session)) with
    ⟨outcome, after⟩
  simp only [guarded, hbody]
  cases outcome.ending identity (Guarded.guard w).nextPlace with
  | ok result => exact ⟨_, rfl⟩
  | error outcome => exact ⟨_, rfl⟩

/-- An entry is run if its name is found in the session and its arguments can be passed on. -/
theorem runEntry_cases (s : Session) (entry program : String) (args : List String) (w : World σ) :
    (∃ e, runEntry s entry program args w = (.error e, (s.inside (InSession.find entry) w).2)) ∨
    ∃ address arguments w₁, s.inside (InSession.find entry) w = (.ok (some address), w₁) ∧
      Arguments.make (program :: args) [] = .ok arguments ∧
      runEntry s entry program args w = (.ok (resultOf (guarded ⟨s.unitName, entry, 0⟩ s.address
          (callAddress callDepth address arguments.passed) w₁).1),
        (guarded ⟨s.unitName, entry, 0⟩ s.address
          (callAddress callDepth address arguments.passed) w₁).2) := by
  rcases hrun : s.inside (InSession.find entry) w with ⟨e | _ | address, w₁⟩
  · exact .inl ⟨e, Attempt.bind_of_error hrun _⟩
  · exact .inl ⟨_, Attempt.bind_of_ok hrun _⟩
  cases hargs : Arguments.make (program :: args) [] with
  | error fault =>
    refine .inl ⟨.runtime fault, ?_⟩
    rw [runEntry, Attempt.bind_of_ok hrun]
    dsimp only
    rw [hargs]
    rfl
  | ok arguments =>
    refine .inr ⟨address, arguments, w₁, rfl, rfl, ?_⟩
    rw [runEntry, Attempt.bind_of_ok hrun]
    dsimp only
    rw [hargs]
    rfl

/-- Such a relation holds of the run of an entry. -/
theorem runEntry_lasts (h : Lasting R) (s : Session) (entry program : String) (args : List String)
    (w : World σ) : R w (runEntry s entry program args w).2 :=
  (h.rules.runEntry s entry program args).leads w

/-- Running an entry moves the world along a course. -/
theorem runEntry_leads (s : Session) (entry program : String) (args : List String) (w : World σ) :
    w.Leads (runEntry s entry program args w).2 :=
  runEntry_lasts Leads.lasting s entry program args w

end Execution

end LiveC
