import LiveC.Proofs.Session.Laws
import LiveC.Proofs.Session.Linking
import LiveC.Proofs.Symbol.Resolving
/-!
# The course of a computation

Everything that the engine does to a world comes down to a few moves: the compiler is asked for a
state or asks are put to one, a name is resolved, or something else changes that no session depends
on. `World.Course` says that one world becomes another by such moves, and which calls of the
compiler they make. `World.core` is what the engine can tell of a world: not the calls, not what was
written to standard error, and not how the active guards are named.

`Plain` says of a computation that it is made of such moves and depends on the core only. Nothing
but the moves has to be looked at for that (`World.law_rules`): what is made of them has it as well
(`Engine.build_plain`).
-/

namespace LiveC

variable {σ α : Type}

namespace World

/-- What the engine can tell of a world. -/
def core (w : World σ) : World σ :=
  { w with calls := #[], errors := "", guard := { w.guard with frames := [] } }

/-- Nothing changed that a session depends on. -/
structure Rests (w w' : World σ) : Prop where
  compiler : w'.compiler = w.compiler
  made : w'.made = w.made
  calls : w'.calls = w.calls
  files : w'.files = w.files
  linkage : w'.linkage = w.linkage
  config : w'.config = w.config
  binding : w'.binding = w.binding

theorem Rests.refl (w : World σ) : w.Rests w := ⟨rfl, rfl, rfl, rfl, rfl, rfl, rfl⟩

/-- One world becomes another by moves that make some calls. -/
inductive Course [Compiler σ] : World σ → List Call → World σ → Prop
  | rest {w w' : World σ} (h : w.Rests w') : Course w [] w'
  | resolve (w : World σ) (name : String) :
    Course w [] { w with linkage := (w.linkage.resolve name).2 }
  | refused {w : World σ} {c : σ} (h : Compiler.create w.compiler = (none, c)) :
    Course w [.refused] { w with compiler := c, calls := w.calls.push .refused }
  | created {w : World σ} {address : Address} {c : σ}
    (h : Compiler.create w.compiler = (some address, c)) :
    Course w [.created w.made]
      { w with compiler := c, made := w.made + 1, calls := w.calls.push (.created w.made) }
  | asked (w : World σ) (n : Nat) (q : Request) :
    Course w [.asked n q (w.ask n q).1.failed] (w.ask n q).2
  | trans {w w' w'' : World σ} {cs cs' : List Call} (h : Course w cs w') (h' : Course w' cs' w'') :
    Course w (cs ++ cs') w''

namespace Course

variable [Compiler σ] {w w' : World σ} {cs : List Call}

theorem adds (h : w.Course cs w') : w.Adds cs w' := by
  induction h with
  | rest h => exact .of_calls_eq h.calls
  | resolve w name => exact .of_calls_eq rfl
  | refused h => simp [Adds]
  | created h => simp [Adds]
  | asked w n q => simp [Adds]
  | trans h h' ih ih' => exact ih.trans ih'

end Course

/-- One world becomes another by moves of the engine. -/
def Leads [Compiler σ] (w w' : World σ) : Prop := ∃ cs, w.Course cs w'

namespace Leads

variable [Compiler σ] {w w' w'' : World σ}

theorem rest (h : w.Rests w') : w.Leads w' := ⟨[], .rest h⟩

theorem refl (w : World σ) : w.Leads w := .rest (.refl w)

theorem trans (h : w.Leads w') (h' : w'.Leads w'') : w.Leads w'' := by
  obtain ⟨cs, hcs⟩ := h
  obtain ⟨cs', hcs'⟩ := h'
  exact ⟨cs ++ cs', hcs.trans hcs'⟩

/-- The engine leaves it as it was which names resolve. -/
theorem isSome_resolve (h : w.Leads w') (name : String) :
    (w'.linkage.resolve name).1.isSome = (w.linkage.resolve name).1.isSome := by
  obtain ⟨cs, hcourse⟩ := h
  induction hcourse with
  | rest h => rw [h.linkage]
  | resolve w other => rw [World.linkage_mk, Linkage.isSome_resolve_resolve]
  | refused h => rfl
  | created h => rfl
  | asked w n q => rfl
  | trans h h' ih ih' => exact ih'.trans ih

end Leads

end World

/-! ## Computations that move along a course -/

variable [Compiler σ]

/-- Computations on a world move along a course, and depend on its core. -/
def World.law : Attempt.Law (World σ) where
  leads := World.Leads
  alike w w' := w.core = w'.core
  refl := .refl
  trans := .trans

/-- Computations in a session do so as well, and see what its owner knows. -/
def InSession.law : Attempt.Law (Session × World σ) where
  leads p p' := p.2.Leads p'.2
  alike p p' := p.1 = p'.1 ∧ p.2.core = p'.2.core
  refl p := .refl p.2
  trans := .trans

/-- A computation on a world that moves along a course, and depends on the core. -/
abbrev Plain (x : Attempt (World σ) α) : Prop := World.law.Keeps x

/-- A computation in a session that moves along a course, and depends on the core. -/
abbrev InSession.Plain (x : InSession σ α) : Prop := InSession.law.Keeps x

namespace Plain

/-- A computation that gives the same from the core of a world. -/
theorem of_core {x : Attempt (World σ) α} (hleads : ∀ w : World σ, w.Leads (x w).2)
    (hcore : ∀ w : World σ, (x w).1 = (x w.core).1 ∧ (x w).2.core = (x w.core).2.core) :
    Plain x where
  leads := hleads
  alike {w w'} hw := by
    have heq : w.core = w'.core := hw
    obtain ⟨hresult, hafter⟩ := hcore w
    obtain ⟨hresult', hafter'⟩ := hcore w'
    rw [heq] at hresult hafter
    exact ⟨hresult.trans hresult'.symm, hafter.trans hafter'.symm⟩

theorem resolve (name : String) :
    Plain (Engine.resolve name : Attempt (World σ) (Option Address)) := by
  refine .of_core (fun w => ⟨[], ?_⟩) fun w => ?_
  · rw [Engine.resolve_apply]
    exact .resolve w name
  · rw [Engine.resolve_apply, Engine.resolve_apply]
    exact ⟨rfl, rfl⟩

end Plain

theorem Session.create_plain (mode : OutputMode) (unitName : String) :
    Plain (create mode unitName : Attempt (World σ) Session) := by
  refine .of_core (fun w => ?_) fun w => ?_
  · rcases h : Compiler.create w.compiler with ⟨_ | address, c⟩
    · exact ⟨_, by simpa only [create, h] using World.Course.refused h⟩
    · exact ⟨_, by simpa only [create, h] using World.Course.created h⟩
  · have hcompiler : w.core.compiler = w.compiler := rfl
    rcases h : Compiler.create w.compiler with ⟨_ | address, c⟩
    · simp only [create, hcompiler, h]
      exact ⟨trivial, rfl⟩
    · simp only [create, hcompiler, h]
      exact ⟨rfl, rfl⟩

/-- The moves of the engine are those of a course, and depend on the core only. -/
theorem World.law_rules : World.Rules (World.law (σ := σ)) fun _ => True where
  surface {w w'} hw c :=
    congrArg (fun w : World σ => { w with compiler := c, events := #[], output := "" }) hw
  prints text :=
    { leads := fun w => .rest ⟨rfl, rfl, rfl, rfl, rfl, rfl, rfl⟩
      alike := fun hw => ⟨rfl, hw⟩ }
  resolve := Plain.resolve
  create := Session.create_plain
  fresh _ := trivial
  ask w n q := ⟨_, .asked w n q⟩
  ask_alike {w w' n q} hw _ := by
    have hcore (w : World σ) : (w.ask n q).1 = (w.core.ask n q).1 ∧
        (w.ask n q).2.core = (w.core.ask n q).2.core := ⟨rfl, rfl⟩
    have heq : w.core = w'.core := hw
    obtain ⟨hreply, hafter⟩ := hcore w
    obtain ⟨hreply', hafter'⟩ := hcore w'
    rw [heq] at hreply hafter
    exact ⟨hreply.trans hreply'.symm, hafter.trans hafter'.symm⟩

namespace InSession

/-- The law of sessions is that of the worlds around them. -/
theorem plain_iff {x : InSession σ α} :
    Plain x ↔ (World.law.inSession fun _ => True).Keeps x := by
  constructor
  · refine fun h => ⟨h.leads, fun hp => ?_⟩
    obtain ⟨hresult, hsession, hworld⟩ := h.alike ⟨hp.1, hp.2.2⟩
    exact ⟨hresult, hsession, trivial, hworld⟩
  · refine fun h => ⟨h.leads, fun hp => ?_⟩
    obtain ⟨hresult, hsession, -, hworld⟩ := h.alike ⟨hp.1, trivial, hp.2⟩
    exact ⟨hresult, hsession, hworld⟩

namespace Plain

theorem demandWith (text : String) (q : Request) : Plain (demandWith text q : InSession σ Unit) :=
  plain_iff.2 ((World.law_rules).demandWith text q)

theorem addSymbol (name : String) (address : Address) :
    Plain (addSymbol name address : InSession σ Unit) :=
  plain_iff.2 ((World.law_rules).addSymbol name address)

theorem addFile (path : String) : Plain (addFile path : InSession σ Unit) :=
  plain_iff.2 ((World.law_rules).addFile path)

theorem find (name : String) : Plain (find name : InSession σ (Option Address)) :=
  plain_iff.2 ((World.law_rules).find name)

theorem relocate : Plain (relocate : InSession σ Unit) := plain_iff.2 (World.law_rules).relocate

theorem prepare : Plain (prepare : InSession σ Unit) := plain_iff.2 (World.law_rules).prepare

end Plain

end InSession

/-! ## Sessions and builds -/

namespace Session

theorem delete_plain (s : Session) : Plain (s.delete : Attempt (World σ) Unit) :=
  (World.law_rules).delete s

theorem inside_plain {body : InSession σ α} (hbody : InSession.Plain body) (s : Session) :
    Plain (s.inside body) where
  leads w := hbody.leads (s, w)
  alike {w w'} hw := by
    have hp : InSession.law.alike (s, w) (s, w') := ⟨rfl, hw⟩
    obtain ⟨hresult, -, hafter⟩ := hbody.alike hp
    exact ⟨hresult, hafter⟩

theorem opened_plain {body : InSession σ α} (hbody : InSession.Plain body) (mode : OutputMode)
    (unitName : String) : Plain (opened mode unitName body) :=
  (World.law_rules).opened (InSession.plain_iff.1 hbody) mode unitName

end Session

namespace Engine

variable {load : InSession σ Unit}

theorem resolveAll_plain (names : List String) :
    Plain (resolveAll names : Attempt (World σ) (Option (List (String × Address)))) :=
  (World.law_rules).resolveAll names

theorem populate_plain (hload : InSession.Plain load) (names : List (String × Address)) :
    InSession.Plain (populate names load) :=
  InSession.plain_iff.2 ((World.law_rules).populate (InSession.plain_iff.1 hload) names)

theorem retry_plain (hload : InSession.Plain load) (unitName : String) (e : Failure) :
    Plain (retry unitName load e) :=
  (World.law_rules).retry (InSession.plain_iff.1 hload) unitName e

/-- **A build moves the world along a course** and depends on the core only, if the loading of the
code does. -/
theorem build_plain (hload : InSession.Plain load) (unitName : String) :
    Plain (build unitName load) :=
  (World.law_rules).build (InSession.plain_iff.1 hload) unitName

end Engine

end LiveC
