import LiveC.Contract
import LiveC.Flags.Run
/-!
# Computations that keep to a law

An `Attempt.Law` says where computations on a state may lead, and which states they are not to tell
apart. What keeps to it goes through sequences, loops and captured failures (`Attempt.Law.Keeps`).

The engine is made of few moves: a compiler state is asked for, a request is put to one, a name is
resolved, something is printed. Everything else only looks at the `surface` of a world, which the
compiler is no part of. `World.Rules` says that these moves keep to a law; then whole builds
(`World.Rules.build`) and imports (`World.Rules.importModule`) do.
-/

namespace LiveC

variable {σ α β : Type}

/-- Something that computations on a state can keep to: where they may lead, and which states they
cannot tell apart. -/
structure Attempt.Law (S : Type) where
  leads : S → S → Prop
  alike : S → S → Prop
  refl : ∀ s, leads s s
  trans : ∀ {s s' s''}, leads s s' → leads s' s'' → leads s s''

/-- A computation that keeps to a law. -/
structure Attempt.Law.Keeps {S : Type} (F : Attempt.Law S) (x : Attempt S α) : Prop where
  leads : ∀ s, F.leads s (x s).2
  alike : ∀ {s s'}, F.alike s s' → (x s).1 = (x s').1 ∧ F.alike (x s).2 (x s').2

namespace Attempt.Law.Keeps

variable {S : Type} {F : Attempt.Law S} {x : Attempt S α} {f : α → Attempt S β}

/-- A computation that leaves the state alone. -/
theorem of_still {r : Except Failure α} (h : ∀ s, x s = (r, s)) : F.Keeps x where
  leads s := by
    rw [h]
    exact F.refl s
  alike hs := by
    rw [h, h]
    exact ⟨rfl, hs⟩

theorem pure (a : α) : F.Keeps (Pure.pure a : Attempt S α) := .of_still fun _ => rfl

theorem fail (e : Failure) : F.Keeps (.fail e : Attempt S α) := .of_still fun _ => rfl

theorem bind (hx : F.Keeps x) (hf : ∀ a, F.Keeps (f a)) : F.Keeps (x >>= f) where
  leads s := by
    have hs := hx.leads s
    rcases h : x s with ⟨e | a, s'⟩
    · rw [h] at hs
      rw [Attempt.bind_of_error h]
      exact hs
    · rw [h] at hs
      rw [Attempt.bind_of_ok h]
      exact F.trans hs ((hf a).leads s')
  alike {s t} hs := by
    obtain ⟨hresult, hafter⟩ := hx.alike hs
    rcases h : x s with ⟨e | a, s'⟩
    · rw [h] at hresult hafter
      have ht : x t = (.error e, (x t).2) := Prod.ext hresult.symm rfl
      rw [Attempt.bind_of_error h, Attempt.bind_of_error ht]
      exact ⟨rfl, hafter⟩
    · rw [h] at hresult hafter
      have ht : x t = (.ok a, (x t).2) := Prod.ext hresult.symm rfl
      rw [Attempt.bind_of_ok h, Attempt.bind_of_ok ht]
      exact (hf a).alike hafter

theorem capture (hx : F.Keeps x) : F.Keeps x.capture where
  leads s := hx.leads s
  alike hs := by
    obtain ⟨hresult, hafter⟩ := hx.alike hs
    exact ⟨congrArg Except.ok hresult, hafter⟩

theorem each {l : List α} {g : α → Attempt S Unit} (h : ∀ a ∈ l, F.Keeps (g a)) :
    F.Keeps (Attempt.each l g) := by
  induction l with
  | nil => exact .pure ()
  | cons a l ih => exact (h a (by simp)).bind fun _ => ih fun b hb => h b (by simp [hb])

end Attempt.Law.Keeps

/-- What the engine looks at in a world: not the compiler, not what was written or done, and not how
the active guards are named. -/
def World.surface (w : World σ) (c : σ) : World σ :=
  { w with
    compiler := c
    calls := #[]
    events := #[]
    output := ""
    errors := ""
    guard := { w.guard with frames := [] } }

/-- The law of computations in a session, whose state everything may be asked of: they see what its
owner knows. -/
def Attempt.Law.inSession (F : Attempt.Law (World σ)) (P : Nat → Prop) :
    Attempt.Law (Session × World σ) where
  leads p p' := F.leads p.2 p'.2
  alike p p' := p.1 = p'.1 ∧ P p.1.serial ∧ F.alike p.2 p'.2
  refl p := F.refl p.2
  trans := F.trans

namespace Attempt.Law.Keeps

variable {F : Attempt.Law (World σ)} {P : Nat → Prop}

/-- A computation on the world, in a session. -/
theorem onWorld {x : Attempt (World σ) α} (hx : F.Keeps x) :
    (F.inSession P).Keeps (InSession.onWorld x) where
  leads p := hx.leads p.2
  alike {p p'} hp := by
    obtain ⟨hsession, hserial, hworld⟩ := hp
    obtain ⟨hresult, hafter⟩ := hx.alike hworld
    exact ⟨hresult, hsession, hserial, hafter⟩

/-- The session is looked at. -/
theorem session {f : Session → InSession σ α} (hf : ∀ s, (F.inSession P).Keeps (f s)) :
    (F.inSession P).Keeps (InSession.session >>= f) where
  leads p := (hf p.1).leads p
  alike {p p'} hp := by
    obtain ⟨s, w⟩ := p
    obtain ⟨s', w'⟩ := p'
    obtain ⟨rfl, hrest⟩ : s = s' ∧ P s.serial ∧ F.alike w w' := hp
    exact (hf s).alike ⟨rfl, hrest⟩

/-- What the owner knows changes, and the world stays. -/
theorem of_session {x : InSession σ α} (f : Session → Except Failure α × Session)
    (hx : ∀ s w, x (s, w) = ((f s).1, (f s).2, w)) (hserial : ∀ s, (f s).2.serial = s.serial) :
    (F.inSession P).Keeps x where
  leads p := by
    rw [hx p.1 p.2]
    exact F.refl p.2
  alike {p p'} hp := by
    obtain ⟨hsession, hP, hworld⟩ : p.1 = p'.1 ∧ P p.1.serial ∧ F.alike p.2 p'.2 := hp
    rw [hx p.1 p.2, hx p'.1 p'.2, ← hsession]
    exact ⟨rfl, rfl, (hserial p.1).symm ▸ hP, hworld⟩

theorem takeMessages : (F.inSession P).Keeps (InSession.takeMessages : InSession σ (List String)) :=
  of_session (fun s => (.ok s.pending, { s with pending := [] })) (fun _ _ => rfl) fun _ => rfl

theorem checkText (text : String) :
    (F.inSession P).Keeps (InSession.checkText text : InSession σ Unit) := by
  unfold InSession.checkText
  split
  · exact .fail _
  · exact .pure ()

end Attempt.Law.Keeps

variable [Compiler σ]

/-- A name is asked for in a session whose code can be called, if it can be passed on. -/
theorem Session.inside_find_apply (s : Session) (name : String) (w : World σ) :
    s.inside (InSession.find name) w =
      if s.relocated && !hasNul name then
        (.ok (w.ask s.serial (.findSymbol name)).1.address, (w.ask s.serial (.findSymbol name)).2)
      else (.ok none, w) := by
  rw [inside, InSession.find, Attempt.bind_of_ok (x := InSession.session) rfl]
  cases s.relocated && !hasNul name <;> rfl

/-- The moves of the engine keep to a law of worlds. Of some compiler states everything may be
asked, of the others only what is asked of any state: to find a name, and to give it up. -/
structure World.Rules (F : Attempt.Law (World σ)) (P : Nat → Prop) : Prop where
  surface : ∀ {w w'}, F.alike w w' → ∀ c, w.surface c = w'.surface c
  prints : ∀ text : World σ → String,
    F.Keeps (.change fun w => { w with errors := text w } : Attempt (World σ) Unit)
  resolve : ∀ name, F.Keeps (Engine.resolve name)
  create : ∀ mode unitName, F.Keeps (Session.create mode unitName)
  fresh : ∀ {w w'}, F.alike w w' → P w.made
  ask : ∀ w n q, F.leads w (w.ask n q).2
  ask_alike : ∀ {w w' n q}, F.alike w w' → (P n ∨ (∃ name, q = .findSymbol name) ∨ q = .delete) →
    (w.ask n q).1 = (w'.ask n q).1 ∧ F.alike (w.ask n q).2 (w'.ask n q).2

/-- A law that says nothing of two worlds, and that allows what the moves of the engine change. -/
theorem World.Rules.of_moves {F : Attempt.Law (World σ)} (halike : ∀ w w', ¬F.alike w w')
    (hmoves : ∀ (w : World σ) compiler made calls files linkage errors, F.leads w
      { w with compiler := compiler, made := made, calls := calls, files := files,
               linkage := linkage, errors := errors }) : World.Rules F fun _ => True where
  surface h := (halike _ _ h).elim
  prints _ := ⟨fun w => hmoves w w.compiler w.made w.calls w.files w.linkage _,
    fun h => (halike _ _ h).elim⟩
  resolve name := by
    refine ⟨fun w => ?_, fun h => (halike _ _ h).elim⟩
    rcases h : w.linkage.resolve name with ⟨address, linkage⟩
    simpa only [Engine.resolve, Attempt.take, h] using
      hmoves w w.compiler w.made w.calls w.files linkage w.errors
  create mode unitName := by
    refine ⟨fun w => ?_, fun h => (halike _ _ h).elim⟩
    unfold Session.create
    split
    · exact hmoves w _ w.made _ w.files w.linkage w.errors
    · exact hmoves w _ _ _ w.files w.linkage w.errors
  fresh h := (halike _ _ h).elim
  ask w _ _ := hmoves w _ w.made _ _ w.linkage w.errors
  ask_alike h := (halike _ _ h).elim

namespace World.Rules

open Attempt.Law

variable {F : Attempt.Law (World σ)} {P : Nat → Prop} (h : World.Rules F P)
include h

/-- The world is looked at, but not beyond its surface. -/
theorem state {f : World σ → Attempt (World σ) α} (hsurface : ∀ w c, f w = f (w.surface c))
    (hf : ∀ w, F.Keeps (f w)) : F.Keeps (.state >>= f) where
  leads w := (hf w).leads w
  alike {w w'} hw := by
    have hsame : f w = f w' := by
      rw [hsurface w w.compiler, h.surface hw, ← hsurface]
    have hleft : (Attempt.state >>= f) w = f w w := rfl
    have hright : (Attempt.state >>= f) w' = f w w' := by
      rw [hsame]
      rfl
    rw [hleft, hright]
    exact (hf w).alike hw

theorem warn (warning : Warning) : F.Keeps (Engine.warn warning : Attempt (World σ) Unit) := by
  have hwarn : (Engine.warn warning : Attempt (World σ) Unit) =
      .change fun w => { w with errors := (w.warn warning).errors } := by
    funext w
    obtain ⟨errors, heq⟩ := w.exists_warn_eq warning
    simp only [Engine.warn, Attempt.change, heq]
  rw [hwarn]
  exact h.prints _

theorem complain (e : Failure) : F.Keeps (Contract.complain e : Attempt (World σ) Unit) :=
  h.prints _

/-! ## In a session -/

/-- The world is looked at, but not beyond its surface. -/
theorem world {f : World σ → InSession σ α} (hsurface : ∀ w c, f w = f (w.surface c))
    (hf : ∀ w, (F.inSession P).Keeps (f w)) : (F.inSession P).Keeps (InSession.world >>= f) where
  leads p := (hf p.2).leads p
  alike {p p'} hp := by
    have hsame : f p.2 = f p'.2 := by
      rw [hsurface p.2 p.2.compiler, h.surface hp.2.2, ← hsurface]
    have hleft : (InSession.world >>= f) p = f p.2 p := rfl
    have hright : (InSession.world >>= f) p' = f p.2 p' := by
      rw [hsame]
      rfl
    rw [hleft, hright]
    exact (hf p.2).alike hp

theorem request (q : Request) :
    (F.inSession P).Keeps (InSession.request q : InSession σ Reply) where
  leads p := h.ask p.2 p.1.serial q
  alike {p p'} hp := by
    obtain ⟨s, w⟩ := p
    obtain ⟨s', w'⟩ := p'
    obtain ⟨rfl, hserial, hworld⟩ : s = s' ∧ P s.serial ∧ F.alike w w' := hp
    obtain ⟨hreply, hafter⟩ := h.ask_alike (q := q) hworld (.inl hserial)
    rw [InSession.request_apply, InSession.request_apply, hreply]
    exact ⟨rfl, rfl, hserial, hafter⟩

theorem demand (q : Request) : (F.inSession P).Keeps (InSession.demand q : InSession σ Unit) := by
  refine (h.request q).bind fun reply => ?_
  split
  · exact Keeps.takeMessages.bind fun messages => .session fun s => .fail _
  · exact .pure ()

theorem demandWith (text : String) (q : Request) :
    (F.inSession P).Keeps (InSession.demandWith text q : InSession σ Unit) :=
  (Keeps.checkText text).bind fun _ => h.demand q

theorem setOptions (options : String) :
    (F.inSession P).Keeps (InSession.setOptions options : InSession σ Unit) := by
  refine (Keeps.checkText options).bind fun _ => (h.request _).bind fun _ =>
    Keeps.takeMessages.bind fun m => ?_
  split
  · exact .pure ()
  · exact .fail _

theorem setLibraryDirectory (path : String) :
    (F.inSession P).Keeps (InSession.setLibraryDirectory path : InSession σ Unit) :=
  (Keeps.checkText path).bind fun _ => (h.request _).bind fun _ => .pure ()

theorem setOutput : (F.inSession P).Keeps (InSession.setOutput : InSession σ Unit) :=
  .session fun _ => h.world (fun _ _ => rfl) fun _ => h.demand _

theorem define (name : String) (value : Option String) :
    (F.inSession P).Keeps (InSession.define name value : InSession σ Unit) := by
  refine (Keeps.checkText name).bind fun _ => ?_
  cases value with
  | none => exact Keeps.bind (.pure ()) fun _ => (h.request _).bind fun _ => .pure ()
  | some text => exact (Keeps.checkText text).bind fun _ => (h.request _).bind fun _ => .pure ()

theorem addSymbol (name : String) (address : Address) :
    (F.inSession P).Keeps (InSession.addSymbol name address : InSession σ Unit) := by
  unfold InSession.addSymbol
  split
  · exact .fail _
  · exact h.demandWith name _

theorem addFile (path : String) :
    (F.inSession P).Keeps (InSession.addFile path : InSession σ Unit) := by
  refine h.world (fun _ _ => rfl) fun w => ?_
  split
  · exact h.demandWith path _
  · exact .fail _

theorem find (name : String) :
    (F.inSession P).Keeps (InSession.find name : InSession σ (Option Address)) := by
  refine .session fun s => ?_
  split
  · exact (h.request _).bind fun _ => .pure _
  · exact .pure none

theorem relocate : (F.inSession P).Keeps (InSession.relocate : InSession σ Unit) := by
  refine .session fun s => ?_
  split
  · exact .fail _
  · split
    · exact .pure ()
    · exact (h.demand _).bind fun _ =>
        .of_session (fun s => (.ok (), { s with relocated := true })) (fun _ _ => rfl) fun _ => rfl

theorem offer (warning : String → String → Warning) (name : String) (address : Address) :
    (F.inSession P).Keeps (InSession.offer warning name address : InSession σ Unit) := by
  refine (h.addSymbol name address).capture.bind fun r => ?_
  cases r with
  | ok _ => exact .pure ()
  | error e => exact .onWorld (h.warn _)

theorem offerNames : (F.inSession P).Keeps (InSession.offerNames : InSession σ Unit) := by
  rw [InSession.offerNames_eq]
  exact (Keeps.each fun _ _ => h.offer _ _ _).bind fun _ =>
    h.world (fun _ _ => rfl) fun _ => .each fun _ _ => h.offer _ _ _

theorem prepare : (F.inSession P).Keeps (InSession.prepare : InSession σ Unit) := by
  refine h.world (fun _ _ => rfl) fun w => .session fun s => ?_
  refine Keeps.bind ?_ fun _ => (h.setOptions _).bind fun _ => h.setOutput.bind fun _ =>
    (Keeps.each fun _ _ => h.define _ _).bind fun _ => (h.define _ _).bind fun _ =>
    (Keeps.each fun _ _ => h.demandWith _ _).bind fun _ =>
    (Keeps.each fun _ _ => h.demandWith _ _).bind fun _ =>
    (Keeps.each fun _ _ => h.demandWith _ _).bind fun _ =>
    (Keeps.each fun _ _ => h.demandWith _ _).bind fun _ => ?_
  · cases w.config.compilerDirectory with
    | none => exact .pure ()
    | some path => exact h.setLibraryDirectory path
  · split
    · exact h.offerNames
    · exact .pure ()

/-- The flags of a compiler are put into a session. -/
theorem apply (f : Flags) : (F.inSession P).Keeps (f.apply : InSession σ Unit) := by
  have hrest : (F.inSession P).Keeps (do
      .each f.defines fun d => InSession.define d.1 d.2
      .each f.systemIncludePaths InSession.addSystemIncludePath
      .each f.includePaths InSession.addIncludePath
      .each f.libraryPaths InSession.addLibraryPath
      .each f.files InSession.addFile : InSession σ Unit) :=
    (Keeps.each fun _ _ => h.define _ _).bind fun _ =>
      (Keeps.each fun _ _ => h.demandWith _ _).bind fun _ =>
      (Keeps.each fun _ _ => h.demandWith _ _).bind fun _ =>
      (Keeps.each fun _ _ => h.demandWith _ _).bind fun _ =>
      .each fun _ _ => h.addFile _
  unfold Flags.apply
  split
  · exact hrest
  · exact (h.setOptions _).bind fun _ => hrest

/-! ## Sessions and builds -/

theorem delete (s : Session) : F.Keeps (s.delete : Attempt (World σ) Unit) where
  leads w := h.ask w s.serial .delete
  alike hw := ⟨rfl, (h.ask_alike hw (.inr (.inr rfl))).2⟩

/-- A name is looked up in any session. -/
theorem inside_find (s : Session) (name : String) :
    F.Keeps (s.inside (InSession.find name) : Attempt (World σ) (Option Address)) where
  leads w := h.find name |>.leads (s, w)
  alike {w w'} hw := by
    obtain ⟨hreply, hafter⟩ := h.ask_alike (n := s.serial) hw (.inr (.inl ⟨name, rfl⟩))
    rw [s.inside_find_apply, s.inside_find_apply]
    split
    · rw [hreply]
      exact ⟨rfl, hafter⟩
    · exact ⟨rfl, hw⟩

theorem keeping {body : InSession σ α} (hbody : (F.inSession P).Keeps body) (s : Session)
    (w : World σ) : F.leads w (s.keeping body w).2 := by
  have hleads := hbody.leads (s, w)
  unfold Session.keeping
  rcases hrun : body (s, w) with ⟨e | a, s', w'⟩
  · rw [hrun] at hleads
    exact F.trans hleads ((h.delete s').leads w')
  · rw [hrun] at hleads
    exact hleads

theorem keeping_alike {body : InSession σ α} (hbody : (F.inSession P).Keeps body) {s : Session}
    {w w' : World σ} (hs : P s.serial) (hw : F.alike w w') :
    (s.keeping body w).1 = (s.keeping body w').1 ∧
      F.alike (s.keeping body w).2 (s.keeping body w').2 := by
  have hp : (F.inSession P).alike (s, w) (s, w') := ⟨rfl, hs, hw⟩
  obtain ⟨hresult, hsession, -, hafter⟩ := hbody.alike hp
  unfold Session.keeping
  rcases hrun : body (s, w) with ⟨r, s₁, w₁⟩
  rcases hrun' : body (s, w') with ⟨r', s₂, w₂⟩
  rw [hrun, hrun'] at hresult hsession hafter
  obtain rfl : r = r' := hresult
  obtain rfl : s₁ = s₂ := hsession
  cases r with
  | error e => exact ⟨rfl, ((h.delete s₁).alike hafter).2⟩
  | ok a => exact ⟨rfl, hafter⟩

theorem opened {body : InSession σ α} (hbody : (F.inSession P).Keeps body) (mode : OutputMode)
    (unitName : String) : F.Keeps (Session.opened mode unitName body) where
  leads w := by
    have hleads := (h.create mode unitName).leads w
    rw [Session.opened]
    rcases hrun : Session.create mode unitName w with ⟨e | s, w₁⟩
    · rw [hrun] at hleads
      rw [Attempt.bind_of_error hrun]
      exact hleads
    · rw [hrun] at hleads
      rw [Attempt.bind_of_ok hrun]
      exact F.trans hleads (h.keeping hbody s w₁)
  alike {w w'} hw := by
    obtain ⟨hresult, hafter⟩ := (h.create mode unitName).alike hw
    have hfresh := h.fresh hw
    rw [Session.opened]
    rcases hrun : Session.create mode unitName w with ⟨e | s, w₁⟩
    · rw [hrun] at hresult hafter
      have hrun' : Session.create mode unitName w' =
          (.error e, (Session.create mode unitName w').2) := Prod.ext hresult.symm rfl
      rw [Attempt.bind_of_error hrun, Attempt.bind_of_error hrun']
      exact ⟨rfl, hafter⟩
    · rw [hrun] at hresult hafter
      have hrun' : Session.create mode unitName w' =
          (.ok s, (Session.create mode unitName w').2) := Prod.ext hresult.symm rfl
      have hserial : s.serial = w.made := by
        unfold Session.create at hrun
        split at hrun
        · exact absurd (Prod.mk.inj hrun).1 (by simp)
        · exact congrArg Session.serial (Except.ok.inj (Prod.mk.inj hrun).1).symm
      rw [Attempt.bind_of_ok hrun, Attempt.bind_of_ok hrun']
      exact h.keeping_alike hbody (hserial ▸ hfresh) hafter

theorem resolveAll (names : List String) :
    F.Keeps (Engine.resolveAll names : Attempt (World σ) (Option (List (String × Address)))) := by
  induction names with
  | nil => exact .pure _
  | cons name names ih =>
    refine (h.resolve name).bind fun found => ?_
    cases found with
    | none => exact .pure none
    | some address => exact ih.bind fun rest => .pure _

section Builds

variable {load : InSession σ Unit} (hload : (F.inSession P).Keeps load)
include hload

theorem populate (names : List (String × Address)) :
    (F.inSession P).Keeps (Engine.populate names load) :=
  h.prepare.bind fun _ => (Keeps.each fun _ _ => h.addSymbol _ _).bind fun _ => hload

theorem retry (unitName : String) (e : Failure) : F.Keeps (Engine.retry unitName load e) := by
  unfold Engine.retry
  split
  · exact .fail e
  · refine (h.resolveAll _).bind fun found => ?_
    cases found with
    | none => exact .fail e
    | some names =>
      exact (h.opened ((h.populate hload names).bind fun _ => h.relocate) _ _).bind fun _ => .pure _

/-- **A build keeps to a law** that the moves of the engine and the loading of the code keep to. -/
theorem build (unitName : String) : F.Keeps (Engine.build unitName load) := by
  refine (h.opened ((h.populate hload []).bind fun _ => h.relocate.capture) _ _).bind fun r => ?_
  rcases r with ⟨_ | _, s⟩
  · exact (h.delete s).bind fun _ => h.retry hload unitName _
  · exact .pure s

end Builds

/-! ## Modules -/

theorem readSource (path : String) :
    F.Keeps (Engine.readSource path : Attempt (World σ) String) := by
  refine h.state (fun _ _ => rfl) fun w => ?_
  split
  · split
    · exact .pure _
    · exact .fail _
  · exact .fail _

theorem loadObject (path object : String) (origin : Origin) :
    F.Keeps (Engine.loadObject path object origin : Attempt (World σ) Module) :=
  (h.build (h.addFile object) object).bind fun _ => .pure _

theorem writeObject (unitName source object : String) :
    F.Keeps (Engine.writeObject unitName source object : Attempt (World σ) Unit) :=
  (h.opened (h.prepare.bind fun _ => (h.demandWith source _).bind fun _ =>
    h.demandWith object _) _ _).bind fun r => h.delete r.2

theorem compileSource (c : ObjectCache) :
    F.Keeps (Engine.compileSource c : Attempt (World σ) Module) := by
  refine (h.readSource c.source).bind fun text =>
    (h.writeObject _ _ _).capture.bind fun r => ?_
  have hcompiled : F.Keeps (do
      let session ← Engine.build c.source (InSession.compile (sourceOfFile c.source text))
      return ⟨c.source, .compiled, session⟩ : Attempt (World σ) Module) :=
    (h.build (h.demandWith _ _) c.source).bind fun _ => .pure _
  cases r with
  | ok _ => exact hcompiled
  | error _ => exact (h.warn _).bind fun _ => hcompiled

theorem importSource (c : ObjectCache) :
    F.Keeps (Engine.importSource c : Attempt (World σ) Module) := by
  refine h.state (fun _ _ => rfl) fun w => ?_
  dsimp only
  split
  · refine (h.loadObject _ _ _).capture.bind fun r => ?_
    cases r with
    | ok m => exact .pure m
    | error e =>
      dsimp only
      split
      · exact (h.warn _).bind fun _ => h.compileSource c
      · exact .fail e
  · exact h.compileSource c

/-- **An import keeps to a law** that the moves of the engine keep to. -/
theorem importModule (path : String) :
    F.Keeps (Engine.importModule path : Attempt (World σ) Module) := by
  unfold Engine.importModule
  split
  · exact .fail _
  · refine h.state (fun _ _ => rfl) fun w => ?_
    dsimp only
    split
    · split
      · exact h.loadObject _ _ _
      · exact .fail _
    · exact h.importSource _

/-- So does an import that compiled code asks for. -/
theorem contract_importModule (path : String) :
    F.Keeps (Contract.importModule path : Attempt (World σ) (Option Module)) := by
  refine h.state (fun _ _ => rfl) fun w => ?_
  split
  · refine (h.importModule path).capture.bind fun r => ?_
    cases r with
    | ok m => exact .pure _
    | error e => exact (h.complain e).bind fun _ => .pure _
  · exact .pure none

end World.Rules

end LiveC
