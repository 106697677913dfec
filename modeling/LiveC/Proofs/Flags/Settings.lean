import LiveC.Proofs.Session.Script
import LiveC.Proofs.Session.Sources
/-!
# The settings that a state is told

Before the files of some flags are put into a session, its state is told settings: those of its
preparation, which are the same whatever the code is for (`Surroundings.told`), and those of the
flags (`Flags.told`). `Flags.settle` is what the flags do to a session but for their files. It goes
through exactly if the flags hold no text that cannot be passed on (`settle_registers`,
`clean_of_settle`).
-/

namespace LiveC

open InSession

variable {σ α β : Type}

/-- A text that was not refused can be passed on. -/
theorem InSession.hasNul_of_checkText {text : String} {p p' : Session × World σ}
    (h : checkText text p = (.ok (), p')) : hasNul text = false := by
  cases hnul : hasNul text with
  | false => rfl
  | true =>
    rw [checkText, if_pos hnul] at h
    exact absurd h (by simp [Attempt.fail])

theorem Attempt.exists_of_each_eq_ok {S : Type} {l : List α} {f : α → Attempt S Unit} {s s' : S}
    (h : Attempt.each l f s = (.ok (), s')) : ∀ a ∈ l, ∃ t t', f a t = (.ok (), t') := by
  induction l generalizing s with
  | nil => exact List.forall_mem_nil _
  | cons a l ih =>
    obtain ⟨⟨⟩, s₁, hfirst, hrest⟩ := Attempt.bind_eq_ok h
    exact List.forall_mem_cons.2 ⟨⟨s, s₁, hfirst⟩, ih hrest⟩

theorem Attempt.each_singleton {S : Type} (a : α) (f : α → Attempt S Unit) (s : S) :
    Attempt.each [a] f s = f a s := by
  rw [Attempt.each, Attempt.bind_apply]
  rcases f a s with ⟨e | ⟨⟩, s'⟩ <;> rfl

/-- The requests of a script that are settings. -/
def Step.settings (script : List Step) : List Request :=
  (script.map Step.request).filter Request.isSetting

theorem Step.settings_append (script script' : List Step) :
    settings (script ++ script') = settings script ++ settings script' := by
  rw [settings, List.map_append, List.filter_append, settings, settings]

theorem Step.settings_eq_nil {script : List Step}
    (h : ∀ step ∈ script, step.request.isSetting = false) : settings script = [] := by
  rw [settings, List.filter_eq_nil_iff]
  intro q hq
  obtain ⟨step, hstep, rfl⟩ := List.mem_map.1 hq
  simp [h step hstep]

/-- A script that goes through tells its settings, if it only offers what is none. -/
theorem Follows.settings {unitName : String} {script : List Step} {pending heard : List String}
    {t : List (Step × Reply)} (h : Follows unitName script pending t (.ok heard))
    (hoffers : ∀ step ∈ script, step.manner = .offered → step.request.isSetting = false) :
    Step.settings (t.map Prod.fst) = Step.settings script := by
  generalize ho : (Except.ok heard : Except Failure (List String)) = r at h
  induction h with
  | done pending => rfl
  | @asked step script pending heard reply t o h rest ih =>
    have hrest := ih (fun step hstep => hoffers step (List.mem_cons_of_mem _ hstep)) ho
    exact (Step.settings_append [step] _).trans
      ((congrArg (Step.settings [step] ++ ·) hrest).trans (Step.settings_append [step] script).symm)
  | failed h => exact absurd ho (by simp)
  | refused h hquoted => exact absurd ho (by simp)
  | @passed step script pending t o h rest ih =>
    have hrest := ih (fun step hstep => hoffers step (List.mem_cons_of_mem _ hstep)) ho
    have hnone : Step.settings [step] = [] := by
      simp [Step.settings, hoffers step List.mem_cons_self h]
    rw [hrest, ← List.singleton_append, Step.settings_append, hnone, List.nil_append]

variable [Compiler σ]

theorem World.Talks.asks {n : Nat} {w w' : World σ} {t : List (Step × Reply)} (h : w.Talks n t w') :
    Compiler.Asks n w.compiler ((t.map Prod.fst).map Step.request) w'.compiler := by
  induction h with
  | rest h =>
    rw [h.compiler]
    exact .nil _
  | asked w step => exact .cons _ w.files (.nil _)
  | trans h h' ih ih' =>
    rw [List.map_append, List.map_append]
    exact ih.append ih'

/-- A computation in a session that goes through tells the state of the session some settings. -/
def InSession.Tells (settings : List Request) (x : InSession σ α) (p : Session × World σ) : Prop :=
  ∀ a p', x p = (.ok a, p') → ∃ qs, Compiler.Asks p.1.serial p.2.compiler qs p'.2.compiler ∧
    qs.filter Request.isSetting = settings

theorem InSession.Plays.tells {script : List Step} {x : InSession σ α} {p : Session × World σ}
    (h : Plays script x p)
    (hoffers : ∀ step ∈ script, step.manner = .offered → step.request.isSetting = false) :
    Tells (Step.settings script) x p := by
  intro a p' hx
  obtain ⟨t, hfollows, htalks, -⟩ := h
  rw [hx] at hfollows htalks
  exact ⟨_, htalks.asks, hfollows.settings hoffers⟩

/-! ## What a preparation tells -/

/-- The settings that a state is told when it is prepared. -/
def Surroundings.told (e : Surroundings) : List Request :=
  Step.settings (preparation (e.config, e.binding, e.platform) e.files.isDirectory .object)

theorem isSetting_of_mem_offers {b : Binding} {step : Step} (h : step ∈ offers b) :
    step.request.isSetting = false := by
  rcases List.mem_append.1 h with hmem | hmem
  · obtain ⟨b, -, rfl⟩ := List.mem_map.1 hmem
    rfl
  · obtain ⟨f, -, rfl⟩ := List.mem_map.1 hmem
    rfl

/-- The settings of a preparation do not depend on what the code is for. -/
theorem settings_preparation (settings : Config × Binding × Platform) (isDirectory : String → Bool)
    (mode : OutputMode) : Step.settings (preparation settings isDirectory mode) =
      Step.settings (preparation settings isDirectory .object) := by
  have hkind (kind : Nat) : Step.settings [⟨.demanded, .setOutput kind⟩] = [] := rfl
  have hoffers : Step.settings (if mode = .memory then offers settings.2.1 else []) = [] := by
    split
    · exact Step.settings_eq_nil fun _ => isSetting_of_mem_offers
    · rfl
  have hnone : Step.settings (if OutputMode.object = .memory then offers settings.2.1 else []) =
      [] :=
    rfl
  simp only [preparation, Step.settings_append, hkind, hoffers, hnone]

/-- A preparation offers nothing that is a setting. -/
theorem isSetting_of_offered {settings : Config × Binding × Platform} {isDirectory : String → Bool}
    {mode : OutputMode} {step : Step} (h : step ∈ preparation settings isDirectory mode)
    (hoffered : step.manner = .offered) : step.request.isSetting = false := by
  simp only [preparation, List.mem_append, List.mem_map, List.mem_singleton] at h
  rcases h with ((((((((⟨_, -, rfl⟩ | rfl) | rfl) | ⟨_, -, rfl⟩) | rfl) | ⟨_, -, rfl⟩) |
    ⟨_, -, rfl⟩) | ⟨_, -, rfl⟩) | ⟨_, -, rfl⟩) | hlast
  case inr =>
    split at hlast
    · exact isSetting_of_mem_offers hlast
    · exact absurd hlast (by simp)
  -- the other steps offer nothing
  all_goals exact absurd hoffered (by simp)

/-- Preparing a session tells its state the settings of its surroundings. -/
theorem InSession.prepare_tells (p : Session × World σ) :
    Tells p.2.surroundings.told (prepare : InSession σ Unit) p := by
  have hplays := prepare_plays p
  rw [Surroundings.told, ← settings_preparation _ _ p.1.mode]
  exact hplays.tells fun _ hstep => isSetting_of_offered hstep

/-- Names that are made known are no settings. -/
theorem InSession.names_tell (names : List (String × Address)) (p : Session × World σ) :
    Tells [] (.each names fun n => addSymbol n.1 n.2 : InSession σ Unit) p := by
  have hplays : Plays (names.map fun n => ⟨.demanded, .addSymbol n.1 n.2⟩)
      (.each names fun n => addSymbol n.1 n.2 : InSession σ Unit) p :=
    .each _ (fun n p => .addSymbol n.1 n.2 p) p
  have hnone : ∀ step ∈ names.map fun n => (⟨.demanded, .addSymbol n.1 n.2⟩ : Step),
      step.request.isSetting = false := by
    intro step hstep
    obtain ⟨n, -, rfl⟩ := List.mem_map.1 hstep
    rfl
  have htells := hplays.tells fun step hstep _ => hnone step hstep
  rwa [Step.settings_eq_nil hnone] at htells

/-- What is told first, and then by what comes after. -/
theorem InSession.Tells.bind {settings settings' : List Request} {x : InSession σ α}
    {f : α → InSession σ β} {p : Session × World σ} (hx : Tells settings x p)
    (hserial : ∀ a p', x p = (.ok a, p') → p'.1.serial = p.1.serial)
    (hf : ∀ a p', x p = (.ok a, p') → Tells settings' (f a) p') :
    Tells (settings ++ settings') (x >>= f) p := by
  intro b p'' h
  obtain ⟨a, p', hrun, hrest⟩ := Attempt.bind_eq_ok h
  obtain ⟨qs, hasks, rfl⟩ := hx a p' hrun
  obtain ⟨qs', hasks', rfl⟩ := hf a p' hrun b p'' hrest
  rw [hserial a p' hrun] at hasks'
  exact ⟨qs ++ qs', hasks.append hasks', List.filter_append _ _⟩

/-- A session that is prepared and knows some names was told the settings of its surroundings. -/
theorem InSession.populate_tells (names : List (String × Address)) (p : Session × World σ) :
    Tells p.2.surroundings.told (Engine.populate names (pure ()) : InSession σ Unit) p := by
  have hserial {P : Request → Prop} {x : InSession σ Unit} (hx : AsksOnly P x)
      {p p' : Session × World σ} (h : x p = (.ok (), p')) : p'.1.serial = p.1.serial := by
    obtain ⟨t, hasked, -⟩ := hx p
    rw [h] at hasked
    exact hasked.serial
  have hnothing (p : Session × World σ) : Tells [] (pure () : InSession σ Unit) p :=
    (Plays.pure () p).tells (List.forall_mem_nil _)
  have htells := (prepare_tells p).bind (fun _ _ h => hserial prepare_asksOnly h) fun _ p' _ =>
    (names_tell names p').bind (fun _ _ h => hserial (names_asksOnly names) h) fun _ p'' _ =>
      hnothing p''
  rw [List.append_nil, List.append_nil] at htells
  exact htells

/-! ## What flags tell -/

namespace Flags

/-- The options of flags are put into a session, if there are any. -/
def setOptions (f : Flags) : InSession σ Unit :=
  if f.options.isEmpty then pure ()
  else InSession.setOptions (String.intercalate " " f.options)

/-- What flags do to a session, but for their files. -/
def settle (f : Flags) : InSession σ Unit := do
  f.setOptions
  .each f.defines fun d => InSession.define d.1 d.2
  .each f.systemIncludePaths InSession.addSystemIncludePath
  .each f.includePaths InSession.addIncludePath
  .each f.libraryPaths InSession.addLibraryPath

/-- Flags are put into a session by their settings, and then by their files. -/
theorem apply_eq (f : Flags) :
    (f.apply : InSession σ Unit) = f.settle >>= fun _ => .each f.files InSession.addFile := by
  unfold apply settle setOptions
  split
  · simp only [Attempt.bind_assoc]
    rfl
  · simp only [Attempt.bind_assoc]

/-- The script of flags, but for their files. -/
def script (f : Flags) : List Step :=
  (if f.options.isEmpty then []
    else [⟨.checked, .setOptions (String.intercalate " " f.options)⟩]) ++
  f.defines.map (fun d => ⟨.told, .define d.1 d.2⟩) ++
  f.systemIncludePaths.map (fun path => ⟨.demanded, .addSystemIncludePath path⟩) ++
  f.includePaths.map (fun path => ⟨.demanded, .addIncludePath path⟩) ++
  f.libraryPaths.map (fun path => ⟨.demanded, .addLibraryPath path⟩)

/-- The settings that flags tell a state. -/
def told (f : Flags) : List Request := f.script.map Step.request

/-- Flags offer nothing, and all that they tell are settings. -/
theorem of_mem_script {f : Flags} {step : Step} (h : step ∈ f.script) :
    step.manner ≠ .offered ∧ step.request.isSetting = true := by
  simp only [script, List.mem_append, List.mem_map] at h
  rcases h with (((hoptions | ⟨_, -, rfl⟩) | ⟨_, -, rfl⟩) | ⟨_, -, rfl⟩) | ⟨_, -, rfl⟩
  case inl =>
    split at hoptions
    · exact absurd hoptions (by simp)
    · rw [List.mem_singleton.1 hoptions]
      exact ⟨by simp, rfl⟩
  all_goals exact ⟨by simp, rfl⟩

theorem settings_script (f : Flags) : Step.settings f.script = f.told := by
  rw [Step.settings, told, List.filter_eq_self]
  intro q hq
  obtain ⟨step, hstep, rfl⟩ := List.mem_map.1 hq
  exact (of_mem_script hstep).2

theorem settle_plays (f : Flags) (p : Session × World σ) :
    Plays f.script (f.settle : InSession σ Unit) p := by
  have hoptions (p : Session × World σ) : Plays (if f.options.isEmpty then []
      else [⟨.checked, .setOptions (String.intercalate " " f.options)⟩])
      (f.setOptions : InSession σ Unit) p := by
    unfold setOptions
    split
    · exact .pure () p
    · exact .setOptions _ p
  have hplays := (hoptions p).bind fun _ p _ =>
    (Plays.each (l := f.defines) _ (fun d => .define d.1 d.2) p).bind fun _ p _ =>
    (Plays.each (l := f.systemIncludePaths) _
      (fun path => .demandWith path (.addSystemIncludePath path)) p).bind fun _ p _ =>
    (Plays.each (l := f.includePaths) _
      (fun path => .demandWith path (.addIncludePath path)) p).bind fun _ p _ =>
    Plays.each (l := f.libraryPaths) _ (fun path => .demandWith path (.addLibraryPath path)) p
  simp only [← List.append_assoc] at hplays
  exact hplays

/-- Flags that go through tell the state their settings. -/
theorem settle_tells (f : Flags) (p : Session × World σ) :
    Tells f.told (f.settle : InSession σ Unit) p := by
  rw [← settings_script]
  exact (f.settle_plays p).tells fun _ hstep hoffered =>
    absurd hoffered (of_mem_script hstep).1

theorem settle_asksOnly (f : Flags) : AsksOnly Prepares (f.settle : InSession σ Unit) := by
  refine AsksOnly.bind ?_ fun _ => (AsksOnly.each fun _ _ => .define trivial).bind fun _ =>
    (AsksOnly.each fun _ _ => .demandWith _ trivial).bind fun _ =>
    (AsksOnly.each fun _ _ => .demandWith _ trivial).bind fun _ =>
    .each fun _ _ => .demandWith _ trivial
  unfold setOptions
  split
  · exact .pure ()
  · exact .setOptions trivial

/-- Flags keep to a law that the moves of the engine keep to. -/
theorem settle_keeps {F : Attempt.Law (World σ)} {P : Nat → Prop} (h : World.Rules F P)
    (f : Flags) : (F.inSession P).Keeps (f.settle : InSession σ Unit) := by
  refine Attempt.Law.Keeps.bind ?_ fun _ =>
    (Attempt.Law.Keeps.each fun _ _ => h.define _ _).bind fun _ =>
    (Attempt.Law.Keeps.each fun _ _ => h.demandWith _ _).bind fun _ =>
    (Attempt.Law.Keeps.each fun _ _ => h.demandWith _ _).bind fun _ =>
    .each fun _ _ => h.demandWith _ _
  unfold setOptions
  split
  · exact .pure ()
  · exact h.setOptions _

/-! ## Flags that can be passed on -/

/-- The flags hold no text that cannot be passed to the compiler, but perhaps among their files. -/
structure Clean (f : Flags) : Prop where
  options : f.options.isEmpty = false → hasNul (String.intercalate " " f.options) = false
  defines : ∀ d ∈ f.defines, hasNul d.1 = false ∧ ∀ text ∈ d.2, hasNul text = false
  system : ∀ path ∈ f.systemIncludePaths, hasNul path = false
  includes : ∀ path ∈ f.includePaths, hasNul path = false
  libraries : ∀ path ∈ f.libraryPaths, hasNul path = false

/-- Such flags go through, and register no name. -/
theorem Clean.registers {f : Flags} (h : f.Clean) (L : Linker σ) (e : Surroundings) :
    L.Registers e (f.settle : InSession σ Unit) [] := by
  have hoptions : L.Registers e (f.setOptions : InSession σ Unit) [] := by
    unfold setOptions
    split
    · exact .pure
    · next hne => exact .setOptions (h.options (by simpa using hne))
  refine hoptions.skip ?_
  refine .skip (.eachNothing fun d hd => .define (h.defines d hd).1 (h.defines d hd).2) ?_
  refine .skip (Linker.paths_registers (r := .addSystemIncludePath) (fun _ => trivial)
    (fun _ => rfl) h.system) ?_
  refine .skip (Linker.paths_registers (r := .addIncludePath) (fun _ => trivial) (fun _ => rfl)
    h.includes) ?_
  exact Linker.paths_registers (r := .addLibraryPath) (fun _ => trivial) (fun _ => rfl) h.libraries

theorem hasNul_of_paths {paths : List String} {r : String → Request} {p p' : Session × World σ}
    (h : Attempt.each paths (fun path => InSession.demandWith path (r path)) p = (.ok (), p')) :
    ∀ path ∈ paths, hasNul path = false := by
  intro path hpath
  obtain ⟨q, q', hdemand⟩ := Attempt.exists_of_each_eq_ok h path hpath
  obtain ⟨⟨⟩, q₁, hcheck, -⟩ := Attempt.bind_eq_ok hdemand
  exact hasNul_of_checkText hcheck

/-- Only such flags go through. -/
theorem clean_of_settle {f : Flags} {p p' : Session × World σ} (h : f.settle p = (.ok (), p')) :
    f.Clean := by
  obtain ⟨⟨⟩, p₁, hoptions, h⟩ := Attempt.bind_eq_ok h
  obtain ⟨⟨⟩, p₂, hdefines, h⟩ := Attempt.bind_eq_ok h
  obtain ⟨⟨⟩, p₃, hsystem, h⟩ := Attempt.bind_eq_ok h
  obtain ⟨⟨⟩, p₄, hincludes, hlibraries⟩ := Attempt.bind_eq_ok h
  refine ⟨fun hne => ?_, fun d hd => ?_, hasNul_of_paths hsystem, hasNul_of_paths hincludes,
    hasNul_of_paths hlibraries⟩
  · rw [setOptions, hne, if_neg (by simp)] at hoptions
    obtain ⟨⟨⟩, q, hcheck, -⟩ := Attempt.bind_eq_ok hoptions
    exact hasNul_of_checkText hcheck
  · obtain ⟨q, q', hdefine⟩ := Attempt.exists_of_each_eq_ok hdefines d hd
    obtain ⟨⟨⟩, q₁, hname, hrest⟩ := Attempt.bind_eq_ok hdefine
    refine ⟨hasNul_of_checkText hname, fun text htext => ?_⟩
    rw [htext] at hrest
    obtain ⟨⟨⟩, q₂, hvalue, -⟩ := Attempt.bind_eq_ok hrest
    exact hasNul_of_checkText hvalue

end Flags

end LiveC
