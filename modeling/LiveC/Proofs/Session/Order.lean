import LiveC.Proofs.Module.Visits
import LiveC.Proofs.Session.Script
/-!
# The order of the calls

Whatever opens a session drives its state of the compiler in one order: the session is prepared,
names that are bound late are made known, the unit is loaded, and code in memory is linked or an
object is written. A `Drive` is what came of that script in one session. The state is deleted at
once, unless its code was linked; a linked one may be asked for names before it is deleted.

`Drives` says of calls of the compiler that they are made of such drives, and `Orderly` of a
computation that its calls are, and that whatever a failure of it quotes of the compiler is the
failure of one of those drives. It goes through sequences and captured failures, so that builds and
imports have it by their parts (`Engine.build_orderly`, `Engine.importModule_orderly`).
-/

namespace LiveC

variable {σ α β : Type}

/-- Whether a step sets the output, links or writes it, looks a name up or deletes the state. -/
def Step.isMajor : Step → Bool
  | ⟨_, .setOutput _⟩ | ⟨_, .relocate⟩ | ⟨_, .writeFile _⟩ | ⟨_, .findSymbol _⟩ | ⟨_, .delete⟩ =>
      true
  | _ => false

/-- What a session is for: code in memory with names that are bound late, or an object file. -/
inductive Aim
  | code (late : List (String × Address))
  | file (object : String)

namespace Aim

/-- The output that a session is made for. -/
def mode : Aim → OutputMode
  | code _ => .memory
  | file _ => .object

/-- The steps that make the names known which are bound late. -/
def late : Aim → List Step
  | code names => names.map fun n => ⟨.demanded, .addSymbol n.1 n.2⟩
  | file _ => []

/-- The last step of a session's script. -/
def final : Aim → Step
  | code _ => ⟨.demanded, .relocate⟩
  | file object => ⟨.demanded, .writeFile object⟩

/-- The script of a session that loads a unit by some steps. -/
def script (settings : Config × Binding × Platform) (isDirectory : String → Bool) (aim : Aim)
    (load : List Step) : List Step :=
  preparation settings isDirectory aim.mode ++ aim.late ++ load ++ [aim.final]

/-- **A script sets the output once**, and links or writes it at its end. It does not delete the
state, nor does it look names up. -/
theorem filter_isMajor (settings : Config × Binding × Platform) (isDirectory : String → Bool)
    (aim : Aim) {load : List Step} (hload : ∀ step ∈ load, step.Loads) :
    (aim.script settings isDirectory load).filter Step.isMajor =
      [⟨.demanded, .setOutput (aim.mode.number settings.2.1)⟩, aim.final] := by
  have hoffers : (if aim.mode = .memory then offers settings.2.1 else []).filter Step.isMajor =
      [] := by
    split
    · simp [offers, Step.isMajor, List.filter_map, Function.comp_def]
    · rfl
  have hlate : aim.late.filter Step.isMajor = [] := by
    cases aim with
    | code names => simp [late, Step.isMajor, List.filter_map, Function.comp_def]
    | file object => rfl
  have hloads : load.filter Step.isMajor = [] := by
    refine List.filter_eq_nil_iff.2 fun step hstep => ?_
    have hloads := hload step hstep
    obtain ⟨manner, request⟩ := step
    cases request <;> simp_all [Step.Loads, Step.isMajor]
  have hfinal : Step.isMajor aim.final = true := by
    cases aim with
    | code names => rfl
    | file object => rfl
  simp only [script, preparation, List.filter_append, hoffers, hlate, hloads]
  rw [List.filter_cons_of_pos hfinal]
  simp [List.filter_map, Function.comp_def, List.filter_cons, Step.isMajor]

end Aim

/-- What came of the script of a session: the steps that were made with their answers, and the
messages left or the failure of the session. -/
structure Drive where
  serial : Nat
  unitName : String
  aim : Aim
  load : List Step
  exchanges : List (Step × Reply)
  outcome : Except Failure (List String)

namespace Drive

/-- The calls of a drive, from the making of its state on. -/
def calls (d : Drive) : List Call := .created d.serial :: Step.calls d.serial d.exchanges

/-- Whether the code was linked. -/
def Linked (d : Drive) : Prop := d.aim.mode = .memory ∧ ∃ pending, d.outcome = .ok pending

/-- The drive followed its script, with the answers of the compiler to a session under some
settings. -/
structure Proper (σ : Type) [Compiler σ] (settings : Config × Binding × Platform) (d : Drive) :
    Prop where
  loads : ∀ step ∈ d.load, step.Loads
  talks : ∃ w w' : World σ, w.settings = settings ∧ w.Talks d.serial d.exchanges w' ∧
    Follows d.unitName (d.aim.script settings w.files.isDirectory d.load) [] d.exchanges d.outcome

namespace Proper

variable [Compiler σ] {settings : Config × Binding × Platform} {d : Drive}

/-- **A drive sets the output once**, and then links or writes it once, up to its first failure. -/
theorem majors (hd : d.Proper σ settings) :
    let majors := (d.exchanges.map Prod.fst).filter Step.isMajor
    let all := [⟨.demanded, .setOutput (d.aim.mode.number settings.2.1)⟩, d.aim.final]
    majors <+: all ∧ ∀ pending, d.outcome = .ok pending → majors = all := by
  obtain ⟨w, w', -, -, hfollows⟩ := hd.talks
  have hscript := Aim.filter_isMajor settings w.files.isDirectory d.aim hd.loads
  have hfinal : d.aim.final.manner = .demanded := by
    cases d.aim with
    | code names => rfl
    | file object => rfl
  -- no major step is offered, so that the filter for those that are not offered can be left out
  have hall {steps : List Step}
      (h : steps.Sublist (d.aim.script settings w.files.isDirectory d.load)) :
      (steps.filter (·.manner != .offered)).filter Step.isMajor = steps.filter Step.isMajor := by
    rw [List.filter_comm]
    refine List.filter_eq_self.2 fun step hstep => ?_
    have hmem := (h.filter Step.isMajor).subset hstep
    rw [hscript, List.mem_cons, List.mem_singleton] at hmem
    rcases hmem with rfl | rfl
    · rfl
    · simp [hfinal]
  refine ⟨?_, fun pending hout => ?_⟩
  · have hfirst := hfollows.first_filter.filter Step.isMajor
    rwa [hall hfollows.sublist, hall (.refl _), hscript] at hfirst
  · rw [hout] at hfollows
    have hmade := congrArg (List.filter Step.isMajor) hfollows.filter_eq
    rwa [hall hfollows.sublist, hall (.refl _), hscript] at hmade

/-- The steps of a drive do not delete the state. -/
theorem ne_delete (hd : d.Proper σ settings) {x : Step × Reply} (hx : x ∈ d.exchanges) :
    x.1.request ≠ .delete := by
  intro hdelete
  have hmajor : Step.isMajor x.1 = true := by
    obtain ⟨⟨manner, request⟩, reply⟩ := x
    obtain rfl := hdelete
    rfl
  have hmem := hd.majors.1.subset (List.mem_filter.2 ⟨List.mem_map_of_mem hx, hmajor⟩)
  rcases List.mem_cons.1 hmem with h | h
  · simp [h] at hdelete
  · rw [List.mem_singleton.1 h] at hdelete
    cases haim : d.aim with
    | code names => simp [haim, Aim.final] at hdelete
    | file object => simp [haim, Aim.final] at hdelete

end Proper

/-- What is common to all drives under some settings. -/
structure Strict (settings : Config × Binding × Platform) (d : Drive) : Prop where
  /-- The output is set once, and then linked or written once, up to the first failure. -/
  majors :
    let majors := (d.exchanges.map Prod.fst).filter Step.isMajor
    let all := [⟨.demanded, .setOutput (d.aim.mode.number settings.2.1)⟩, d.aim.final]
    majors <+: all ∧ ∀ pending, d.outcome = .ok pending → majors = all
  /-- A step that fails is the last one, and makes the session fail. -/
  stopped : ∀ before after step reply, d.exchanges = before ++ (step, reply) :: after →
    step.Fails reply → after = [] ∧ ∃ e, d.outcome = .error e
  /-- A session fails by a step that offers nothing: one that cannot be passed on to the compiler,
  or the last one made. -/
  failed : ∀ e, d.outcome = .error e → ∃ step : Step, step.manner ≠ .offered ∧
    (e.quoted = [] ∨ ∃ before reply heard, d.exchanges = before ++ [(step, reply)] ∧
      step.take d.unitName heard reply = .error e)
  /-- What the compiler says of a name that it is offered and does not take is not quoted. -/
  silent : ∀ before after step reply, d.exchanges = before ++ (step, reply) :: after →
    step.manner = .offered → reply.failed = true → ∀ e, d.outcome = .error e →
      ∀ m ∈ e.quoted, ∃ x ∈ after, m ∈ x.2.messages ∨ m = silentFailure x.1.request

theorem Proper.strict [Compiler σ] {settings : Config × Binding × Platform} {d : Drive}
    (hd : d.Proper σ settings) : d.Strict settings := by
  obtain ⟨w, w', -, -, hfollows⟩ := hd.talks
  refine ⟨hd.majors, fun before after step reply ht => hfollows.eq_nil_of_fails ht,
    fun e hout => ?_, fun before after step reply ht hmanner hfailed e hout => ?_⟩
  · rw [hout] at hfollows
    obtain ⟨step, -, hmanner, hfailed⟩ := hfollows.exists_failed
    exact ⟨step, hmanner, hfailed⟩
  · rw [hout] at hfollows
    exact hfollows.quoted ht hmanner hfailed

end Drive

/-- Calls that are made of drives: a state whose code was not linked is deleted at the end of its
drive; the other calls ask for names or delete. -/
inductive Drives (σ : Type) [Compiler σ] (settings : Config × Binding × Platform) :
    List Call → List Drive → Prop
  | nil : Drives σ settings [] []
  | refused {cs : List Call} {ds : List Drive} (h : Drives σ settings cs ds) :
    Drives σ settings (.refused :: cs) ds
  | ended {cs : List Call} {ds : List Drive} (d : Drive) (hd : d.Proper σ settings) (failed : Bool)
    (h : Drives σ settings cs ds) :
    Drives σ settings (d.calls ++ .asked d.serial .delete failed :: cs) (d :: ds)
  | linked {cs : List Call} {ds : List Drive} (d : Drive) (hd : d.Proper σ settings)
    (hlinked : d.Linked) (h : Drives σ settings cs ds) : Drives σ settings (d.calls ++ cs) (d :: ds)
  | found {cs : List Call} {ds : List Drive} (n : Nat) (name : String) (failed : Bool)
    (h : Drives σ settings cs ds) : Drives σ settings (.asked n (.findSymbol name) failed :: cs) ds
  | deleted {cs : List Call} {ds : List Drive} (n : Nat) (failed : Bool)
    (h : Drives σ settings cs ds) : Drives σ settings (.asked n .delete failed :: cs) ds

theorem Drives.append [Compiler σ] {settings : Config × Binding × Platform} {cs cs' : List Call}
    {ds ds' : List Drive} (h : Drives σ settings cs ds) (h' : Drives σ settings cs' ds') :
    Drives σ settings (cs ++ cs') (ds ++ ds') := by
  induction h with
  | nil => exact h'
  | refused h ih => exact .refused ih
  | ended d hd failed h ih =>
    rw [List.append_assoc, List.cons_append]
    exact .ended d hd failed ih
  | linked d hd hlinked h ih =>
    rw [List.append_assoc]
    exact .linked d hd hlinked ih
  | found n name failed h ih => exact .found n name failed ih
  | deleted n failed h ih => exact .deleted n failed ih

variable [Compiler σ]

/-- The calls between two worlds are made of drives, under settings that stay. -/
structure World.Driven (w : World σ) (cs : List Call) (ds : List Drive) (w' : World σ) : Prop where
  adds : w.Adds cs w'
  settings : w'.settings = w.settings
  drives : Drives σ w.settings cs ds

namespace World.Driven

variable {w w' w'' : World σ} {cs cs' : List Call} {ds ds' : List Drive}

theorem rest (hcalls : w'.calls = w.calls) (hsettings : w'.settings = w.settings) :
    w.Driven [] [] w' := ⟨.of_calls_eq hcalls, hsettings, .nil⟩

theorem refl (w : World σ) : w.Driven [] [] w := .rest rfl rfl

theorem trans (h : w.Driven cs ds w') (h' : w'.Driven cs' ds' w'') :
    w.Driven (cs ++ cs') (ds ++ ds') w'' where
  adds := h.adds.trans h'.adds
  settings := h'.settings.trans h.settings
  drives := by
    have hdrives := h'.drives
    rw [h.settings] at hdrives
    exact h.drives.append hdrives

end World.Driven

/-! ## Computations in order -/

/-- A computation whose calls are made of drives. What its failure quotes of the compiler is the
failure of one of them, or one that is known already. -/
def Orderly (known : List Failure) (x : Attempt (World σ) α) : Prop :=
  ∀ w, ∃ cs ds, w.Driven cs ds (x w).2 ∧
    ∀ e, (x w).1 = .error e → e.quoted = [] ∨ e ∈ known ∨ ∃ d ∈ ds, d.outcome = .error e

namespace Orderly

variable {known : List Failure} {x : Attempt (World σ) α} {f : α → Attempt (World σ) β}

/-- A computation that calls nothing and quotes nothing. -/
theorem of_rest (h : ∀ w, (x w).2.calls = w.calls ∧ (x w).2.settings = w.settings)
    (hquoted : ∀ w e, (x w).1 = .error e → e.quoted = []) : Orderly known x := fun w =>
  ⟨[], [], .rest (h w).1 (h w).2, fun e he => .inl (hquoted w e he)⟩

theorem pure (a : α) : Orderly known (pure a : Attempt (World σ) α) :=
  .of_rest (fun _ => ⟨rfl, rfl⟩) (by simp)

theorem state : Orderly known (.state : Attempt (World σ) (World σ)) :=
  .of_rest (fun _ => ⟨rfl, rfl⟩) (by simp [Attempt.state])

theorem fail {e : Failure} (he : e.quoted = []) :
    Orderly known (.fail e : Attempt (World σ) α) := by
  refine .of_rest (fun _ => ⟨rfl, rfl⟩) fun w e' he' => ?_
  obtain rfl := Except.error.inj he'
  exact he

/-- A failure that is known may be passed on. -/
theorem fail_of_mem {e : Failure} (he : e ∈ known) :
    Orderly known (.fail e : Attempt (World σ) α) := by
  refine fun w => ⟨[], [], .refl w, fun e' he' => ?_⟩
  obtain rfl := Except.error.inj he'
  exact .inr (.inl he)

theorem bind (hx : Orderly known x) (hf : ∀ a, Orderly known (f a)) : Orderly known (x >>= f) := by
  intro w
  obtain ⟨cs, ds, hdriven, hfails⟩ := hx w
  rcases h : x w with ⟨e | a, w'⟩
  · rw [h] at hdriven hfails
    rw [Attempt.bind_of_error h]
    refine ⟨cs, ds, hdriven, fun e' he' => hfails e' ?_⟩
    rw [Except.error.inj he']
  · rw [h] at hdriven
    obtain ⟨cs', ds', hdriven', hfails'⟩ := hf a w'
    rw [Attempt.bind_of_ok h]
    refine ⟨cs ++ cs', ds ++ ds', hdriven.trans hdriven', fun e he => ?_⟩
    refine (hfails' e he).imp_right (Or.imp_right ?_)
    rintro ⟨d, hd, hout⟩
    exact ⟨d, List.mem_append_right ds hd, hout⟩

/-- After a failure that is looked at, it is known. -/
theorem recover {g : Except Failure α → Attempt (World σ) β} (hx : Orderly known x)
    (hok : ∀ a, Orderly known (g (.ok a))) (herror : ∀ e, Orderly (e :: known) (g (.error e))) :
    Orderly known (x.capture >>= g) := by
  intro w
  obtain ⟨cs, ds, hdriven, hfails⟩ := hx w
  rcases h : x w with ⟨e | a, w'⟩
  · have hrun : x.capture w = (.ok (.error e), w') := by rw [Attempt.capture, h]
    rw [h] at hdriven hfails
    obtain ⟨cs', ds', hdriven', hfails'⟩ := herror e w'
    rw [Attempt.bind_of_ok hrun]
    refine ⟨cs ++ cs', ds ++ ds', hdriven.trans hdriven', fun e' he' => ?_⟩
    have hfirst (h : e' = e) :
        e'.quoted = [] ∨ e' ∈ known ∨ ∃ d ∈ ds ++ ds', d.outcome = .error e' := by
      subst h
      refine (hfails e' rfl).imp_right (Or.imp_right ?_)
      rintro ⟨d, hd, hout⟩
      exact ⟨d, List.mem_append_left ds' hd, hout⟩
    rcases hfails' e' he' with hquoted | hknown | ⟨d, hd, hout⟩
    · exact .inl hquoted
    · rcases List.mem_cons.1 hknown with he | hknown
      · exact hfirst he
      · exact .inr (.inl hknown)
    · exact .inr (.inr ⟨d, List.mem_append_right ds hd, hout⟩)
  · have hrun : x.capture w = (.ok (.ok a), w') := by rw [Attempt.capture, h]
    rw [h] at hdriven
    obtain ⟨cs', ds', hdriven', hfails'⟩ := hok a w'
    rw [Attempt.bind_of_ok hrun]
    refine ⟨cs ++ cs', ds ++ ds', hdriven.trans hdriven', fun e he => ?_⟩
    refine (hfails' e he).imp_right (Or.imp_right ?_)
    rintro ⟨d, hd, hout⟩
    exact ⟨d, List.mem_append_right ds hd, hout⟩

theorem warn (warning : Warning) :
    Orderly known (Engine.warn warning : Attempt (World σ) Unit) := by
  refine .of_rest (fun w => ?_) (by simp [Engine.warn, Attempt.change])
  obtain ⟨errors, h⟩ := w.exists_warn_eq warning
  simp [Engine.warn, Attempt.change, h, World.settings]

end Orderly

/-! ## Sessions -/

namespace InSession

variable {script : List Step} {p : Session × World σ} {o : Except Failure (List String)}

/-- From a session and its world on, a computation goes through a script, and this comes of it. -/
def Ran (script : List Step) (x : InSession σ α) (p : Session × World σ)
    (o : Except Failure (List String)) : Prop :=
  ∃ t, Follows p.1.unitName script p.1.pending t o ∧ p.2.Talks p.1.serial t (x p).2.2 ∧
    (x p).2.1.serial = p.1.serial

theorem Plays.ran {x : InSession σ α} (h : Plays script x p) :
    Ran script x p ((x p).1.map fun _ => (x p).2.1.pending) := by
  obtain ⟨t, hfollows, htalks, hsession⟩ := h
  exact ⟨t, hfollows, htalks, by rw [hsession]⟩

theorem Plays.bind_ran {script' : List Step} {x : InSession σ α} {f : α → InSession σ β}
    (hx : Plays script x p) (herror : ∀ e p', x p = (.error e, p') → o = .error e)
    (hok : ∀ a p', x p = (.ok a, p') → Ran script' (f a) p' o) :
    Ran (script ++ script') (x >>= f) p o := by
  obtain ⟨t, hfollows, htalks, hsession⟩ := hx
  rcases h : x p with ⟨e | a, p'⟩
  · rw [h] at hfollows htalks hsession
    rw [Ran, Attempt.bind_of_error h, herror e p' h]
    exact ⟨t, hfollows.append_of_error script', htalks, by rw [hsession]⟩
  · rw [h] at hfollows htalks hsession
    obtain ⟨t', hfollows', htalks', hserial'⟩ := hok a p' h
    have hunit : p'.1.unitName = p.1.unitName := by rw [hsession]
    have hserial : p'.1.serial = p.1.serial := by rw [hsession]
    rw [hunit] at hfollows'
    rw [hserial] at htalks'
    rw [Ran, Attempt.bind_of_ok h]
    exact ⟨t ++ t', hfollows.append hfollows', htalks.trans htalks', hserial'.trans hserial⟩

/-- Linking is one step, which succeeds exactly when the code can be called. -/
theorem relocate_ran (hmode : p.1.mode = .memory) (hrel : p.1.relocated = false) :
    Ran [⟨.demanded, .relocate⟩] (relocate : InSession σ Unit) p
      ((relocate p).1.map fun _ => (relocate p).2.1.pending) := by
  obtain ⟨s, w⟩ := p
  obtain ⟨t, hfollows, htalks, hsession⟩ := Plays.demand .relocate (s, w)
  have hlink := relocate_of_fresh hmode hrel w
  rcases h : demand .relocate (s, w) with ⟨e | _, p'⟩
  · rw [h] at hfollows htalks hsession
    rw [Attempt.bind_of_error h] at hlink
    rw [Ran, hlink]
    exact ⟨t, hfollows, htalks, by rw [hsession]⟩
  · rw [h] at hfollows htalks hsession
    rw [Attempt.bind_of_ok h] at hlink
    rw [Ran, hlink]
    have hserial : p'.1.serial = s.serial := by rw [hsession]
    exact ⟨t, hfollows, htalks, hserial⟩

end InSession

namespace Session

open InSession

/-- A session that was just made. -/
def fresh (w : World σ) (address : Address) (mode : OutputMode) (unitName : String) : Session :=
  ⟨w.made, address, mode, unitName, false, []⟩

/-- A session is refused, or there is a fresh one. -/
theorem create_fresh (mode : OutputMode) (unitName : String) (w : World σ) :
    (∃ w', create mode unitName w = (.error (.compilerStart .refused), w') ∧
      w.Adds [.refused] w' ∧ w'.settings = w.settings) ∨
    ∃ address w₁, create mode unitName w = (.ok (fresh w address mode unitName), w₁) ∧
      w.Adds [.created w.made] w₁ ∧ w₁.settings = w.settings := by
  unfold create
  rcases Compiler.create w.compiler with ⟨_ | address, c⟩
  · exact .inl ⟨_, rfl, by simp [World.Adds], rfl⟩
  · exact .inr ⟨address, _, rfl, by simp [World.Adds], rfl⟩

theorem delete_driven (s : Session) (w : World σ) : ∃ failed,
    w.Driven [.asked s.serial .delete failed] [] (s.delete w).2 := by
  obtain ⟨failed, h⟩ := s.delete_adds w
  exact ⟨failed, h, rfl, .deleted _ failed .nil⟩

/-- A drive whose session is given up. -/
theorem delete_drive {d : Drive} {s : Session} {w w' : World σ} (hd : d.Proper σ w.settings)
    (hs : s.serial = d.serial) (hadds : w.Adds d.calls w') (hsettings : w'.settings = w.settings) :
    ∃ failed, w.Driven (d.calls ++ [.asked d.serial .delete failed]) [d] (s.delete w').2 := by
  obtain ⟨failed, hdelete⟩ := s.delete_adds w'
  rw [hs] at hdelete
  exact ⟨failed, hadds.trans hdelete, hsettings, .ended d hd failed .nil⟩

/-- A session is opened for a computation that goes through the script of an aim. It fails, and then
its state is deleted; or the calls so far are its drive. `outcome` says what came of the script, by
the result of the computation. -/
theorem opened_driven (aim : Aim) {body : InSession σ α} (unitName : String)
    (outcome : Except Failure α → Session → Except Failure (List String))
    (herror : ∀ e s, outcome (.error e) s = .error e)
    (hbody : ∀ p : Session × World σ, p.1.mode = aim.mode → p.1.relocated = false →
      ∃ load, (∀ step ∈ load, step.Loads) ∧
        Ran (aim.script p.2.settings p.2.files.isDirectory load) body p
          (outcome (body p).1 (body p).2.1)) (w : World σ) :
    (∃ e w' cs ds, opened aim.mode unitName body w = (.error e, w') ∧ w.Driven cs ds w' ∧
      (e.quoted = [] ∨ ∃ d ∈ ds, d.outcome = .error e)) ∨
    ∃ (d : Drive) (a : α) (s : Session) (w' : World σ),
      opened aim.mode unitName body w = (.ok (a, s), w') ∧ d.Proper σ w.settings ∧ d.aim = aim ∧
        d.outcome = outcome (.ok a) s ∧ s.serial = d.serial ∧ w.Adds d.calls w' ∧
        w'.settings = w.settings := by
  rcases create_fresh aim.mode unitName w with
    ⟨w', hcreate, hadds, hsettings⟩ | ⟨address, w₁, hcreate, hadds, hsettings⟩
  · exact .inl ⟨_, w', _, _, opened_of_error hcreate body, ⟨hadds, hsettings, .refused .nil⟩,
      .inl rfl⟩
  obtain ⟨load, hload, t, hfollows, htalks, hserial⟩ :=
    hbody (fresh w address aim.mode unitName, w₁) rfl rfl
  have hadds' := hadds.trans htalks.adds
  have hsettings' := htalks.settings.trans hsettings
  have hproper : Drive.Proper σ w.settings ⟨w.made, unitName, aim, load, t, _⟩ :=
    ⟨hload, w₁, _, hsettings, htalks, hsettings ▸ hfollows⟩
  rcases hrun : body (fresh w address aim.mode unitName, w₁) with ⟨e | a, p⟩
  · rw [hrun] at hserial hadds' hsettings' hproper
    obtain ⟨failed, hdriven⟩ := delete_drive hproper hserial hadds' hsettings'
    exact .inl ⟨e, _, _, _, opened_of_failed hcreate hrun, hdriven,
      .inr ⟨_, List.mem_singleton_self _, herror e p.1⟩⟩
  · rw [hrun] at hserial hadds' hsettings' hproper
    exact .inr ⟨_, a, p.1, p.2, opened_of_ok hcreate hrun, hproper, rfl, rfl, hserial, hadds',
      hsettings'⟩

/-- The body of a session that writes an object. -/
theorem file_plays {load : InSession σ Unit} (hload : Loading load) (object : String)
    {p : Session × World σ} (hmode : p.1.mode = .object) : ∃ script,
      (∀ step ∈ script, step.Loads) ∧
        Plays ((Aim.file object).script p.2.settings p.2.files.isDirectory script)
          (do prepare; load; writeFile object) p := by
  obtain ⟨script, hscript, hplays⟩ := Loading.after (prepare_plays p) fun _ => hload
  have hall := hplays.bind fun _ p' _ => Plays.demandWith object (.writeFile object) p'
  rw [Attempt.bind_assoc, hmode] at hall
  refine ⟨script, hscript, ?_⟩
  rw [Aim.script, Aim.late, List.append_nil]
  exact hall

/-- A session is made for a file, and given up when it is written. -/
theorem opened_delete_orderly {load : InSession σ Unit} (hload : Loading load)
    (unitName object : String) (known : List Failure) :
    Orderly known (opened .object unitName (do
      prepare
      load
      writeFile object) >>= fun r => r.2.delete) := by
  intro w
  rcases opened_driven (.file object) unitName (fun r s => r.map fun _ => s.pending)
    (fun _ _ => rfl) (fun p hmode _ =>
      let ⟨script, hscript, hplays⟩ := file_plays hload object hmode
      ⟨script, hscript, hplays.ran⟩) w with
    ⟨e, w', cs, ds, hrun, hdriven, hfails⟩ | ⟨d, a, s, w', hrun, hd, -, -, hs, hadds, hsettings⟩
  · have hopened : opened .object unitName (do prepare; load; writeFile object) w = _ := hrun
    rw [Attempt.bind_of_error hopened]
    refine ⟨cs, ds, hdriven, fun e' he => ?_⟩
    rw [← Except.error.inj he]
    exact hfails.imp_right .inr
  · have hopened : opened .object unitName (do prepare; load; writeFile object) w = _ := hrun
    obtain ⟨failed, hdriven⟩ := delete_drive hd hs hadds hsettings
    rw [Attempt.bind_of_ok hopened]
    exact ⟨_, _, hdriven, fun e he => absurd he (by rw [s.delete_apply]; simp)⟩

end Session

namespace Engine

open InSession Session

omit [Compiler σ] in
theorem resolveAll_rest (names : List String) (w : World σ) :
    (resolveAll names w).2.calls = w.calls ∧ (resolveAll names w).2.settings = w.settings ∧
      ∃ found, (resolveAll names w).1 = .ok found := by
  obtain ⟨k, hresolve, -, hplatform⟩ := resolveAll_apply names w
  rw [hresolve]
  exact ⟨rfl, by simp only [World.settings, hplatform], _, rfl⟩

variable {known : List Failure} {load : InSession σ Unit}

/-- The body of a session for code in memory, up to the link. -/
theorem populate_plays (hload : Loading load) (names : List (String × Address))
    {p : Session × World σ} (hmode : p.1.mode = .memory) : ∃ script,
      (∀ step ∈ script, step.Loads) ∧
        Plays (preparation p.2.settings p.2.files.isDirectory .memory ++ (Aim.code names).late ++
          script) (populate names load) p := by
  have hnames : Plays (preparation p.2.settings p.2.files.isDirectory .memory ++
      (Aim.code names).late) (do prepare; .each names fun n => addSymbol n.1 n.2) p := by
    rw [← hmode]
    exact (prepare_plays p).bind fun _ p' _ =>
      .each (fun n : String × Address => ⟨.demanded, .addSymbol n.1 n.2⟩)
        (fun n => .addSymbol n.1 n.2) p'
  obtain ⟨script, hscript, hplays⟩ := Loading.after hnames fun _ => hload
  rw [Attempt.bind_assoc] at hplays
  exact ⟨script, hscript, hplays⟩

/-- What came of the script of a session in which linking was tried. -/
def linkOutcome : Except Failure (Except Failure Unit) → Session → Except Failure (List String)
  | .ok (.ok ()), s => .ok s.pending
  | .ok (.error e), _ => .error e
  | .error e, _ => .error e

theorem linkOnce_ran (hload : Loading load) {p : Session × World σ} (hmode : p.1.mode = .memory)
    (hrel : p.1.relocated = false) : ∃ script, (∀ step ∈ script, step.Loads) ∧
      Ran ((Aim.code []).script p.2.settings p.2.files.isDirectory script) (linkOnce load) p
        (linkOutcome (linkOnce load p).1 (linkOnce load p).2.1) := by
  obtain ⟨script, hscript, hplays⟩ := populate_plays hload [] hmode
  refine ⟨script, hscript, hplays.bind_ran (fun e p' h => ?_) fun a p' h => ?_⟩
  · rw [linkOnce, Attempt.bind_of_error h]
    rfl
  · have hsession := hplays.session
    rw [h] at hsession
    obtain ⟨t, hfollows, htalks, hserial⟩ := relocate_ran (p := p')
      (by rw [hsession]; exact hmode) (by rw [hsession]; exact hrel)
    refine ⟨t, ?_, htalks, hserial⟩
    rw [linkOnce, Attempt.bind_of_ok h, Attempt.capture]
    rcases hlink : relocate p' with ⟨e | _, p''⟩
    · rw [hlink] at hfollows
      exact hfollows
    · rw [hlink] at hfollows
      exact hfollows

theorem linkWith_ran (hload : Loading load) (names : List (String × Address))
    {p : Session × World σ} (hmode : p.1.mode = .memory) (hrel : p.1.relocated = false) :
    ∃ script, (∀ step ∈ script, step.Loads) ∧
      Ran ((Aim.code names).script p.2.settings p.2.files.isDirectory script)
        (linkWith names load) p
        ((linkWith names load p).1.map fun _ => (linkWith names load p).2.1.pending) := by
  obtain ⟨script, hscript, hplays⟩ := populate_plays hload names hmode
  refine ⟨script, hscript, hplays.bind_ran (fun e p' h => ?_) fun a p' h => ?_⟩
  · rw [linkWith, Attempt.bind_of_error h]
    rfl
  · have hsession := hplays.session
    rw [h] at hsession
    rw [linkWith, Attempt.bind_of_ok h]
    exact relocate_ran (by rw [hsession]; exact hmode) (by rw [hsession]; exact hrel)

/-- What follows a failure to link. -/
theorem retry_orderly (hload : Loading load) (unitName : String) {e : Failure} (he : e ∈ known) :
    Orderly known (retry unitName load e) := by
  unfold retry
  split
  · exact .fail_of_mem he
  · refine Orderly.bind (.of_rest (fun w => ?_) fun w e' he' => ?_) fun found => ?_
    · obtain ⟨hcalls, hsettings, -⟩ := resolveAll_rest _ w
      exact ⟨hcalls, hsettings⟩
    · obtain ⟨-, -, found, hfound⟩ := resolveAll_rest _ w
      rw [hfound] at he'
      simp at he'
    · cases found with
      | none => exact .fail_of_mem he
      | some names =>
        intro w
        dsimp only
        rcases opened_driven (.code names) unitName (fun r s => r.map fun _ => s.pending)
          (fun _ _ => rfl)
          (fun p hmode hrel => linkWith_ran hload names hmode hrel) w with
          ⟨e, w', cs, ds, hrun, hdriven, hfails⟩ |
            ⟨d, a, s, w', hrun, hd, haim, hout, -, hadds, hsettings⟩
        · have hopened : opened .memory unitName (linkWith names load) w = _ := hrun
          rw [Attempt.bind_of_error hopened]
          refine ⟨cs, ds, hdriven, fun e' he => ?_⟩
          rw [← Except.error.inj he]
          exact hfails.imp_right .inr
        · have hopened : opened .memory unitName (linkWith names load) w = _ := hrun
          have hdrives := Drives.linked d hd ⟨by rw [haim]; rfl, s.pending, hout⟩ .nil
          rw [List.append_nil] at hdrives
          rw [Attempt.bind_of_ok hopened]
          exact ⟨_, _, ⟨hadds, hsettings, hdrives⟩, by simp⟩

/-- **A build drives its states in order**, and fails as one of their sessions does. -/
theorem build_orderly (hload : Loading load) (unitName : String) :
    Orderly known (build unitName load) := by
  intro w
  rcases opened_driven (.code []) unitName linkOutcome (fun _ _ => rfl)
    (fun p hmode hrel => linkOnce_ran hload hmode hrel) w with
    ⟨e, w', cs, ds, hrun, hdriven, hfails⟩ |
      ⟨d, r, s, w', hrun, hd, haim, hout, hs, hadds, hsettings⟩
  · have hopened : opened .memory unitName (linkOnce load) w = _ := hrun
    rw [build, Attempt.bind_of_error hopened]
    refine ⟨cs, ds, hdriven, fun e' he => ?_⟩
    rw [← Except.error.inj he]
    exact hfails.imp_right .inr
  have hopened : opened .memory unitName (linkOnce load) w = _ := hrun
  rw [build, Attempt.bind_of_ok hopened]
  cases r with
  | ok _ =>
    have hdrives := Drives.linked d hd ⟨by rw [haim]; rfl, s.pending, hout⟩ .nil
    rw [List.append_nil] at hdrives
    exact ⟨_, _, ⟨hadds, hsettings, hdrives⟩, by simp⟩
  | error e =>
    obtain ⟨failed, hdriven⟩ := delete_drive hd hs hadds hsettings
    obtain ⟨cs, ds, hretry, hfails⟩ :=
      retry_orderly hload unitName (List.mem_cons_self (a := e) (l := known)) (s.delete w').2
    dsimp only
    rw [Attempt.bind_of_ok (s.delete_apply w')]
    refine ⟨_, _, hdriven.trans hretry, fun e' he => ?_⟩
    rcases hfails e' he with hquoted | hknown | ⟨d', hd', hout'⟩
    · exact .inl hquoted
    · rcases List.mem_cons.1 hknown with rfl | hknown
      · exact .inr (.inr ⟨d, by simp, hout⟩)
      · exact .inr (.inl hknown)
    · exact .inr (.inr ⟨d', by simp [hd'], hout'⟩)

/-! ## Modules -/

theorem readSource_orderly (path : String) :
    Orderly known (readSource path : Attempt (World σ) String) := by
  refine Orderly.state.bind fun w => ?_
  split
  · split
    · exact .pure _
    · exact .fail rfl
  · exact .fail rfl

theorem loadObject_orderly (path object : String) (origin : Origin) :
    Orderly known (loadObject path object origin : Attempt (World σ) Module) :=
  (build_orderly (.addFile object) object).bind fun _ => .pure _

theorem writeObject_orderly (unitName source object : String) :
    Orderly known (writeObject unitName source object : Attempt (World σ) Unit) :=
  opened_delete_orderly (.compile source) unitName object known

theorem compileSource_orderly (c : ObjectCache) :
    Orderly known (compileSource c : Attempt (World σ) Module) := by
  refine (readSource_orderly c.source).bind fun text => ?_
  have hcompiled (known : List Failure) : Orderly known (do
      let session ← build c.source (InSession.compile (sourceOfFile c.source text))
      return ⟨c.source, .compiled, session⟩ : Attempt (World σ) Module) :=
    (build_orderly (.compile _) c.source).bind fun _ => .pure _
  exact (writeObject_orderly _ _ _).recover (fun _ => hcompiled _)
    fun _ => (Orderly.warn _).bind fun _ => hcompiled _

theorem importSource_orderly (c : ObjectCache) :
    Orderly known (importSource c : Attempt (World σ) Module) := by
  refine Orderly.state.bind fun w => ?_
  dsimp only
  split
  · refine (loadObject_orderly _ _ _).recover (fun m => .pure m) fun e => ?_
    dsimp only
    split
    · exact (Orderly.warn _).bind fun _ => compileSource_orderly c
    · exact .fail_of_mem List.mem_cons_self
  · exact compileSource_orderly c

/-- **An import drives its states in order**, and fails as one of their sessions does. -/
theorem importModule_orderly (path : String) :
    Orderly known (importModule path : Attempt (World σ) Module) := by
  unfold importModule
  split
  · next misuse h =>
    refine .fail ?_
    unfold checkModulePath at h
    split at h
    · rw [← Except.error.inj h]
      rfl
    · split at h
      · rw [← Except.error.inj h]
        rfl
      · simp at h
  · refine Orderly.state.bind fun w => ?_
    dsimp only
    split
    · split
      · exact loadObject_orderly _ _ _
      · exact .fail rfl
    · exact importSource_orderly _

end Engine

end LiveC
