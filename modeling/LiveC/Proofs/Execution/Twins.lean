import LiveC.Module.Run
import LiveC.Proofs.Execution.Custody
import LiveC.Proofs.Lists
import LiveC.Proofs.Session.Translator
/-!
# Two states with the code of one text

Two states of the compiler are `Twins` if both contain a text and the names that its code calls
without defining them lead to the same addresses in both. Then it makes no difference which of them
is run: two runs from worlds with one core go on in the same way and end with one core again
(`callAddress_twins`), and so do the runs of two modules (`runModule_twins`). The addresses of the
routines in the two states differ; `Peers` are addresses that may stand for each other. Compiled
code leaves the states as they are, as it calls the compiler about new states only.
-/

namespace LiveC

/-- A routine of a text calls a name. -/
def Translation.Calls (t : Translation) (name : String) : Prop :=
  ∃ r ∈ t.routines, .calls name ∈ r.2

/-- What a run can be told by: how it ends, and what it leaves of the world. -/
def Agrees {σ : Type} (r r' : Outcome × World σ) : Prop := r.1 = r'.1 ∧ r.2.core = r'.2.core

/-- The result of a run, without the report of a crash. -/
def RunResult.verdict : RunResult → Except Signal Int32
  | .exited status => .ok status
  | .crashed signal _ => .error signal

variable {σ : Type}

/-- What a guard is named does not matter for whether control comes back to it, nor for the verdict
that it gives then. -/
theorem Outcome.ending_cases (identity identity' : Identity) (place : Nat) (outcome : Outcome) :
    (∃ result result', outcome.ending identity place = .ok result ∧
      outcome.ending identity' place = .ok result' ∧ result.verdict = result'.verdict) ∨
    outcome.ending identity place = .error outcome ∧
      outcome.ending identity' place = .error outcome := by
  cases outcome with
  | returned status => exact .inl ⟨_, _, rfl, rfl, rfl⟩
  | raised signal landing =>
    rw [ending, ending]
    split
    · exact .inl ⟨_, _, rfl, rfl, rfl⟩
    · exact .inr ⟨rfl, rfl⟩
  | ended status => exact .inr ⟨rfl, rfl⟩

/-- Where a signal leads is told by the state of the handler and the checkpoint that is set. -/
theorem Guard.landing?_congr {g g' : Guard} (hstate : g.state = g'.state)
    (hcheckpoint : g.checkpoint = g'.checkpoint) : g.landing? = g'.landing? := by
  rw [landing?, landing?, hstate, hcheckpoint]

theorem World.core_note (w : World σ) (e : Event) : (w.note e).core = w.core.note e := rfl

theorem World.compiler_of_core {w w' : World σ} (h : w.core = w'.core) :
    w'.compiler = w.compiler := by
  have hcompiler : w'.core.compiler = w.core.compiler := by rw [h]
  exact hcompiler

namespace Agrees

variable {w w' : World σ}

theorem note (h : w.core = w'.core) (e : Event) : (w.note e).core = (w'.note e).core := by
  rw [World.core_note, World.core_note, h]

/-- A run that depends on the core only. -/
theorem of_core {f : World σ → Outcome × World σ} (hf : ∀ w, Agrees (f w) (f w.core))
    (h : w.core = w'.core) : Agrees (f w) (f w') := by
  have hw := hf w
  have hw' := hf w'
  rw [← h] at hw'
  exact ⟨hw.1.trans hw'.1.symm, hw.2.trans hw'.2.symm⟩

theorem raise (signal : Signal) (h : w.core = w'.core) :
    Agrees (raise signal w) (raise signal w') := by
  refine of_core (f := LiveC.raise signal) (fun w => ?_) h
  have hstate : w.core.guard.state = w.guard.state := rfl
  have hlanding : w.core.guard.landing? = w.guard.landing? := rfl
  rw [World.raise_eq, World.raise_eq, hstate, hlanding]
  split
  · exact ⟨rfl, rfl⟩
  · split
    · exact ⟨rfl, rfl⟩
    · exact ⟨rfl, rfl⟩

end Agrees

namespace Execution

theorem reactionAt_core (w : World σ) (address : Address) :
    reactionAt w.core address = reactionAt w address := by
  have hlinkage : w.core.linkage = w.linkage := rfl
  exact reactionAt_congr hlinkage rfl address

theorem callOutside_agrees (address : Address) {w w' : World σ} (h : w.core = w'.core) :
    Agrees (callOutside address w) (callOutside address w') := by
  refine .of_core (f := callOutside address) (fun w => ?_) h
  rw [callOutside_eq, callOutside_eq, reactionAt_core]
  cases reactionAt w address with
  | returns value => exact ⟨rfl, rfl⟩
  | raises signal => exact Agrees.raise signal rfl
  | ends status => exact ⟨rfl, rfl⟩

variable {w w' : World σ} {body body' : World σ → Outcome × World σ} {identity identity' : Identity}
  {session session' : Address}

/-- The world in which a guarded body starts. -/
def entered (identity : Identity) (session : Address) (w : World σ) : World σ :=
  Guarded.setGuard w ((Guarded.guard w).enter identity session)

theorem entered_core (identity : Identity) (session : Address) (w : World σ) :
    (entered identity session w).core =
      { w.core with guard := ⟨[], some w.core.guard.nextPlace, .armed⟩ } := rfl

theorem guarded_eq (identity : Identity) (session : Address) (body : World σ → Outcome × World σ)
    (w : World σ) : guarded identity session body w =
      match (body (entered identity session w)).1.ending identity (Guarded.guard w).nextPlace with
      | .ok result => (.ok result,
        Guarded.setGuard (body (entered identity session w)).2
          ((Guarded.guard (body (entered identity session w)).2).exit
            (Guarded.guard w).checkpoint (Guarded.guard w).hasRoom))
      | .error outcome => (.error outcome, (body (entered identity session w)).2) := rfl

theorem nextPlace_congr {g g' : Guard} (h : g.checkpoint = g'.checkpoint) :
    g.nextPlace = g'.nextPlace := by
  rw [Guard.nextPlace, Guard.nextPlace, h]

/-- What a guard is named does not matter for the verdict. -/
theorem guarded_verdict
    (hcheckpoint : (Guarded.guard w).checkpoint = (Guarded.guard w').checkpoint)
    (houtcome : (body (entered identity session w)).1 =
      (body' (entered identity' session' w')).1) :
    (resultOf (guarded identity session body w).1).verdict =
      (resultOf (guarded identity' session' body' w').1).verdict := by
  rw [guarded_eq, guarded_eq, houtcome, nextPlace_congr hcheckpoint]
  rcases Outcome.ending_cases identity identity' (Guarded.guard w').nextPlace
    (body' (entered identity' session' w')).1 with
    ⟨result, result', h, h', hverdict⟩ | ⟨h, h'⟩
  · rw [h, h']
    exact hverdict
  · rw [h, h']

/-- What a guard is named matters for the report of a crash only. -/
theorem guarded_agrees (hcore : w.core = w'.core)
    (hbody : Agrees (body (entered identity session w)) (body' (entered identity' session' w'))) :
    (resultOf (guarded identity session body w).1).verdict =
        (resultOf (guarded identity' session' body' w').1).verdict ∧
      (guarded identity session body w).2.core = (guarded identity' session' body' w').2.core := by
  obtain ⟨houtcome, hafter⟩ := hbody
  have hcheckpoint : (Guarded.guard w).checkpoint = (Guarded.guard w').checkpoint := by
    have hsame : w.core.guard.checkpoint = w'.core.guard.checkpoint := by rw [hcore]
    exact hsame
  have hleft (v : World σ) (g : Guard) (pushed : Bool) :
      (Guarded.setGuard v ((Guarded.guard v).exit g.checkpoint pushed)).core =
        { v.core with guard := (Guard.exit ⟨[], none, .armed⟩ g.checkpoint false) } := by
    cases pushed <;> rfl
  refine ⟨guarded_verdict hcheckpoint houtcome, ?_⟩
  rw [guarded_eq, guarded_eq, houtcome, nextPlace_congr hcheckpoint]
  rcases Outcome.ending_cases identity identity' (Guarded.guard w').nextPlace
    (body' (entered identity' session' w')).1 with ⟨result, result', h, h', -⟩ | ⟨h, h'⟩
  · rw [h, h']
    dsimp only
    rw [hleft, hleft, hafter, hcheckpoint]
  · rw [h, h']
    exact hafter

end Execution

variable [Compiler σ]

namespace Translator

open Execution

variable {T : Translator σ} {text : String} {n n' : Nat} {w w' w₁ : World σ} {cs : List Call}
  {live : Multiset Nat} {a a' : Address} {passed : Passed} {steps : List Action}
  {owner owner' : Nat} {name : String}

variable (T) in
/-- Two states with the code of one text, in which other names that it calls lead to the same
addresses. -/
structure Twins (text : String) (n n' : Nat) (w : World σ) : Prop where
  works : T.Works w
  made : n < w.made ∧ n' < w.made
  contains : T.Contains w.compiler n text ∧ T.Contains w.compiler n' text
  reach : ∀ name, (T.translate text).Calls name → name ∉ (T.translate text).names →
    Compiler.reach? w.compiler n name = Compiler.reach? w.compiler n' name

variable (T) in
/-- Addresses that stand for each other: they are the same, or those of a routine in both states. -/
def Peers (n n' : Nat) (w : World σ) (a a' : Address) : Prop :=
  a = a' ∨ ∃ name, T.symbol? w.compiler n name = some a ∧ T.symbol? w.compiler n' name = some a'

variable (T) in
/-- The steps belong to one state, or to a routine of the text in both. -/
def Shares (text : String) (n n' owner owner' : Nat) (steps : List Action) : Prop :=
  owner = owner' ∨ owner = n ∧ owner' = n' ∧
    ∀ name, .calls name ∈ steps → (T.translate text).Calls name

theorem Shares.tail {step : Action} (h : T.Shares text n n' owner owner' (step :: steps)) :
    T.Shares text n n' owner owner' steps :=
  h.imp_right fun ⟨hn, hn', hcalls⟩ =>
    ⟨hn, hn', fun name hname => hcalls name (List.mem_cons_of_mem _ hname)⟩

/-- Calls about new states leave twins as they are. -/
theorem Twins.tends (h : T.Twins text n n' w) (hleads : w.Leads w₁) (ht : w.Tends 0 cs w₁ live) :
    T.Twins text n n' w₁ := by
  have hmoves := moves_of_tends hleads h.works (.empty _) ht
  have hsame {m : Nat} (hm : m < w.made) : T.Same m w.compiler w₁.compiler :=
    hmoves.same m hm (ht.isAbout_eq_false hm (by simp))
  refine ⟨hmoves.works, ⟨h.made.1.trans_le hmoves.made, h.made.2.trans_le hmoves.made⟩,
    ⟨(hsame h.made.1).contains text h.contains.1, (hsame h.made.2).contains text h.contains.2⟩,
    fun name hcalls hname => ?_⟩
  rw [(hsame h.made.1).reach, (hsame h.made.2).reach]
  exact h.reach name hcalls hname

theorem Twins.rests (h : T.Twins text n n' w) (hrests : w.Rests w₁) : T.Twins text n n' w₁ :=
  h.tends (.rest hrests) (.of_calls_eq hrests.calls hrests.made 0)

theorem Twins.note (h : T.Twins text n n' w) (e : Event) : T.Twins text n n' (w.note e) :=
  h.rests ⟨rfl, rfl, rfl, rfl, rfl, rfl, rfl⟩

/-- The code of twins reaches nothing under a name, or addresses that stand for each other. -/
theorem Twins.reach_cases (h : T.Twins text n n' w)
    (hshares : T.Shares text n n' owner owner' (.calls name :: steps)) :
    Compiler.reach? w.compiler owner name = none ∧ Compiler.reach? w.compiler owner' name = none ∨
    ∃ a a', Compiler.reach? w.compiler owner name = some a ∧
      Compiler.reach? w.compiler owner' name = some a' ∧ T.Peers n n' w a a' := by
  have hequal (hsame : Compiler.reach? w.compiler owner name =
      Compiler.reach? w.compiler owner' name) :
      Compiler.reach? w.compiler owner name = none ∧ Compiler.reach? w.compiler owner' name = none ∨
      ∃ a a', Compiler.reach? w.compiler owner name = some a ∧
        Compiler.reach? w.compiler owner' name = some a' ∧ T.Peers n n' w a a' := by
    rw [hsame]
    cases Compiler.reach? w.compiler owner' name with
    | none => exact .inl ⟨rfl, rfl⟩
    | some a => exact .inr ⟨a, a, rfl, rfl, .inl rfl⟩
  rcases hshares with rfl | ⟨rfl, rfl, hcalls⟩
  · exact hequal rfl
  by_cases hname : name ∈ (T.translate text).names
  · obtain ⟨a, ha⟩ := Option.isSome_iff_exists.1 ((T.isSome_symbol name h.contains.1).2 hname)
    obtain ⟨a', ha'⟩ := Option.isSome_iff_exists.1 ((T.isSome_symbol name h.contains.2).2 hname)
    exact .inr ⟨a, a', (T.reaches h.contains.1 hname).trans ha,
      (T.reaches h.contains.2 hname).trans ha', .inr ⟨name, ha, ha'⟩⟩
  · exact hequal (h.reach name (hcalls name List.mem_cons_self) hname)

section Steps

variable {call : Address → World σ → Outcome × World σ}

/-- A call of a routine, if the routine and the steps after it are run alike. -/
theorem callStep_twins (hlent : ∀ a (w : World σ), w.Lent (call a w))
    (hleads : ∀ a (w : World σ), w.Leads (call a w).2)
    (hcall : ∀ a a' (w w' : World σ), T.Twins text n n' w → w.core = w'.core →
      T.Peers n n' w a a' → Agrees (call a w) (call a' w'))
    (ih : ∀ w w' : World σ, T.Twins text n n' w → w.core = w'.core →
      Agrees (runSteps call owner passed steps w) (runSteps call owner' passed steps w'))
    (h : T.Twins text n n' w) (hcore : w.core = w'.core)
    (hshares : T.Shares text n n' owner owner' (.calls name :: steps)) :
    Agrees (runSteps call owner passed (.calls name :: steps) w)
      (runSteps call owner' passed (.calls name :: steps) w') := by
  have hcompiler := World.compiler_of_core hcore
  rw [runSteps, runSteps, hcompiler]
  rcases h.reach_cases hshares with ⟨hnone, hnone'⟩ | ⟨a, a', ha, ha', hpeers⟩
  · rw [hnone, hnone']
    exact ih _ _ (h.note _) (Agrees.note hcore _)
  · rw [ha, ha']
    dsimp only
    have hrun := hcall a a' w w' h hcore hpeers
    have hback := hlent a w
    have hon := hleads a w
    rcases hw : call a w with ⟨outcome, w₁⟩
    rcases hw' : call a' w' with ⟨outcome', w₁'⟩
    rw [hw] at hback hon
    rw [hw, hw'] at hrun
    obtain ⟨rfl, hafter⟩ := hrun
    cases outcome with
    | returned value =>
      obtain ⟨cs, htends⟩ := hback.tends
      exact ih _ _ ((h.tends hon htends).note _) (Agrees.note hafter _)
    | raised signal landing => exact ⟨rfl, hafter⟩
    | ended status => exact ⟨rfl, hafter⟩

/-- An import, if the routine called in the module and the steps after it are run alike. -/
theorem importStep_twins (hlent : ∀ a (w : World σ), w.Lent (call a w))
    (hleads : ∀ a (w : World σ), w.Leads (call a w).2)
    (hcall : ∀ a a' (w w' : World σ), T.Twins text n n' w → w.core = w'.core →
      T.Peers n n' w a a' → Agrees (call a w) (call a' w'))
    (ih : ∀ w w' : World σ, T.Twins text n n' w → w.core = w'.core →
      Agrees (runSteps call owner passed steps w) (runSteps call owner' passed steps w'))
    (h : T.Twins text n n' w) (hcore : w.core = w'.core) (path name : String) :
    Agrees (runSteps call owner passed (.imports path name :: steps) w)
      (runSteps call owner' passed (.imports path name :: steps) w') := by
  obtain ⟨hresult, himported⟩ := (Contract.importModule_plain path).alike hcore
  obtain ⟨cs, hcs, -⟩ := Contract.importModule_leaves path w
  have hled := (Contract.importModule_plain path).leads w
  rw [runSteps, runSteps]
  rcases h₁ : Contract.importModule path w with ⟨r, w₁⟩
  rcases h₁' : Contract.importModule path w' with ⟨r', w₁'⟩
  rw [h₁] at hcs hled
  rw [h₁, h₁'] at hresult himported
  obtain rfl : r = r' := hresult
  have hcore₁ : w₁.core = w₁'.core := himported
  have h₁twins : T.Twins text n n' w₁ := h.tends hled hcs.tends
  rcases r with e | _ | m
  · exact ih _ _ (h₁twins.note _) (Agrees.note hcore₁ _)
  · exact ih _ _ (h₁twins.note _) (Agrees.note hcore₁ _)
  have hopen : w.Tends 0 cs w₁ {m.session.serial} := hcs.tends
  dsimp only
  obtain ⟨hresult, hfound⟩ :=
    (Session.inside_plain (InSession.Plain.find name) m.session).alike hcore₁
  have hled₁ := hled.trans ((Session.inside_plain (InSession.Plain.find name) m.session).leads w₁)
  obtain ⟨t, -, -, hfind⟩ := m.session.find_tends name w₁
  have hsymbol (w : World σ) : Contract.findSymbol (some m) (some name) w =
      m.session.inside (InSession.find name) w := rfl
  rw [hsymbol, hsymbol]
  rcases h₂ : m.session.inside (InSession.find name) w₁ with ⟨r, w₂⟩
  rcases h₂' : m.session.inside (InSession.find name) w₁' with ⟨r', w₂'⟩
  rw [h₂] at hled₁ hfind
  rw [h₂, h₂'] at hresult hfound
  obtain rfl : r = r' := hresult
  have hcore₂ : w₂.core = w₂'.core := hfound
  -- the module is released before the steps after it
  have hrest {w₃ w₃' : World σ} {cs : List Call} (hcore₃ : w₃.core = w₃'.core) (hled : w.Leads w₃)
      (htends : w.Tends 0 cs w₃ {m.session.serial}) :
      Agrees (runSteps call owner passed steps (Contract.releaseModule (some m) w₃).2)
        (runSteps call owner' passed steps (Contract.releaseModule (some m) w₃').2) := by
    obtain ⟨failed, hdelete⟩ := m.session.delete_tends w₃
    exact ih _ _ (h.tends (hled.trans (m.session.delete_plain.leads w₃)) (htends.trans hdelete))
      (m.session.delete_plain.alike hcore₃).2
  have hled₂ (e : Event) : w.Leads (w₂.note e) :=
    hled₁.trans (.rest ⟨rfl, rfl, rfl, rfl, rfl, rfl, rfl⟩)
  have htends₂ (e : Event) :=
    (hopen.trans hfind).trans (World.tends_note w₂ e {m.session.serial})
  rcases r with e | _ | address
  · exact hrest (Agrees.note hcore₂ _) (hled₂ _) (htends₂ _)
  · exact hrest (Agrees.note hcore₂ _) (hled₂ _) (htends₂ _)
  dsimp only
  have hrun := hcall address address _ _ (h.tends (hled₂ _) (htends₂ (.imported path (some true))))
    (Agrees.note hcore₂ _) (.inl rfl)
  have hback := hlent address (w₂.note (.imported path (some true)))
  have hon := hleads address (w₂.note (.imported path (some true)))
  rcases h₃ : call address (w₂.note (.imported path (some true))) with ⟨outcome, w₃⟩
  rcases h₃' : call address (w₂'.note (.imported path (some true))) with ⟨outcome', w₃'⟩
  rw [h₃] at hback hon
  rw [h₃, h₃'] at hrun
  obtain ⟨rfl, hafter⟩ := hrun
  cases outcome with
  | returned value =>
    obtain ⟨cs', hreturned⟩ := hback.tends
    have hcalled := hreturned.beside {m.session.serial}
    exact hrest (Agrees.note hafter _)
      (((hled₂ _).trans hon).trans (.rest ⟨rfl, rfl, rfl, rfl, rfl, rfl, rfl⟩))
      (((htends₂ _).trans hcalled).trans (World.tends_note w₃ _ _))
  | raised signal landing => exact ⟨rfl, hafter⟩
  | ended status => exact ⟨rfl, hafter⟩

/-- The steps of a routine, if the code that they call is run alike. -/
theorem runSteps_twins (hlent : ∀ a (w : World σ), w.Lent (call a w))
    (hleads : ∀ a (w : World σ), w.Leads (call a w).2)
    (hcall : ∀ a a' (w w' : World σ), T.Twins text n n' w → w.core = w'.core →
      T.Peers n n' w a a' → Agrees (call a w) (call a' w'))
    (hshares : T.Shares text n n' owner owner' steps) (h : T.Twins text n n' w)
    (hcore : w.core = w'.core) :
    Agrees (runSteps call owner passed steps w) (runSteps call owner' passed steps w') := by
  induction steps generalizing w w' with
  | nil => exact ⟨rfl, hcore⟩
  | cons step steps ih =>
    have ih : ∀ w w' : World σ, T.Twins text n n' w → w.core = w'.core →
        Agrees (runSteps call owner passed steps w) (runSteps call owner' passed steps w') :=
      fun _ _ h hcore => ih hshares.tail h hcore
    cases step with
    | returns status => exact ⟨rfl, hcore⟩
    | returnsCount => exact ⟨rfl, hcore⟩
    | raises number =>
      rw [runSteps, runSteps]
      split
      · exact Agrees.raise _ hcore
      · exact ih _ _ h hcore
    | speaks said => exact ih _ _ (h.note _) (Agrees.note hcore _)
    | showsArguments => exact ih _ _ (h.note _) (Agrees.note hcore _)
    | calls name => exact callStep_twins hlent hleads hcall ih h hcore hshares
    | imports path name => exact importStep_twins hlent hleads hcall ih h hcore path name

end Steps

/-- **It makes no difference which of two twins is run**, however deep the calls are nested. -/
theorem callAddress_twins (haddressed : T.Addressed n text) (haddressed' : T.Addressed n' text)
    (depth : Nat) (h : T.Twins text n n' w) (hcore : w.core = w'.core)
    (hpeers : T.Peers n n' w a a') :
    Agrees (callAddress depth a passed w) (callAddress depth a' passed w') := by
  induction depth generalizing w w' a a' passed with
  | zero => exact Agrees.raise .segv hcore
  | succ depth ih =>
    have hcompiler := World.compiler_of_core hcore
    have hsteps {owner owner' : Nat} {steps : List Action}
        (hshares : T.Shares text n n' owner owner' steps) :
        Agrees (runSteps (fun a w => callAddress depth a .nothing w) owner passed steps w)
          (runSteps (fun a w => callAddress depth a .nothing w) owner' passed steps w') :=
      runSteps_twins (fun a w => callAddress_lent depth a .nothing w)
        (fun a w => callAddress_lasts World.Leads.lasting depth a .nothing w)
        (fun a a' w w' h hcore hpeers => ih h hcore hpeers) hshares h hcore
    rw [callAddress, callAddress, hcompiler]
    rcases hpeers with rfl | ⟨name, ha, ha'⟩
    · cases Compiler.routine? w.compiler a with
      | none => exact callOutside_agrees a hcore
      | some routine => exact hsteps (.inl rfl)
    · obtain ⟨steps, hlookup, hroutine⟩ := T.runs h.contains.1 haddressed ha
      obtain ⟨steps', hlookup', hroutine'⟩ := T.runs h.contains.2 haddressed' ha'
      obtain rfl := Option.some.inj (hlookup.symm.trans hlookup')
      rw [hroutine, hroutine']
      refine hsteps (.inr ⟨rfl, rfl, fun name hname => ?_⟩)
      exact ⟨_, mem_of_lookup_eq_some hlookup, hname⟩

/-! ## Modules -/

/-- Twins are told by the core of a world. -/
theorem Twins.congr (h : T.Twins text n n' w) (hcore : w.core = w₁.core) :
    T.Twins text n n' w₁ := by
  have hcompiler := World.compiler_of_core hcore
  have hmade : w.core.made = w₁.core.made := by rw [hcore]
  have hlinkage : w.core.linkage = w₁.core.linkage := by rw [hcore]
  have hmade : w.made = w₁.made := hmade
  have hlinkage : w.linkage = w₁.linkage := hlinkage
  refine ⟨⟨hcompiler ▸ h.works.ready, ?_, hlinkage ▸ h.works.sound⟩, hmade ▸ h.made,
    hcompiler ▸ h.contains, hcompiler ▸ h.reach⟩
  rw [← hmade, hcompiler]
  exact h.works.made

/-- Looking a name up in a session that can be called finds it, and nothing else happens. -/
theorem find_apply {s : Session} (hw : T.Works w) (hs : s.serial < w.made)
    (hrelocated : s.relocated = true) (hnul : hasNul name = false) :
    ∃ w₁, s.inside (InSession.find name) w = (.ok (T.symbol? w.compiler s.serial name), w₁) ∧
      w₁.core = w.core := by
  have hask : w.ask s.serial (.findSymbol name) =
      (⟨[], false, T.symbol? w.compiler s.serial name⟩,
        { w with calls := w.calls.push (.asked s.serial (.findSymbol name) false) }) := by
    rw [World.ask, T.finds name w.files hw.ready (hw.made ▸ hs)]
  have hcond : (s.relocated && !hasNul name) = true := by rw [hrelocated, hnul]; rfl
  have hrun : s.inside (InSession.find name) w = (.ok (w.ask s.serial (.findSymbol name)).1.address,
      (w.ask s.serial (.findSymbol name)).2) := by
    rw [Session.inside, InSession.find, Attempt.bind_of_ok (x := InSession.session) rfl,
      if_pos hcond]
    rfl
  rw [hrun, hask]
  exact ⟨_, rfl, rfl⟩

/-- **It makes no difference which of two modules is run** if their states are twins, but for the
report of a crash. -/
theorem runModule_twins {m m' : Module} (hpath : m'.path = m.path)
    (hrelocated : m.session.relocated = true ∧ m'.session.relocated = true)
    (haddressed : T.Addressed m.session.serial text ∧ T.Addressed m'.session.serial text)
    (h : T.Twins text m.session.serial m'.session.serial w) (args : List String) :
    (Engine.runModule m args w).1.map RunResult.verdict =
        (Engine.runModule m' args w).1.map RunResult.verdict ∧
      (Engine.runModule m args w).2.core = (Engine.runModule m' args w).2.core := by
  have hnul : hasNul mainEntry = false := by decide
  obtain ⟨w₁, hfind, hcore⟩ := find_apply h.works h.made.1 hrelocated.1 hnul
  obtain ⟨w₁', hfind', hcore'⟩ := find_apply h.works h.made.2 hrelocated.2 hnul
  have hsome := T.isSome_symbol mainEntry h.contains.1
  have hsome' := T.isSome_symbol mainEntry h.contains.2
  have hsame : w₁.core = w₁'.core := hcore.trans hcore'.symm
  rw [Engine.runModule, Engine.runModule, runEntry, runEntry, Attempt.bind_of_ok hfind,
    Attempt.bind_of_ok hfind', hpath]
  cases ha : T.symbol? w.compiler m.session.serial mainEntry with
  | none =>
    have hnone' : T.symbol? w.compiler m'.session.serial mainEntry = none := by
      rw [← Option.not_isSome_iff_eq_none, hsome', ← hsome, ha]
      simp
    rw [hnone']
    exact ⟨rfl, hsame⟩
  | some a =>
    obtain ⟨a', ha'⟩ := Option.isSome_iff_exists.1 (hsome'.2 (hsome.1 (by rw [ha]; rfl)))
    rw [ha']
    dsimp only
    cases Arguments.make (m.path :: args) [] with
    | error fault => exact ⟨rfl, hsame⟩
    | ok arguments =>
      have hentered : T.Twins text m.session.serial m'.session.serial
          (entered ⟨m.session.unitName, mainEntry, 0⟩ m.session.address w₁) :=
        (h.congr hcore.symm).rests ⟨rfl, rfl, rfl, rfl, rfl, rfl, rfl⟩
      have hpeers : T.Peers m.session.serial m'.session.serial
          (entered ⟨m.session.unitName, mainEntry, 0⟩ m.session.address w₁) a a' := by
        have hcompiler := World.compiler_of_core hcore.symm
        rw [← hcompiler] at ha ha'
        exact .inr ⟨mainEntry, ha, ha'⟩
      have hbody : Agrees (callAddress callDepth a arguments.passed
            (entered ⟨m.session.unitName, mainEntry, 0⟩ m.session.address w₁))
          (callAddress callDepth a' arguments.passed
            (entered ⟨m'.session.unitName, mainEntry, 0⟩ m'.session.address w₁')) :=
        callAddress_twins haddressed.1 haddressed.2 callDepth hentered
          (by rw [entered_core, entered_core, hsame]) hpeers
      have hrun := guarded_agrees hsame hbody
      exact ⟨congrArg Except.ok hrun.1, hrun.2⟩

end Translator

end LiveC
