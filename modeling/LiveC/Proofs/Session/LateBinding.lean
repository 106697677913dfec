import LiveC.Proofs.Compiler.Scripted
/-!
# Late binding

A build goes through at most two rounds. A `Round` is one session of it, from making the state to
the request to link it. With a compiler that only misses names, `late_binding` says all that a build
does: the first round fails exactly when a name is missing; then either every missing name resolves,
and a second round with their addresses succeeds, or one of them does not, and the failure of the
first round is that of the build. No compiler brings a build to a third round.
-/

namespace LiveC

open InSession Engine

variable {σ : Type} [Compiler σ]

/-- One session of a build, begun in a world `w`: it is made and prepared, `names` are registered in
it, `load` runs through in it, and linking it is asked for, which fails or not. `k` is the linkage
once `load` has run, and `cs` are the calls made. -/
structure Engine.Round (unitName : String) (names : List (String × Address))
    (load : InSession σ Unit) (failed : Bool) (w : World σ) (k : Linkage) (cs : List Call) :
    Prop where
  steps : ∃ s w₁ t₁ t₃ p, Session.create .memory unitName w = (.ok s, w₁) ∧
    Populates names load (s, w₁) t₁ (names.map fun n => (.addSymbol n.1 n.2, false)) t₃ p ∧
    p.2.linkage = k ∧ cs = .created s.serial :: Call.ofRequests s.serial
      (t₁ ++ names.map (fun n => (.addSymbol n.1 n.2, false)) ++ t₃ ++ [(.relocate, failed)])

/-- The names that a unit misses in a session that offers what every session does and `names`. -/
def LinkState.missingWith (u : LinkState) (e : Surroundings) (names : List (String × Address)) :
    List String :=
  { u with registered := Linker.offered e ++ names ++ u.registered }.missing

/-- A unit that has nothing misses every name that it needs, if none of them is offered. -/
theorem LinkState.missingWith_eq_needed {u : LinkState} {e : Surroundings}
    (hdefined : u.defined = []) (hregistered : u.registered = [])
    (hoffered : ∀ n ∈ u.needed, n ∉ (Linker.offered e).map Prod.fst) :
    u.missingWith e [] = u.needed := by
  rw [missingWith, missing, List.filter_eq_self]
  intro n hn
  simpa [hdefined, hregistered] using hoffered n hn

namespace Linker

variable {L : Linker σ} {e : Surroundings} {load : InSession σ Unit} {u : LinkState} {w : World σ}
  {names late : List (String × Address)} {unitName : String}

/-! ## One round -/

/-- A round comes to the request to link. -/
theorem exists_round (hload : L.Loads e load u) (hclean : e.Clean) (hw : L.Steady e w)
    (unitName : String) (names : List (String × Address))
    (hnames : ∀ n ∈ names, n.2 ≠ 0 ∧ hasNul n.1 = false) :
    ∃ s w₁ w₂ cs, Session.create .memory unitName w = (.ok s, w₁) ∧ s.serial = w.made ∧
      s.unitName = unitName ∧ populate names load (s, w₁) = (.ok (), (s, w₂)) ∧
      L.Fits e s w₂ ∧ (L.holds w₂.compiler s.serial).missing = u.missingWith e names ∧
      w.Adds cs w₂ ∧
      ∀ failed, Round unitName names load failed w w₂.linkage
        (cs ++ [.asked s.serial .relocate failed]) := by
  obtain ⟨s, w₁, hcreate, hadds, hserial, hunit, hf, hempty⟩ := create_fits hw unitName
  obtain ⟨t₁, w₂, hprepare, hquiet⟩ := prepare_registers hclean s w₁ hf
  obtain ⟨w₃, hregister, hquiet'⟩ := names_quiet (hquiet.fits hf) hnames
  have hall := hquiet.trans hquiet'
  have hholds : L.holds w₃.compiler s.serial = LinkState.empty.register (offered e ++ names) := by
    rw [hall.holds, hempty]
  obtain ⟨t₃, w₄, hrun, hasked, hfits, hleft⟩ := hload s w₃ _ (hall.fits hf) hholds
  refine ⟨s, w₁, w₄, _, hcreate, hserial, hunit, ?_, hfits, ?_,
    hadds.trans (hall.asked.trans hasked).calls, fun failed => ?_⟩
  · rw [populate, Attempt.bind_of_ok hprepare, Attempt.bind_of_ok hregister, hrun]
  · rw [hleft, LinkState.missingWith]
  · refine ⟨s, w₁, t₁, t₃, (s, w₄), hcreate, ⟨(s, w₂), (s, w₃), ⟨hprepare, hquiet.asked⟩,
      ⟨hregister, hquiet'.asked⟩, ⟨hrun, hasked⟩⟩, rfl, ?_⟩
    simp [Call.ofRequests]

/-- A round in which no name is missing links. -/
theorem round_of_nil (hload : L.Loads e load u) (hclean : e.Clean) (hw : L.Steady e w)
    (unitName : String) (hnames : ∀ n ∈ names, n.2 ≠ 0 ∧ hasNul n.1 = false)
    (hmissing : u.missingWith e names = []) :
    ∃ s w₁ p s' w' cs, Session.create .memory unitName w = (.ok s, w₁) ∧
      populate names load (s, w₁) = (.ok (), p) ∧ InSession.relocate p = (.ok (), (s', w')) ∧
      w.Adds cs w' ∧ Round unitName names load false w w'.linkage cs := by
  obtain ⟨s, w₁, w₂, cs, hcreate, -, -, hpopulate, hf, hleft, hadds, hround⟩ :=
    exists_round hload hclean hw unitName names hnames
  obtain ⟨w₃, hrelocate, hadds', hlinkage⟩ := relocate_of_nil hf (hleft.trans hmissing)
  exact ⟨s, w₁, (s, w₂), _, w₃, _, hcreate, hpopulate, hrelocate, hadds.trans hadds',
    hlinkage ▸ hround false⟩

theorem linkOnce_of_nil (hload : L.Loads e load u) (hclean : e.Clean) (hw : L.Steady e w)
    (hmissing : u.missingWith e [] = []) (unitName : String) : ∃ s w' cs,
      Session.opened .memory unitName (linkOnce load) w = (.ok (.ok (), s), w') ∧
      w.Adds cs w' ∧ Round unitName [] load false w w'.linkage cs := by
  obtain ⟨s, w₁, p, s', w', cs, hcreate, hpopulate, hrelocate, hadds, hround⟩ :=
    round_of_nil hload hclean hw unitName (by simp) hmissing
  have hbody : linkOnce load (s, w₁) = (.ok (.ok ()), (s', w')) := by
    rw [linkOnce, Attempt.bind_of_ok hpopulate, Attempt.capture, hrelocate]
  exact ⟨s', w', cs, Session.opened_of_ok hcreate hbody, hadds, hround⟩

theorem linkWith_of_nil (hload : L.Loads e load u) (hclean : e.Clean) (hw : L.Steady e w)
    (hnames : ∀ n ∈ names, n.2 ≠ 0 ∧ hasNul n.1 = false) (hmissing : u.missingWith e names = [])
    (unitName : String) : ∃ s w' cs,
      Session.opened .memory unitName (linkWith names load) w = (.ok ((), s), w') ∧
      w.Adds cs w' ∧ Round unitName names load false w w'.linkage cs := by
  obtain ⟨s, w₁, p, s', w', cs, hcreate, hpopulate, hrelocate, hadds, hround⟩ :=
    round_of_nil hload hclean hw unitName hnames hmissing
  have hbody : linkWith names load (s, w₁) = (.ok (), (s', w')) := by
    rw [linkWith, Attempt.bind_of_ok hpopulate, hrelocate]
  exact ⟨s', w', cs, Session.opened_of_ok hcreate hbody, hadds, hround⟩

/-- A first round in which names are missing fails, and the failure is about them. -/
theorem linkOnce_of_missing (hload : L.Loads e load u) (hclean : e.Clean) (hw : L.Steady e w)
    (hreadable : ∀ n ∈ u.missingWith e [], Readable n) (hmissing : u.missingWith e [] ≠ [])
    (unitName : String) : ∃ s w' cs,
      Session.opened .memory unitName (linkOnce load) w = (.ok (.error (.compilation unitName
        ((u.missingWith e []).map missingMessage)), s), w') ∧ s.serial = w.made ∧
      L.Fits e s w' ∧ w.Adds cs w' ∧ Round unitName [] load true w w'.linkage cs := by
  obtain ⟨s, w₁, w₂, cs, hcreate, hserial, hunit, hpopulate, hf, hleft, hadds, hround⟩ :=
    exists_round hload hclean hw unitName [] (by simp)
  obtain ⟨w₃, hrelocate, hadds', hfits, hlinkage⟩ :=
    relocate_of_missing hf hmissing hleft hreadable
  rw [hunit] at hrelocate
  have hbody : linkOnce load (s, w₁) = (.ok (.error (.compilation unitName
      ((u.missingWith e []).map missingMessage))), (s, w₃)) := by
    rw [linkOnce, Attempt.bind_of_ok hpopulate, Attempt.capture, hrelocate]
  exact ⟨s, w₃, _, Session.opened_of_ok hcreate hbody, hserial, hfits, hadds.trans hadds',
    hlinkage ▸ hround true⟩

/-! ## The second round -/

/-- Nothing is missing once all missing names are registered. -/
theorem missingWith_late (h : late.map Prod.fst = u.missingWith e []) :
    u.missingWith e late = [] := by
  rw [List.eq_nil_iff_forall_not_mem]
  intro n hn
  obtain ⟨hneeded, hdefined, hregistered⟩ := LinkState.mem_missing.1 hn
  simp only [List.map_append, List.mem_append, not_or] at hregistered
  refine hregistered.1.2 ?_
  rw [h, LinkState.missingWith, LinkState.mem_missing]
  simp only [List.append_nil, List.map_append, List.mem_append, not_or]
  exact ⟨hneeded, hdefined, hregistered.1.1, hregistered.2⟩

/-- A failure that misses a name which is not found is final. -/
theorem retry_of_none (unitName : String) (load : InSession σ Unit) {f : Failure}
    {missing : List String} (hmissing : f.missingNames = missing)
    (h : w.linkage.addresses? missing = none) :
    retry unitName load f w = (.error f, (resolveAll missing w).2) ∧
      w.Adds [] (resolveAll missing w).2 := by
  obtain ⟨k, hresolve, -, -⟩ := resolveAll_apply missing w
  rw [hresolve]
  rw [h] at hresolve
  refine ⟨?_, .of_calls_eq rfl⟩
  unfold retry
  rw [hmissing]
  cases missing with
  | nil => exact absurd h (by simp [Linkage.addresses?])
  | cons name rest => exact Attempt.bind_of_ok hresolve _

/-- A failure all of whose names are found is followed by a round with their addresses. -/
theorem retry_of_some (unitName : String) (load : InSession σ Unit) {f : Failure}
    {missing : List String} (hmissing : f.missingNames = missing)
    (hne : missing ≠ []) (h : w.linkage.addresses? missing = some late) (hw : L.Steady e w) :
    ∃ w₁, L.Steady e w₁ ∧ w.Adds [] w₁ ∧ ∀ s w',
      Session.opened .memory unitName (linkWith late load) w₁ = (.ok ((), s), w') →
      retry unitName load f w = (.ok s, w') := by
  obtain ⟨k, hresolve, hsound, hplatform⟩ := resolveAll_apply missing w
  rw [h] at hresolve
  refine ⟨{ w with linkage := k }, ⟨hw.ready, hw.made, hsound hw.sound, ?_⟩, .of_calls_eq rfl, ?_⟩
  · rw [← hw.surroundings, World.surroundings, World.surroundings, hplatform]
  intro s w' hopened
  unfold retry
  rw [hmissing]
  cases missing with
  | nil => exact absurd rfl hne
  | cons name rest => exact (Attempt.bind_of_ok hresolve _).trans (Attempt.bind_of_ok hopened _)

/-! ## The build -/

/-- What a build does with a unit that needs, defines and registers the names of `u`: the first
round makes the calls `cs`, after which the linkage is `k`. -/
structure Binds (e : Surroundings) (load : InSession σ Unit) (u : LinkState) (unitName : String)
    (w : World σ) (k : Linkage) (cs : List Call) : Prop where
  /-- The first round fails exactly when a name is missing. -/
  first : Round unitName [] load (!(u.missingWith e []).isEmpty) w k cs
  /-- The build succeeds exactly when every missing name resolves. -/
  succeeds : (∃ s, (build unitName load w).1 = .ok s) ↔
    ∀ n ∈ u.missingWith e [], (k.resolve n).1.isSome = true
  /-- If nothing is missing, there is one round. -/
  once : u.missingWith e [] = [] → w.Adds cs (build unitName load w).2
  /-- If names are missing and all of them resolve, there is a second round with their addresses,
  and it succeeds. -/
  twice : u.missingWith e [] ≠ [] → (∀ n ∈ u.missingWith e [], (k.resolve n).1.isSome = true) →
    ∃ late deleted w' k' cs', k.addresses? (u.missingWith e []) = some late ∧
      w.Adds (cs ++ [.asked w.made .delete deleted]) w' ∧
      Round unitName late load false w' k' cs' ∧ w'.Adds cs' (build unitName load w).2
  /-- If one of them does not resolve, the build fails as the first round did. -/
  fails : (∃ n ∈ u.missingWith e [], (k.resolve n).1 = none) → ∃ deleted,
    (build unitName load w).1 =
      .error (.compilation unitName ((u.missingWith e []).map missingMessage)) ∧
    w.Adds (cs ++ [.asked w.made .delete deleted]) (build unitName load w).2

/-- A build of a unit that misses nothing. -/
theorem binds_of_nil (hload : L.Loads e load u) (hclean : e.Clean) (hw : L.Steady e w)
    (hmissing : u.missingWith e [] = []) (unitName : String) :
    ∃ k cs, Binds e load u unitName w k cs := by
  obtain ⟨s, w', cs, hopened, hadds, hround⟩ := linkOnce_of_nil hload hclean hw hmissing unitName
  have hbuild : build unitName load w = (.ok s, w') := by
    rw [build, Attempt.bind_of_ok hopened]
    rfl
  refine ⟨w'.linkage, cs, ?_, ?_, fun _ => ?_, fun h => absurd hmissing h, ?_⟩
  · rwa [hmissing]
  · rw [hbuild, hmissing]
    simp
  · rwa [hbuild]
  · rw [hmissing]
    simp

/-- A build of a unit that misses names comes to what follows its first failure to link. -/
theorem build_of_missing (hload : L.Loads e load u)
    (hreadable : ∀ n ∈ u.missingWith e [], Readable n) (hclean : e.Clean) (hw : L.Steady e w)
    (hmissing : u.missingWith e [] ≠ []) (unitName : String) :
    ∃ w₁ cs deleted, Round unitName [] load (!(u.missingWith e []).isEmpty) w w₁.linkage cs ∧
      w.Adds (cs ++ [.asked w.made .delete deleted]) w₁ ∧ L.Steady e w₁ ∧
      build unitName load w = retry unitName load
        (.compilation unitName ((u.missingWith e []).map missingMessage)) w₁ := by
  obtain ⟨s, w₀, cs, hopened, hserial, hf, hadds, hround⟩ :=
    linkOnce_of_missing hload hclean hw hreadable hmissing unitName
  obtain ⟨deleted, hdelete, hsteady, hlinkage⟩ := delete_fits hf
  have hdeleted := hadds.trans hdelete
  rw [hserial] at hdeleted
  refine ⟨(s.delete w₀).2, cs, deleted, ?_, hdeleted, hsteady, ?_⟩
  · rwa [List.isEmpty_eq_false_iff.2 hmissing, hlinkage]
  · rw [build, Attempt.bind_of_ok hopened]
    exact Attempt.bind_of_ok (s.delete_apply w₀) _

/-- If a missing name does not resolve, the first failure to link is final. -/
theorem binds_of_unresolved {w₁ : World σ} {cs : List Call} {deleted : Bool}
    (hround : Round unitName [] load (!(u.missingWith e []).isEmpty) w w₁.linkage cs)
    (hadds : w.Adds (cs ++ [.asked w.made .delete deleted]) w₁)
    (hmissing : u.missingWith e [] ≠ []) (hreadable : ∀ n ∈ u.missingWith e [], Readable n)
    (hbuild : build unitName load w = retry unitName load
      (.compilation unitName ((u.missingWith e []).map missingMessage)) w₁)
    (hlate : w₁.linkage.addresses? (u.missingWith e []) = none) :
    Binds e load u unitName w w₁.linkage cs := by
  have hresolves := w₁.linkage.isSome_addresses? (u.missingWith e [])
  rw [hlate] at hresolves
  obtain ⟨hretry, hadds'⟩ :=
    retry_of_none unitName load (@missingNames_failure unitName _ hreadable) hlate
  rw [hretry] at hbuild
  refine ⟨hround, ?_, fun h => absurd h hmissing, fun _ h => ?_, fun _ => ⟨deleted, ?_, ?_⟩⟩
  · rw [hbuild, ← hresolves]
    simp
  · exact absurd (hresolves.2 h) (by simp)
  · rw [hbuild]
  · rw [hbuild, ← List.append_nil (cs ++ _)]
    exact hadds.trans hadds'

/-- If all missing names resolve, nothing is missing in the second round. -/
theorem binds_of_resolved (hload : L.Loads e load u) (hclean : e.Clean) {w₁ : World σ}
    {cs : List Call} {deleted : Bool}
    (hround : Round unitName [] load (!(u.missingWith e []).isEmpty) w w₁.linkage cs)
    (hadds : w.Adds (cs ++ [.asked w.made .delete deleted]) w₁) (hw : L.Steady e w₁)
    (hmissing : u.missingWith e [] ≠ [])
    (hnames : ∀ n ∈ u.missingWith e [], Readable n ∧ hasNul n = false)
    (hbuild : build unitName load w = retry unitName load
      (.compilation unitName ((u.missingWith e []).map missingMessage)) w₁)
    (hlate : w₁.linkage.addresses? (u.missingWith e []) = some late) :
    Binds e load u unitName w w₁.linkage cs := by
  have hresolves := w₁.linkage.isSome_addresses? (u.missingWith e [])
  rw [hlate] at hresolves
  have hall := hresolves.1 rfl
  have hfst := Linkage.map_fst_addresses? hlate
  have hoffer : ∀ n ∈ late, n.2 ≠ 0 ∧ hasNul n.1 = false := by
    intro n hn
    refine ⟨hw.sound.addresses?_ne_zero hlate n hn, (hnames n.1 ?_).2⟩
    rw [← hfst]
    exact List.mem_map_of_mem hn
  have hfailure := @missingNames_failure unitName _ fun n hn => (hnames n hn).1
  obtain ⟨w₂, hsteady, hadds', hretry⟩ :=
    retry_of_some unitName load hfailure hmissing hlate hw
  obtain ⟨s', w₃, cs', hopened, hadds'', hround'⟩ :=
    linkWith_of_nil hload hclean hsteady hoffer (missingWith_late hfst) unitName
  rw [hretry s' w₃ hopened] at hbuild
  have hbefore := hadds.trans hadds'
  rw [List.append_nil] at hbefore
  refine ⟨hround, ?_, fun h => absurd h hmissing, fun _ _ => ?_, ?_⟩
  · rw [hbuild]
    exact ⟨fun _ => hall, fun _ => ⟨s', rfl⟩⟩
  · rw [hbuild]
    exact ⟨late, deleted, w₂, _, cs', hlate, hbefore, hround', hadds''⟩
  · rintro ⟨n, hn, hnone⟩
    have hsome := hall n hn
    rw [hnone] at hsome
    exact absurd hsome (by simp)

/-- A build of a unit that misses names. -/
theorem binds_of_missing (hload : L.Loads e load u) (hid : ∀ n ∈ u.needed, IsIdentifier n)
    (hclean : e.Clean) (hw : L.Steady e w) (hmissing : u.missingWith e [] ≠ [])
    (unitName : String) : ∃ k cs, Binds e load u unitName w k cs := by
  have hnames : ∀ n ∈ u.missingWith e [], Readable n ∧ hasNul n = false := fun n hn =>
    have hidentifier := hid n (LinkState.mem_missing.1 hn).1
    ⟨hidentifier.readable, hidentifier.hasNul⟩
  have hreadable := fun n hn => (hnames n hn).1
  obtain ⟨w₁, cs, deleted, hround, hadds, hsteady, hbuild⟩ :=
    build_of_missing hload hreadable hclean hw hmissing unitName
  refine ⟨w₁.linkage, cs, ?_⟩
  cases hlate : w₁.linkage.addresses? (u.missingWith e []) with
  | none => exact binds_of_unresolved hround hadds hmissing hreadable hbuild hlate
  | some late =>
    exact binds_of_resolved hload hclean hround hadds hsteady hmissing hnames hbuild hlate

/-- **Late binding is complete and bounded.** A build with a compiler that only misses names
succeeds exactly when every name that is missing after the first round resolves with the libraries
opened by then; the missing names are known in the second round, with the addresses that they
resolved to, before `load` runs. No build makes more than two sessions, whatever the compiler
does. -/
theorem late_binding (hload : L.Loads e load u) (hid : ∀ n ∈ u.needed, IsIdentifier n)
    (hclean : e.Clean) (hw : L.Steady e w) (unitName : String) :
    (∃ k cs, Binds e load u unitName w k cs) ∧
      ∀ (P : Request → Prop) (load' : InSession σ Unit) (w' : World σ), AsksOnly P load' →
        ¬P .relocate → ∃ cs, w'.Adds cs (build unitName load' w').2 ∧
          (cs.filter Call.opens).length ≤ 2 := by
  constructor
  · by_cases hmissing : u.missingWith e [] = []
    · exact binds_of_nil hload hclean hw hmissing unitName
    · exact binds_of_missing hload hid hclean hw hmissing unitName
  · intro P load' w' hasks hP
    obtain ⟨cs, linked, hadds, hcalls, -⟩ := build_calls hasks hP unitName w'
    exact ⟨cs, hadds, hcalls.opens⟩

/-- A world with the scripted compiler, in which there is a library. -/
def libraryWorld : World Scripted.Library := .start (.start []) (.empty 0)
  (.start ⟨[.function "getpid"]⟩ ⟨[]⟩ [⟨"liba.so", ⟨[.function "liba_sum"]⟩, none⟩]) false

/-- A unit that needs a function of a library, and opens the library itself, is built in two
rounds. -/
theorem late_binding_libraryWorld :
    LinkState.missingWith ⟨["liba_sum"], [], []⟩ libraryWorld.surroundings [] = ["liba_sum"] ∧
    (libraryWorld.linkage.resolve "liba_sum").1 = none ∧
    ∃ k cs, Binds libraryWorld.surroundings (do
        compile (Scripted.needing "liba_sum")
        let _ ← (onWorld (Engine.openLibrary "liba.so")).capture)
      ⟨["liba_sum"], [], []⟩ "(inline)" libraryWorld k cs := by
  have hid : IsIdentifier "liba_sum" := by decide
  have hload := (Scripted.needing_loads hid libraryWorld.surroundings).openLibrary "liba.so"
  have hclean : libraryWorld.surroundings.Clean := .start _ _ _ _
  have hsteady : Scripted.linker.Steady libraryWorld.surroundings libraryWorld :=
    .start rfl rfl _ _ _
  have hbinds := late_binding hload (by simpa using hid) hclean hsteady "(inline)"
  exact ⟨by decide +kernel, by decide +kernel, hbinds.1⟩

end Linker

end LiveC
