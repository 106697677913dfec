import LiveC.Proofs.Files.Tree
import LiveC.Proofs.Session.LateBinding
import LiveC.Proofs.Session.Translator
/-!
# Building a text

With a translator what comes of a build can be foretold from the text. `Translation.missing` are the
names that the linker misses, and `Translation.late` those that are looked up then: the ones that
the messages miss, the linker's and what the compiler said before. `Translation.linking` is what
comes of linking, and `Translator.build_comes` that a build comes to just that, whether the text is
compiled (`compile_puts`, `compile_comes`) or its object is loaded (`addFile_puts`). A build that
succeeds gives a session with the code of the text. It does so exactly when the text is linkable
(`linking_eq_ok_iff`), and a text that can be compiled and linked can be loaded and linked as well
(`Compilable.loadable`).
-/

namespace LiveC

open InSession Engine

/-! ## What is looked up late -/

namespace Translation

variable {t : Translation} {e e' : Surroundings} {pending : List String} {k k' : Linkage}

/-- What a session remembers of what the compiler says about a text. -/
def heard (t : Translation) : List String := keptMessages t.messages

/-- The names that the linker misses in a session that offers what every session does. -/
def missing (t : Translation) (e : Surroundings) : List String := t.unit.missingWith e []

/-- The names that are looked up when linking fails; some messages are pending before. -/
def late (t : Translation) (e : Surroundings) (pending : List String) : List String :=
  missingNames (pending ++ keptMessages ((t.missing e).map missingMessage))

/-- If names are missed, they are among those that are looked up, and these resolve. -/
def Linkable (t : Translation) (e : Surroundings) (pending : List String) (k : Linkage) : Prop :=
  t.missing e ≠ [] → t.missing e ⊆ t.late e pending ∧
    ∀ n ∈ t.late e pending, (k.resolve n).1.isSome = true ∧ hasNul n = false

/-- The names that are made known when linking failed, with the addresses that they resolve to. -/
def bound (t : Translation) (e : Surroundings) (pending : List String) (k : Linkage) :
    List (String × Address) :=
  if t.missing e = [] then [] else (k.addresses? (t.late e pending)).getD []

theorem missing_congr (h : e.binding = e'.binding) : t.missing e = t.missing e' := by
  rw [missing, missing, LinkState.missingWith, LinkState.missingWith, Linker.offered,
    Linker.offered, h]

theorem late_congr (h : e.binding = e'.binding) : t.late e pending = t.late e' pending := by
  rw [late, late, missing_congr h]

/-- Only the compiler library matters, and which of the names looked up resolve. -/
theorem Linkable.congr (h : t.Linkable e pending k) (hbinding : e'.binding = e.binding)
    (hresolves : t.missing e ≠ [] → ∀ n ∈ t.late e pending, (k'.resolve n).1.isSome = true) :
    t.Linkable e' pending k' := by
  rw [Linkable, missing_congr hbinding, late_congr hbinding]
  intro hne
  obtain ⟨hfound, hall⟩ := h hne
  exact ⟨hfound, fun n hn => ⟨hresolves hne n hn, (hall n hn).2⟩⟩

/-- The names that are missed and found again are readable. -/
theorem Linkable.readable {messages : List String} (h : t.Linkable e (keptMessages messages) k) :
    ∀ n ∈ t.missing e, Readable n := by
  intro n hn
  obtain ⟨hfound, -⟩ := h (List.ne_nil_of_mem hn)
  have hkept : keptMessages messages ++ keptMessages ((t.missing e).map missingMessage) =
      keptMessages (messages ++ (t.missing e).map missingMessage) :=
    (List.filter_append _ _).symm
  have hlate := hfound hn
  rw [late, hkept] at hlate
  exact readable_of_mem_missingNames hlate

theorem late_of_readable (h : ∀ n ∈ t.missing e, Readable n) (pending : List String) :
    t.late e pending = missingNames pending ++ t.missing e := by
  rw [late, keptMessages_missing h, missingNames, List.filterMap_append]
  exact congrArg (missingNames pending ++ ·) (missingNames_missing h)

/-- Without the messages of the compiler as much is found. -/
theorem Linkable.silent {messages : List String} (h : t.Linkable e (keptMessages messages) k) :
    t.Linkable e [] k := by
  intro hne
  obtain ⟨hfound, hall⟩ := h hne
  have hlate : t.late e [] = t.missing e := late_of_readable h.readable []
  rw [hlate]
  exact ⟨List.Subset.refl _, fun n hn => hall n (hfound hn)⟩

end Translation

/-! ## What a build depends on -/

/-- Whether a name resolves. -/
def Linkage.finds (k : Linkage) (name : String) : Bool := (k.resolve name).1.isSome

/-- The failure of a request in a session, after some messages. -/
def Request.failure (q : Request) (unitName : String) (heard : List String) : Failure :=
  .compilation unitName (if heard.isEmpty then [silentFailure q] else heard)

/-- A failure to link misses what the messages miss; the report of one in silence misses nothing. -/
theorem Request.missingNames_failure (unitName : String) (heard : List String) :
    (Request.relocate.failure unitName heard).missingNames = missingNames heard := by
  have hsilent : missingNames [silentFailure .relocate] = [] := by decide
  rw [Request.failure, Failure.missingNames]
  split
  · next h =>
    rw [List.isEmpty_iff.1 h, hsilent]
    rfl
  · rfl

namespace Translation

variable {t : Translation} {e : Surroundings} {pending : List String} {unitName : String}

/-- The names that are missed though some names are known besides. -/
def missingBut (t : Translation) (e : Surroundings) (names : List String) : List String :=
  (t.missing e).filter fun n => !names.contains n

theorem missingBut_nil (t : Translation) (e : Surroundings) : t.missingBut e [] = t.missing e :=
  List.filter_eq_self.2 (by simp)

theorem missingBut_eq_nil_iff {names : List String} :
    t.missingBut e names = [] ↔ t.missing e ⊆ names := by
  simp [missingBut, List.filter_eq_nil_iff, List.subset_def]

theorem missingWith_eq (t : Translation) (e : Surroundings) (names : List (String × Address)) :
    t.unit.missingWith e names = t.missingBut e (names.map Prod.fst) := by
  rw [missingBut, missing, LinkState.missingWith, LinkState.missingWith, LinkState.missing,
    LinkState.missing, List.filter_filter]
  refine List.filter_congr fun n _ => ?_
  simp only [unit, List.append_nil, List.map_append, List.contains_append, Bool.not_or]
  rw [Bool.and_comm, Bool.and_assoc, Bool.and_left_comm, Bool.and_comm (!t.names.contains n)]

/-- The failure to link a text in a session that knows some names besides. -/
def failure (t : Translation) (e : Surroundings) (pending : List String) (unitName : String)
    (names : List String) : Failure :=
  Request.relocate.failure unitName
    (pending ++ keptMessages ((t.missingBut e names).map missingMessage))

/-- When linking fails for the first time, the failure misses what is looked up late. -/
theorem missingNames_failure (t : Translation) (e : Surroundings) (pending : List String)
    (unitName : String) : (t.failure e pending unitName []).missingNames = t.late e pending := by
  rw [failure, Request.missingNames_failure, missingBut_nil]
  rfl

/-- What comes of linking a text that misses names. Those that the failure of the first round misses
are looked up; if all of them are found and can be passed on, there is a second round. -/
def relinking (t : Translation) (e : Surroundings) (pending : List String) (unitName : String)
    (resolves : String → Bool) : Except Failure Unit :=
  let late := t.late e pending
  if late = [] ∨ late.all resolves = false then .error (t.failure e pending unitName [])
  else match late.find? hasNul with
    | some name => .error (.invalidArgument (.interiorNul name))
    | none => if t.missing e ⊆ late then .ok () else .error (t.failure e pending unitName late)

/-- What comes of linking a text. -/
def linking (t : Translation) (e : Surroundings) (pending : List String) (unitName : String)
    (resolves : String → Bool) : Except Failure Unit :=
  if t.missing e = [] then .ok () else t.relinking e pending unitName resolves

/-- Only the compiler library matters. -/
theorem linking_congr {e' : Surroundings} (h : e'.binding = e.binding) (resolves : String → Bool) :
    t.linking e' pending unitName resolves = t.linking e pending unitName resolves := by
  have hbut : t.missingBut e' = t.missingBut e := by
    funext names
    rw [missingBut, missingBut, missing_congr h]
  have hfailure : t.failure e' pending unitName = t.failure e pending unitName := by
    funext names
    rw [failure, failure, hbut]
  rw [linking, linking, relinking, relinking, missing_congr h, late_congr h, hfailure]

/-- A text is linked exactly if it can be. -/
theorem linking_eq_ok_iff {k : Linkage} :
    t.linking e pending unitName k.finds = .ok () ↔ t.Linkable e pending k := by
  unfold linking
  by_cases hmissing : t.missing e = []
  · rw [if_pos hmissing]
    exact iff_of_true rfl fun hne => absurd hmissing hne
  rw [if_neg hmissing, relinking]
  split
  · next h =>
    refine iff_of_false (by simp) fun hlinkable => ?_
    obtain ⟨hsub, hall⟩ := hlinkable hmissing
    rcases h with hnil | hnone
    · exact hmissing (List.subset_nil.1 (hnil ▸ hsub))
    · have htrue : (t.late e pending).all k.finds = true :=
        List.all_eq_true.2 fun n hn => (hall n hn).1
      rw [htrue] at hnone
      exact absurd hnone (by simp)
  · next h =>
    rw [not_or, Bool.not_eq_false] at h
    have hresolves := List.all_eq_true.1 h.2
    split
    · next name hname =>
      refine iff_of_false (by simp) fun hlinkable => ?_
      have hnul := ((hlinkable hmissing).2 name (List.mem_of_find?_eq_some hname)).2
      have hfound := List.find?_some hname
      rw [hnul] at hfound
      exact absurd hfound (by simp)
    · next hnone =>
      have hpassed : ∀ n ∈ t.late e pending, hasNul n = false := fun n hn => by
        simpa using List.find?_eq_none.1 hnone n hn
      split
      · next hsub =>
        exact iff_of_true rfl fun _ => ⟨hsub, fun n hn => ⟨hresolves n hn, hpassed n hn⟩⟩
      · next hsub => exact iff_of_false (by simp) fun hlinkable => hsub (hlinkable hmissing).1

/-- A text is not linked if a name that it misses does not resolve. -/
theorem linking_of_unresolved {k : Linkage} {name : String}
    (hreadable : ∀ n ∈ t.missing e, Readable n) (hname : name ∈ t.missing e)
    (hnone : (k.resolve name).1 = none) :
    t.linking e pending unitName k.finds = .error (t.failure e pending unitName []) := by
  have hlate : name ∈ t.late e pending := by
    rw [late_of_readable hreadable]
    exact List.mem_append_right _ hname
  have hall : (t.late e pending).all k.finds = false :=
    List.all_eq_false.2 ⟨name, hlate, by simp [Linkage.finds, hnone]⟩
  rw [linking, if_neg (List.ne_nil_of_mem hname)]
  exact if_pos (.inr hall)

/-- When nothing was said before, the failure is about the names that are missed. -/
theorem failure_nil (hreadable : ∀ n ∈ t.missing e, Readable n) (hmissing : t.missing e ≠ []) :
    t.failure e [] unitName [] = .compilation unitName ((t.missing e).map missingMessage) := by
  rw [failure, missingBut_nil, keptMessages_missing hreadable, List.nil_append, Request.failure,
    if_neg (by simpa using hmissing)]

end Translation

/-- What of a session does not depend on where it lies. -/
def Session.face (s : Session) : OutputMode × String × Bool × List String :=
  (s.mode, s.unitName, s.relocated, s.pending)

/-- A session when some messages are pending. -/
def Session.withPending (s : Session) (messages : List String) : Session :=
  { s with pending := messages }

namespace Translator

variable {σ α : Type} [Compiler σ] (T : Translator σ)

/-- A session can be called, and its code is that of a text. -/
structure Serves (s : Session) (text : String) (w : World σ) : Prop where
  works : T.Works w
  serial : s.serial < w.made
  relocated : s.relocated = true
  contains : T.Contains w.compiler s.serial text

/-- A session knows the names that every session offers, and then some more. -/
def Knows (e : Surroundings) (names : List (String × Address)) (s : Session) (w : World σ) : Prop :=
  (T.holds w.compiler s.serial).registered = Linker.offered e ++ names

/-- In every session of some surroundings in which nothing is compiled, `load` goes through and puts
in the code of a text. It leaves some messages pending. -/
def Puts (e : Surroundings) (load : InSession σ Unit) (text : String) (pending : List String) :
    Prop :=
  ∀ s (w : World σ), T.Fits e s w → T.Contains w.compiler s.serial "" →
    ∃ w', load (s, w) = (.ok (), (s.withPending pending, w')) ∧ T.Fits e s w' ∧
      w'.linkage = w.linkage ∧ T.Contains w'.compiler s.serial text ∧
      (T.holds w'.compiler s.serial).registered = (T.holds w.compiler s.serial).registered

variable {T} {w w' : World σ} {s : Session} {e : Surroundings} {load : InSession σ Unit}
  {text unitName : String} {pending : List String} {names : List (String × Address)}

/-! ## One round -/

/-- A computation that loads nothing into a session leaves its code as it is. -/
theorem contains_of_asks {x : InSession σ α} {P : Request → Prop} (hplain : InSession.Plain x)
    (hasks : AsksOnly P x) (hkeeps : ∀ q, P q → q.keepsCode = true) (hw : T.Works w)
    (hs : s.serial < w.made) (hc : T.Contains w.compiler s.serial text) :
    T.Contains (x (s, w)).2.2.compiler s.serial text := by
  have hdelete : ∀ q, P q → q ≠ .delete := by
    rintro q hq rfl
    exact absurd (hkeeps _ hq) (by decide)
  obtain ⟨t, -, hP, hmoves⟩ := moves_of_asks hplain hasks hdelete hs hw
  exact hmoves.contains _ hs
    (fun q failed hq => hkeeps q (hP _ (Call.asked_mem_ofRequests.1 hq).2)) text hc

/-- A session is made, and nothing is compiled in it. -/
theorem create_blank (hw : T.Works w) (mode : OutputMode) (unitName : String) :
    ∃ s w', Session.create mode unitName w = (.ok s, w') ∧ w.Adds [.created s.serial] w' ∧
      T.Moves w [.created s.serial] w' ∧ s.serial < w'.made ∧ w'.linkage = w.linkage ∧
      T.Contains w'.compiler s.serial "" := by
  obtain ⟨address, c, hcreate, -⟩ := T.creates hw.ready
  have hblank := T.blank hw.ready hcreate
  rw [← hw.made] at hblank
  exact ⟨⟨w.made, address, mode, unitName, false, []⟩, { w with
      compiler := c
      made := w.made + 1
      calls := w.calls.push (.created w.made) }, by rw [Session.create, hcreate],
    by simp [World.Adds], .created hw hcreate, Nat.lt_succ_self _, rfl, hblank⟩

/-- A session is made and prepared, and knows some names; nothing is compiled in it yet. -/
theorem exists_blank (hw : T.Works w) (hclean : w.surroundings.Clean) (unitName : String)
    (hnames : ∀ n ∈ names, n.2 ≠ 0 ∧ hasNul n.1 = false) :
    ∃ s w₁ w₂, Session.create .memory unitName w = (.ok s, w₁) ∧ s.unitName = unitName ∧
      (∀ load, populate names load (s, w₁) = load (s, w₂)) ∧ T.Fits w.surroundings s w₂ ∧
      w₂.linkage = w.linkage ∧ T.Contains w₂.compiler s.serial "" ∧
      (T.holds w₂.compiler s.serial).registered = Linker.offered w.surroundings ++ names := by
  obtain ⟨s, w₁, hcreate, -, -, hunit, hf, hempty⟩ := Linker.create_fits hw.steady unitName
  obtain ⟨s', w₁', hcreate', -, -, -, hlinkage, hblank⟩ := create_blank hw .memory unitName
  obtain ⟨hs, rfl⟩ := Prod.mk.inj (hcreate.symm.trans hcreate')
  obtain rfl := Except.ok.inj hs
  obtain ⟨_, w₂, hprepare, hquiet⟩ := Linker.prepare_registers hclean s w₁ hf
  have hf₂ := hquiet.fits hf
  have hblank₂ := contains_of_asks InSession.Plain.prepare prepare_asksOnly
    (fun _ => Prepares.keepsCode) (.of_steady hf.toSteady) hf.serial hblank
  rw [hprepare] at hblank₂
  obtain ⟨w₃, hregister, hquiet'⟩ := Linker.names_quiet hf₂ hnames
  have hblank₃ := contains_of_asks (Attempt.Law.Keeps.each fun _ _ => InSession.Plain.addSymbol _ _)
    (names_asksOnly names) (fun _ => Prepares.keepsCode) (.of_steady hf₂.toSteady) hf₂.serial
    hblank₂
  rw [hregister] at hblank₃
  have hall := hquiet.trans hquiet'
  refine ⟨s, w₁, w₃, hcreate, hunit, fun load => ?_, hall.fits hf,
    hall.linkage.trans hlinkage, hblank₃, ?_⟩
  · rw [populate, Attempt.bind_of_ok hprepare, Attempt.bind_of_ok hregister]
  · rw [hall.holds, hempty, LinkState.register, LinkState.empty, List.nil_append]

/-- A state that contains a text misses what the text misses. -/
theorem missing_of_contains (hw : T.Works w) (hs : s.serial < w.made)
    (hc : T.Contains w.compiler s.serial text)
    (hregistered : (T.holds w.compiler s.serial).registered = Linker.offered e ++ names) :
    (T.holds w.compiler s.serial).missing =
      (T.translate text).missingBut e (names.map Prod.fst) := by
  obtain ⟨hneeded, hdefined⟩ := T.holds_contains hw.ready (hw.made ▸ hs) hc
  rw [← Translation.missingWith_eq, LinkState.missing, LinkState.missingWith, LinkState.missing,
    hneeded, hdefined, hregistered]
  simp [Translation.unit]

/-- A session with some names into which a text was put. -/
theorem exists_unit (hw : T.Works w) (hclean : w.surroundings.Clean)
    (hputs : T.Puts w.surroundings load text pending) (unitName : String)
    (hnames : ∀ n ∈ names, n.2 ≠ 0 ∧ hasNul n.1 = false) :
    ∃ s w₁ w₂, Session.create .memory unitName w = (.ok s, w₁) ∧ s.unitName = unitName ∧
      populate names load (s, w₁) = (.ok (), (s.withPending pending, w₂)) ∧
      T.Fits w.surroundings s w₂ ∧ w₂.linkage = w.linkage ∧
      T.Contains w₂.compiler s.serial text ∧
      T.Knows w.surroundings names s w₂ ∧ (T.holds w₂.compiler s.serial).missing =
        (T.translate text).missingBut w.surroundings (names.map Prod.fst) := by
  obtain ⟨s, w₁, w₂, hcreate, hunit, hpopulate, hf, hlinkage, hblank, hregistered⟩ :=
    exists_blank hw hclean unitName hnames
  obtain ⟨w₃, hload, hf₃, hlinkage₃, hc, hregistered₃⟩ := hputs s w₂ hf hblank
  have hknows : T.Knows w.surroundings names s w₃ := hregistered₃.trans hregistered
  exact ⟨s, w₁, w₃, hcreate, hunit, (hpopulate load).trans hload, hf₃, hlinkage₃.trans hlinkage, hc,
    hknows, missing_of_contains (.of_steady hf₃.toSteady) hf₃.serial hc hknows⟩

/-- Linking succeeds if no name is missed, whatever is pending. -/
theorem relocate_of_nil (hf : T.Fits e s w) (hc : T.Contains w.compiler s.serial text)
    (hmissing : (T.holds w.compiler s.serial).missing = []) (hknows : T.Knows e names s w)
    (pending : List String) :
    ∃ s' w', relocate (s.withPending pending, w) = (.ok (), (s', w')) ∧
      s'.face = (.memory, s.unitName, true, pending) ∧ T.Serves s' text w' ∧
      T.Knows e names s' w' := by
  obtain ⟨w₁, hask, -, hf₁, -⟩ := Linker.ask_relocate hf
  have hknows₁ : T.Knows e names s w₁ := by
    have hkept := T.relocate_registered w.files hf.ready (hf.made ▸ hf.serial)
    have hsame : (w.ask s.serial .relocate).2.compiler = w₁.compiler := by rw [hask]
    rw [Knows, ← hsame]
    exact hkept.trans hknows
  have hask' : w.ask (s.withPending pending).serial .relocate = _ := hask
  have hdemand := demand_of_done (r := .relocate) (s := s.withPending pending) (w := w)
    (by rw [hask', hmissing]; rfl)
  have hrun := relocate_of_fresh (s := s.withPending pending) hf.mode hf.relocated w
  rw [Attempt.bind_of_ok hdemand, hask', hmissing] at hrun
  have hcontains := contains_of_asks (s := s.withPending pending) InSession.Plain.relocate
    relocate_asksOnly (by rintro q rfl; rfl) (.of_steady hf.toSteady) hf.serial hc
  rw [hrun] at hcontains
  refine ⟨_, w₁, hrun, ?_, ⟨.of_steady hf₁.toSteady, hf₁.serial, rfl, hcontains⟩, hknows₁⟩
  have hpending : pending ++ keptMessages (([] : List String).map missingMessage) = pending :=
    List.append_nil pending
  exact congrArg₂ (fun mode pending => (mode, s.unitName, true, pending)) hf.mode hpending

/-- Linking fails if names are missed, and the failure is about them and what is pending. -/
theorem relocate_of_ne_nil (hf : T.Fits e s w)
    (hmissing : (T.holds w.compiler s.serial).missing ≠ []) (pending : List String) :
    ∃ w', relocate (s.withPending pending, w) = (.error (Request.relocate.failure s.unitName
        (pending ++ keptMessages ((T.holds w.compiler s.serial).missing.map missingMessage))),
        (s, w')) ∧ T.Fits e s w' ∧ w'.linkage = w.linkage := by
  obtain ⟨w₁, hask, -, hf₁, hlinkage⟩ := Linker.ask_relocate hf
  have hask' : w.ask (s.withPending pending).serial .relocate = _ := hask
  have hdemand := demand_of_failed (r := .relocate) (s := s.withPending pending) (w := w)
    (by rw [hask']; simpa using hmissing)
  have hsession : { s.withPending pending with pending := [] } = s := Linker.session_eq hf.pending
  have hrun := relocate_of_fresh (s := s.withPending pending) hf.mode hf.relocated w
  rw [hsession] at hdemand
  rw [Attempt.bind_of_error hdemand, hask'] at hrun
  exact ⟨w₁, hrun, hf₁, hlinkage⟩

/-! ## The rounds of a build -/

/-- The first round of a text that misses nothing links. -/
theorem linkOnce_of_nil (hw : T.Works w) (hclean : w.surroundings.Clean)
    (hputs : T.Puts w.surroundings load text pending)
    (hmissing : (T.translate text).missing w.surroundings = []) (unitName : String) :
    ∃ s w', Session.opened .memory unitName (linkOnce load) w = (.ok (.ok (), s), w') ∧
      s.face = (.memory, unitName, true, pending) ∧ T.Serves s text w' ∧
      T.Knows w.surroundings [] s w' := by
  obtain ⟨s, w₁, w₂, hcreate, rfl, hpopulate, hf, -, hc, hknows, hleft⟩ :=
    exists_unit hw hclean hputs unitName (List.forall_mem_nil _)
  rw [List.map_nil, Translation.missingBut_nil, hmissing] at hleft
  obtain ⟨s', w₃, hrelocate, hface, hserves⟩ := relocate_of_nil hf hc hleft hknows pending
  refine ⟨s', w₃, Session.opened_of_ok hcreate (p := (s', w₃)) ?_, hface, hserves⟩
  rw [linkOnce, Attempt.bind_of_ok hpopulate, Attempt.capture, hrelocate]

/-- The first round of a text that misses names fails, and the failure is about them. -/
theorem linkOnce_of_ne_nil (hw : T.Works w) (hclean : w.surroundings.Clean)
    (hputs : T.Puts w.surroundings load text pending)
    (hmissing : (T.translate text).missing w.surroundings ≠ []) (unitName : String) :
    ∃ s w', Session.opened .memory unitName (linkOnce load) w =
        (.ok (.error ((T.translate text).failure w.surroundings pending unitName []), s), w') ∧
      T.Fits w.surroundings s w' ∧ w'.linkage = w.linkage := by
  obtain ⟨s, w₁, w₂, hcreate, rfl, hpopulate, hf, hlinkage, -, -, hleft⟩ :=
    exists_unit hw hclean hputs unitName (List.forall_mem_nil _)
  rw [List.map_nil] at hleft
  obtain ⟨w₃, hrelocate, hf₃, hlinkage₃⟩ :=
    relocate_of_ne_nil hf (by rwa [hleft, Translation.missingBut_nil]) pending
  rw [hleft] at hrelocate
  refine ⟨s, w₃, Session.opened_of_ok hcreate (p := (s, w₃)) ?_, hf₃, hlinkage₃.trans hlinkage⟩
  rw [linkOnce, Attempt.bind_of_ok hpopulate, Attempt.capture, hrelocate]
  rfl

/-- The second round links if the missing names are among those that are registered. -/
theorem linkWith_of_subset (hw : T.Works w) (hclean : w.surroundings.Clean)
    (hputs : T.Puts w.surroundings load text pending) (unitName : String)
    (hnames : ∀ n ∈ names, n.2 ≠ 0 ∧ hasNul n.1 = false)
    (hsub : (T.translate text).missing w.surroundings ⊆ names.map Prod.fst) :
    ∃ s w', Session.opened .memory unitName (linkWith names load) w = (.ok ((), s), w') ∧
      s.face = (.memory, unitName, true, pending) ∧ T.Serves s text w' ∧
      T.Knows w.surroundings names s w' := by
  obtain ⟨s, w₁, w₂, hcreate, rfl, hpopulate, hf, -, hc, hknows, hleft⟩ :=
    exists_unit hw hclean hputs unitName hnames
  obtain ⟨s', w₃, hrelocate, hface, hserves⟩ :=
    relocate_of_nil hf hc (hleft.trans (Translation.missingBut_eq_nil_iff.2 hsub)) hknows pending
  refine ⟨s', w₃, Session.opened_of_ok hcreate (p := (s', w₃)) ?_, hface, hserves⟩
  rw [linkWith, Attempt.bind_of_ok hpopulate, hrelocate]

/-- The second round fails if some of the missing names are not registered. -/
theorem linkWith_of_not_subset (hw : T.Works w) (hclean : w.surroundings.Clean)
    (hputs : T.Puts w.surroundings load text pending) (unitName : String)
    (hnames : ∀ n ∈ names, n.2 ≠ 0 ∧ hasNul n.1 = false)
    (hsub : ¬(T.translate text).missing w.surroundings ⊆ names.map Prod.fst) :
    (Session.opened .memory unitName (linkWith names load) w).1 = .error
      ((T.translate text).failure w.surroundings pending unitName (names.map Prod.fst)) := by
  obtain ⟨s, w₁, w₂, hcreate, rfl, hpopulate, hf, -, hc, -, hleft⟩ :=
    exists_unit hw hclean hputs unitName hnames
  have hne : (T.holds w₂.compiler s.serial).missing ≠ [] := fun hnil =>
    hsub (Translation.missingBut_eq_nil_iff.1 (hleft.symm.trans hnil))
  obtain ⟨w₃, hrelocate, -⟩ := relocate_of_ne_nil hf hne pending
  rw [hleft] at hrelocate
  have hbody : linkWith names load (s, w₁) = _ :=
    (Attempt.bind_of_ok hpopulate _).trans hrelocate
  rw [Session.opened_of_failed hcreate hbody]
  rfl

/-- The second round fails if a name cannot be passed on. -/
theorem linkWith_of_refused (hw : T.Works w) (hclean : w.surroundings.Clean)
    (load : InSession σ Unit) (unitName : String) (hnames : ∀ n ∈ names, n.2 ≠ 0)
    {name : String × Address} (h : names.find? (fun n => hasNul n.1) = some name) :
    (Session.opened .memory unitName (linkWith names load) w).1 =
      .error (.invalidArgument (.interiorNul name.1)) := by
  obtain ⟨s, w₁, hcreate, -, -, -, hf, -⟩ := Linker.create_fits hw.steady unitName
  have hregister : T.Refuses w.surroundings
      (Attempt.each names fun n => addSymbol n.1 n.2) name.1 := by
    refine .each Prod.fst (g := fun n => [n]) (fun n hn hmem => ?_) (fun n hmem hn => ?_) h
    · exact fun s w hf =>
        let ⟨w', hrun, hquiet⟩ := Linker.addSymbol_quiet hf (hnames n hmem) hn
        ⟨_, w', hrun, hquiet⟩
    · rw [addSymbol, if_neg (hnames n hmem)]
      exact (Linker.Refuses.checkText hn).bind
  have hbody : T.Refuses w.surroundings (linkWith names load) name.1 :=
    (Linker.Refuses.after (Linker.prepare_registers hclean) hregister.bind).bind
  obtain ⟨p, hrun⟩ := hbody s w₁ hf
  rw [Session.opened_of_failed hcreate hrun]

/-! ## The build -/

/-- What follows a failure to link that misses no names, or names which are not found. -/
theorem retry_of_unresolved {f : Failure} (unitName : String) (load : InSession σ Unit)
    (h : f.missingNames = [] ∨
      f.missingNames.all w.linkage.finds = false) :
    (retry unitName load f w).1 = .error f := by
  unfold retry
  cases hnames : f.missingNames with
  | nil => rfl
  | cons name names =>
    rw [hnames] at h
    have hnone : w.linkage.addresses? (name :: names) = none := by
      rw [← Option.not_isSome_iff_eq_none, Linkage.isSome_addresses?]
      intro hall
      have htrue : (name :: names).all w.linkage.finds = true := List.all_eq_true.2 hall
      rw [htrue] at h
      exact absurd h (by simp)
    obtain ⟨k, hresolve, -⟩ := resolveAll_apply (name :: names) w
    rw [hnone] at hresolve
    dsimp only
    rw [Attempt.bind_of_ok hresolve]
    rfl

/-- What follows a failure to link that misses names all of which are found. -/
theorem exists_retry {f : Failure} (hw : T.Works w) (unitName : String) (load : InSession σ Unit)
    (hne : f.missingNames ≠ [])
    (h : f.missingNames.all w.linkage.finds = true) :
    ∃ names w₁, w.linkage.addresses? f.missingNames = some names ∧ (∀ n ∈ names, n.2 ≠ 0) ∧
      w₁.linkage = w.linkage.after (f.missingNames.map .resolve) ∧
      T.Steady w.surroundings w₁ ∧ retry unitName load f w =
        ((Session.opened .memory unitName (linkWith names load) w₁).1.map Prod.snd,
          (Session.opened .memory unitName (linkWith names load) w₁).2) := by
  obtain ⟨late, hlate⟩ := Option.isSome_iff_exists.1
    ((Linkage.isSome_addresses? w.linkage f.missingNames).2 (List.all_eq_true.1 h))
  have hresolve := resolveAll_of_addresses? hlate
  have hplatform := w.linkage.platform_after (f.missingNames.map .resolve)
  have hsound := hw.sound.after (f.missingNames.map .resolve)
  generalize w.linkage.after (f.missingNames.map .resolve) = k at hresolve hplatform hsound ⊢
  refine ⟨late, { w with linkage := k }, hlate, hw.sound.addresses?_ne_zero hlate, rfl,
    ⟨hw.ready, hw.made, hsound, ?_⟩, ?_⟩
  · rw [World.surroundings, World.surroundings, hplatform]
  · unfold retry
    cases hnames : f.missingNames with
    | nil => exact absurd hnames hne
    | cons name names =>
      rw [hnames] at hresolve
      dsimp only
      rw [Attempt.bind_of_ok hresolve]
      exact Attempt.bind_pure_apply _ Prod.snd { w with linkage := k }

/-- What a build or a part of it comes to: a failure, or a session with the code of a text in which
some messages are pending, and which knows some names besides those that are offered. -/
def Comes (T : Translator σ) (r : Except Failure Session × World σ) (text unitName : String)
    (pending : List String) (e : Surroundings) (names : List (String × Address))
    (outcome : Except Failure Unit) : Prop :=
  r.1.map Session.face = outcome.map (fun _ => (.memory, unitName, true, pending)) ∧
    ∀ s, r.1 = .ok s → T.Serves s text r.2 ∧ T.Knows e names s r.2

theorem comes_of_ok {s : Session} {w' : World σ}
    (hface : s.face = (.memory, unitName, true, pending))
    (hserves : T.Serves s text w' ∧ T.Knows e names s w') :
    T.Comes (.ok s, w') text unitName pending e names (.ok ()) := by
  refine ⟨congrArg Except.ok hface, fun s' hs' => ?_⟩
  obtain rfl := Except.ok.inj hs'
  exact hserves

theorem comes_of_error {r : Except Failure Session × World σ} {f : Failure} (h : r.1 = .error f) :
    T.Comes r text unitName pending e names (.error f) := by
  refine ⟨congrArg (Except.map Session.face) h, fun s hs => ?_⟩
  rw [h] at hs
  exact absurd hs (by simp)

theorem Comes.eq_error {r : Except Failure Session × World σ} {f : Failure}
    (h : T.Comes r text unitName pending e names (.error f)) : r.1 = .error f := by
  have hface := h.1
  cases hr : r.1 with
  | error f' =>
    rw [hr] at hface
    exact congrArg Except.error (Except.error.inj hface)
  | ok s =>
    rw [hr] at hface
    cases hface

theorem Comes.of_ok {r : Except Failure Session × World σ} {outcome : Except Failure Unit}
    (h : T.Comes r text unitName pending e names outcome) (hr : r.1 = .ok s) :
    outcome = .ok () ∧ T.Serves s text r.2 ∧ T.Knows e names s r.2 := by
  refine ⟨?_, h.2 s hr⟩
  have hface := h.1
  rw [hr] at hface
  cases outcome with
  | error f => exact absurd hface (by simp [Except.map])
  | ok => rfl

theorem Comes.exists_ok {r : Except Failure Session × World σ}
    (h : T.Comes r text unitName pending e names (.ok ())) :
    ∃ s, r.1 = .ok s ∧ T.Serves s text r.2 ∧ T.Knows e names s r.2 := by
  have hface := h.1
  cases hr : r.1 with
  | error f =>
    rw [hr] at hface
    exact absurd hface (by simp [Except.map])
  | ok s => exact ⟨s, rfl, h.2 s hr⟩

/-- What comes of the second round of a build. -/
theorem retry_comes (hw : T.Works w) (hclean : w.surroundings.Clean)
    (hputs : T.Puts w.surroundings load text pending) (unitName : String) :
    T.Comes (retry unitName load ((T.translate text).failure w.surroundings pending unitName []) w)
      text unitName pending w.surroundings
        ((w.linkage.addresses? ((T.translate text).late w.surroundings pending)).getD [])
        ((T.translate text).relinking w.surroundings pending unitName w.linkage.finds) := by
  have hlate := (T.translate text).missingNames_failure w.surroundings pending unitName
  unfold Translation.relinking
  dsimp only
  split
  · next h =>
    rw [← hlate] at h
    exact comes_of_error (retry_of_unresolved unitName load h)
  · next h =>
    rw [not_or, Bool.not_eq_false, ← hlate] at h
    obtain ⟨names, w₁, hnames, haddresses, -, hsteady, hretry⟩ :=
      exists_retry hw unitName load h.1 h.2
    rw [hlate] at hnames
    have hfst := Linkage.map_fst_addresses? hnames
    have hclean₁ : w₁.surroundings.Clean := hsteady.surroundings ▸ hclean
    have hputs₁ : T.Puts w₁.surroundings load text pending := hsteady.surroundings ▸ hputs
    rw [hretry, hnames, Option.getD_some, ← hfst]
    split
    · next name hname =>
      rw [List.find?_map] at hname
      obtain ⟨n, hn, rfl⟩ := Option.map_eq_some_iff.1 hname
      have hopened := linkWith_of_refused (.of_steady hsteady) hclean₁ load unitName haddresses hn
      exact comes_of_error (by rw [hopened]; rfl)
    · next hnone =>
      have hpassed : ∀ n ∈ names, n.2 ≠ 0 ∧ hasNul n.1 = false := fun n hn =>
        ⟨haddresses n hn, by
          simpa using List.find?_eq_none.1 hnone n.1 (List.mem_map_of_mem hn)⟩
      split
      · next hsub =>
        rw [← hsteady.surroundings] at hsub
        obtain ⟨s, w', hopened, hface, hserves⟩ :=
          linkWith_of_subset (.of_steady hsteady) hclean₁ hputs₁ unitName hpassed hsub
        rw [hsteady.surroundings] at hserves
        rw [hopened]
        exact comes_of_ok hface hserves
      · next hsub =>
        rw [← hsteady.surroundings] at hsub
        have hopened :=
          linkWith_of_not_subset (.of_steady hsteady) hclean₁ hputs₁ unitName hpassed hsub
        rw [hsteady.surroundings] at hopened
        exact comes_of_error (by rw [hopened]; rfl)

/-- A build of a text that misses names comes down to its second round. -/
theorem build_of_ne_nil (hw : T.Works w) (hclean : w.surroundings.Clean)
    (hputs : T.Puts w.surroundings load text pending)
    (hmissing : (T.translate text).missing w.surroundings ≠ []) (unitName : String) :
    ∃ w₁, T.Steady w.surroundings w₁ ∧ w₁.linkage = w.linkage ∧ build unitName load w =
      retry unitName load ((T.translate text).failure w.surroundings pending unitName []) w₁ := by
  obtain ⟨s, w₁, hopened, hf, hlinkage⟩ := linkOnce_of_ne_nil hw hclean hputs hmissing unitName
  obtain ⟨-, -, hsteady, hlinkage'⟩ := Linker.delete_fits hf
  refine ⟨(s.delete w₁).2, hsteady, hlinkage'.trans hlinkage, ?_⟩
  rw [build, Attempt.bind_of_ok hopened]
  exact Attempt.bind_of_ok (s.delete_apply w₁) _

/-- **What comes of a build is told by the text**, the settings, and which names resolve. -/
theorem build_comes (hw : T.Works w) (hclean : w.surroundings.Clean)
    (hputs : T.Puts w.surroundings load text pending) (unitName : String) :
    T.Comes (build unitName load w) text unitName pending w.surroundings
      ((T.translate text).bound w.surroundings pending w.linkage)
      ((T.translate text).linking w.surroundings pending unitName w.linkage.finds) := by
  unfold Translation.linking Translation.bound
  split
  · next hmissing =>
    obtain ⟨s, w', hopened, hface, hserves⟩ := linkOnce_of_nil hw hclean hputs hmissing unitName
    have hbuild : build unitName load w = (.ok s, w') := by
      rw [build, Attempt.bind_of_ok hopened]
      rfl
    rw [hbuild]
    exact comes_of_ok hface hserves
  · next hmissing =>
    obtain ⟨w₁, hsteady, hlinkage, hbuild⟩ := build_of_ne_nil hw hclean hputs hmissing unitName
    have hcomes := retry_comes (.of_steady hsteady) (hsteady.surroundings ▸ hclean)
      (hsteady.surroundings ▸ hputs) unitName
    rw [hsteady.surroundings, hlinkage] at hcomes
    rw [hbuild]
    exact hcomes

/-- No text is built with settings that cannot be passed on. -/
theorem build_of_refused (hw : T.Works w) {path : String}
    (h : w.surroundings.refused? = some path) (unitName : String) (load : InSession σ Unit) :
    (build unitName load w).1 = .error (.invalidArgument (.interiorNul path)) := by
  obtain ⟨s, w₁, hcreate, -, -, -, hf, -⟩ := Linker.create_fits hw.steady unitName
  have hbody : T.Refuses w.surroundings (linkOnce load) path :=
    (Linker.prepare_refuses h).bind.bind
  obtain ⟨p, hrun⟩ := hbody s w₁ hf
  rw [build, Attempt.bind_of_error (Session.opened_of_failed hcreate hrun)]

/-- Settings with which something was built hold no text that cannot be passed on. -/
theorem clean_of_build (hw : T.Works w) (h : build unitName load w = (.ok s, w')) :
    w.surroundings.Clean := by
  rw [← Surroundings.refused?_eq_none]
  cases hrefused : w.surroundings.refused? with
  | none => rfl
  | some path =>
    have hfailed := build_of_refused hw hrefused unitName load
    rw [h] at hfailed
    exact absurd hfailed (by simp)

/-- A text that can be linked is built. -/
theorem build_of_linkable (hw : T.Works w) (hclean : w.surroundings.Clean)
    (hputs : T.Puts w.surroundings load text pending)
    (hlinkable : (T.translate text).Linkable w.surroundings pending w.linkage)
    (unitName : String) : ∃ s w', build unitName load w = (.ok s, w') ∧ T.Serves s text w' := by
  have hcomes := build_comes hw hclean hputs unitName
  rw [Translation.linking_eq_ok_iff.2 hlinkable] at hcomes
  obtain ⟨s, hs, hserves, -⟩ := hcomes.exists_ok
  exact ⟨s, _, Prod.ext hs rfl, hserves⟩

/-- A text that was built could be linked, and the session has its code. -/
theorem serves_of_build (hw : T.Works w) (hputs : T.Puts w.surroundings load text pending)
    (h : build unitName load w = (.ok s, w')) :
    (T.translate text).Linkable w.surroundings pending w.linkage ∧ T.Serves s text w' ∧
      T.Knows w.surroundings ((T.translate text).bound w.surroundings pending w.linkage) s w' := by
  have hcomes := build_comes hw (clean_of_build hw h) hputs unitName
  rw [h] at hcomes
  obtain ⟨hlinked, hserves⟩ := hcomes.of_ok rfl
  exact ⟨Translation.linking_eq_ok_iff.1 hlinked, hserves⟩

/-- When a text that misses names was built, these were resolved in turn, and nothing but the second
round came after. -/
theorem exists_leads_of_build (hw : T.Works w) (hplain : InSession.Plain load)
    (hputs : T.Puts w.surroundings load text pending)
    (hmissing : (T.translate text).missing w.surroundings ≠ [])
    (h : build unitName load w = (.ok s, w')) :
    ∃ w₁ : World σ, w₁.linkage = w.linkage.after
      (((T.translate text).late w.surroundings pending).map .resolve) ∧ w₁.Leads w' := by
  obtain ⟨w₁, hsteady, hlinkage, hbuild⟩ :=
    build_of_ne_nil hw (clean_of_build hw h) hputs hmissing unitName
  rw [h] at hbuild
  rw [← hlinkage, ← Translation.missingNames_failure _ _ _ unitName]
  generalize (T.translate text).failure w.surroundings pending unitName [] = f at hbuild ⊢
  by_cases hfound : f.missingNames ≠ [] ∧ f.missingNames.all w₁.linkage.finds = true
  · obtain ⟨names, w₂, -, -, hresolved, -, hretry⟩ :=
      exists_retry (.of_steady hsteady) unitName load hfound.1 hfound.2
    have hround : InSession.Plain (linkWith names load) :=
      (populate_plain hplain names).bind fun _ => InSession.Plain.relocate
    obtain ⟨-, rfl⟩ := Prod.mk.inj (hbuild.trans hretry)
    exact ⟨w₂, hresolved, (Session.opened_plain hround .memory unitName).leads w₂⟩
  · have hunresolved : f.missingNames = [] ∨ f.missingNames.all w₁.linkage.finds = false := by
      rwa [not_and_or, not_ne_iff, Bool.not_eq_true] at hfound
    exact absurd ((congrArg Prod.fst hbuild).trans (retry_of_unresolved unitName load hunresolved))
      (by simp)

/-- What cannot be put into a session is not built. -/
theorem build_of_unputtable {f : Failure} (hw : T.Works w) (hclean : w.surroundings.Clean)
    (hfails : ∀ s (w' : World σ), T.Fits w.surroundings s w' → T.Contains w'.compiler s.serial "" →
      s.unitName = unitName → ∃ p, load (s, w') = (.error f, p)) :
    (build unitName load w).1 = .error f := by
  obtain ⟨s, w₁, w₂, hcreate, hunit, hpopulate, hf, -, hblank, -⟩ :=
    exists_blank hw hclean unitName (List.forall_mem_nil _)
  obtain ⟨p, hload⟩ := hfails s w₂ hf hblank hunit
  have hbody : linkOnce load (s, w₁) = (.error f, p) :=
    Attempt.bind_of_error ((hpopulate load).trans hload) _
  rw [build, Attempt.bind_of_error (Session.opened_of_failed hcreate hbody)]

/-! ## Texts and objects -/

theorem demandWith_of_text (h : hasNul text = false) (q : Request) (p : Session × World σ) :
    demandWith text q p = demand q p := by
  rw [demandWith, checkText, h, if_neg (by simp), Attempt.bind_of_ok (Attempt.pure_apply () p)]

theorem demandWith_of_nul (h : hasNul text = true) (q : Request) (p : Session × World σ) :
    demandWith text q p = (.error (.invalidArgument (.interiorNul text)), p) := by
  rw [demandWith, checkText, if_pos h]
  rfl

/-- A request that puts in a text, and succeeds. -/
theorem demand_puts {q : Request} {messages : List String} {c' : σ} (hf : T.Fits e s w)
    (hanswer : Compiler.answer s.serial q w.files w.compiler =
      (⟨messages, false, none⟩, w.files, c'))
    (hc : T.Contains c' s.serial text)
    (hregistered : (T.holds c' s.serial).registered = (T.holds w.compiler s.serial).registered) :
    ∃ w', demand q (s, w) = (.ok (), (s.withPending (keptMessages messages), w')) ∧
      T.Fits e s w' ∧ w'.linkage = w.linkage ∧ T.Contains w'.compiler s.serial text ∧
      (T.holds w'.compiler s.serial).registered = (T.holds w.compiler s.serial).registered := by
  obtain ⟨hready, hsize⟩ := T.answer_ready q w.files hf.ready (hf.made ▸ hf.serial)
  have hask := Linker.ask_of_answer hanswer
  rw [hanswer] at hready hsize
  have hdemand := demand_of_done (r := q) (s := s) (w := w) (by rw [hask])
  rw [hask, hf.pending] at hdemand
  refine ⟨_, hdemand, ?_, rfl, hc, hregistered⟩
  exact ⟨⟨hready, hf.made.trans hsize.symm, hf.sound, hf.surroundings⟩, hf.serial, hf.mode,
    hf.relocated, hf.pending⟩

theorem compile_puts (hnul : hasNul text = false)
    (htranslated : (T.translate text).failed = false) (e : Surroundings) :
    T.Puts e (InSession.compile text) text (T.translate text).heard := by
  intro s w hf hblank
  obtain ⟨c', hanswer, hok⟩ := T.compiles text w.files hf.ready (hf.made ▸ hf.serial) hblank
  rw [htranslated] at hanswer
  obtain ⟨hc, hregistered⟩ := hok htranslated
  rw [InSession.compile, demandWith_of_text hnul]
  exact demand_puts hf hanswer hc hregistered

/-- A path that leads to something can be passed to the compiler. -/
theorem hasNul_of_exists? {files : FileTree} {path : String} (h : files.exists? path = true) :
    hasNul path = false := by
  have hpath := FileTree.isPath_of_exists? h
  simp only [FileTree.isPath, Bool.and_eq_true, Bool.not_eq_true'] at hpath
  exact hpath.1.1.2

/-- A file that is there is passed to the compiler. -/
theorem addFile_of_exists {path : String} (h : w.files.exists? path = true) (s : Session) :
    InSession.addFile path (s, w) = demand (.addFile path) (s, w) := by
  rw [InSession.addFile, Attempt.bind_of_ok (x := InSession.world) rfl, if_pos h,
    demandWith_of_text (hasNul_of_exists? h)]

theorem addFile_puts {path : String} (hobject : e.files.bytes? path = some (T.object text))
    (htranslated : (T.translate text).failed = false) :
    T.Puts e (InSession.addFile path) text [] := by
  intro s w hf hblank
  have hfiles : e.files = w.files := by rw [← hf.surroundings, World.surroundings]
  rw [hfiles] at hobject
  obtain ⟨c', hanswer, hc, hregistered⟩ :=
    T.loads hf.ready (hf.made ▸ hf.serial) hblank htranslated hobject
  rw [addFile_of_exists (FileTree.exists?_of_bytes? hobject)]
  exact demand_puts hf hanswer hc hregistered

/-- A text that the compiler does not take is not put in. -/
theorem compile_of_failed (hf : T.Fits e s w) (hblank : T.Contains w.compiler s.serial "")
    (hnul : hasNul text = false) (hfailed : (T.translate text).failed = true) :
    ∃ p, InSession.compile text (s, w) = (.error ((Request.compile text).failure s.unitName
      (T.translate text).heard), p) := by
  obtain ⟨c', hanswer, -⟩ := T.compiles text w.files hf.ready (hf.made ▸ hf.serial) hblank
  have hask := Linker.ask_of_answer hanswer
  have hdemand := demand_of_failed (r := .compile text) (s := s) (w := w)
    (by rw [hask]; exact hfailed)
  rw [hask, hf.pending] at hdemand
  exact ⟨_, by rw [InSession.compile, demandWith_of_text hnul]; exact hdemand⟩

variable (T) in
/-- What comes of compiling a text and linking it. -/
def compiling (w : World σ) (unitName text : String) : Except Failure Unit :=
  match w.surroundings.refused? with
  | some path => .error (.invalidArgument (.interiorNul path))
  | none =>
    if hasNul text then .error (.invalidArgument (.interiorNul text))
    else if (T.translate text).failed then
      .error ((Request.compile text).failure unitName (T.translate text).heard)
    else (T.translate text).linking w.surroundings (T.translate text).heard unitName w.linkage.finds

/-- The settings matter, and which names resolve. -/
theorem compiling_congr (hsettings : w'.settings = w.settings)
    (hresolves : ∀ name, (w'.linkage.resolve name).1.isSome = (w.linkage.resolve name).1.isSome)
    (unitName text : String) : T.compiling w' unitName text = T.compiling w unitName text := by
  obtain ⟨hconfig, hrest⟩ := Prod.mk.inj hsettings
  obtain ⟨hbinding, -⟩ := Prod.mk.inj hrest
  have hrefused : w'.surroundings.refused? = w.surroundings.refused? :=
    Surroundings.refused?_congr hconfig
  have hfinds : w'.linkage.finds = w.linkage.finds := funext hresolves
  have hlinking : (T.translate text).linking w'.surroundings = (T.translate text).linking
      w.surroundings := funext₃ fun _ _ _ => Translation.linking_congr hbinding _
  rw [compiling, compiling, hrefused, hfinds, hlinking]

/-- **What comes of compiling a text into a session of its own.** -/
theorem compile_comes (hw : T.Works w) (text unitName : String) :
    T.Comes (build unitName (InSession.compile text) w) text unitName
      (T.translate text).heard w.surroundings
      ((T.translate text).bound w.surroundings (T.translate text).heard w.linkage)
      (T.compiling w unitName text) := by
  unfold compiling
  split
  · next path hrefused => exact comes_of_error (build_of_refused hw hrefused unitName _)
  next hrefused =>
  have hclean := Surroundings.refused?_eq_none.1 hrefused
  split
  · next hnul =>
    refine comes_of_error (build_of_unputtable hw hclean fun s w' _ _ _ => ⟨(s, w'), ?_⟩)
    exact demandWith_of_nul hnul _ _
  next hnul =>
  have hpassed : hasNul text = false := by simpa using hnul
  split
  · next hfailed =>
    refine comes_of_error (build_of_unputtable hw hclean fun s w' hf hblank hunit => ?_)
    exact hunit ▸ compile_of_failed hf hblank hpassed hfailed
  · next hfailed =>
    exact build_comes hw hclean (compile_puts hpassed (by simpa using hfailed) _) unitName

/-- A text that the compiler does not take is not built, and what it said is the failure. -/
theorem build_of_failed (hw : T.Works w) (hclean : w.surroundings.Clean)
    (hpassed : hasNul text = false) (hfailed : (T.translate text).failed = true)
    (unitName : String) : (build unitName (InSession.compile text) w).1 =
      .error ((Request.compile text).failure unitName (T.translate text).heard) := by
  have hcomes := compile_comes hw text unitName
  rw [compiling, Surroundings.refused?_eq_none.2 hclean, hpassed, if_neg (by simp), hfailed,
    if_pos rfl] at hcomes
  exact hcomes.eq_error

/-- A text about which nothing is said but that it misses names, of which one does not resolve, is
not built. -/
theorem build_of_unresolved {name : String} (hw : T.Works w) (hclean : w.surroundings.Clean)
    (hpassed : hasNul text = false) (hfailed : (T.translate text).failed = false)
    (hsilent : (T.translate text).messages = [])
    (hreadable : ∀ n ∈ (T.translate text).missing w.surroundings, Readable n)
    (hname : name ∈ (T.translate text).missing w.surroundings)
    (hnone : (w.linkage.resolve name).1 = none) (unitName : String) :
    (build unitName (InSession.compile text) w).1 = .error (.compilation unitName
      (((T.translate text).missing w.surroundings).map missingMessage)) := by
  have hheard : (T.translate text).heard = [] := by rw [Translation.heard, hsilent]; rfl
  have hcomes := compile_comes hw text unitName
  rw [compiling, Surroundings.refused?_eq_none.2 hclean, hpassed, if_neg (by simp), hfailed,
    if_neg (by simp), hheard, Translation.linking_of_unresolved hreadable hname hnone,
    Translation.failure_nil hreadable (List.ne_nil_of_mem hname)] at hcomes
  exact hcomes.eq_error

variable (T) in
/-- A text can be compiled and linked. -/
structure Compilable (text : String) (w : World σ) : Prop where
  clean : w.surroundings.Clean
  passed : hasNul text = false
  translated : (T.translate text).failed = false
  linkable : (T.translate text).Linkable w.surroundings
    (T.translate text).heard w.linkage

/-- A text is compiled and linked exactly if it can be. -/
theorem compiling_eq_ok_iff : T.compiling w unitName text = .ok () ↔ T.Compilable text w := by
  unfold compiling
  constructor
  · intro h
    split at h
    · exact absurd h (by simp)
    next hrefused =>
    split at h
    · exact absurd h (by simp)
    next hnul =>
    split at h
    · exact absurd h (by simp)
    next hfailed =>
    exact ⟨Surroundings.refused?_eq_none.1 hrefused, by simpa using hnul, by simpa using hfailed,
      Translation.linking_eq_ok_iff.1 h⟩
  · intro h
    rw [Surroundings.refused?_eq_none.2 h.clean]
    rw [h.passed, h.translated, if_neg (by simp), if_neg (by simp)]
    exact Translation.linking_eq_ok_iff.2 h.linkable

variable (T) in
/-- The object of a text can be loaded and linked. -/
structure Loadable (text : String) (w : World σ) : Prop where
  clean : w.surroundings.Clean
  linkable : (T.translate text).Linkable w.surroundings [] w.linkage

theorem Compilable.loadable (h : T.Compilable text w) : T.Loadable text w :=
  ⟨h.clean, h.linkable.silent⟩

/-- A text that was compiled and linked could be. -/
theorem compilable_of_build (hw : T.Works w)
    (h : build unitName (InSession.compile text) w = (.ok s, w')) :
    T.Compilable text w ∧ T.Serves s text w' ∧ T.Knows w.surroundings
      ((T.translate text).bound w.surroundings (T.translate text).heard w.linkage) s w' := by
  have hcomes := compile_comes hw text unitName
  rw [h] at hcomes
  obtain ⟨hok, hserves⟩ := hcomes.of_ok rfl
  exact ⟨compiling_eq_ok_iff.1 hok, hserves⟩

/-- A text that was compiled into a session is its code. -/
theorem contains_of_compile (hw : T.Works w) (hs : s.serial < w.made)
    (hblank : T.Contains w.compiler s.serial "") {p : Session × World σ}
    (h : InSession.compile text (s, w) = (.ok (), p)) :
    hasNul text = false ∧ (T.translate text).failed = false ∧
      T.Contains p.2.compiler s.serial text := by
  cases hnul : hasNul text with
  | true =>
    rw [InSession.compile, demandWith_of_nul hnul] at h
    exact absurd (Prod.mk.inj h).1 (by simp)
  | false =>
    obtain ⟨c', hanswer, hok⟩ := T.compiles text w.files hw.ready (hw.made ▸ hs) hblank
    have hask := Linker.ask_of_answer hanswer
    rw [InSession.compile, demandWith_of_text hnul] at h
    cases htranslated : (T.translate text).failed with
    | true =>
      have hdemand := demand_of_failed (r := .compile text) (s := s) (w := w)
        (by rw [hask]; exact htranslated)
      exact absurd (hdemand.symm.trans h) (by simp)
    | false =>
      have hdemand := demand_of_done (r := .compile text) (s := s) (w := w)
        (by rw [hask]; exact htranslated)
      rw [← (Prod.mk.inj (hdemand.symm.trans h)).2, hask]
      exact ⟨rfl, rfl, (hok htranslated).1⟩

end Translator

end LiveC
