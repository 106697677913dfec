import LiveC.Proofs.Flags.Settings
import LiveC.Proofs.Module.Importing
/-!
# Two builds of one text

`Fills` says that a text comes into every session that is prepared, in silence. In what way it comes
in makes no difference: when a round of a build is over, all that happened is that there is one more
state, with the code of the text and some names (`Placed`). So two rounds leave two worlds abreast
if they were so before (`Placed.abreast`), and miss the same names. Hence two builds that fill in
one text both fail, or both give a session of the same number (`build_alongside`).
-/

namespace LiveC

open InSession Engine

variable {σ : Type}

/-- What the moves of the engine leave as it is. -/
def World.frame (w : World σ) : (Config × Binding × Bool × Guard) ×
    (Array Event × String × Bool × Option Log × Option String × Option Int32) :=
  ((w.config, w.binding, w.installed, w.guard),
    (w.events, w.output, w.colors, w.log, w.complaint, w.ended))

/-- The surface of a world with one state more. -/
theorem World.surface_of_frame {w w' : World σ} (h : w'.frame = w.frame)
    (hmade : w'.made = w.made + 1) (hfiles : w'.files = w.files)
    (hlinkage : w'.linkage = w.linkage) (c : σ) :
    w'.surface c = { w.surface c with made := w.made + 1 } := by
  simp only [World.frame, Prod.mk.injEq] at h
  obtain ⟨⟨hconfig, hbinding, hinstalled, hguard⟩, -, -, hcolors, hlog, hcomplaint, hended⟩ := h
  simp only [World.surface, World.mk.injEq]
  exact ⟨trivial, hmade, trivial, hfiles, hlinkage, hconfig, hbinding, hinstalled,
    by rw [hguard], trivial, trivial, trivial, hcolors, hlog, hcomplaint, hended⟩

/-- Computations leave the frame of a world as it is. Nothing is said of two worlds. -/
def World.frameLaw : Attempt.Law (World σ) where
  leads w w' := w'.frame = w.frame
  alike _ _ := False
  refl _ := rfl
  trans h h' := h'.trans h

variable [Compiler σ]

theorem World.frame_rules : World.Rules (World.frameLaw (σ := σ)) fun _ => True :=
  .of_moves (fun _ _ => id) fun _ _ _ _ _ _ _ => rfl

/-- A session that is made has the next state. -/
theorem Session.exists_of_create {mode : OutputMode} {unitName : String} {s : Session}
    {w w' : World σ} (h : create mode unitName w = (.ok s, w')) :
    Compiler.create w.compiler = (some s.address, w'.compiler) ∧ s.serial = w.made ∧
      w'.made = w.made + 1 ∧ w'.frame = w.frame ∧ w'.surroundings = w.surroundings := by
  unfold create at h
  rcases hcreate : Compiler.create w.compiler with ⟨_ | address, c⟩
  · rw [hcreate] at h
    exact absurd (Prod.mk.inj h).1 (by simp)
  · rw [hcreate] at h
    obtain ⟨hs, rfl⟩ := Prod.mk.inj h
    obtain rfl := Except.ok.inj hs
    exact ⟨rfl, rfl, rfl, rfl, rfl⟩

theorem Session.delete_congr {s s' : Session} (h : s.serial = s'.serial) :
    (s.delete : Attempt (World σ) Unit) = s'.delete := by
  rw [delete, delete, h]

/-- What comes of linking when some names are missed, and nothing is pending. -/
def linkResult (unitName : String) (missing : List String) : Except Failure Unit :=
  if missing = [] then .ok ()
  else .error (Request.relocate.failure unitName (keptMessages (missing.map missingMessage)))

namespace SourceTranslator

variable (T : SourceTranslator σ)

/-- In every session of some surroundings that was told some settings, `load` goes through in
silence and puts in the code of a text. -/
structure Fills (e : Surroundings) (told : List Request) (load : InSession σ Unit) (text : String) :
    Prop where
  keeps : ∀ {F : Attempt.Law (World σ)} {P : Nat → Prop}, World.Rules F P →
    (F.inSession P).Keeps load
  asks : AsksOnly InSession.Puts load
  fills : ∀ {s w c qs}, T.Fits e s w → T.Opens c qs w.compiler → T.size c = s.serial →
    qs.filter Request.isSetting = told → T.Contains w.compiler s.serial "" →
    ∃ w', load (s, w) = (.ok (), (s, w')) ∧ T.Fits e s w' ∧ w'.linkage = w.linkage ∧
      T.Contains w'.compiler s.serial text ∧
      (T.holds w'.compiler s.serial).registered = (T.holds w.compiler s.serial).registered

/-- There is one more state, with the code of a text and with some names besides those that every
session offers, and nothing else happened that the engine sees. -/
structure Placed (text : String) (names : List (String × Address)) (w w' : World σ) : Prop where
  works : T.Works w'
  surroundings : w'.surroundings = w.surroundings
  surface : ∀ c, w'.surface c = { w.surface c with made := w.made + 1 }
  opens : ∃ qs, T.Opens w.compiler qs w'.compiler
  contains : T.Contains w'.compiler w.made text
  knows : (T.holds w'.compiler w.made).registered = Linker.offered w.surroundings ++ names

variable {T} {k : Nat} {w w' w₁ w₁' : World σ} {s s' : Session} {e : Surroundings}
  {load load' : InSession σ Unit} {text unitName unitName' : String}
  {names : List (String × Address)}

theorem Placed.made (h : T.Placed text names w w₁) : w₁.made = w.made + 1 := by
  have hmade := congrArg World.made (h.surface w.compiler)
  exact hmade

theorem Abreast.surroundings (h : T.Abreast k w w') : w.surroundings = w'.surroundings := by
  have hsame := congrArg World.surroundings (h.surface w.compiler)
  exact hsame

/-- **In what way a text came in makes no difference.** -/
theorem Placed.abreast (hw : T.Works w) (hw' : T.Works w') (h : T.Placed text names w w₁)
    (h' : T.Placed text names w' w₁') (hab : T.Abreast w.made w w') :
    T.Abreast (w.made + 1) w₁ w₁' where
  surface c := by
    rw [h.surface, h'.surface, hab.surface c, hab.made_eq]
  compiler := by
    obtain ⟨qs, hopens⟩ := h.opens
    obtain ⟨qs', hopens'⟩ := h'.opens
    have hsize : T.size w'.compiler = T.size w.compiler := by
      rw [← hw.made, ← hw'.made, hab.made_eq]
    have hcontains := h.contains
    have hcontains' := h'.contains
    have hknows := h.knows
    have hknows' := h'.knows
    have halike := hab.compiler
    rw [← hab.made_eq, ← hab.surroundings] at hknows'
    rw [← hab.made_eq] at hcontains'
    rw [hw.made] at halike hcontains hcontains' hknows hknows' ⊢
    exact T.alike_text halike hsize hopens hopens' hcontains hcontains' (hknows.trans hknows'.symm)
  made := h.made.ge

/-! ## One round -/

/-- What comes of linking a session in which nothing is pending. -/
theorem relocate_result (hf : T.Fits e s w) (hc : T.Contains w.compiler s.serial text) :
    ∃ w', relocate (s, w) = (linkResult s.unitName (T.holds w.compiler s.serial).missing,
        ({ s with relocated := (T.holds w.compiler s.serial).missing.isEmpty }, w')) ∧
      T.Fits e s w' ∧ w'.linkage = w.linkage ∧ T.Contains w'.compiler s.serial text ∧
      (T.holds w'.compiler s.serial).registered = (T.holds w.compiler s.serial).registered := by
  obtain ⟨w', hask, -, hf', hlinkage⟩ := Linker.ask_relocate hf
  have hserial : s.serial < T.size w.compiler := hf.made ▸ hf.serial
  have hc' := T.answer_contains w.files hf.ready hserial (q := .relocate) rfl hc
  have hknown := T.relocate_registered w.files hf.ready hserial
  have hcompiler : (Compiler.answer s.serial .relocate w.files w.compiler).2.2 = w'.compiler :=
    congrArg (fun r : Reply × World σ => r.2.compiler) hask
  rw [hcompiler] at hc' hknown
  refine ⟨w', ?_, hf', hlinkage, hc', hknown⟩
  rw [relocate_of_fresh hf.mode hf.relocated, linkResult]
  split
  · next hnil =>
    have hdemand := demand_of_done (r := .relocate) (s := s) (w := w) (by rw [hask, hnil]; rfl)
    have hpending : s.pending ++ keptMessages (w.ask s.serial .relocate).1.messages =
        s.pending := by
      rw [hask, hnil]
      exact List.append_nil _
    rw [hpending, hask] at hdemand
    rw [Attempt.bind_of_ok hdemand, hnil]
    rfl
  · next hne =>
    have hdemand := demand_of_failed (r := .relocate) (s := s) (w := w)
      (by rw [hask]; simpa using hne)
    rw [hf.pending, List.nil_append, hask] at hdemand
    have hsession : { s with relocated := (T.holds w.compiler s.serial).missing.isEmpty } =
        { s with pending := [] } := by
      have hfalse : (T.holds w.compiler s.serial).missing.isEmpty = false := by simpa using hne
      rw [hfalse, ← hf.relocated, ← hf.pending]
    rw [Attempt.bind_of_error hdemand, hsession]
    rfl

/-- **A round of a build** puts a text into the next state and links it. -/
theorem exists_placed (hw : T.Works w) (hclean : w.surroundings.Clean)
    (hfills : T.Fills w.surroundings w.surroundings.told load text) (unitName : String)
    (hnames : ∀ n ∈ names, n.2 ≠ 0 ∧ hasNul n.1 = false) :
    ∃ s w₁ w₂ w₃, Session.create .memory unitName w = (.ok s, w₁) ∧ s.serial = w.made ∧
      populate names load (s, w₁) = (.ok (), (s, w₂)) ∧
      relocate (s, w₂) = (linkResult unitName
          ((T.translate text).missingBut w.surroundings (names.map Prod.fst)),
        ({ s with relocated := ((T.translate text).missingBut w.surroundings
            (names.map Prod.fst)).isEmpty }, w₃)) ∧
      T.Placed text names w w₃ := by
  obtain ⟨s, w₁, w₂, hcreate, rfl, hpopulate, hf, hlinkage, hblank, hknows⟩ :=
    Translator.exists_blank hw hclean unitName hnames
  obtain ⟨hstate, hserial, hmade, hframe, hsame⟩ := Session.exists_of_create hcreate
  -- the state was told the settings of the surroundings, so the text comes in
  obtain ⟨qs, hasks, htold⟩ := populate_tells names (s, w₁) () _ (hpopulate (pure ()))
  have hsize : s.serial = T.size w.compiler := hserial.trans hw.made
  have hopens : T.Opens w.compiler qs w₂.compiler := by
    rw [hsize] at hasks
    exact ⟨hw.ready, s.address, w₁.compiler, hstate, hasks⟩
  rw [hsame] at htold
  obtain ⟨w₃, hload, hf₃, hlinkage₃, hc₃, hknows₃⟩ :=
    hfills.fills hf hopens hsize.symm htold hblank
  obtain ⟨w₄, hrelocate, hf₄, hlinkage₄, hc₄, hknows₄⟩ := relocate_result hf₃ hc₃
  have hknown := hknows₃.trans hknows
  rw [Translator.missing_of_contains (.of_steady hf₃.toSteady) hf₃.serial hc₃ hknown] at hrelocate
  have hpopulated := (hpopulate load).trans hload
  have hround : linkWith names load (s, w₁) = _ := (Attempt.bind_of_ok hpopulated _).trans hrelocate
  -- nothing happened but requests to that state
  obtain ⟨t, hasked, -⟩ := linkWith_asksOnly hfills.asks names (s, w₁)
  have hplain : InSession.Plain (linkWith names load) :=
    (populate_plain (plain_iff.2 (hfills.keeps World.law_rules)) names).bind fun _ =>
      InSession.Plain.relocate
  have hall := hasked.asks hplain
  have hkept : (linkWith names load (s, w₁)).2.2.frame = w₁.frame :=
    ((World.frame_rules.populate (hfills.keeps World.frame_rules) names).bind
      fun _ => World.frame_rules.relocate).leads (s, w₁)
  rw [hround] at hasked hall hkept
  rw [hsize] at hall
  have hsurroundings : w₄.surroundings = w.surroundings := hf₄.surroundings
  refine ⟨s, w₁, w₃, w₄, hcreate, hserial, hpopulated, hrelocate, .of_steady hf₄.toSteady,
    hsurroundings, ?_, ⟨_, hw.ready, s.address, w₁.compiler, hstate, hall⟩, hserial ▸ hc₄, ?_⟩
  · exact World.surface_of_frame (hkept.trans hframe) (hasked.made.trans hmade)
      (congrArg Surroundings.files hsurroundings) (hlinkage₄.trans (hlinkage₃.trans hlinkage))
  · rw [← hserial]
    exact hknows₄.trans hknown

/-- The first round of a build. -/
theorem exists_linkOnce (hw : T.Works w) (hclean : w.surroundings.Clean)
    (hfills : T.Fills w.surroundings w.surroundings.told load text) (unitName : String) :
    ∃ s w₁, Session.opened .memory unitName (linkOnce load) w =
        (.ok (linkResult unitName ((T.translate text).missing w.surroundings), s), w₁) ∧
      s.serial = w.made ∧ s.relocated = ((T.translate text).missing w.surroundings).isEmpty ∧
      T.Placed text [] w w₁ := by
  obtain ⟨s, w₁, w₂, w₃, hcreate, hserial, hpopulate, hrelocate, hplaced⟩ :=
    exists_placed hw hclean hfills unitName (List.forall_mem_nil _)
  rw [List.map_nil, Translation.missingBut_nil] at hrelocate
  have hbody : linkOnce load (s, w₁) = _ :=
    (Attempt.bind_of_ok hpopulate _).trans (congrArg (fun r => (Except.ok r.1, r.2)) hrelocate)
  exact ⟨_, w₃, Session.opened_of_ok hcreate hbody, hserial, rfl, hplaced⟩

/-- The second round of a build, in which all names can be passed on. -/
theorem exists_linkWith (hw : T.Works w) (hclean : w.surroundings.Clean)
    (hfills : T.Fills w.surroundings w.surroundings.told load text) (unitName : String)
    (hnames : ∀ n ∈ names, n.2 ≠ 0 ∧ hasNul n.1 = false) :
    if (T.translate text).missingBut w.surroundings (names.map Prod.fst) = [] then
      ∃ s w₁, Session.opened .memory unitName (linkWith names load) w = (.ok ((), s), w₁) ∧
        s.serial = w.made ∧ s.relocated = true ∧ T.Placed text names w w₁
    else ∃ f w₁, Session.opened .memory unitName (linkWith names load) w = (.error f, w₁) := by
  obtain ⟨s, w₁, w₂, w₃, hcreate, hserial, hpopulate, hrelocate, hplaced⟩ :=
    exists_placed hw hclean hfills unitName hnames
  have hbody : linkWith names load (s, w₁) = _ := (Attempt.bind_of_ok hpopulate _).trans hrelocate
  unfold linkResult at hbody
  split
  · next hnil =>
    rw [if_pos hnil, hnil] at hbody
    exact ⟨_, w₃, Session.opened_of_ok hcreate hbody, hserial, rfl, hplaced⟩
  · next hne =>
    rw [if_neg hne] at hbody
    exact ⟨_, _, Session.opened_of_failed hcreate hbody⟩

/-! ## The build -/

variable (T) in
/-- Two builds failed, or both gave sessions of one number whose code can be called, in worlds that
are abreast. -/
def Alongside (r r' : Except Failure Session × World σ) : Prop :=
  (∃ f f', r.1 = .error f ∧ r'.1 = .error f') ∨
    ∃ s s' k, r.1 = .ok s ∧ r'.1 = .ok s' ∧ s.serial = s'.serial ∧
      (s.relocated = true ∧ s'.relocated = true) ∧ T.Abreast k r.2 r'.2

/-- The second rounds of two builds, with names whose addresses were found. -/
theorem linkWith_alongside (hw : T.Works w) (hw' : T.Works w') (hab : T.Abreast w.made w w')
    (hclean : w.surroundings.Clean) (hfills : T.Fills w.surroundings w.surroundings.told load text)
    (hfills' : T.Fills w.surroundings w.surroundings.told load' text)
    (hnames : ∀ n ∈ names, n.2 ≠ 0)
    (unitName unitName' : String) : T.Alongside
      ((Session.opened .memory unitName (linkWith names load) w).1.map Prod.snd,
        (Session.opened .memory unitName (linkWith names load) w).2)
      ((Session.opened .memory unitName' (linkWith names load') w').1.map Prod.snd,
        (Session.opened .memory unitName' (linkWith names load') w').2) := by
  have hsame := hab.surroundings
  cases hfind : names.find? fun n => hasNul n.1 with
  | some n =>
    have hrefused := Translator.linkWith_of_refused hw hclean load unitName hnames hfind
    have hrefused' :=
      Translator.linkWith_of_refused hw' (hsame ▸ hclean) load' unitName' hnames hfind
    exact .inl ⟨_, _, congrArg (Except.map Prod.snd) hrefused,
      congrArg (Except.map Prod.snd) hrefused'⟩
  | none =>
    have hpassed : ∀ n ∈ names, n.2 ≠ 0 ∧ hasNul n.1 = false := fun n hn =>
      ⟨hnames n hn, by simpa using List.find?_eq_none.1 hfind n hn⟩
    have hround := exists_linkWith hw hclean hfills unitName hpassed
    have hround' := exists_linkWith hw' (hsame ▸ hclean) (hsame ▸ hfills') unitName' hpassed
    rw [← hsame] at hround'
    by_cases hnil : (T.translate text).missingBut w.surroundings (names.map Prod.fst) = []
    · rw [if_pos hnil] at hround hround'
      obtain ⟨s, w₁, hopened, hserial, hrelocated, hplaced⟩ := hround
      obtain ⟨s', w₁', hopened', hserial', hrelocated', hplaced'⟩ := hround'
      rw [hopened, hopened']
      exact .inr ⟨s, s', w.made + 1, rfl, rfl, by rw [hserial, hserial', hab.made_eq],
        ⟨hrelocated, hrelocated'⟩, hplaced.abreast hw hw' hplaced' hab⟩
    · rw [if_neg hnil] at hround hround'
      obtain ⟨f, w₁, hopened⟩ := hround
      obtain ⟨f', w₁', hopened'⟩ := hround'
      rw [hopened, hopened']
      exact .inl ⟨f, f', rfl, rfl⟩

/-- What follows a failure to link in two builds. -/
theorem retry_alongside (hw : T.Works w) (hw' : T.Works w') (hab : T.Abreast w.made w w')
    (hclean : w.surroundings.Clean) (hfills : T.Fills w.surroundings w.surroundings.told load text)
    (hfills' : T.Fills w.surroundings w.surroundings.told load' text) {f f' : Failure}
    (hmissing : f.missingNames = f'.missingNames) (unitName unitName' : String) :
    T.Alongside (retry unitName load f w) (retry unitName' load' f' w') := by
  unfold retry
  rw [← hmissing]
  cases f.missingNames with
  | nil => exact .inl ⟨f, f', rfl, rfl⟩
  | cons name rest =>
    dsimp only
    obtain ⟨k, hresolve, hsound, hplatform⟩ := resolveAll_apply (name :: rest) w
    obtain ⟨k', hresolve', hsound', hplatform'⟩ := resolveAll_apply (name :: rest) w'
    obtain ⟨-, hab₁⟩ := ((abreast_rules T w.made).resolveAll (name :: rest)).alike hab
    rw [hresolve, hresolve'] at hab₁
    rw [← hab.linkage] at hresolve'
    cases haddresses : w.linkage.addresses? (name :: rest) with
    | none =>
      rw [haddresses] at hresolve hresolve'
      rw [Attempt.bind_of_ok hresolve, Attempt.bind_of_ok hresolve']
      exact .inl ⟨f, f', rfl, rfl⟩
    | some names =>
      rw [haddresses] at hresolve hresolve'
      rw [Attempt.bind_of_ok hresolve, Attempt.bind_of_ok hresolve']
      dsimp only
      have hsurroundings : ({ w with linkage := k } : World σ).surroundings = w.surroundings := by
        rw [World.surroundings, World.surroundings, hplatform]
      have hw₁ : T.Works { w with linkage := k } := ⟨hw.ready, hw.made, hsound hw.sound⟩
      have hw₁' : T.Works { w' with linkage := k' } := ⟨hw'.ready, hw'.made, hsound' hw'.sound⟩
      have halong := linkWith_alongside hw₁ hw₁' hab₁ (hsurroundings ▸ hclean)
        (hsurroundings ▸ hfills) (hsurroundings ▸ hfills')
        (hw.sound.addresses?_ne_zero haddresses) unitName unitName'
      rw [← Attempt.bind_pure_apply, ← Attempt.bind_pure_apply] at halong
      exact halong

/-- A session that is given up leaves everything else as it was. -/
theorem delete_works (hw : T.Works w) (hs : s.serial < w.made) :
    T.Works (s.delete w).2 ∧ (s.delete w).2.surroundings = w.surroundings := by
  refine ⟨(Translator.Moves.asked hw hs .delete).works, ?_⟩
  have hfiles := Translator.files_delete hw hs
  exact congrArg (Surroundings.mk w.config w.binding w.linkage.platform) hfiles

/-- **Two builds that fill in one text go the same way.** -/
theorem build_alongside (hw : T.Works w) (hw' : T.Works w') (hab : T.Abreast w.made w w')
    (hfills : T.Fills w.surroundings w.surroundings.told load text)
    (hfills' : T.Fills w.surroundings w.surroundings.told load' text)
    (unitName unitName' : String) :
    T.Alongside (build unitName load w) (build unitName' load' w') := by
  cases hrefused : w.surroundings.refused? with
  | some path =>
    exact .inl ⟨_, _, Translator.build_of_refused hw hrefused unitName load,
      Translator.build_of_refused hw' (hab.surroundings ▸ hrefused) unitName' load'⟩
  | none =>
    have hclean := Surroundings.refused?_eq_none.1 hrefused
    have hsame := hab.surroundings
    obtain ⟨s, w₁, hopened, hserial, hrelocated, hplaced⟩ :=
      exists_linkOnce hw hclean hfills unitName
    obtain ⟨s', w₁', hopened', hserial', hrelocated', hplaced'⟩ :=
      exists_linkOnce hw' (hsame ▸ hclean) (hsame ▸ hfills') unitName'
    have hab₁ := hplaced.abreast hw hw' hplaced' hab
    have heq : s.serial = s'.serial := by rw [hserial, hserial', hab.made_eq]
    rw [← hsame] at hopened' hrelocated'
    rw [build, build, Attempt.bind_of_ok hopened, Attempt.bind_of_ok hopened']
    unfold linkResult
    by_cases hnil : (T.translate text).missing w.surroundings = []
    · rw [if_pos hnil, if_pos hnil]
      rw [hnil] at hrelocated hrelocated'
      exact .inr ⟨s, s', w.made + 1, rfl, rfl, heq, ⟨hrelocated, hrelocated'⟩, hab₁⟩
    · rw [if_neg hnil, if_neg hnil]
      dsimp only
      obtain ⟨hw₂, hsame₂⟩ := delete_works hplaced.works (s := s)
        (by rw [hserial, hplaced.made]; omega)
      obtain ⟨hw₂', -⟩ := delete_works hplaced'.works (s := s')
        (by rw [hserial', hplaced'.made]; omega)
      have hab₂ := ((abreast_rules T (w.made + 1)).delete s).alike hab₁
      have hdelete : (s.delete : Attempt (World σ) Unit) = s'.delete := Session.delete_congr heq
      rw [Attempt.bind_of_ok (s.delete_apply w₁), Attempt.bind_of_ok (s'.delete_apply w₁'),
        ← hdelete]
      rw [← hdelete] at hw₂'
      have hsurroundings := hsame₂.trans hplaced.surroundings
      have hmade : (s.delete w₁).2.made = w.made + 1 := hplaced.made
      refine retry_alongside hw₂ hw₂' (hmade ▸ hab₂.2)
        (hsurroundings ▸ hclean) (hsurroundings ▸ hfills) (hsurroundings ▸ hfills') ?_ _ _
      rw [Request.missingNames_failure, Request.missingNames_failure]

end SourceTranslator

end LiveC
