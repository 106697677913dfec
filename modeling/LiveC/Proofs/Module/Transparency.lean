import LiveC.Proofs.Execution.Twins
import LiveC.Proofs.Module.Deciding
import LiveC.Proofs.Symbol.Lasting
/-!
# A cached object stands for its source

A session that was built is `Linked`: it has the code of a text, and the names that the text does
not define are reached as every session offers them, or at the addresses that they resolved to
(`reach_of_missing`, `reach_of_offered`). So two sessions with the code of one text, one of which
was compiled from the text and the other loaded from its object, are twins if the names still
resolve to the same addresses (`Linked.twins`).

`importModule_transparent` says it of imports. Once a source was imported and its object written, it
is imported again in every `Later` world of the runtime, whatever became of the times of the two
files and even without the source, and the new module cannot be told from the first one. Whatever
the engine does leads to a later world, without bridging and as long as the bridge has space
(`later_of_leads`). The compiler must be `Faithful`: a message of the linker's kind that it sends
while it compiles is read for names as well, and nothing of it is left in the object
(`importBoth_strayText`).
-/

namespace LiveC

open InSession Engine

/-- Two modules define the same names. -/
def Module.SameSymbols {σ : Type} [Compiler σ] (m m' : Module) (w : World σ) : Prop :=
  ∀ name, (symbolIn m' name w).1.map Option.isSome = (symbolIn m name w).1.map Option.isSome

/-- Two modules do the same when they are run, but for the report of a crash. -/
def Module.SameRuns {σ : Type} [Compiler σ] (m m' : Module) (w : World σ) : Prop :=
  ∀ args, (runModule m' args w).1.map RunResult.verdict =
    (runModule m args w).1.map RunResult.verdict ∧
    (runModule m' args w).2.core = (runModule m args w).2.core

/-- The status with which a module exits when it is run without arguments, if it does. -/
def Module.status? {σ : Type} [Compiler σ] (m : Module) (w : World σ) : Option Int32 :=
  ((runModule m [] w).1.map RunResult.verdict).toOption.bind Except.toOption

theorem Module.SameRuns.status_eq {σ : Type} [Compiler σ] {m m' : Module} {w : World σ}
    (h : m.SameRuns m' w) : m'.status? w = m.status? w := by
  rw [status?, status?, (h []).1]

namespace World.Leads

variable {σ : Type} [Compiler σ] {w w' : World σ}

/-- The engine changes no settings. -/
theorem settings (h : w.Leads w') : w'.settings = w.settings := by
  obtain ⟨cs, hcourse⟩ := h
  induction hcourse with
  | rest h => rw [World.settings, World.settings, h.config, h.binding, h.linkage]
  | resolve w name =>
    have hstep : (w.linkage.resolve name).2 = w.linkage.step (.resolve name) := rfl
    rw [World.settings, World.settings]
    dsimp only
    rw [hstep, Linkage.platform_step]
  | refused h => rfl
  | created h => rfl
  | asked w n q => rfl
  | trans h h' ih ih' => exact ih'.trans ih

end World.Leads

namespace Translator

variable {σ : Type} [Compiler σ] {T : Translator σ} {w w' u : World σ} {s s' : Session}
  {e e' : Surroundings} {k k' : Linkage} {text path name : String} {late : List (String × Address)}
  {messages messages' : List String}

/-! ## What the code of a session reaches -/

/-- What is not defined by the text is reached as it was made known last. -/
theorem reach_of_knows (hc : T.Contains w.compiler s.serial text)
    (hname : name ∉ (T.translate text).names) (hknows : T.Knows e late s w) :
    Compiler.reach? w.compiler s.serial name =
      (late.reverse.lookup name).or ((Linker.offered e).reverse.lookup name) := by
  rw [T.reaches_registered hc hname, hknows, List.reverse_append, List.lookup_append]

variable (T) in
/-- A session has the code of a text, and was linked in some surroundings with what names resolved
to; some messages were read for names besides those of the linker. -/
structure Linked (text : String) (messages : List String) (e : Surroundings) (k : Linkage)
    (s : Session) (w : World σ) : Prop where
  serves : T.Serves s text w
  linkable : (T.translate text).Linkable e (keptMessages messages) k
  knows : T.Knows e ((T.translate text).bound e (keptMessages messages) k) s w

namespace Linked

/-- A name that the linker misses is reached at an address that it resolved to. -/
theorem reach_of_missing (h : T.Linked text messages e k s w)
    (hname : name ∈ (T.translate text).missing e) :
    ∃ a late, Compiler.reach? w.compiler s.serial name = some a ∧
      k.addresses? ((T.translate text).late e (keptMessages messages)) = some late ∧
      (name, a) ∈ late := by
  have hne := List.ne_nil_of_mem hname
  have hdefined : name ∉ (T.translate text).names := (LinkState.mem_missing.1 hname).2.1
  obtain ⟨hsub, hresolves⟩ := h.linkable hne
  obtain ⟨late, hlate⟩ := Option.isSome_iff_exists.1
    ((k.isSome_addresses? _).2 fun n hn => (hresolves n hn).1)
  have hknows := h.knows
  rw [Translation.bound, if_neg hne, hlate, Option.getD_some] at hknows
  have hmem : name ∈ late.reverse.map Prod.fst := by
    rw [List.map_reverse, List.mem_reverse, Linkage.map_fst_addresses? hlate]
    exact hsub hname
  obtain ⟨a, ha⟩ := exists_lookup_of_mem hmem
  refine ⟨a, late, ?_, hlate, List.mem_reverse.1 (mem_of_lookup_eq_some ha)⟩
  rw [reach_of_knows h.serves.contains hdefined hknows, ha]
  rfl

/-- Other names are reached as every session offers them, if no message was read for them. -/
theorem reach_of_offered (h : T.Linked text messages e k s w)
    (hdefined : name ∉ (T.translate text).names) (hname : name ∉ (T.translate text).missing e)
    (hnot : name ∉ missingNames (keptMessages messages)) :
    Compiler.reach? w.compiler s.serial name = (Linker.offered e).reverse.lookup name := by
  have hnone : ((T.translate text).bound e (keptMessages messages) k).reverse.lookup name =
      none := by
    by_contra hsome
    obtain ⟨a, ha⟩ := Option.ne_none_iff_exists'.1 hsome
    have hmem := List.mem_reverse.1 (mem_of_lookup_eq_some ha)
    rw [Translation.bound] at hmem
    split at hmem
    · exact absurd hmem (by simp)
    cases hlate : k.addresses? ((T.translate text).late e (keptMessages messages)) with
    | none => simp [hlate] at hmem
    | some late =>
      rw [hlate, Option.getD_some] at hmem
      have hlooked := List.mem_map_of_mem (f := Prod.fst) hmem
      rw [Linkage.map_fst_addresses? hlate,
        Translation.late_of_readable h.linkable.readable] at hlooked
      exact (List.mem_append.1 hlooked).elim hnot hname
  rw [reach_of_knows h.serves.contains hdefined h.knows, hnone, Option.none_or]

end Linked

/-- The state of a session is, in a later world, as it was. -/
structure Intact (T : Translator σ) (s : Session) (w u : World σ) : Prop where
  made : s.serial < u.made
  same : T.Same s.serial w.compiler u.compiler

/-- The messages that were read for names report no other name than the linker misses, among those
that the code calls and does not define. -/
def Faithful (T : Translator σ) (text : String) (messages : List String)
    (e : Surroundings) : Prop :=
  ∀ name ∈ missingNames (keptMessages messages), (T.translate text).Calls name →
    name ∈ (T.translate text).names ∨ name ∈ (T.translate text).missing e

theorem Faithful.congr (h : T.Faithful text messages e) (hbinding : e'.binding = e.binding) :
    T.Faithful text messages e' := by
  have hmissing : (T.translate text).missing e' = (T.translate text).missing e :=
    Translation.missing_congr hbinding
  intro name hname hcalls
  rw [hmissing]
  exact h name hname hcalls

/-- Where no message is read, none reports too much. -/
theorem faithful_nil (T : Translator σ) (text : String) (e : Surroundings) :
    T.Faithful text [] e := by
  intro name hname
  exact absurd hname (by simp [keptMessages, missingNames])

/-- Two sessions with the code of one text are twins, if what the linker misses is at the same
addresses in both. -/
theorem Linked.twins (h : T.Linked text messages e k s w) (h' : T.Linked text messages' e' k' s' w')
    (hbinding : e'.binding = e.binding) (hfaithful : T.Faithful text messages e)
    (hfaithful' : T.Faithful text messages' e)
    (hlinks : ∀ name ∈ (T.translate text).missing e, ∀ a,
      Compiler.reach? w.compiler s.serial name = some a → k'.Gives name a)
    (hu : T.Works u) (hs : T.Intact s w u) (hs' : T.Intact s' w' u) :
    T.Twins text s.serial s'.serial u := by
  refine ⟨hu, ⟨hs.made, hs'.made⟩, ⟨hs.same.contains text h.serves.contains,
    hs'.same.contains text h'.serves.contains⟩, fun name hcalls hdefined => ?_⟩
  rw [hs.same.reach, hs'.same.reach]
  have hmissing : (T.translate text).missing e' = (T.translate text).missing e :=
    Translation.missing_congr hbinding
  by_cases hname : name ∈ (T.translate text).missing e
  · have hname' : name ∈ (T.translate text).missing e' := by rwa [hmissing]
    obtain ⟨a, -, ha, -⟩ := h.reach_of_missing hname
    obtain ⟨a', late, ha', hlate, hmem⟩ := h'.reach_of_missing hname'
    rw [ha, ha', (hlinks name hname a ha).eq_of_mem hlate hmem]
  · have hnot {messages : List String} (hfaithful : T.Faithful text messages e) :
        name ∉ missingNames (keptMessages messages) := fun hmem =>
      (hfaithful name hmem hcalls).elim hdefined hname
    have hoffered : Linker.offered e' = Linker.offered e := by
      rw [Linker.offered, Linker.offered, hbinding]
    have hname' : name ∉ (T.translate text).missing e' := by rwa [hmissing]
    rw [h.reach_of_offered hdefined hname (hnot hfaithful),
      h'.reach_of_offered hdefined hname' (hnot hfaithful'), hoffered]

/-- Modules whose states are twins define the same names. -/
theorem Twins.sameSymbols {m m' : Module} (h : T.Twins text m.session.serial m'.session.serial w)
    (hrelocated : m.session.relocated = true ∧ m'.session.relocated = true) :
    m.SameSymbols m' w := by
  intro name
  rw [symbolIn, symbolIn]
  cases hnul : hasNul name with
  | true =>
    have hnone {s : Session} :
        s.inside (InSession.find name) w = (.ok none, w) := by
      rw [Session.inside, InSession.find, Attempt.bind_of_ok (x := InSession.session) rfl, hnul,
        Bool.not_true, Bool.and_false]
      rfl
    rw [hnone, hnone]
  | false =>
    obtain ⟨w₁, hfind, -⟩ := find_apply h.works h.made.1 hrelocated.1 hnul
    obtain ⟨w₁', hfind', -⟩ := find_apply h.works h.made.2 hrelocated.2 hnul
    have hsame : (T.symbol? w.compiler m'.session.serial name).isSome =
        (T.symbol? w.compiler m.session.serial name).isSome := by
      rw [Bool.eq_iff_iff, T.isSome_symbol name h.contains.1, T.isSome_symbol name h.contains.2]
    rw [hfind, hfind']
    exact congrArg Except.ok hsame

/-! ## Modules of a source -/

section Sources

variable {c : ObjectCache} {m : Module} {w₁ : World σ} {cs : List Call}

/-- The last thing that is done to compile a source is to build its text. -/
theorem exists_build_of_compileSource (hw : T.Works w)
    (hread : w.files.readText c.source = .ok text) (h : compileSource c w = (.ok m, w₁)) :
    m.path = c.source ∧ ∃ cs w₀, w.Leads w₀ ∧ T.Moves w cs w₀ ∧
      build c.source (InSession.compile (sourceOfFile c.source text)) w₀ = (.ok m.session, w₁) := by
  obtain ⟨cs, w₀, hleads, -, hmoves, -, hrun⟩ := exists_compileSource hw hread
  rw [h] at hrun
  obtain ⟨s, hs, rfl⟩ := Except.exists_of_map_eq_ok (Prod.mk.inj hrun).1.symm
  exact ⟨rfl, cs, w₀, hleads, hmoves, Prod.ext hs (Prod.mk.inj hrun).2.symm⟩

/-- A source that was compiled gave a module with the code of its text. -/
theorem linked_of_compileSource (hw : T.Works w) (hread : w.files.readText c.source = .ok text)
    (h : compileSource c w = (.ok m, w₁)) :
    m.path = c.source ∧ T.Compilable (sourceOfFile c.source text) w ∧ ∃ e k,
      T.Linked (sourceOfFile c.source text) (T.translate (sourceOfFile c.source text)).messages e k
        m.session w₁ ∧ e.binding = w.binding ∧
      ∀ name a, w.linkage.Gives name a → k.Gives name a := by
  obtain ⟨hpath, cs, w₀, hleads, hmoves, hbuild⟩ := exists_build_of_compileSource hw hread h
  obtain ⟨hcompilable, hserves, hknows⟩ := compilable_of_build hmoves.works hbuild
  have hbinding : w₀.binding = w.binding := congrArg (·.2.1) hmoves.settings
  exact ⟨hpath, hcompilable.of_moves hmoves, _, _, ⟨hserves, hcompilable.linkable, hknows⟩,
    hbinding, fun name a => hleads.gives⟩

/-- What a module of a compiled source reaches in libraries is where the names led, and lead as long
as the bridge has space. -/
theorem gives_of_compileSource (hw : T.Works w) (hread : w.files.readText c.source = .ok text)
    (h : compileSource c w = (.ok m, w₁)) (hspace : w₁.linkage.bridge.isFull = false)
    (hname : name ∈ (T.translate (sourceOfFile c.source text)).missing w.surroundings) {a : Address}
    (ha : Compiler.reach? w₁.compiler m.session.serial name = some a) :
    w₁.linkage.Gives name a := by
  obtain ⟨-, cs, w₀, hleads, hmoves, hbuild⟩ := exists_build_of_compileSource hw hread h
  obtain ⟨hcompilable, hserves, hknows⟩ := compilable_of_build hmoves.works hbuild
  have hlinked : T.Linked (sourceOfFile c.source text)
      (T.translate (sourceOfFile c.source text)).messages w₀.surroundings w₀.linkage m.session w₁ :=
    ⟨hserves, hcompilable.linkable, hknows⟩
  rw [← Translation.missing_congr (e := w₀.surroundings)
    (congrArg (·.2.1) hmoves.settings)] at hname
  obtain ⟨a', late, ha', hlate, hmem⟩ := hlinked.reach_of_missing hname
  obtain rfl := Option.some.inj (ha.symm.trans ha')
  -- the names were resolved in turn, and what they led to then is settled
  obtain ⟨w₂, hresolved, hround⟩ := exists_leads_of_build hmoves.works (.demandWith _ _)
    (compile_puts hcompilable.passed hcompilable.translated _) (List.ne_nil_of_mem hname) hbuild
  have hleft := hround.isFull hspace
  refine hround.gives ?_
  rw [hresolved] at hleft ⊢
  exact Linkage.gives_of_mem_addresses? hlate hmem hleft

/-- A source that can be compiled gives a module with the code of its text. -/
theorem exists_linked_of_compilable (hw : T.Works w) (hread : w.files.readText c.source = .ok text)
    (h : T.Compilable (sourceOfFile c.source text) w) :
    ∃ m w₁, compileSource c w = (.ok m, w₁) := by
  have hcomes := compileSource_comes hw hread
  rw [compiling_eq_ok_iff.2 h] at hcomes
  obtain ⟨m, hm, -⟩ := Except.exists_of_map_eq_ok hcomes
  exact ⟨m, _, Prod.ext hm rfl⟩

/-- An object that was loaded gave a module with the code of its text. -/
theorem linked_of_loadObject {object : String} {origin : Origin} (hw : T.Works w)
    (hobject : w.files.bytes? object = some (T.object text))
    (htranslated : (T.translate text).failed = false)
    (h : loadObject path object origin w = (.ok m, w₁)) :
    m.path = path ∧ T.Linked text [] w.surroundings w.linkage m.session w₁ := by
  obtain ⟨s, w₂, hbuild, hpure⟩ := Attempt.bind_eq_ok h
  obtain ⟨hm, rfl⟩ := Prod.mk.inj hpure
  obtain rfl := Except.ok.inj hm
  obtain ⟨hlinkable, hserves, hknows⟩ :=
    serves_of_build hw (addFile_puts hobject htranslated) hbuild
  exact ⟨rfl, hserves, hlinkable, hknows⟩

/-- The object of a source that was compiled is there if it was written. -/
theorem bytes?_of_written (hw : T.Works w) (hread : w.files.readText c.source = .ok text)
    (h : compileSource c w = (.ok m, w₁)) (hadds : w.Adds cs w₁)
    (hwritten : ∃ n, .asked n (.writeFile c.object) false ∈ cs) :
    w₁.files.bytes? c.object = some (T.object (sourceOfFile c.source text)) := by
  obtain ⟨cs', hadds', -, hstores, -⟩ := compileSource_spec (c := c) hw hread
  rw [h] at hadds' hstores
  obtain rfl := hadds.unique hadds'
  obtain ⟨n, hn⟩ := hwritten
  rcases hstores with ⟨-, hnot⟩ | ⟨-, -, -, hwrite⟩
  · exact absurd hn (hnot n)
  · exact FileTree.bytes?_write hwrite

/-- An import that writes the object of a source compiles the source. -/
theorem compiled_of_written (hw : T.Works w) (hread : w.files.readText c.source = .ok text)
    (h : importSource c w = (.ok m, w₁)) (hadds : w.Adds cs w₁)
    (hwritten : ∃ n, .asked n (.writeFile c.object) false ∈ cs) :
    w₁.files.bytes? c.object = some (T.object (sourceOfFile c.source text)) ∧
    ∃ w₀, w.Leads w₀ ∧ T.Works w₀ ∧ w₀.files.readText c.source = .ok text ∧
      compileSource c w₀ = (.ok m, w₁) := by
  obtain ⟨cs₀, hadds₀, hmoves, hwrites⟩ := loadObject_moves hw c.source c.object .cached
  have hleads₀ := (loadObject_plain c.source c.object .cached).leads w
  obtain ⟨n, hn⟩ := hwritten
  rcases importSource_cases c w with ⟨-, m', w', hload, hrun⟩ | ⟨-, e, w', errors, hload, hrun⟩ |
    ⟨-, e, w', hload, hrun⟩ | ⟨-, hrun⟩
  · rw [hload] at hadds₀
    obtain ⟨-, rfl⟩ := Prod.mk.inj (hrun.symm.trans h)
    obtain rfl := hadds.unique hadds₀
    exact absurd hn (hwrites n c.object false)
  · rw [hload] at hadds₀ hmoves hleads₀
    have hcompile := hrun.symm.trans h
    have hworks : T.Works { w' with errors := errors } :=
      ⟨hmoves.works.ready, hmoves.works.made, hmoves.works.sound⟩
    have hfiles : w'.files = w.files := hmoves.files hwrites
    have hread' : ({ w' with errors := errors } : World σ).files.readText c.source = .ok text := by
      rw [← hfiles] at hread
      exact hread
    obtain ⟨cs', hadds', -⟩ := compileSource_spec (c := c) hworks hread'
    rw [hcompile] at hadds'
    obtain rfl := hadds.unique (World.Adds.trans hadds₀ hadds')
    have hn' := (List.mem_append.1 hn).resolve_left (hwrites n c.object false)
    have hled : w.Leads { w' with errors := errors } :=
      hleads₀.trans (.rest ⟨rfl, rfl, rfl, rfl, rfl, rfl, rfl⟩)
    exact ⟨bytes?_of_written hworks hread' hcompile hadds' ⟨n, hn'⟩, _, hled, hworks, hread',
      hcompile⟩
  · exact absurd (hrun.symm.trans h) (by simp)
  · have hcompile := hrun.symm.trans h
    exact ⟨bytes?_of_written hw hread hcompile hadds ⟨n, hn⟩, w, .refl w, hw, hread, hcompile⟩

/-- An import that writes the object of a source gives a module with the code of its text. -/
theorem linked_of_written (hw : T.Works w) (hread : w.files.readText c.source = .ok text)
    (h : importSource c w = (.ok m, w₁)) (hadds : w.Adds cs w₁)
    (hwritten : ∃ n, .asked n (.writeFile c.object) false ∈ cs) :
    m.path = c.source ∧ T.Compilable (sourceOfFile c.source text) w ∧ ∃ e k,
      T.Linked (sourceOfFile c.source text) (T.translate (sourceOfFile c.source text)).messages e k
        m.session w₁ ∧ e.binding = w.binding ∧
      ∀ name a, w.linkage.Gives name a → k.Gives name a := by
  obtain ⟨-, w₀, hleads, hw₀, hread₀, hcompile⟩ := compiled_of_written hw hread h hadds hwritten
  obtain ⟨hpath, hcompilable, e, k, hlinked, hbinding, hgives⟩ :=
    linked_of_compileSource hw₀ hread₀ hcompile
  refine ⟨hpath, ?_, e, k, hlinked, hbinding.trans (congrArg (·.2.1) hleads.settings),
    fun name a ha => hgives name a (hleads.gives ha)⟩
  exact hcompilable.congr hleads.settings.symm fun hne name hname => by
    rw [← hleads.isSome_resolve]
    exact ((hcompilable.linkable hne).2 name hname).1

end Sources

/-! ## Importing again -/

variable (T) in
/-- A later world of the runtime in which a module was imported: the settings are the same, the
names that resolved still do, and those that the module reached in libraries have kept their
addresses. -/
structure Later (m : Module) (text : String) (w w' : World σ) : Prop where
  works : T.Works w'
  settings : w'.settings = w.settings
  resolves : ∀ name, (w.linkage.resolve name).1.isSome = true →
    (w'.linkage.resolve name).1.isSome = true
  links : ∀ name ∈ (T.translate text).missing w.surroundings, ∀ a,
    Compiler.reach? w.compiler m.session.serial name = some a → w'.linkage.Gives name a

variable {c : ObjectCache} {m : Module} {w₁ w₂ : World σ} {cs : List Call}

/-- What a module reaches in libraries is where the names lead, without bridging or if the bridge
has space left. -/
theorem gives_of_written (hw : T.Works w) (hread : w.files.readText c.source = .ok text)
    (h : importSource c w = (.ok m, w₁)) (hadds : w.Adds cs w₁)
    (hwritten : ∃ n, .asked n (.writeFile c.object) false ∈ cs)
    (hlasts : w.linkage.bridge.active = false ∨ w₁.linkage.bridge.isFull = false)
    (hname : name ∈ (T.translate (sourceOfFile c.source text)).missing w.surroundings) {a : Address}
    (ha : Compiler.reach? w₁.compiler m.session.serial name = some a) :
    w₁.linkage.Gives name a := by
  rcases hlasts with hactive | hspace
  · obtain ⟨-, hcompilable, e, k, hlinked, hbinding, hgives⟩ :=
      linked_of_written hw hread h hadds hwritten
    obtain ⟨hsub, hresolves⟩ := hcompilable.linkable (List.ne_nil_of_mem hname)
    obtain ⟨b, hb⟩ := Option.isSome_iff_exists.1 (hresolves name (hsub hname)).1
    have hgiven := Linkage.gives_of_inactive hactive hb
    rw [← Translation.missing_congr (e := e) hbinding] at hname
    obtain ⟨a', late, ha', hlate, hmem⟩ := hlinked.reach_of_missing hname
    obtain rfl := Option.some.inj (ha.symm.trans ha')
    rw [(hgives name b hgiven).eq_of_mem hlate hmem]
    have hled := (importSource_plain c).leads w
    rw [h] at hled
    exact hled.gives hgiven
  · obtain ⟨-, w₀, hleads, hw₀, hread₀, hcompile⟩ := compiled_of_written hw hread h hadds hwritten
    rw [← Translation.missing_congr (e := w₀.surroundings)
      (congrArg (·.2.1) hleads.settings)] at hname
    exact gives_of_compileSource hw₀ hread₀ hcompile hspace hname ha

/-- Whatever the engine does leads to a later world of the runtime, without bridging or if the
bridge had space left. -/
theorem later_of_leads (hw : T.Works w) (hread : w.files.readText c.source = .ok text)
    (h : importSource c w = (.ok m, w₁)) (hadds : w.Adds cs w₁)
    (hwritten : ∃ n, .asked n (.writeFile c.object) false ∈ cs)
    (hlasts : w.linkage.bridge.active = false ∨ w₁.linkage.bridge.isFull = false)
    (hleads : w₁.Leads w₂) (hworks : T.Works w₂) (files : FileTree) :
    T.Later m (sourceOfFile c.source text) w₁ { w₂ with files := files } := by
  have himported : w.Leads w₁ := by
    have hled := (importSource_plain c).leads w
    rwa [h] at hled
  have hmissing : (T.translate (sourceOfFile c.source text)).missing w₁.surroundings =
      (T.translate (sourceOfFile c.source text)).missing w.surroundings :=
    Translation.missing_congr (congrArg (·.2.1) himported.settings)
  refine ⟨⟨hworks.ready, hworks.made, hworks.sound⟩, hleads.settings, fun name hname => ?_,
    fun name hname a ha => ?_⟩
  · dsimp only
    rwa [hleads.isSome_resolve]
  · rw [hmissing] at hname
    exact hleads.gives (gives_of_written hw hread h hadds hwritten hlasts hname ha)

/-- A source whose object is there is imported if it could be compiled before. -/
theorem exists_linked (hw : T.Works w)
    (hcompilable : T.Compilable (sourceOfFile c.source text) w)
    (hobject : w.files.bytes? c.object = some (T.object (sourceOfFile c.source text)))
    (hkept : w.files.exists? c.source = true → w.files.readText c.source = .ok text) :
    ∃ m w₁, importSource c w = (.ok m, w₁) ∧ m.path = c.source ∧ ∃ messages e k,
      T.Linked (sourceOfFile c.source text) messages e k m.session w₁ ∧
      (messages = [] ∨ messages = (T.translate (sourceOfFile c.source text)).messages) ∧
      e.binding = w.binding ∧ ∀ name a, w.linkage.Gives name a → k.Gives name a := by
  obtain ⟨m, w', hload⟩ := loadObject_of_loadable hw hobject hcompilable.translated
    hcompilable.loadable c.source .cached
  rcases importSource_cases c w with ⟨-, m', w₁, hload', hrun⟩ | ⟨-, e, w₁, errors, hload', hrun⟩ |
    ⟨-, e, w₁, hload', hrun⟩ | ⟨husable, hrun⟩
  · obtain ⟨hpath, hlinked⟩ := linked_of_loadObject hw hobject hcompilable.translated hload'
    exact ⟨m', w₁, hrun, hpath, [], _, _, hlinked, .inl rfl, rfl, fun _ _ h => h⟩
  · exact absurd (hload'.symm.trans hload) (by simp)
  · exact absurd (hload'.symm.trans hload) (by simp)
  · -- the object is older than its source
    have hexists : w.files.exists? c.source = true := by
      by_contra hnone
      obtain ⟨time, htime⟩ := FileTree.isSome_modified? hobject
      have hgone := FileTree.modified?_of_not_exists (by simpa using hnone)
      rw [ObjectCache.validity, htime, hgone] at husable
      exact absurd husable (by simp [Validity.isUsable])
    obtain ⟨m', w₁, hcompile⟩ := exists_linked_of_compilable hw (hkept hexists) hcompilable
    obtain ⟨hpath, -, e, k, hlinked, hbinding, hgives⟩ :=
      linked_of_compileSource hw (hkept hexists) hcompile
    exact ⟨m', w₁, hrun.trans hcompile, hpath, _, e, k, hlinked, .inr rfl, hbinding, hgives⟩

/-- **A cached object stands for its source.** -/
theorem importModule_transparent (T : Translator σ) {w w₁ w₂ : World σ} {path text : String}
    {m : Module} {cs : List Call} (hw : T.Works w) (hsource : Path.isObject path = false)
    (htext : w.files.readText path = .ok text) (himport : importModule path w = (.ok m, w₁))
    (hadds : w.Adds cs w₁)
    (hwritten : ∃ n, .asked n (.writeFile (Path.tagged path w.linkage.platform.arch)) false ∈ cs)
    (hfaithful : T.Faithful (sourceOfFile path text)
      (T.translate (sourceOfFile path text)).messages w.surroundings)
    (hlater : T.Later m (sourceOfFile path text) w₁ w₂)
    (hobject : w₂.files.bytes? (Path.tagged path w.linkage.platform.arch) =
      w₁.files.bytes? (Path.tagged path w.linkage.platform.arch))
    (hkept : w₂.files.exists? path = true → w₂.files.readText path = .ok text) :
    ∃ m' w₃, importModule path w₂ = (.ok m', w₃) ∧ m'.path = m.path ∧
      ∀ u, T.Works u → T.Intact m.session w₁ u → T.Intact m'.session w₃ u →
        m.SameSymbols m' u ∧
        (T.Addressed m.session.serial (sourceOfFile path text) →
          T.Addressed m'.session.serial (sourceOfFile path text) → m.SameRuns m' u) := by
  have hpath : checkModulePath path = .ok () := by
    cases hcheck : checkModulePath path with
    | ok u => rfl
    | error e =>
      rw [importModule, hcheck] at himport
      exact absurd himport (by simp [Attempt.fail])
  have hleads : w.Leads w₁ := by
    have hled := (importModule_plain path).leads w
    rwa [himport] at hled
  have hsettings : w₂.settings = w.settings := hlater.settings.trans hleads.settings
  have harch : w₂.linkage.platform.arch = w.linkage.platform.arch :=
    congrArg (·.2.2.arch) hsettings
  have hbinding : w₂.binding = w.binding := congrArg (·.2.1) hsettings
  -- the module of the first import
  rw [importModule_of_source hpath hsource] at himport
  obtain ⟨hbytes, -⟩ := compiled_of_written (c := .ofSource path w.linkage.platform.arch) hw htext
    himport hadds hwritten
  obtain ⟨hpath₁, hcompilable₁, e, k, hlinked, hfirst, -⟩ :=
    linked_of_written (c := .ofSource path w.linkage.platform.arch) hw htext himport hadds hwritten
  -- the text can still be compiled and linked
  have hcompilable : T.Compilable (sourceOfFile path text) w₂ :=
    hcompilable₁.congr hsettings fun hne name hname => hlater.resolves name (by
      rw [hleads.isSome_resolve]
      exact ((hcompilable₁.linkable hne).2 name hname).1)
  obtain ⟨m', w₃, himport', hpath₃, messages, e', k', hlinked', hmessages, hbinding', hgives⟩ :=
    exists_linked (c := .ofSource path w.linkage.platform.arch) hlater.works hcompilable
      (hobject.trans hbytes) hkept
  refine ⟨m', w₃, ?_, hpath₃.trans hpath₁.symm, fun u hu hm hm' => ?_⟩
  · rw [importModule_of_source hpath hsource, harch]
    exact himport'
  -- the two modules miss the same names, and find them at the same addresses
  have hlast : e'.binding = w.binding := hbinding'.trans hbinding
  have hmissing : (T.translate (sourceOfFile path text)).missing e =
      (T.translate (sourceOfFile path text)).missing w₁.surroundings :=
    Translation.missing_congr (hfirst.trans (congrArg (·.2.1) hleads.settings).symm)
  have hfaithful' : T.Faithful (sourceOfFile path text) messages e := by
    rcases hmessages with rfl | rfl
    · exact faithful_nil T _ e
    · exact hfaithful.congr hfirst
  have hlinks : ∀ name ∈ (T.translate (sourceOfFile path text)).missing e, ∀ a,
      Compiler.reach? w₁.compiler m.session.serial name = some a → k'.Gives name a := by
    intro name hname a ha
    rw [hmissing] at hname
    exact hgives name a (hlater.links name hname a ha)
  have htwins := hlinked.twins hlinked' (hlast.trans hfirst.symm) (hfaithful.congr hfirst)
    hfaithful' hlinks hu hm hm'
  have hrelocated := And.intro hlinked.serves.relocated hlinked'.serves.relocated
  refine ⟨htwins.sameSymbols hrelocated, fun haddressed haddressed' args => ?_⟩
  obtain ⟨hverdict, hcore⟩ := runModule_twins (hpath₃.trans hpath₁.symm) hrelocated
    ⟨haddressed, haddressed'⟩ htwins args
  exact ⟨hverdict.symm, hcore.symm⟩

/-- A world with one source and a small library, in which a call of `puts` is an invalid access. -/
def sourceWorld (text : String) : World Scripted.Library :=
  .start (.start []) ⟨[(["a.c".toList], .file 0)], [(0, ⟨text.toUTF8, none, 1⟩)], [], [], 2⟩
    (.start ⟨[.function "getpid", .faulting "puts"]⟩ ⟨[]⟩ []) false

/-- A source that calls a function of the library. -/
def callingText : String := "int main() \x7b\n@[need getpid]@[call getpid]\n\x7d\n"

/-- The object of a source is written when it is imported, and stays when the source is removed. -/
theorem import_callingText : ∃ m w₁ files,
    importModule "a.c" (sourceWorld callingText) = (.ok m, w₁) ∧
    .asked 0 (.writeFile "a.x86_64.o") false ∈ w₁.calls.toList ∧
    w₁.files.remove? "a.c" = some files ∧ files.exists? "a.c" = false ∧
    files.bytes? "a.x86_64.o" = w₁.files.bytes? "a.x86_64.o" := by
  -- one look at the result of the import, which is evaluated once
  have hfacts : (match importModule "a.c" (sourceWorld callingText) with
      | (.ok _, w₁) => decide (.asked 0 (.writeFile "a.x86_64.o") false ∈ w₁.calls.toList) &&
          (w₁.files.remove? "a.c").any fun files => !files.exists? "a.c" &&
            decide (files.bytes? "a.x86_64.o" = w₁.files.bytes? "a.x86_64.o")
      | (.error _, _) => false) = true := by decide +kernel
  rcases himport : importModule "a.c" (sourceWorld callingText) with ⟨e | m, w₁⟩
  · rw [himport] at hfacts
    exact absurd hfacts (by simp)
  · rw [himport] at hfacts
    obtain ⟨hwritten, hremoved⟩ := Bool.and_eq_true_iff.mp hfacts
    obtain ⟨files, hremove, hfiles⟩ := (Option.any_eq_true _ _).mp hremoved
    obtain ⟨hgone, hobject⟩ := Bool.and_eq_true_iff.mp hfiles
    exact ⟨m, w₁, files, rfl, of_decide_eq_true hwritten, hremove, by simpa using hgone,
      of_decide_eq_true hobject⟩

/-- A source that was removed when its object was written. -/
theorem importModule_transparent_removed : ∃ m w₁ files m' w₃,
    importModule "a.c" (sourceWorld callingText) = (.ok m, w₁) ∧
    w₁.files.remove? "a.c" = some files ∧
    importModule "a.c" { w₁ with files := files } = (.ok m', w₃) ∧ m'.path = m.path ∧
    ∀ u, Scripted.translator.Works u → Scripted.translator.Intact m.session w₁ u →
      Scripted.translator.Intact m'.session w₃ u → m.SameSymbols m' u ∧
      (Scripted.translator.Addressed m.session.serial (sourceOfFile "a.c" callingText) →
        Scripted.translator.Addressed m'.session.serial (sourceOfFile "a.c" callingText) →
        m.SameRuns m' u) := by
  have hw : Scripted.translator.Works (sourceWorld callingText) := .start rfl rfl _ _ _
  have hsource : Path.isObject "a.c" = false := by decide +kernel
  have htext : (sourceWorld callingText).files.readText "a.c" = .ok callingText := by decide +kernel
  have hsilent : missingNames (keptMessages
      (Scripted.translator.translate (sourceOfFile "a.c" callingText)).messages) = [] := by
    decide +kernel
  have hactive : (sourceWorld callingText).linkage.bridge.active = false := by decide +kernel
  have hpath : checkModulePath "a.c" = .ok () := by decide +kernel
  have hobject : Path.tagged "a.c" (sourceWorld callingText).linkage.platform.arch =
      "a.x86_64.o" := by
    decide +kernel
  obtain ⟨m, w₁, files, himport, hwritten, hremove, hgone, hkept⟩ := import_callingText
  have hadds : (sourceWorld callingText).Adds w₁.calls.toList w₁ := (List.nil_append _).symm
  rw [← hobject] at hwritten hkept
  have hsame := (importModule_of_source hpath hsource (sourceWorld callingText)).symm.trans himport
  obtain ⟨-, -, e, k, hlinked, -⟩ := linked_of_written hw htext hsame hadds ⟨0, hwritten⟩
  have hlater := later_of_leads hw htext hsame hadds ⟨0, hwritten⟩ (.inl hactive) (.refl w₁)
    hlinked.serves.works files
  obtain ⟨m', w₃, himport', hpath', hsame'⟩ := importModule_transparent Scripted.translator
    hw hsource htext himport hadds ⟨0, hwritten⟩
    (fun name hname => absurd hname (by rw [hsilent]; simp)) hlater
    hkept (fun hexists => absurd (hgone.symm.trans hexists) (by simp))
  exact ⟨m, w₁, files, m', w₃, himport, hremove, himport', hpath', hsame'⟩

/-- A source for which the compiler sends a message of the linker's kind while it compiles. -/
def strayText : String :=
  "int main() \x7b\n@[need getpid]@[raw undefined symbol 'puts']@[call puts]\n\x7d\n"

/-- Import two files. -/
def importBoth {σ : Type} [Compiler σ] (first second : String) :
    Attempt (World σ) (Module × Module) := do
  let m ← importModule first
  let m' ← importModule second
  return (m, m')

/-- What is to be told of two imported modules in the world after their import. -/
def telling {σ α : Type} (tell : Module → Module → World σ → α)
    (r : Except Failure (Module × Module) × World σ) : Option α :=
  r.1.toOption.map fun p => tell p.1 p.2 r.2

theorem exists_of_telling {σ α : Type} {tell : Module → Module → World σ → α}
    {r : Except Failure (Module × Module) × World σ} {a : α} (h : telling tell r = some a) :
    ∃ m m' w, r = (.ok (m, m'), w) ∧ tell m m' w = a := by
  rcases r with ⟨e | ⟨m, m'⟩, w⟩
  · exact absurd h (by simp [telling, Except.toOption])
  · exact ⟨m, m', w, rfl, Option.some.inj h⟩

/-- A message that is no report of the linker is read as one when the source is compiled, and there
is none when its object is loaded: the compiled module calls what the loaded one does not find. -/
theorem importBoth_strayText : Scripted.translator.Works (sourceWorld strayText) ∧
    (sourceWorld strayText).files.exists? "a.x86_64.o" = false ∧
    ∃ m m' w, importBoth "a.c" "a.c" (sourceWorld strayText) = (.ok (m, m'), w) ∧
      m.origin = .compiled ∧ m'.origin = .cached ∧ ¬m.SameRuns m' w := by
  refine ⟨.start rfl rfl _ _ _, by decide +kernel, ?_⟩
  have htold : telling (fun m m' w => (m.origin, m'.origin, m.status? w, m'.status? w))
      (importBoth "a.c" "a.c" (sourceWorld strayText)) =
        some (.compiled, .cached, none, some 0) := by
    decide +kernel
  obtain ⟨m, m', w, himport, heq⟩ := exists_of_telling htold
  obtain ⟨horigin, heq⟩ := Prod.mk.inj heq
  obtain ⟨horigin', heq⟩ := Prod.mk.inj heq
  obtain ⟨hstatus, hstatus'⟩ := Prod.mk.inj heq
  refine ⟨m, m', w, himport, horigin, horigin', fun hsame => ?_⟩
  exact absurd (hstatus'.symm.trans (hsame.status_eq.trans hstatus)) (by simp)

end Translator

end LiveC
