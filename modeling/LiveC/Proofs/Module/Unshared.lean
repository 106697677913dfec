import LiveC.Proofs.Module.Transparency
/-!
# Sources that share no object

The name of an object is made from the stem of its source, so two sources share one exactly when
they lie in one directory and have one stem, whatever their extensions are: the first import of
`a.cc` after one of `a.c` takes the object of `a.c` (`importBoth_stem`). Sources are `Unshared` if
each has an object of its own. Every import of one of them leaves them so (`Unshared.importSource`),
and so do all imports in turn (`importAll_spec`). `imports_own` concludes that each import gives the
code of the source that it names, in whatever order the sources are imported and whatever the times
of their files are.
-/

namespace LiveC

open InSession Engine

namespace Translator

variable {σ : Type} [Compiler σ] {T : Translator σ} {w w' : World σ} {c : ObjectCache}
  {text : String → String} {sources : List String} {arch p q source object : String}
  {files files' : FileTree} {m : Module}

/-! ## What is kept for a source -/

variable (T) in
/-- What is kept for a source is nothing, or the object of its text. -/
def Keeps (source text object : String) (files : FileTree) : Prop :=
  files.exists? object = false ∨
    files.bytes? object = some (T.object (sourceOfFile source text)) ∧
      (T.translate (sourceOfFile source text)).failed = false

/-- Importing a source changes no file but its object. -/
theorem importSource_stores {text : String} (hw : T.Works w)
    (hread : w.files.readText c.source = .ok text) :
    (importSource c w).2.files = w.files ∨
      (T.translate (sourceOfFile c.source text)).failed = false ∧
        w.files.write? c.object (T.object (sourceOfFile c.source text)) =
          some (importSource c w).2.files := by
  obtain ⟨cs, -, hmoves, hwrites⟩ := loadObject_moves hw c.source c.object .cached
  have hfiles := hmoves.files hwrites
  rcases importSource_cases c w with ⟨-, m, w₁, hload, hrun⟩ | ⟨-, e, w₁, errors, hload, hrun⟩ |
    ⟨-, e, w₁, hload, hrun⟩ | ⟨-, hrun⟩
  · rw [hload] at hfiles
    rw [hrun]
    exact .inl hfiles
  · rw [hload] at hfiles hmoves
    have hsame : ({ w₁ with errors := errors } : World σ).files = w.files := hfiles
    have hworks : T.Works { w₁ with errors := errors } :=
      ⟨hmoves.works.ready, hmoves.works.made, hmoves.works.sound⟩
    have hread' : ({ w₁ with errors := errors } : World σ).files.readText c.source = .ok text := by
      rw [hsame, hread]
    obtain ⟨cs', -, -, hstores, -⟩ := compileSource_spec (c := c) hworks hread'
    rw [hrun, ← hsame]
    exact hstores.imp And.left fun h => h.2.2
  · rw [hload] at hfiles
    rw [hrun]
    exact .inl hfiles
  · obtain ⟨cs', -, -, hstores, -⟩ := compileSource_spec (c := c) hw hread
    rw [hrun]
    exact hstores.imp And.left fun h => h.2.2

/-- An import for which nothing else is kept gives the code of the source. -/
theorem serves_of_keeps {text : String} (hw : T.Works w)
    (hread : w.files.readText c.source = .ok text)
    (hkeeps : T.Keeps c.source text c.object w.files) (h : importSource c w = (.ok m, w')) :
    m.path = c.source ∧ T.Serves m.session (sourceOfFile c.source text) w' := by
  obtain ⟨cs, -, hmoves, hwrites⟩ := loadObject_moves hw c.source c.object .cached
  have hfiles := hmoves.files hwrites
  have hcompiled {w : World σ} (hw : T.Works w) (hread : w.files.readText c.source = .ok text)
      (h : compileSource c w = (.ok m, w')) :
      m.path = c.source ∧ T.Serves m.session (sourceOfFile c.source text) w' := by
    obtain ⟨hpath, -, e, k, hlinked, -⟩ := linked_of_compileSource hw hread h
    exact ⟨hpath, hlinked.serves⟩
  rcases importSource_cases c w with ⟨husable, m', w₁, hload, hrun⟩ |
    ⟨-, e, w₁, errors, hload, hrun⟩ | ⟨-, e, w₁, hload, hrun⟩ | ⟨-, hrun⟩
  · obtain ⟨hm, rfl⟩ := Prod.mk.inj (hrun.symm.trans h)
    obtain rfl := Except.ok.inj hm
    rcases hkeeps with hnone | ⟨hobject, htranslated⟩
    · have hmissing : c.Outdated w.files := .inl (FileTree.modified?_of_not_exists hnone)
      exact absurd (husable.symm.trans hmissing.isUsable) (by simp)
    · obtain ⟨hpath, hlinked⟩ := linked_of_loadObject hw hobject htranslated hload
      exact ⟨hpath, hlinked.serves⟩
  · rw [hload] at hfiles hmoves
    have hworks : T.Works { w₁ with errors := errors } :=
      ⟨hmoves.works.ready, hmoves.works.made, hmoves.works.sound⟩
    have hsame : ({ w₁ with errors := errors } : World σ).files = w.files := hfiles
    exact hcompiled hworks (by rw [hsame, hread]) (hrun.symm.trans h)
  · exact absurd (hrun.symm.trans h) (by simp)
  · exact hcompiled hw hread (hrun.symm.trans h)

/-- It succeeds if the source can be compiled. -/
theorem exists_of_keeps {text : String} (hw : T.Works w)
    (hread : w.files.readText c.source = .ok text)
    (hkeeps : T.Keeps c.source text c.object w.files)
    (hcompilable : T.Compilable (sourceOfFile c.source text) w) :
    ∃ m w', importSource c w = (.ok m, w') := by
  rcases hkeeps with hnone | ⟨hobject, -⟩
  · rw [importSource_of_outdated (.inl (FileTree.modified?_of_not_exists hnone))]
    exact exists_linked_of_compilable hw hread hcompilable
  · obtain ⟨m, w', himport, -⟩ := exists_linked hw hcompilable hobject fun _ => hread
    exact ⟨m, w', himport⟩

/-! ## Sources with objects of their own -/

variable (T) in
/-- Some sources that share no object: those with one stem have their objects at different places,
no file goes by two names of sources and objects, and no other objects are kept for them. -/
structure Unshared (arch : String) (sources : List String) (text : String → String)
    (files : FileTree) : Prop where
  named : ∀ p ∈ sources, ∃ stem, Path.stem? p.toList = some stem
  plain : ∀ p ∈ sources, Path.isObject p = false
  reads : ∀ p ∈ sources, files.readText p = .ok (text p)
  keeps : ∀ p ∈ sources, T.Keeps p (text p) (Path.tagged p arch) files
  places : ∀ p ∈ sources, ∀ q ∈ sources, p ≠ q → Path.stem? p.toList = Path.stem? q.toList →
    ∀ place, files.placeOf? (Path.tagged p arch) = some place →
      files.placeOf? (Path.tagged q arch) ≠ some place
  single : files.Single (sources ++ sources.map (Path.tagged · arch))

namespace Unshared

theorem tagged_mem (hp : p ∈ sources) (arch : String) :
    Path.tagged p arch ∈ sources ++ sources.map (Path.tagged · arch) :=
  List.mem_append_right sources (List.mem_map_of_mem hp)

/-- The objects of two sources lie at different places. -/
theorem object_ne (h : T.Unshared arch sources text files) (harch : '/' ∉ arch.toList)
    (hp : p ∈ sources) (hq : q ∈ sources) (hne : p ≠ q) {place : Place}
    (hplace : files.placeOf? (Path.tagged p arch) = some place) :
    files.placeOf? (Path.tagged q arch) ≠ some place := by
  obtain ⟨stem, hstem⟩ := h.named p hp
  obtain ⟨stem', hstem'⟩ := h.named q hq
  by_cases hsame : stem = stem'
  · exact h.places p hp q hq hne (by rw [hstem, hstem', hsame]) place hplace
  · exact FileTree.placeOf?_tagged_ne_of_stem hstem hstem' hsame harch hplace

/-- No source lies where an object does. -/
theorem source_ne (h : T.Unshared arch sources text files) (harch : '/' ∉ arch.toList)
    (hp : p ∈ sources) (hq : q ∈ sources) {place : Place}
    (hplace : files.placeOf? (Path.tagged p arch) = some place) :
    files.placeOf? q ≠ some place := by
  obtain ⟨stem, hstem⟩ := h.named p hp
  obtain ⟨stem', hstem'⟩ := h.named q hq
  obtain ⟨⟨file, hfile⟩, -⟩ := Path.stem?_spec hstem'
  exact FileTree.placeOf?_source_ne hstem harch hplace (h.plain q hq) hfile

/-- Another file is not that of an object, if it lies elsewhere. -/
theorem entry_ne (h : T.Unshared arch sources text files) (hp : p ∈ sources) {other : String}
    (hother : other ∈ sources ++ sources.map (Path.tagged · arch)) {b : ByteArray}
    (hb : files.bytes? other = some b)
    (hplaces : ∀ place, files.placeOf? (Path.tagged p arch) = some place →
      files.placeOf? other ≠ some place) :
    files.entry? other ≠ files.entry? (Path.tagged p arch) := by
  intro hentry
  obtain ⟨id, f, hid, -⟩ := FileTree.bytes?_eq_some.1 hb
  have hid' := hentry.symm.trans hid
  obtain ⟨place, hplace, -⟩ := Option.bind_eq_some_iff.1 hid'
  have hsame := h.single _ hother _ (tagged_mem hp arch) id hid hid'
  exact hplaces place hplace (hsame.trans hplace)

/-- What the paths lead to are files. -/
theorem exists_bytes? (h : T.Unshared arch sources text files) {other : String}
    (hother : other ∈ sources ++ sources.map (Path.tagged · arch))
    (hexists : files.exists? other = true) : ∃ b, files.bytes? other = some b := by
  rcases List.mem_append.1 hother with hsource | hobject
  · obtain ⟨b, hb, -⟩ := FileTree.exists_bytes?_of_readText (h.reads other hsource)
    exact ⟨b, hb⟩
  · obtain ⟨p, hp, rfl⟩ := List.mem_map.1 hobject
    rcases h.keeps p hp with hnone | ⟨hb, -⟩
    · exact absurd (hnone.symm.trans hexists) (by simp)
    · exact ⟨_, hb⟩

/-- Writing the object of one source leaves the others as they are. -/
theorem write (h : T.Unshared arch sources text files) (harch : '/' ∉ arch.toList)
    (hp : p ∈ sources) (htranslated : (T.translate (sourceOfFile p (text p))).failed = false)
    (hwrite : files.write? (Path.tagged p arch) (T.object (sourceOfFile p (text p))) =
      some files') : T.Unshared arch sources text files' where
  named := h.named
  plain := h.plain
  reads q hq := by
    obtain ⟨b, hb, htext⟩ := FileTree.exists_bytes?_of_readText (h.reads q hq)
    have hne := h.entry_ne hp (List.mem_append_left _ hq) hb fun place => h.source_ne harch hp hq
    exact FileTree.readText_of_bytes? (FileTree.bytes?_write_of_ne hwrite hb hne) htext
  keeps q hq := by
    by_cases hpq : p = q
    · subst hpq
      exact .inr ⟨FileTree.bytes?_write hwrite, htranslated⟩
    rcases h.keeps q hq with hnone | ⟨hb, hq'⟩
    · refine .inl ?_
      have hplace : files.placeOf? (Path.tagged q arch) ≠ files.placeOf? (Path.tagged p arch) := by
        obtain ⟨id, hid, -⟩ := FileTree.exists_file_write hwrite
        obtain ⟨place, hplace, -⟩ := Option.bind_eq_some_iff.1 hid
        rw [FileTree.placeOf?_write hwrite] at hplace
        rw [hplace]
        exact h.object_ne harch hp hq hpq hplace
      rw [FileTree.exists?, FileTree.entry?_write_of_ne hwrite hplace]
      exact hnone
    · have hne := h.entry_ne hp (tagged_mem hq arch) hb fun place => h.object_ne harch hp hq hpq
      exact .inr ⟨FileTree.bytes?_write_of_ne hwrite hb hne, hq'⟩
  places p hp q hq hne hstem place := by
    rw [FileTree.placeOf?_write hwrite, FileTree.placeOf?_write hwrite]
    exact h.places p hp q hq hne hstem place
  single := h.single.write (fun x hx => h.exists_bytes? hx) hwrite

/-- Importing one of the sources leaves them as they are. -/
theorem importSource (h : T.Unshared arch sources text w.files) (harch : '/' ∉ arch.toList)
    (hw : T.Works w) (hp : p ∈ sources) :
    T.Unshared arch sources text (Engine.importSource (.ofSource p arch) w).2.files := by
  rcases importSource_stores (c := .ofSource p arch) hw (h.reads p hp) with
    hsame | ⟨htranslated, hwrite⟩
  · rwa [hsame]
  · exact h.write harch hp htranslated hwrite

end Unshared

/-! ## Imports in turn -/

/-- Import some sources in turn. -/
def importAll (history : List String) (w : World σ) : World σ :=
  history.foldl (fun w p => (importModule p w).2) w

/-- An import of one of the sources is one of a source. -/
theorem Unshared.importModule_eq (h : T.Unshared arch sources text w.files) (hp : p ∈ sources)
    (harch : w.linkage.platform.arch = arch) :
    importModule p w = Engine.importSource (.ofSource p arch) w := by
  obtain ⟨b, hb, -⟩ := FileTree.exists_bytes?_of_readText (h.reads p hp)
  have hpath := checkModulePath_of_exists (FileTree.exists?_of_bytes? hb)
  rw [importModule_of_source hpath (h.plain p hp), harch]

/-- What holds after the sources were imported in any order: the engine works as before, and they
share no object. -/
theorem importAll_spec (hw : T.Works w) (h : T.Unshared arch sources text w.files)
    (harch : w.linkage.platform.arch = arch) (hslash : '/' ∉ arch.toList) {history : List String}
    (hhistory : history ⊆ sources) :
    T.Works (importAll history w) ∧ w.Leads (importAll history w) ∧
      T.Unshared arch sources text (importAll history w).files := by
  induction history generalizing w with
  | nil => exact ⟨hw, .refl w, h⟩
  | cons p history ih =>
    obtain ⟨hp, hrest⟩ := List.cons_subset.1 hhistory
    have hleads := (importModule_plain p).leads w
    obtain ⟨cs, -, hmoves, -⟩ := moves_of_leaves (importModule_plain p) (importModule_leaves p) hw
    have harch' : (importModule p w).2.linkage.platform.arch = arch :=
      (congrArg (·.2.2.arch) hleads.settings).trans harch
    have hunshared := h.importSource hslash hw hp
    rw [← h.importModule_eq hp harch] at hunshared
    obtain ⟨hworks, hled, hafter⟩ := ih hmoves.works hunshared harch' hrest
    exact ⟨hworks, hleads.trans hled, hafter⟩

/-- A session with the code of a text finds the names that the text defines. -/
theorem Serves.symbolIn_iff {text name : String} (h : T.Serves m.session text w)
    (hnul : hasNul name = false) : (symbolIn m name w).1.map Option.isSome = .ok true ↔
      name ∈ (T.translate text).names := by
  obtain ⟨w₁, hfind, -⟩ := find_apply h.works h.serial h.relocated hnul
  rw [symbolIn, hfind, ← T.isSome_symbol name h.contains]
  exact ⟨fun heq => Except.ok.inj heq, congrArg Except.ok⟩

/-- **Sources that share no object keep apart.** Two sources share an object exactly if they lie in
one directory and have one stem; and if some sources share none, every import of one gives its own
code, in whatever order they are imported. -/
theorem imports_own (T : Translator σ) :
    (∀ (arch p q : String) (stem stem' : List Char), Path.stem? p.toList = some stem →
      Path.stem? q.toList = some stem' →
      (Path.components (ObjectCache.ofSource p arch).object.toList =
          Path.components (ObjectCache.ofSource q arch).object.toList ↔
        Path.directory p.toList = Path.directory q.toList ∧ stem = stem')) ∧
    ∀ (w : World σ) (sources : List String) (text : String → String), T.Works w →
      '/' ∉ w.linkage.platform.arch.toList →
      T.Unshared w.linkage.platform.arch sources text w.files →
      ∀ history ⊆ sources, ∀ q ∈ sources,
        (T.Compilable (sourceOfFile q (text q)) w →
          ∃ m w', importModule q (importAll history w) = (.ok m, w')) ∧
        ∀ m w', importModule q (importAll history w) = (.ok m, w') →
          m.path = q ∧ T.Serves m.session (sourceOfFile q (text q)) w' ∧
          ∀ name, hasNul name = false → ((symbolIn m name w').1.map Option.isSome = .ok true ↔
            name ∈ (T.translate (sourceOfFile q (text q))).names) := by
  refine ⟨fun arch p q stem stem' hp hq => Path.components_tagged_eq_iff hp hq,
    fun w sources text hw hslash hunshared history hhistory q hq => ?_⟩
  obtain ⟨hworks, hleads, hafter⟩ := importAll_spec hw hunshared rfl hslash hhistory
  have harch : (importAll history w).linkage.platform.arch = w.linkage.platform.arch :=
    congrArg (·.2.2.arch) hleads.settings
  rw [hafter.importModule_eq hq harch]
  refine ⟨fun hcompilable => ?_, fun m w' himport => ?_⟩
  · have hstill := hcompilable.congr hleads.settings fun hne name hname => by
      rw [hleads.isSome_resolve]
      exact ((hcompilable.linkable hne).2 name hname).1
    exact exists_of_keeps (c := .ofSource q w.linkage.platform.arch) hworks (hafter.reads q hq)
      (hafter.keeps q hq) hstill
  · obtain ⟨hpath, hserves⟩ := serves_of_keeps (c := .ofSource q w.linkage.platform.arch) hworks
      (hafter.reads q hq) (hafter.keeps q hq) himport
    exact ⟨hpath, hserves, fun name hnul => hserves.symbolIn_iff hnul⟩

/-- A source that defines one name. -/
def oneText : String := "int one() \x7b\n\x7d\n"

/-- A source that defines another name. -/
def twoText : String := "int two() \x7b\n\x7d\n"

/-- A world with the two sources under some names. -/
def twoSources (first second : String) : World Scripted.Library :=
  .start (.start [])
    ⟨[([first.toList], .file 0), ([second.toList], .file 1)],
      [(0, ⟨oneText.toUTF8, none, 1⟩), (1, ⟨twoText.toUTF8, none, 1⟩)], [], [], 2⟩
    (.start ⟨[]⟩ ⟨[]⟩ []) false

/-- Two sources with different stems share no object, in whatever order they are imported. -/
theorem imports_own_twoSources :
    let text (p : String) := if p = "a.c" then oneText else twoText
    let w := twoSources "a.c" "b.c"
    Scripted.translator.Unshared w.linkage.platform.arch ["a.c", "b.c"] text w.files ∧
    ∀ history ⊆ ["a.c", "b.c"], ∀ m w', importModule "b.c" (importAll history w) = (.ok m, w') →
      Scripted.translator.Serves m.session (sourceOfFile "b.c" twoText) w' := by
  intro text w
  have hfirst : w.files.entry? "a.c" = some (.file 0) := by decide +kernel
  have hsecond : w.files.entry? "b.c" = some (.file 1) := by decide +kernel
  have hobject : w.files.entry? (Path.tagged "a.c" w.linkage.platform.arch) = none := by
    decide +kernel
  have hobject' : w.files.entry? (Path.tagged "b.c" w.linkage.platform.arch) = none := by
    decide +kernel
  have hunshared : Scripted.translator.Unshared w.linkage.platform.arch ["a.c", "b.c"] text
      w.files := by
    constructor
    · exact List.forall_mem_cons.2
        ⟨⟨['a'], by decide +kernel⟩, List.forall_mem_singleton.2 ⟨['b'], by decide +kernel⟩⟩
    · decide +kernel
    · decide +kernel
    · exact List.forall_mem_cons.2
        ⟨.inl (by decide +kernel), List.forall_mem_singleton.2 (.inl (by decide +kernel))⟩
    · intro p hp q hq hne hstem
      have hstems : Path.stem? "a.c".toList ≠ Path.stem? "b.c".toList := by decide +kernel
      rcases List.mem_pair.1 hp with rfl | rfl <;> rcases List.mem_pair.1 hq with rfl | rfl
      · exact absurd rfl hne
      · exact absurd hstem hstems
      · exact absurd hstem.symm hstems
      · exact absurd rfl hne
    · have hsource {x : String} {id : Nat}
          (hx : x ∈ ["a.c", "b.c"] ++ ["a.c", "b.c"].map (Path.tagged · w.linkage.platform.arch))
          (hid : w.files.entry? x = some (.file id)) : x = if id = 0 then "a.c" else "b.c" := by
        simp only [List.map, List.mem_append, List.mem_cons, List.not_mem_nil, or_false] at hx
        rcases hx with (rfl | rfl) | rfl | rfl
        · obtain rfl := Entry.file.inj (Option.some.inj (hfirst.symm.trans hid))
          rfl
        · obtain rfl := Entry.file.inj (Option.some.inj (hsecond.symm.trans hid))
          rfl
        · exact absurd (hobject.symm.trans hid) (by simp)
        · exact absurd (hobject'.symm.trans hid) (by simp)
      intro x hx y hy id hxid hyid
      rw [hsource hx hxid, hsource hy hyid]
  refine ⟨hunshared, fun history hhistory m w' himport => ?_⟩
  obtain ⟨-, hown⟩ := imports_own Scripted.translator
  obtain ⟨-, hall⟩ := hown w ["a.c", "b.c"] text (.start rfl rfl _ _ _)
    (by decide +kernel) hunshared
    history hhistory "b.c" (by simp)
  exact (hall m w' himport).2.1

/-- **Two sources with one stem share an object**: the second one is not compiled, and its module
has the code of the first. -/
theorem importBoth_stem :
    Path.isObject "a.c" = false ∧ Path.isObject "a.cc" = false ∧
    Path.components (ObjectCache.ofSource "a.c" "x86_64").object.toList =
      Path.components (ObjectCache.ofSource "a.cc" "x86_64").object.toList ∧
    ∃ m m' w, importBoth "a.c" "a.cc" (twoSources "a.c" "a.cc") = (.ok (m, m'), w) ∧
      m'.path = "a.cc" ∧ m'.origin = .cached ∧ (symbolIn m' "two" w).1.toOption = some none ∧
      (symbolIn m' "one" w).1.toOption.map Option.isSome = some true := by
  have htold : telling (fun _ m' w => (m'.path, m'.origin, (symbolIn m' "two" w).1.toOption,
        (symbolIn m' "one" w).1.toOption.map Option.isSome))
      (importBoth "a.c" "a.cc" (twoSources "a.c" "a.cc")) =
        some ("a.cc", .cached, some none, some true) := by decide +kernel
  obtain ⟨m, m', w, himport, heq⟩ := exists_of_telling htold
  obtain ⟨hpath, heq⟩ := Prod.mk.inj heq
  obtain ⟨horigin, heq⟩ := Prod.mk.inj heq
  obtain ⟨htwo, hone⟩ := Prod.mk.inj heq
  exact ⟨by decide +kernel, by decide +kernel, by decide +kernel, m, m', w, himport, hpath, horigin,
    htwo, hone⟩

end Translator

end LiveC
