import LiveC.Proofs.Compiler.Texts
import LiveC.Proofs.Files.Beside
import LiveC.Proofs.Module.Importing
/-!
# Choosing between a source and its object

`Decides` says how an import chooses between a source and the object that is kept for it, in
whatever state the files are: an object that is missing or out of date is not looked at, one that is
there and up to date is tried first, and one that cannot be loaded is passed over as if it were not
there. `importModule_decides` proves it from the ways of an import. What is asked of the compiler on
a way is followed by `Asks`.
-/

namespace LiveC

open InSession Engine

variable {σ α β : Type}

/-! ## What is asked for -/

/-- Whatever an operation asks of the compiler satisfies a property. -/
def Asks (P : Request → Prop) (x : Attempt (World σ) α) : Prop :=
  ∀ w : World σ, ∃ cs, w.Adds cs (x w).2 ∧ ∀ n q failed, .asked n q failed ∈ cs → P q

namespace Asks

variable {P Q : Request → Prop} {x : Attempt (World σ) α}

theorem of_silent (h : Silent x) : Asks P x := fun w => ⟨[], .of_calls_eq (h w).1, by simp⟩

theorem bind {f : α → Attempt (World σ) β} (hx : Asks P x) (hf : ∀ a, Asks P (f a)) :
    Asks P (x >>= f) := by
  intro w
  obtain ⟨cs, hadds, hcs⟩ := hx w
  rcases hrun : x w with ⟨e | a, w₁⟩
  · rw [Attempt.bind_of_error hrun]
    rw [hrun] at hadds
    exact ⟨cs, hadds, hcs⟩
  · rw [Attempt.bind_of_ok hrun]
    rw [hrun] at hadds
    obtain ⟨cs', hadds', hcs'⟩ := hf a w₁
    exact ⟨cs ++ cs', hadds.trans hadds', fun n q failed hq =>
      (List.mem_append.1 hq).elim (hcs n q failed) (hcs' n q failed)⟩

theorem capture (hx : Asks P x) : Asks P x.capture := hx

variable [Compiler σ]

theorem delete (s : Session) (h : P .delete) : Asks P (s.delete : Attempt (World σ) Unit) := by
  intro w
  obtain ⟨failed, hadds⟩ := s.delete_adds w
  refine ⟨_, hadds, fun n q failed' hq => ?_⟩
  obtain ⟨-, rfl, -⟩ := Call.asked.inj (List.mem_singleton.1 hq)
  exact h

theorem opened {body : InSession σ α} (hbody : AsksOnly P body) (h : P .delete) (mode : OutputMode)
    (unitName : String) : Asks P (Session.opened mode unitName body) := by
  intro w
  rcases Session.opened_cases hbody mode unitName w with
    ⟨e, w', hrun, ⟨hadds, -⟩ | ⟨t, failed, hP, -, hadds⟩⟩ | ⟨a, s, w', t, hrun, -, hP, -, hadds⟩
  · rw [hrun]
    exact ⟨_, hadds, by simp⟩
  · rw [hrun]
    refine ⟨_, hadds, fun n q failed' hq => ?_⟩
    rcases List.mem_append.1 ((List.mem_cons.1 hq).resolve_left (by simp)) with hq | hq
    · exact hP _ (Call.asked_mem_ofRequests.1 hq).2
    · obtain ⟨-, rfl, -⟩ := Call.asked.inj (List.mem_singleton.1 hq)
      exact h
  · rw [hrun]
    refine ⟨_, hadds, fun n q failed' hq => ?_⟩
    exact hP _ (Call.asked_mem_ofRequests.1 ((List.mem_cons.1 hq).resolve_left (by simp))).2

theorem build {load : InSession σ Unit} (hload : AsksOnly Q load) (hlink : ¬Q .relocate)
    (h : ∀ q, Prepares q ∨ Q q ∨ q = .relocate ∨ q = .delete → P q) (unitName : String) :
    Asks P (Engine.build unitName load) := by
  intro w
  obtain ⟨cs, linked, hadds, hcalls, -⟩ := build_calls hload hlink unitName w
  exact ⟨cs, hadds, fun n q failed hq => h q (hcalls.asked n q failed hq)⟩

end Asks

namespace Engine

variable [Compiler σ]

/-- Loading an object compiles nothing. -/
theorem loadObject_asks (path object : String) (origin : Origin) :
    Asks (fun q => ∀ text, q ≠ .compile text)
      (loadObject path object origin : Attempt (World σ) Module) := by
  refine (Asks.build (Q := (· = .addFile object)) (.addFile rfl) (by simp) ?_ object).bind fun _ =>
    .of_silent fun _ => ⟨rfl, rfl⟩
  rintro q (h | rfl | rfl | rfl) text
  · rintro rfl
    exact h
  all_goals simp

/-- Compiling a source loads no file. -/
theorem compileSource_asks (c : ObjectCache) :
    Asks (fun q => ∀ path, q ≠ .addFile path) (compileSource c : Attempt (World σ) Module) := by
  have hread (path : String) : Silent (readSource path : Attempt (World σ) String) := fun w => by
    rw [readSource_apply]
    exact ⟨rfl, rfl⟩
  refine (Asks.of_silent (hread c.source)).bind fun text => ?_
  have hprepares {q : Request} (h : Prepares q) (path : String) : q ≠ .addFile path := by
    rintro rfl
    exact h
  have hwriting : AsksOnly (fun q => ∀ path, q ≠ .addFile path)
      (writing (sourceOfFile c.source text) c.object : InSession σ Unit) :=
    (prepare_asksOnly.mono fun _ => hprepares).bind fun _ =>
      (AsksOnly.demandWith _ (by simp)).bind fun _ => .demandWith _ (by simp)
  have hwrite : Asks (fun q => ∀ path, q ≠ .addFile path)
      (writeObject c.source (sourceOfFile c.source text) c.object : Attempt (World σ) Unit) :=
    (Asks.opened hwriting (by simp) .object c.source).bind fun r => .delete r.2 (by simp)
  have hbuild : Asks (fun q => ∀ path, q ≠ .addFile path) (do
      let session ← build c.source (InSession.compile (sourceOfFile c.source text))
      return ⟨c.source, .compiled, session⟩ : Attempt (World σ) Module) := by
    refine (Asks.build (Q := (· = .compile (sourceOfFile c.source text))) (.demandWith _ rfl)
      (by simp) ?_ c.source).bind fun _ => .of_silent fun _ => ⟨rfl, rfl⟩
    rintro q (h | rfl | rfl | rfl)
    · exact hprepares h
    all_goals simp
  refine hwrite.capture.bind fun r => ?_
  cases r with
  | ok u => exact hbuild
  | error e => exact (Asks.of_silent (silent_warn _)).bind fun _ => hbuild

/-- A module that was compiled says so. -/
theorem origin_of_compileSource {c : ObjectCache} {w w' : World σ} {m : Module}
    (h : compileSource c w = (.ok m, w')) : m.origin = .compiled := by
  obtain ⟨text, w₁, -, h⟩ := Attempt.bind_eq_ok h
  obtain ⟨r, w₂, -, h⟩ := Attempt.bind_eq_ok h
  have hbuilt {w : World σ} (h : (do
      let session ← build c.source (InSession.compile (sourceOfFile c.source text))
      return ⟨c.source, .compiled, session⟩ : Attempt (World σ) Module) w = (.ok m, w')) :
      m.origin = .compiled := by
    obtain ⟨s, w₃, -, h⟩ := Attempt.bind_eq_ok h
    obtain rfl := Except.ok.inj (Prod.mk.inj h).1
    rfl
  cases r with
  | ok u => exact hbuilt h
  | error e =>
    obtain ⟨_, w₃, -, h⟩ := Attempt.bind_eq_ok h
    exact hbuilt h

end Engine

namespace Translator

variable [Compiler σ] {T : Translator σ} {w w' : World σ} {path : String}

/-- The file of an object that is to be loaded is passed to the compiler. -/
theorem exists_asked_addFile (hw : T.Works w) (hclean : w.surroundings.Clean) {object : String}
    (hexists : w.files.exists? object = true) (unitName : String) :
    ∃ cs n failed, w.Adds cs (build unitName (InSession.addFile object) w).2 ∧
      .asked n (.addFile object) failed ∈ cs := by
  obtain ⟨s, w₁, w₂, hcreate, -, hpopulate, hf, -⟩ :=
    exists_blank hw hclean unitName (List.forall_mem_nil _)
  obtain ⟨cs₁, hcourse₁⟩ := (Session.create_plain .memory unitName).leads w
  rw [hcreate] at hcourse₁
  have hnothing : InSession.Plain (pure () : InSession σ Unit) := .pure ()
  obtain ⟨cs₂, hcourse₂⟩ := (populate_plain hnothing []).leads (s, w₁)
  rw [hpopulate (pure ())] at hcourse₂
  have hfiles : w₂.files = w.files := congrArg Surroundings.files hf.surroundings
  have hload := addFile_of_exists (hfiles ▸ hexists) s
  obtain ⟨failed, hasked, -⟩ := demand_asks (.addFile object) s w₂
  have hadds := (hcourse₁.adds.trans hcourse₂.adds).trans hasked.calls
  have hmem {cs : List Call} : .asked s.serial (.addFile object) failed ∈
      cs₁ ++ cs₂ ++ Call.ofRequests s.serial [(.addFile object, failed)] ++ cs := by simp
  rw [← hload] at hadds
  rcases hrun : InSession.addFile object (s, w₂) with ⟨e | ⟨⟩, p⟩
  · rw [hrun] at hadds
    have hbody : linkOnce (InSession.addFile object) (s, w₁) = (.error e, p) :=
      Attempt.bind_of_error ((hpopulate _).trans hrun) _
    obtain ⟨failed', hdelete⟩ := p.1.delete_adds p.2
    rw [build, Attempt.bind_of_error (Session.opened_of_failed hcreate hbody)]
    exact ⟨_, s.serial, failed, hadds.trans hdelete, hmem⟩
  · rw [hrun] at hadds
    have hbody : linkOnce (InSession.addFile object) (s, w₁) =
        (.ok (InSession.relocate p).1, (InSession.relocate p).2) :=
      Attempt.bind_of_ok ((hpopulate _).trans hrun) _
    obtain ⟨cs₃, hcourse₃⟩ := InSession.Plain.relocate.leads p
    have hlinked := hadds.trans hcourse₃.adds
    rw [build, Attempt.bind_of_ok (Session.opened_of_ok hcreate hbody)]
    cases (InSession.relocate p).1 with
    | ok u => exact ⟨_, s.serial, failed, hlinked, hmem⟩
    | error e =>
      obtain ⟨cs₄, hcourse₄⟩ := (((InSession.relocate p).2.1.delete_plain).bind fun _ =>
        retry_plain (InSession.Plain.addFile object) unitName e).leads (InSession.relocate p).2.2
      exact ⟨_, s.serial, failed, hlinked.trans hcourse₄.adds, List.mem_append_left _ hmem⟩

/-! ## Compiling in place of an object -/

/-- A source that cannot be read is not compiled, and nothing happens. -/
theorem exists_unread {c : ObjectCache} {fault : ReadFault}
    (h : w.files.readText c.source = .error fault) :
    compileSource c w = (.error (if w.files.exists? c.source then .unreadable c.source fault
      else .fileNotFound c.source), w) := by
  refine Attempt.bind_of_error (x := readSource c.source) ?_ _
  rw [readSource_apply, h]
  split <;> rfl

/-- Two modules have the code of one text. -/
def Agree (T : Translator σ) (r r' : Except Failure Module × World σ) : Prop :=
  r.1.map Module.face = r'.1.map Module.face ∧ ∀ m m', r.1 = .ok m → r'.1 = .ok m' →
    ∃ text, T.Serves m.session text r.2 ∧ T.Serves m'.session text r'.2

/-- What comes of compiling a source depends on the settings, on which names resolve, and on what is
read. -/
theorem compileSource_agree {c : ObjectCache} (hw : T.Works w) (hw' : T.Works w')
    (hsettings : w'.settings = w.settings)
    (hresolves : ∀ name, (w'.linkage.resolve name).1.isSome = (w.linkage.resolve name).1.isSome)
    (hexists : w'.files.exists? c.source = w.files.exists? c.source)
    (hread : w'.files.readText c.source = w.files.readText c.source) :
    T.Agree (compileSource c w') (compileSource c w) := by
  cases htext : w.files.readText c.source with
  | error fault =>
    rw [exists_unread htext, exists_unread (hread.trans htext), hexists]
    exact ⟨rfl, fun m m' h => absurd h (by simp)⟩
  | ok text =>
    obtain ⟨-, -, -, -, hserves⟩ := compileSource_spec hw htext
    obtain ⟨-, -, -, -, hserves'⟩ := compileSource_spec hw' (hread.trans htext)
    refine ⟨?_, fun m m' h h' => ⟨_, hserves' m h, hserves m' h'⟩⟩
    rw [compileSource_comes hw htext, compileSource_comes hw' (hread.trans htext),
      compiling_congr hsettings hresolves]

variable (T) in
/-- The compiler takes the text of a source. -/
def Takes (files : FileTree) (source : String) : Prop :=
  ∃ text, files.readText source = .ok text ∧ hasNul (sourceOfFile source text) = false ∧
    (T.translate (sourceOfFile source text)).failed = false

/-- A source is compiled among some calls. -/
def Compiles (cs : List Call) : Prop := ∃ n text, .asked n (.compile text) false ∈ cs

/-- Compiling a source changes files only if it compiles. -/
theorem files_of_compileSource (c : ObjectCache) (hw : T.Works w) :
    ∃ cs, w.Adds cs (compileSource c w).2 ∧ ((compileSource c w).2.files = w.files ∨
      T.Takes w.files c.source ∧ Compiles cs) := by
  cases htext : w.files.readText c.source with
  | error fault =>
    rw [exists_unread htext]
    exact ⟨[], .refl w, .inl rfl⟩
  | ok text =>
    obtain ⟨cs, hadds, -, hstores, -⟩ := compileSource_spec (c := c) hw htext
    refine ⟨cs, hadds, hstores.imp And.left ?_⟩
    rintro ⟨⟨n, hn⟩, hnul, htranslated, -⟩
    exact ⟨⟨text, htext, hnul, htranslated⟩, n, _, hn⟩

end Translator

/-! ## The decision -/

namespace ObjectCache

/-- The object is there and not older than its source. -/
def UpToDate (c : ObjectCache) (files : FileTree) : Prop :=
  ∃ time, files.modified? c.object = some time ∧
    ∀ source, files.modified? c.source = some source → source ≤ time

/-- The object is missing or older than its source. -/
def Outdated (c : ObjectCache) (files : FileTree) : Prop :=
  files.modified? c.object = none ∨ ∃ time source, files.modified? c.object = some time ∧
    files.modified? c.source = some source ∧ time < source

theorem Outdated.isUsable {c : ObjectCache} {files : FileTree} (h : c.Outdated files) :
    (c.validity files).isUsable = false := by
  rcases h with h | ⟨time, source, hobject, hsource, hlt⟩
  · rw [validity, h]
    rfl
  · rw [validity, hobject, hsource]
    simp [not_le.2 hlt, Validity.isUsable]

theorem UpToDate.isUsable {c : ObjectCache} {files : FileTree} (h : c.UpToDate files) :
    (c.validity files).isUsable = true := by
  obtain ⟨time, hobject, hsource⟩ := h
  rw [validity, hobject]
  cases h : files.modified? c.source with
  | none => rfl
  | some source => simp [hsource source h, Validity.isUsable]

end ObjectCache

/-- How an import chooses between a source and its object. -/
structure Translator.Decides [Compiler σ] (T : Translator σ) (c : ObjectCache) (w : World σ) :
    Prop where
  /-- Nothing is imported, and no session is made, where there is neither. -/
  missing : w.files.exists? c.source = false → w.files.exists? c.object = false →
    importModule c.source w = (.error (.fileNotFound c.source), w)
  /-- An object that is missing or out of date is not loaded. -/
  outdated : c.Outdated w.files →
    (∃ cs, w.Adds cs (importModule c.source w).2 ∧
      ∀ n path failed, .asked n (.addFile path) failed ∉ cs) ∧
    ∀ m, (importModule c.source w).1 = .ok m → m.origin = .compiled
  /-- An object that is up to date is loaded first, and nothing is compiled meanwhile. -/
  loaded : c.UpToDate w.files → ∃ cs cs',
    w.Adds cs (loadObject c.source c.object .cached w).2 ∧
    w.Adds (cs ++ cs') (importModule c.source w).2 ∧
    (∀ n text failed, .asked n (.compile text) failed ∉ cs) ∧
    (w.surroundings.Clean → ∃ n failed, .asked n (.addFile c.object) failed ∈ cs)
  /-- If that succeeds, it is all that happens. -/
  cached : c.UpToDate w.files → ∀ m, (loadObject c.source c.object .cached w).1 = .ok m →
    importModule c.source w = loadObject c.source c.object .cached w
  /-- If it fails and there is a source, the import is as it is without the object. -/
  fallback : c.UpToDate w.files → ∀ time, w.files.modified? c.source = some time →
    ∀ e, (loadObject c.source c.object .cached w).1 = .error e →
    ∀ files, w.files.remove? c.object = some files →
      T.Agree (importModule c.source w) (importModule c.source { w with files := files })
  /-- No file changes if the compiler does not take the source. -/
  untouched : ¬T.Takes w.files c.source → (importModule c.source w).2.files = w.files
  /-- No file changes if nothing is compiled, for whatever reason. -/
  uncompiled : ∀ cs, w.Adds cs (importModule c.source w).2 → ¬Translator.Compiles cs →
    (importModule c.source w).2.files = w.files

namespace Translator

variable [Compiler σ] {T : Translator σ} {w w' : World σ} {path : String} {c : ObjectCache}

theorem importModule_of_source (hpath : checkModulePath path = .ok ())
    (hsource : Path.isObject path = false) (w : World σ) :
    importModule path w = importSource (.ofSource path w.linkage.platform.arch) w := by
  have hstate : (Attempt.state : Attempt (World σ) (World σ)) w = (.ok w, w) := rfl
  unfold importModule
  rw [hpath]
  dsimp only
  rw [Attempt.bind_of_ok hstate, hsource]
  rfl

theorem importModule_of_object (hpath : checkModulePath path = .ok ())
    (hobject : Path.isObject path = true) (w : World σ) : importModule path w =
      match objectFor? w.files path w.linkage.platform.arch with
      | some object => loadObject path object .object w
      | none => (.error (.fileNotFound path), w) := by
  have hstate : (Attempt.state : Attempt (World σ) (World σ)) w = (.ok w, w) := rfl
  unfold importModule
  rw [hpath]
  refine (Attempt.bind_of_ok hstate _).trans ?_
  rw [if_pos hobject]
  cases objectFor? w.files path w.linkage.platform.arch <;> rfl

theorem importSource_of_outdated (h : c.Outdated w.files) :
    importSource c w = compileSource c w := by
  rcases importSource_cases c w with ⟨husable, -⟩ | ⟨hfresh, -⟩ | ⟨horphaned, -⟩ | ⟨-, hrun⟩
  · exact absurd (husable.symm.trans h.isUsable) (by simp)
  · have hfalse := h.isUsable
    rw [hfresh] at hfalse
    exact absurd hfalse (by decide)
  · have hfalse := h.isUsable
    rw [horphaned] at hfalse
    exact absurd hfalse (by decide)
  · exact hrun

theorem importSource_of_upToDate (h : c.UpToDate w.files) :
    (∃ m w₁, loadObject c.source c.object .cached w = (.ok m, w₁) ∧
      importSource c w = (.ok m, w₁)) ∨
    ∃ e w₁, loadObject c.source c.object .cached w = (.error e, w₁) ∧
      ((∃ time errors, w.files.modified? c.source = some time ∧
          importSource c w = compileSource c { w₁ with errors := errors }) ∨
        w.files.modified? c.source = none ∧ importSource c w = (.error e, w₁)) := by
  obtain ⟨time, hobject, -⟩ := id h
  rcases importSource_cases c w with ⟨-, m, w₁, hload, hrun⟩ |
    ⟨hfresh, e, w₁, errors, hload, hrun⟩ |
    ⟨horphaned, e, w₁, hload, hrun⟩ | ⟨husable, -⟩
  · exact .inl ⟨m, w₁, hload, hrun⟩
  · refine .inr ⟨e, w₁, hload, .inl ?_⟩
    cases hsource : w.files.modified? c.source with
    | none =>
      rw [ObjectCache.validity, hobject, hsource] at hfresh
      exact absurd hfresh (by simp)
    | some source => exact ⟨source, errors, rfl, hrun⟩
  · refine .inr ⟨e, w₁, hload, .inr ⟨?_, hrun⟩⟩
    cases hsource : w.files.modified? c.source with
    | none => rfl
    | some source =>
      rw [ObjectCache.validity, hobject, hsource] at horphaned
      dsimp only at horphaned
      split at horphaned <;> exact absurd horphaned (by simp)
  · exact absurd (husable.symm.trans h.isUsable) (by simp)

/-- The calls with which an object that is up to date is loaded come first. -/
theorem importSource_loads (hw : T.Works w) (h : c.UpToDate w.files) : ∃ cs cs',
    w.Adds cs (loadObject c.source c.object .cached w).2 ∧ w.Adds (cs ++ cs') (importSource c w).2 ∧
    (∀ n text failed, .asked n (.compile text) failed ∉ cs) ∧
    (w.surroundings.Clean → ∃ n failed, .asked n (.addFile c.object) failed ∈ cs) := by
  obtain ⟨cs, hadds, hcs⟩ := loadObject_asks c.source c.object .cached w
  have hcompiles : ∀ n text failed, .asked n (.compile text) failed ∉ cs :=
    fun n text failed hq => hcs n _ failed hq text rfl
  have hloads : w.surroundings.Clean → ∃ n failed, .asked n (.addFile c.object) failed ∈ cs := by
    intro hclean
    obtain ⟨time, hobject, -⟩ := h
    have hexists : w.files.exists? c.object = true := by
      by_contra hnot
      have hnone := FileTree.modified?_of_not_exists (by simpa using hnot)
      exact absurd (hobject.symm.trans hnone) (by simp)
    obtain ⟨cs', n, failed, hadds', hq⟩ := exists_asked_addFile hw hclean hexists c.object
    rw [loadObject_apply] at hadds
    obtain rfl := hadds.unique hadds'
    exact ⟨n, failed, hq⟩
  have hend : ∃ cs', (loadObject c.source c.object .cached w).2.Adds cs' (importSource c w).2 := by
    rcases importSource_of_upToDate h with ⟨m, w₁, hload, hrun⟩ |
      ⟨e, w₁, hload, ⟨time, errors, -, hrun⟩ | ⟨-, hrun⟩⟩
    · rw [hload, hrun]
      exact ⟨[], .refl w₁⟩
    · rw [hload, hrun]
      obtain ⟨cs', hadds', -⟩ := compileSource_asks c { w₁ with errors := errors }
      exact ⟨cs', hadds'⟩
    · rw [hload, hrun]
      exact ⟨[], .refl w₁⟩
  obtain ⟨cs', hadds'⟩ := hend
  exact ⟨cs, cs', hadds, hadds.trans hadds', hcompiles, hloads⟩

/-- What an import does to files. -/
theorem files_of_importSource (c : ObjectCache) (hw : T.Works w) :
    ∃ cs, w.Adds cs (importSource c w).2 ∧ ((importSource c w).2.files = w.files ∨
      T.Takes w.files c.source ∧ Compiles cs) := by
  obtain ⟨cs, hadds, hmoves, hwrites⟩ := loadObject_moves hw c.source c.object .cached
  have hfiles := hmoves.files hwrites
  rcases importSource_cases c w with ⟨-, m, w₁, hload, hrun⟩ | ⟨-, e, w₁, errors, hload, hrun⟩ |
    ⟨-, e, w₁, hload, hrun⟩ | ⟨-, hrun⟩
  · rw [hload] at hadds hfiles
    rw [hrun]
    exact ⟨cs, hadds, .inl hfiles⟩
  · rw [hload] at hadds hfiles hmoves
    obtain ⟨cs', hadds', htouched⟩ :=
      files_of_compileSource (T := T) (w := { w₁ with errors := errors }) c
      ⟨hmoves.works.ready, hmoves.works.made, hmoves.works.sound⟩
    rw [hrun]
    refine ⟨cs ++ cs', World.Adds.trans hadds hadds', ?_⟩
    rcases htouched with hsame | ⟨htakes, n, text, hn⟩
    · exact .inl (hsame.trans hfiles)
    · have htakes' : T.Takes w₁.files c.source := htakes
      rw [hfiles] at htakes'
      exact .inr ⟨htakes', n, text, List.mem_append_right cs hn⟩
  · rw [hload] at hadds hfiles
    rw [hrun]
    exact ⟨cs, hadds, .inl hfiles⟩
  · rw [hrun]
    exact files_of_compileSource c hw

/-- An object that cannot be loaded is passed over as if it were not there. -/
theorem importSource_fallback (hw : T.Works w) (h : c.UpToDate w.files) {time : Int}
    (hsource : w.files.modified? c.source = some time) {e : Failure}
    (hload : (loadObject c.source c.object .cached w).1 = .error e) {files : FileTree}
    (hremove : w.files.remove? c.object = some files)
    (hplaces : w.files.placeOf? c.source ≠ w.files.placeOf? c.object) :
    T.Agree (importSource c w) (importSource c { w with files := files }) := by
  obtain ⟨cs, -, hmoves, hwrites⟩ := loadObject_moves hw c.source c.object .cached
  have hfiles := hmoves.files hwrites
  have hgone : c.Outdated ({ w with files := files } : World σ).files :=
    .inl (FileTree.modified?_of_not_exists (FileTree.exists?_remove hremove))
  obtain ⟨hexists, hread⟩ := FileTree.readText_remove hremove hplaces
  rw [importSource_of_outdated hgone]
  rcases importSource_of_upToDate h with ⟨m, w₁, hload', -⟩ |
    ⟨e', w₁, hload', ⟨time', errors, -, hrun⟩ | ⟨hnone, -⟩⟩
  · rw [hload'] at hload
    exact absurd hload (by simp)
  · rw [hload'] at hfiles hmoves
    have hfiles' : ({ w₁ with errors := errors } : World σ).files = w.files := hfiles
    rw [hrun]
    have hworks : T.Works { w with files := files } := ⟨hw.ready, hw.made, hw.sound⟩
    have hworks₁ : T.Works { w₁ with errors := errors } :=
      ⟨hmoves.works.ready, hmoves.works.made, hmoves.works.sound⟩
    refine compileSource_agree hworks hworks₁ hmoves.settings hmoves.resolves ?_ ?_
    · rw [hfiles', hexists]
    · rw [hfiles', hread]
  · exact absurd (hsource.symm.trans hnone) (by simp)

/-- **An import chooses between a source and its object** in every state of the files. -/
theorem importModule_decides (T : Translator σ) {w : World σ} {path : String} (hw : T.Works w)
    (hpath : checkModulePath path = .ok ()) (hsource : Path.isObject path = false)
    (harch : '/' ∉ w.linkage.platform.arch.toList) :
    T.Decides (.ofSource path w.linkage.platform.arch) w := by
  have himport := importModule_of_source (σ := σ) hpath hsource
  set c := ObjectCache.ofSource path w.linkage.platform.arch with hc
  have himport : ∀ files, importModule c.source { w with files := files } =
      importSource c { w with files := files } :=
    fun files => himport { w with files := files }
  have himport₀ : importModule c.source w = importSource c w := himport w.files
  constructor
  · intro hnone hobject
    rw [himport₀, importSource_of_outdated (.inl (FileTree.modified?_of_not_exists hobject))]
    have hread : w.files.readText c.source = .error .absent := by
      have hentry : w.files.entry? c.source = none := by simpa [FileTree.exists?] using hnone
      rw [FileTree.readText, hentry]
    rw [exists_unread hread, hnone]
    rfl
  · intro h
    rw [himport₀, importSource_of_outdated h]
    obtain ⟨cs, hadds, hcs⟩ := compileSource_asks c w
    exact ⟨⟨cs, hadds, fun n path failed hq => hcs n _ failed hq path rfl⟩, fun m hm =>
      origin_of_compileSource (Prod.ext hm rfl)⟩
  · intro h
    rw [himport₀]
    exact importSource_loads hw h
  · intro h m hm
    rw [himport₀]
    rcases importSource_of_upToDate h with ⟨m', w₁, hload, hrun⟩ | ⟨e, w₁, hload, -⟩
    · rw [hload, hrun]
    · rw [hload] at hm
      exact absurd hm (by simp)
  · intro h time hsource' e hload files hremove
    rw [himport₀, himport files]
    obtain ⟨p, id, hplace, hfile, -⟩ := FileTree.remove?_cases hremove
    refine importSource_fallback hw h hsource' hload hremove ?_
    rw [hplace]
    exact FileTree.placeOf?_tagged_ne hsource harch hplace hfile
  · intro htakes
    rw [himport₀]
    obtain ⟨cs, -, htouched⟩ := files_of_importSource c hw
    exact htouched.resolve_right fun h => htakes h.1
  · intro cs hadds hcompiles
    rw [himport₀] at hadds ⊢
    obtain ⟨cs', hadds', htouched⟩ := files_of_importSource c hw
    obtain rfl := hadds.unique hadds'
    exact htouched.resolve_right fun h => hcompiles h.2

/-- A world with a source, and beside it an object that no compiler wrote. -/
def spoiltWorld : World Scripted.Library :=
  let source : File := ⟨"int main() \x7b\n@[ret 1]\n\x7d\n".toUTF8, none, 1⟩
  let object : File := ⟨"spoilt".toUTF8, none, 2⟩
  .start (.start [])
    ⟨[(["a.c".toList], .file 0), (["a.x86_64.o".toList], .file 1)], [(0, source), (1, object)],
      [], [],
      3⟩
    (.start ⟨[]⟩ ⟨[]⟩ []) false

/-- An object that is up to date, but cannot be loaded. -/
theorem importModule_decides_spoiltWorld :
    (ObjectCache.ofSource "a.c" "x86_64").UpToDate spoiltWorld.files ∧
      Scripted.translator.Decides (.ofSource "a.c" spoiltWorld.linkage.platform.arch)
        spoiltWorld := by
  have hsource : spoiltWorld.files.modified? "a.c" = some 1 := by decide +kernel
  refine ⟨⟨2, by decide +kernel, fun source h => ?_⟩, importModule_decides Scripted.translator
    (.start rfl rfl _ _ _) (by decide +kernel) (by decide +kernel) (by decide +kernel)⟩
  obtain rfl := Option.some.inj (hsource.symm.trans h)
  decide

end Translator

end LiveC
