import LiveC.Proofs.Execution.Growth
import LiveC.Proofs.Module.Visits
import LiveC.Proofs.Session.Building
/-!
# What an import leaves

Compiling a source leaves its object behind, if the text is compiled and the object can be written,
and no other file changes (`writeObject_stores`). With a translator the outcome of an import can be
told from the texts: what comes of a source that is compiled is told by its text
(`compileSource_comes`), and its module has the code of the text (`compileSource_spec`). The object
that was written from it gives a module wherever the text can be linked (`loadObject_of_loadable`).
`importSource_cases` lists the ways of an import.
-/

namespace LiveC

open InSession Engine

/-- What of a module does not depend on where its session lies. -/
def Module.face (m : Module) : String × Origin × OutputMode × String × Bool × List String :=
  (m.path, m.origin, m.session.face)

/-- A path that leads to something can be that of a module. -/
theorem checkModulePath_of_exists {files : FileTree} {path : String}
    (h : files.exists? path = true) : checkModulePath path = .ok () := by
  have hpath := FileTree.isPath_of_exists? h
  simp only [FileTree.isPath, Bool.and_eq_true, Bool.not_eq_true', decide_eq_true_eq,
    String.ofList_toList] at hpath
  obtain ⟨⟨⟨hne, -⟩, hlimit⟩, -⟩ := hpath
  have hempty : path.utf8ByteSize ≠ 0 := by
    intro hzero
    rw [String.utf8ByteSize_eq_zero_iff] at hzero
    subst hzero
    exact absurd hne (by decide)
  have hle : ¬modulePathLimit < path.utf8ByteSize := by
    have hpathLimit : FileTree.pathLimit = modulePathLimit := rfl
    omega
  rw [checkModulePath, if_neg hempty, if_neg hle]

/-- The steps by which the object of a text is written. -/
def InSession.writing {σ : Type} [Compiler σ] (text object : String) : InSession σ Unit := do
  prepare
  InSession.compile text
  writeFile object

theorem Engine.readSource_apply {σ : Type} (path : String) (w : World σ) : readSource path w =
    (if w.files.exists? path then (w.files.readText path).mapError (.unreadable path)
      else .error (.fileNotFound path), w) := by
  have hstate : (Attempt.state : Attempt (World σ) (World σ)) w = (.ok w, w) := rfl
  rw [readSource, Attempt.bind_of_ok hstate]
  split
  · cases w.files.readText path <;> rfl
  · rfl

namespace Translator

variable {σ α : Type} [Compiler σ] {T : Translator σ} {w w' w₁ : World σ} {s : Session}
  {cs : List Call} {text unitName object path : String} {c : ObjectCache} {m : Module}

/-! ## What does not change -/

/-- Whether a text can be compiled depends on the settings and on which names resolve. -/
theorem Compilable.congr (h : T.Compilable text w) (hsettings : w'.settings = w.settings)
    (hresolves : (T.translate text).missing w.surroundings ≠ [] →
      ∀ n ∈ (T.translate text).late w.surroundings (T.translate text).heard,
        (w'.linkage.resolve n).1.isSome = true) : T.Compilable text w' := by
  obtain ⟨hconfig, hrest⟩ := Prod.mk.inj hsettings
  obtain ⟨hbinding, -⟩ := Prod.mk.inj hrest
  exact ⟨h.clean.congr hconfig, h.passed, h.translated, h.linkable.congr hbinding hresolves⟩

/-- A text could be compiled before some calls if it can be after them. -/
theorem Compilable.of_moves (h : T.Compilable text w') (hmoves : T.Moves w cs w') :
    T.Compilable text w :=
  h.congr hmoves.settings.symm fun hne n hn => by
    rw [← hmoves.resolves]
    exact ((h.linkable hne).2 n hn).1

/-- What a computation in a session keeps that writes no file. -/
theorem files_of_asks {x : InSession σ α} {P : Request → Prop} (hplain : InSession.Plain x)
    (hasks : AsksOnly P x) (hdelete : ∀ q, P q → q ≠ .delete)
    (hwrites : ∀ q, P q → ∀ path, q ≠ .writeFile path) (hw : T.Works w)
    (hs : s.serial < w.made) : ∃ t, Asked t (s, w) (x (s, w)).2 ∧ (∀ q ∈ t, P q.1) ∧
      T.Works (x (s, w)).2.2 ∧ (x (s, w)).2.2.files = w.files := by
  obtain ⟨t, hasked, hP, hmoves⟩ := moves_of_asks hplain hasks hdelete hs hw
  refine ⟨t, hasked, hP, hmoves.works, hmoves.files fun n path failed hq => ?_⟩
  exact hwrites _ (hP _ (Call.asked_mem_ofRequests.1 hq).2) path rfl

/-- Giving a session up changes no file. -/
theorem files_delete (hw : T.Works w) (hs : s.serial < w.made) :
    (s.delete w).2.files = w.files :=
  (Moves.asked hw hs .delete).files (by simp)

/-! ## Writing an object -/

variable (T) in
/-- What some calls leave of a text for which an object is to be written: the object, if the text
was compiled and the file could be written, and no other change. -/
def Stores (text object : String) (files : FileTree) (cs : List Call) (files' : FileTree) : Prop :=
  (files' = files ∧ ∀ n, .asked n (.writeFile object) false ∉ cs) ∨
    (∃ n, .asked n (.compile text) false ∈ cs) ∧ hasNul text = false ∧
      (T.translate text).failed = false ∧ files.write? object (T.object text) = some files'

/-- Further calls that write nothing change nothing. -/
theorem Stores.append {files files' : FileTree} (h : T.Stores text object files cs files')
    {cs' : List Call} (hwrites : ∀ n, .asked n (.writeFile object) false ∉ cs') :
    T.Stores text object files (cs ++ cs') files' := by
  rcases h with ⟨hsame, hnot⟩ | ⟨⟨n, hn⟩, hrest⟩
  · exact .inl ⟨hsame, fun n hn => (List.mem_append.1 hn).elim (hnot n) (hwrites n)⟩
  · exact .inr ⟨⟨n, List.mem_append_left cs' hn⟩, hrest⟩

/-- Earlier calls that write nothing change nothing. -/
theorem Stores.prepend {files files' : FileTree} (h : T.Stores text object files cs files')
    {cs' : List Call} (hwrites : ∀ n, .asked n (.writeFile object) false ∉ cs') :
    T.Stores text object files (cs' ++ cs) files' := by
  rcases h with ⟨hsame, hnot⟩ | ⟨⟨n, hn⟩, hrest⟩
  · exact .inl ⟨hsame, fun n hn => (List.mem_append.1 hn).elim (hwrites n) (hnot n)⟩
  · exact .inr ⟨⟨n, List.mem_append_right cs' hn⟩, hrest⟩

/-- A file is written with the object of the text in the session, if it can be. -/
theorem writeFile_cases (hw : T.Works w) (hs : s.serial < w.made)
    (hc : T.Contains w.compiler s.serial text) (object : String) :
    ∃ t, Asked t (s, w) (demandWith object (.writeFile object) (s, w)).2 ∧
      T.Works (demandWith object (.writeFile object) (s, w)).2.2 ∧
      ((demandWith object (.writeFile object) (s, w)).2.2.files = w.files ∧
          (.writeFile object, false) ∉ t ∨
        w.files.write? object (T.object text) =
          some (demandWith object (.writeFile object) (s, w)).2.2.files) := by
  cases hnul : hasNul object with
  | true =>
    rw [demandWith_of_nul hnul]
    exact ⟨[], .refl _, hw, .inl ⟨rfl, by simp⟩⟩
  | false =>
    rw [demandWith_of_text hnul]
    obtain ⟨hfailed, hfiles⟩ := T.writes object w.files hw.ready (hw.made ▸ hs) hc
    obtain ⟨failed, hasked, -, hok⟩ := demand_asks (.writeFile object) s w
    have hworks := (Moves.asked hw hs (.writeFile object)).works
    refine ⟨_, hasked, ?_⟩
    cases hwrite : w.files.write? object (T.object text) with
    | none =>
      rw [hwrite] at hfailed hfiles
      have hrun := demand_of_failed (r := .writeFile object) (s := s) (w := w) hfailed
      rw [hrun] at hok ⊢
      have htrue : failed = true := by simpa using hok
      exact ⟨hworks, .inl ⟨hfiles, by simp [htrue]⟩⟩
    | some files =>
      rw [hwrite] at hfailed hfiles
      have hrun := demand_of_done (r := .writeFile object) (s := s) (w := w) hfailed
      rw [hrun]
      exact ⟨hworks, .inr (congrArg some hfiles.symm)⟩

/-- A text that was compiled into a session was asked for. -/
theorem asked_of_compile {p : Session × World σ} (hnul : hasNul text = false)
    (h : InSession.compile text (s, w) = (.ok (), p)) :
    Asked [(.compile text, false)] (s, w) p := by
  rw [InSession.compile, demandWith_of_text hnul] at h
  obtain ⟨failed, hasked, -, hok⟩ := demand_asks (.compile text) s w
  rw [h] at hasked hok
  obtain rfl := hok.1 rfl
  exact hasked

/-- The steps by which an object is written store it. -/
theorem writing_stores (hw : T.Works w) (hs : s.serial < w.made)
    (hblank : T.Contains w.compiler s.serial "") (text object : String) :
    ∃ t, Asked t (s, w) (writing text object (s, w)).2 ∧
      T.Works (writing text object (s, w)).2.2 ∧
      T.Stores text object w.files (Call.ofRequests s.serial t)
        (writing text object (s, w)).2.2.files := by
  obtain ⟨t₁, hasked₁, hP₁, hw₁, hfiles₁⟩ := files_of_asks InSession.Plain.prepare prepare_asksOnly
    (by rintro q hq rfl; exact hq) (by rintro q hq path rfl; exact hq) hw hs
  have hblank₁ := contains_of_asks InSession.Plain.prepare prepare_asksOnly
    (fun _ => Prepares.keepsCode) hw hs hblank
  have hnot₁ : (.writeFile object, false) ∉ t₁ := fun hmem => hP₁ _ hmem
  have hstay {t : List (Request × Bool)} {files : FileTree} (hfiles : files = w.files)
      (hnot : (.writeFile object, false) ∉ t) :
      T.Stores text object w.files (Call.ofRequests s.serial t) files :=
    .inl ⟨hfiles, fun n hn => hnot (Call.asked_mem_ofRequests.1 hn).2⟩
  rcases h₁ : InSession.prepare (s, w) with ⟨e | ⟨⟩, s₁, w₁⟩
  · rw [writing, Attempt.bind_of_error h₁]
    rw [h₁] at hasked₁ hw₁ hfiles₁
    exact ⟨t₁, hasked₁, hw₁, hstay hfiles₁ hnot₁⟩
  rw [h₁] at hasked₁ hw₁ hfiles₁ hblank₁
  have hserial₁ : s₁.serial = s.serial := hasked₁.serial
  have hmade₁ : w₁.made = w.made := hasked₁.made
  rw [← hserial₁] at hblank₁
  have hs₁ : s₁.serial < w₁.made := by rwa [hserial₁, hmade₁]
  obtain ⟨t₂, hasked₂, hP₂, hw₂, hfiles₂⟩ := files_of_asks (x := InSession.compile text)
    (P := (· = .compile text)) (InSession.Plain.demandWith _ _) (.demandWith _ rfl)
    (by rintro q rfl; simp) (by rintro q rfl; simp) hw₁ hs₁
  rcases h₂ : InSession.compile text (s₁, w₁) with ⟨e | ⟨⟩, s₂, w₂⟩
  · rw [writing, Attempt.bind_of_ok h₁, Attempt.bind_of_error h₂]
    rw [h₂] at hasked₂ hw₂ hfiles₂
    have hnot₂ : (.writeFile object, false) ∉ t₁ ++ t₂ := fun hmem =>
      (List.mem_append.1 hmem).elim hnot₁ fun hmem => absurd (hP₂ _ hmem) (by simp)
    exact ⟨_, hasked₁.trans hasked₂, hw₂, hstay (hfiles₂.trans hfiles₁) hnot₂⟩
  rw [h₂] at hw₂ hfiles₂
  obtain ⟨hnul, htranslated, hc⟩ := contains_of_compile hw₁ hs₁ hblank₁ h₂
  have hcompiled := asked_of_compile hnul h₂
  have hserial₂ : s₂.serial = s₁.serial := hcompiled.serial
  have hmade₂ : w₂.made = w₁.made := hcompiled.made
  rw [← hserial₂] at hc
  obtain ⟨t₃, hasked₃, hw₃, hwritten⟩ :=
    writeFile_cases hw₂ (by rwa [hserial₂, hmade₂]) hc object
  have hfiles : w₂.files = w.files := hfiles₂.trans hfiles₁
  rw [writing, Attempt.bind_of_ok h₁, Attempt.bind_of_ok h₂]
  refine ⟨_, (hasked₁.trans hcompiled).trans hasked₃, hw₃, ?_⟩
  rcases hwritten with ⟨hsame, hnot⟩ | hwritten
  · exact hstay (hsame.trans hfiles) (by simp [hnot₁, hnot])
  · rw [hfiles] at hwritten
    exact .inr ⟨⟨s.serial, by simp⟩, hnul, htranslated, hwritten⟩

/-- **What writing an object leaves**: the object, if the text was compiled and the file could be
written, and no other change. -/
theorem writeObject_stores (hw : T.Works w) (unitName text object : String) :
    ∃ cs, w.Adds cs (writeObject unitName text object w).2 ∧
      T.Moves w cs (writeObject unitName text object w).2 ∧
      T.Stores text object w.files cs (writeObject unitName text object w).2.files := by
  obtain ⟨cs, hadds, hmoves, -⟩ :=
    moves_of_leaves (writeObject_plain unitName text object) (writeObject_leaves _ _ _) hw
  refine ⟨cs, hadds, hmoves, ?_⟩
  obtain ⟨s, w₁, hcreate, hcreated, hmoves₁, hs, -, hblank⟩ := create_blank hw .object unitName
  have hfiles₁ : w₁.files = w.files := hmoves₁.files (by simp)
  obtain ⟨t, hasked, hw₂, hstores⟩ := writing_stores hmoves₁.works hs hblank text object
  -- whether or not the steps go through, the session is given up after them
  have hgiven : (writeObject unitName text object w).2 =
      ((writing text object (s, w₁)).2.1.delete (writing text object (s, w₁)).2.2).2 := by
    rcases hrun : writing text object (s, w₁) with ⟨e | ⟨⟩, p⟩
    · have hwrite : writeObject unitName text object w = (.error e, (p.1.delete p.2).2) :=
        Attempt.bind_of_error (Session.opened_of_failed hcreate hrun) _
      rw [hwrite]
    · have hwrite : writeObject unitName text object w = p.1.delete p.2 :=
        Attempt.bind_of_ok (Session.opened_of_ok hcreate hrun) _
      rw [hwrite]
  have hs₂ : (writing text object (s, w₁)).2.1.serial < (writing text object (s, w₁)).2.2.made := by
    rw [hasked.serial, hasked.made]
    exact hs
  obtain ⟨failed, hdelete⟩ :=
    (writing text object (s, w₁)).2.1.delete_adds (writing text object (s, w₁)).2.2
  rw [← hgiven] at hdelete
  obtain rfl := hadds.unique ((hcreated.trans hasked.calls).trans hdelete)
  rw [hgiven, files_delete hw₂ hs₂, ← hfiles₁]
  exact (hstores.prepend (by simp)).append (by simp)

/-! ## Building modules -/

/-- A build writes no file, if what it loads writes none. -/
theorem build_moves {load : InSession σ Unit} {P : Request → Prop} (hplain : InSession.Plain load)
    (hasks : AsksOnly P load) (hlink : ¬P .relocate) (hdelete : ¬P .delete)
    (hwrites : ∀ path, ¬P (.writeFile path)) (hw : T.Works w) (unitName : String) :
    ∃ cs, w.Adds cs (build unitName load w).2 ∧ T.Moves w cs (build unitName load w).2 ∧
      ∀ n path failed, .asked n (.writeFile path) failed ∉ cs := by
  obtain ⟨cs, hadds, hmoves, -⟩ := moves_of_leaves (build_plain hplain unitName)
    (build_leaves hasks hlink hdelete unitName) hw
  obtain ⟨cs', linked, hadds', hcalls, -⟩ := build_calls hasks hlink unitName w
  obtain rfl := hadds.unique hadds'
  refine ⟨cs, hadds, hmoves, fun n path failed hq => ?_⟩
  rcases hcalls.asked n _ failed hq with h | h | h | h
  · exact h
  · exact hwrites path h
  · exact absurd h (by simp)
  · exact absurd h (by simp)

theorem loadObject_apply (path object : String) (origin : Origin) (w : World σ) :
    loadObject path object origin w =
      ((build object (InSession.addFile object) w).1.map fun s => ⟨path, origin, s⟩,
        (build object (InSession.addFile object) w).2) := Attempt.bind_pure_apply _ _ w

/-- Loading an object writes no file. -/
theorem loadObject_moves (hw : T.Works w) (path object : String) (origin : Origin) :
    ∃ cs, w.Adds cs (loadObject path object origin w).2 ∧
      T.Moves w cs (loadObject path object origin w).2 ∧
      ∀ n path failed, .asked n (.writeFile path) failed ∉ cs := by
  rw [loadObject_apply]
  exact build_moves (P := (· = .addFile object)) (.addFile object) (.addFile rfl)
    (by simp) (by simp) (by simp) hw object

/-- The object of a text gives a module if it can be linked. -/
theorem loadObject_of_loadable (hw : T.Works w)
    (hobject : w.files.bytes? object = some (T.object text))
    (htranslated : (T.translate text).failed = false) (h : T.Loadable text w) (path : String)
    (origin : Origin) : ∃ m w', loadObject path object origin w = (.ok m, w') := by
  obtain ⟨s, w', hbuild, -⟩ :=
    build_of_linkable hw h.clean (addFile_puts hobject htranslated) h.linkable object
  exact ⟨⟨path, origin, s⟩, w', by rw [loadObject_apply, hbuild]; rfl⟩

/-- A source is compiled in two steps: its object is written, or else a warning is logged, and then
its text is built. -/
theorem exists_compileSource (hw : T.Works w) (hread : w.files.readText c.source = .ok text) :
    ∃ cs w₁, w.Leads w₁ ∧ w.Adds cs w₁ ∧ T.Moves w cs w₁ ∧
      T.Stores (sourceOfFile c.source text) c.object w.files cs w₁.files ∧
      compileSource c w =
        ((build c.source (InSession.compile (sourceOfFile c.source text)) w₁).1.map
            fun s => ⟨c.source, .compiled, s⟩,
          (build c.source (InSession.compile (sourceOfFile c.source text)) w₁).2) := by
  obtain ⟨b, hb, -⟩ := FileTree.exists_bytes?_of_readText hread
  have hsource : readSource c.source w = (.ok text, w) := by
    rw [readSource_apply, if_pos (FileTree.exists?_of_bytes? hb), hread]
    rfl
  obtain ⟨cs, hadds, hmoves, hstores⟩ :=
    writeObject_stores hw c.source (sourceOfFile c.source text) c.object
  have hleads := (writeObject_plain c.source (sourceOfFile c.source text) c.object).leads w
  rw [compileSource, Attempt.bind_of_ok hsource]
  rcases hwrite : writeObject c.source (sourceOfFile c.source text) c.object w with ⟨e | ⟨⟩, w₁⟩
  · have hcapture : (writeObject c.source (sourceOfFile c.source text) c.object).capture w =
        (.ok (.error e), w₁) := by rw [Attempt.capture, hwrite]
    rw [hwrite] at hleads hadds hmoves hstores
    obtain ⟨errors, hwarn⟩ := w₁.exists_warn_eq (unwrittenCache c.object e.message)
    have hwarned : warn (unwrittenCache c.object e.message) w₁ =
        (.ok (), { w₁ with errors := errors }) := by
      rw [warn, Attempt.change, hwarn]
    have hrests : w₁.Rests { w₁ with errors := errors } := ⟨rfl, rfl, rfl, rfl, rfl, rfl, rfl⟩
    have hall := hmoves.trans (.of_rests hrests hmoves.works)
    rw [List.append_nil] at hall
    refine ⟨cs, { w₁ with errors := errors }, hleads.trans (.rest hrests), hadds, hall, hstores, ?_⟩
    rw [Attempt.bind_of_ok hcapture]
    dsimp only
    rw [Attempt.bind_of_ok hwarned]
    exact Attempt.bind_pure_apply _ _ { w₁ with errors := errors }
  · have hcapture : (writeObject c.source (sourceOfFile c.source text) c.object).capture w =
        (.ok (.ok ()), w₁) := by rw [Attempt.capture, hwrite]
    rw [hwrite] at hleads hadds hmoves hstores
    refine ⟨cs, w₁, hleads, hadds, hmoves, hstores, ?_⟩
    rw [Attempt.bind_of_ok hcapture]
    dsimp only
    exact Attempt.bind_pure_apply _ _ w₁

/-- Compiling a source stores its object, and a module has the code of its text. -/
theorem compileSource_spec (hw : T.Works w) (hread : w.files.readText c.source = .ok text) :
    ∃ cs, w.Adds cs (compileSource c w).2 ∧ T.Moves w cs (compileSource c w).2 ∧
      T.Stores (sourceOfFile c.source text) c.object w.files cs (compileSource c w).2.files ∧
      ∀ m, (compileSource c w).1 = .ok m →
        T.Serves m.session (sourceOfFile c.source text) (compileSource c w).2 := by
  obtain ⟨cs, w₁, -, hadds, hmoves, hstores, hrun⟩ := exists_compileSource hw hread
  have hplain :
      InSession.Plain (InSession.compile (sourceOfFile c.source text) : InSession σ Unit) :=
    InSession.Plain.demandWith _ _
  obtain ⟨cs', hadds', hmoves', hwrites⟩ := build_moves hplain
    (P := (· = .compile (sourceOfFile c.source text))) (.demandWith _ rfl) (by simp) (by simp)
    (by simp) hmoves.works c.source
  have hsame := hmoves'.files hwrites
  rw [hrun]
  dsimp only
  refine ⟨cs ++ cs', hadds.trans hadds', hmoves.trans hmoves', ?_, fun m h => ?_⟩
  · rw [hsame]
    exact hstores.append fun n => hwrites n c.object false
  · obtain ⟨s, hs, rfl⟩ := Except.exists_of_map_eq_ok h
    exact ((compile_comes hmoves.works (sourceOfFile c.source text) c.source).2 s hs).1

/-- **What comes of compiling a source** is told by its text, the settings and which names resolve.
-/
theorem compileSource_comes (hw : T.Works w) (hread : w.files.readText c.source = .ok text) :
    (compileSource c w).1.map Module.face =
      (T.compiling w c.source (sourceOfFile c.source text)).map fun _ =>
        (c.source, .compiled, .memory, c.source, true,
          (T.translate (sourceOfFile c.source text)).heard) := by
  obtain ⟨cs, w₁, -, -, hmoves, -, hrun⟩ := exists_compileSource hw hread
  have hcomes := (compile_comes hmoves.works (sourceOfFile c.source text) c.source).1
  rw [compiling_congr hmoves.settings hmoves.resolves] at hcomes
  have hface := congrArg (Except.map fun f => (c.source, Origin.compiled, f)) hcomes
  rw [Except.map_map, Except.map_map] at hface
  rw [hrun, Except.map_map]
  exact hface

/-! ## The ways of an import -/

/-- How a source is imported: by its object, or by its text if the object cannot be used or cannot
be loaded. -/
theorem importSource_cases (c : ObjectCache) (w : World σ) :
    ((c.validity w.files).isUsable = true ∧ ∃ m w₁,
      loadObject c.source c.object .cached w = (.ok m, w₁) ∧ importSource c w = (.ok m, w₁)) ∨
    (c.validity w.files = .fresh ∧ ∃ e w₁ errors,
      loadObject c.source c.object .cached w = (.error e, w₁) ∧
        importSource c w = compileSource c { w₁ with errors := errors }) ∨
    (c.validity w.files = .orphaned ∧ ∃ e w₁,
      loadObject c.source c.object .cached w = (.error e, w₁) ∧
        importSource c w = (.error e, w₁)) ∨
    ((c.validity w.files).isUsable = false ∧ importSource c w = compileSource c w) := by
  have hstate : (Attempt.state : Attempt (World σ) (World σ)) w = (.ok w, w) := rfl
  cases husable : (c.validity w.files).isUsable with
  | false =>
    refine .inr (.inr (.inr ⟨rfl, ?_⟩))
    rw [importSource, Attempt.bind_of_ok hstate]
    simp only [husable, Bool.false_eq_true, if_false]
  | true =>
    rcases hload : loadObject c.source c.object .cached w with ⟨e | m, w₁⟩
    · have hcapture : (loadObject c.source c.object .cached).capture w = (.ok (.error e), w₁) := by
        rw [Attempt.capture, hload]
      have hrun : importSource c w = (if c.validity w.files = .fresh then do
          warn (unusableCache c.object e.message)
          compileSource c
        else .fail e : Attempt (World σ) Module) w₁ := by
        rw [importSource, Attempt.bind_of_ok hstate]
        simp only [husable, if_true]
        rw [Attempt.bind_of_ok hcapture]
      by_cases hfresh : c.validity w.files = .fresh
      · obtain ⟨errors, hwarn⟩ := w₁.exists_warn_eq (unusableCache c.object e.message)
        have hwarned : warn (unusableCache c.object e.message) w₁ =
            (.ok (), { w₁ with errors := errors }) := by
          rw [warn, Attempt.change, hwarn]
        rw [if_pos hfresh, Attempt.bind_of_ok hwarned] at hrun
        exact .inr (.inl ⟨hfresh, e, w₁, errors, rfl, hrun⟩)
      · rw [if_neg hfresh] at hrun
        have horphaned : c.validity w.files = .orphaned := by
          cases hvalidity : c.validity w.files with
          | fresh => exact absurd hvalidity hfresh
          | orphaned => rfl
          | missing => simp [hvalidity, Validity.isUsable] at husable
          | stale => simp [hvalidity, Validity.isUsable] at husable
        exact .inr (.inr (.inl ⟨horphaned, e, w₁, rfl, hrun⟩))
    · have hcapture : (loadObject c.source c.object .cached).capture w = (.ok (.ok m), w₁) := by
        rw [Attempt.capture, hload]
      refine .inl ⟨rfl, m, w₁, rfl, ?_⟩
      rw [importSource, Attempt.bind_of_ok hstate]
      simp only [husable, if_true]
      rw [Attempt.bind_of_ok hcapture]
      rfl

end Translator

end LiveC
