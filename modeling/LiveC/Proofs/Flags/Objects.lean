import LiveC.Proofs.Compiler.Sources
import LiveC.Proofs.Execution.Abreast
import LiveC.Proofs.Execution.Operations
import LiveC.Proofs.Module.Transparency
import LiveC.Proofs.Session.Abreast
/-!
# Programs and their objects

The object of a source file can be written and imported, or the file can be run at once. Writing the
object shows that the file can be compiled under the flags (`Written`). So from then on the object
and the file with its flags fill in the same text (`object_fills`, `Fills.apply`), two builds go the
same way, and the entries of what they build have the same verdict (`verdict_import_eq_direct`).
-/

namespace LiveC

open InSession Engine

/-- The same flags for a program that is run. -/
def Flags.direct (f : Flags) : Flags := { f with objectOnly := false, output := none }

namespace Flags

variable {σ : Type} [Compiler σ] {f : Flags} {file : String}

/-- Flags with one file are put into a session by their settings, and then by the file. -/
theorem apply_of_file (hfiles : f.files = [file]) :
    (f.apply : InSession σ Unit) = f.settle >>= fun _ => InSession.addFile file := by
  have hone : (Attempt.each [file] InSession.addFile : InSession σ Unit) = InSession.addFile file :=
    funext fun p => Attempt.each_singleton _ _ p
  rw [apply_eq, hfiles, hone]

theorem Clean.direct (h : f.Clean) : f.direct.Clean :=
  ⟨h.options, h.defines, h.system, h.includes, h.libraries⟩

/-- Flags without libraries load their files only. -/
theorem load_of_nil (hlibraries : f.libraries = []) (p : Session × World σ) :
    f.load p = f.apply p := by
  rw [load, hlibraries, Attempt.bind_apply]
  rcases f.apply p with ⟨e | ⟨⟩, p'⟩ <;> rfl

theorem programName?_of_file (hfiles : f.files = [file]) : f.programName? = some file := by
  rw [programName?, hfiles, List.head?_cons]

end Flags

namespace Engine

variable {σ : Type} [Compiler σ] {f : Flags} {file object : String}

/-- Flags that ask for an object of one file. -/
theorem runFlags_of_object (hfiles : f.files = [file]) (hobjectOnly : f.objectOnly = true)
    (hobject : f.objectFile? = some object) (args : List String) :
    (runFlags f args : Attempt (World σ) RunResult) = writeProgram f file object := by
  rw [runFlags, Flags.programName?_of_file hfiles]
  dsimp only
  rw [if_pos hobjectOnly, hobject]

/-- The same flags run the file. -/
theorem runFlags_direct (hfiles : f.files = [file]) (args : List String) :
    (runFlags f.direct args : Attempt (World σ) RunResult) =
      buildAndRun file f.direct.load args := by
  rw [runFlags, Flags.programName?_of_file (f := f.direct) hfiles]
  rfl

end Engine

namespace SourceTranslator

variable {σ : Type} [Compiler σ] {T : SourceTranslator σ} {w w' w₁ : World σ} {s : Session}
  {e : Surroundings} {f : Flags} {t : SourceFile} {told : List Request}
  {file object program path text : String}

/-! ## What fills in a text -/

/-- A file that stands for a source is compiled, with what the compiler says about it. -/
theorem source_fills (hsource : T.source? told e.files file = some t) (hsilent : t.messages = [])
    (htranslated : t.failed = false) : T.Fills e told (InSession.addFile file) t.text where
  keeps h := h.addFile file
  asks := .addFile trivial
  fills {s w c qs} hf hopens hsize htold hblank := by
    have hfiles : e.files = w.files := by rw [← hf.surroundings, World.surroundings]
    rw [← htold, hfiles] at hsource
    rw [← hsize] at hblank
    obtain ⟨c', hanswer, hok⟩ := T.sources hopens hblank hsource
    obtain ⟨-, hc, hknown⟩ := hok htranslated
    rw [hsize] at hanswer hc hknown
    rw [hsilent, htranslated] at hanswer
    obtain ⟨w', hdemand, hf', hlinkage, hc', hknown'⟩ :=
      Translator.demand_puts hf hanswer hc hknown
    have hpending : s.withPending (keptMessages []) = s := Linker.session_eq hf.pending
    rw [Translator.addFile_of_exists (T.exists_of_source hsource), hdemand, hpending]
    exact ⟨w', rfl, hf', hlinkage, hc', hknown'⟩

/-- The object of a text is loaded. -/
theorem object_fills (hobject : e.files.bytes? path = some (T.object text))
    (htranslated : (T.translate text).failed = false) :
    T.Fills e told (InSession.addFile path) text where
  keeps h := h.addFile path
  asks := .addFile trivial
  fills {s w c qs} hf _ _ _ hblank := by
    obtain ⟨w', hrun, hf', hlinkage, hc, hknown⟩ :=
      Translator.addFile_puts hobject htranslated s w hf hblank
    have hpending : s.withPending [] = s := Linker.session_eq hf.pending
    rw [hrun, hpending]
    exact ⟨w', rfl, hf', hlinkage, hc, hknown⟩

/-- Flags tell their settings, and then their file is put in. -/
theorem Fills.apply (hclean : f.Clean) (hfiles : f.files = [file])
    (hfile : T.Fills e (told ++ f.told) (InSession.addFile file) text) :
    T.Fills e told f.apply text where
  keeps h := h.apply f
  asks := apply_asksOnly f
  fills {s w c qs} hf hopens hsize htold hblank := by
    obtain ⟨_, w₁, hsettle, hquiet⟩ := hclean.registers T.toLinker e s w hf
    obtain ⟨qs', hasks, htold'⟩ := f.settle_tells (s, w) () _ hsettle
    have hblank₁ := Translator.contains_of_asks (plain_iff.2 (f.settle_keeps World.law_rules))
      f.settle_asksOnly (fun _ => Prepares.keepsCode) (.of_steady hf.toSteady) hf.serial hblank
    rw [hsettle] at hblank₁
    obtain ⟨hready, address, c₁, hcreate, hbefore⟩ := hopens
    rw [← hsize] at hasks
    have hopens₁ : T.Opens c (qs ++ qs') w₁.compiler :=
      ⟨hready, address, c₁, hcreate, hbefore.append hasks⟩
    have htold₁ : (qs ++ qs').filter Request.isSetting = told ++ f.told := by
      rw [List.filter_append, htold, htold']
    obtain ⟨w₂, hadd, hf₂, hlinkage, hc, hknown⟩ :=
      hfile.fills (hquiet.fits hf) hopens₁ hsize htold₁ hblank₁
    have hregistered : (T.holds w₁.compiler s.serial).registered =
        (T.holds w.compiler s.serial).registered := by
      rw [hquiet.holds, LinkState.register_nil]
    rw [Flags.apply_of_file hfiles, Attempt.bind_of_ok hsettle]
    exact ⟨w₂, hadd, hf₂, hlinkage.trans hquiet.linkage, hc, hknown.trans hregistered⟩

/-! ## Writing the object -/

/-- Something that was asked for, and done. -/
theorem demand_eq_ok {q : Request} {p : Session × World σ} (h : demand q (s, w) = (.ok (), p)) :
    (w.ask s.serial q).1.failed = false ∧ p.1.serial = s.serial ∧ p.2 = (w.ask s.serial q).2 := by
  cases hfailed : (w.ask s.serial q).1.failed with
  | false =>
    rw [demand_of_done hfailed] at h
    obtain rfl := (Prod.mk.inj h).2
    exact ⟨rfl, rfl, rfl⟩
  | true =>
    rw [demand_of_failed hfailed] at h
    exact absurd (Prod.mk.inj h).1 (by simp)

variable (T) in
/-- A session whose state was told some settings, and in which nothing is compiled. The compiler was
`c` before the state was made. -/
structure Settled (e : Surroundings) (c : σ) (told : List Request) (s : Session) (w : World σ) :
    Prop extends T.Steady e w where
  serial : s.serial < w.made
  size : T.size c = s.serial
  opens : ∃ qs, T.Opens c qs w.compiler ∧ qs.filter Request.isSetting = told
  blank : T.Contains w.compiler s.serial ""

/-- A new session is told nothing. -/
theorem exists_settled (hw : T.Works w) (mode : OutputMode) (unitName : String) :
    ∃ s w', Session.create mode unitName w = (.ok s, w') ∧
      T.Settled w.surroundings w.compiler [] s w' := by
  obtain ⟨s, w', hcreate, -, hmoves, hs, -, hblank⟩ := Translator.create_blank hw mode unitName
  obtain ⟨hstate, hserial, -, -, hsame⟩ := Session.exists_of_create hcreate
  exact ⟨s, w', hcreate, ⟨hmoves.works.ready, hmoves.works.made, hmoves.works.sound, hsame⟩, hs,
    hw.made.symm.trans hserial.symm,
    ⟨[], ⟨hw.ready, s.address, w'.compiler, hstate, .nil _⟩, rfl⟩, hblank⟩

/-- A computation that tells the state of a session further settings. -/
theorem Settled.tells {c : σ} (h : T.Settled e c told s w) {x : InSession σ Unit}
    {settings : List Request} {s' : Session} (hplain : InSession.Plain x)
    (hasks : AsksOnly Prepares x) (htells : Tells settings x (s, w))
    (hrun : x (s, w) = (.ok (), (s', w'))) : T.Settled e c (told ++ settings) s' w' := by
  have hworks := Translator.Works.of_steady h.toSteady
  obtain ⟨t, hasked, hP, hmoves⟩ := Translator.moves_of_asks hplain hasks
    (by rintro q hq rfl; exact hq) h.serial hworks
  have hblank := Translator.contains_of_asks hplain hasks (fun _ => Prepares.keepsCode) hworks
    h.serial h.blank
  obtain ⟨qs', hafter, hsettings⟩ := htells () _ hrun
  rw [hrun] at hasked hmoves hblank
  have hserial : s'.serial = s.serial := hasked.serial
  have hmade : w'.made = w.made := hasked.made
  have hfiles : w'.files = w.files := hmoves.files fun n path failed hq =>
    hP _ (Call.asked_mem_ofRequests.1 hq).2
  have hsame : w'.surroundings = w.surroundings :=
    World.surroundings_of_settings hmoves.settings hfiles
  obtain ⟨qs, ⟨hready, address, c₁, hcreate, hbefore⟩, htold⟩ := h.opens
  rw [← h.size] at hafter
  rw [← hserial] at hblank
  refine ⟨⟨hmoves.works.ready, hmoves.works.made, hmoves.works.sound,
    hsame.trans h.surroundings⟩, ?_, h.size.trans hserial.symm, ?_, hblank⟩
  · rw [hserial, hmade]
    exact h.serial
  · refine ⟨qs ++ qs', ⟨hready, address, c₁, hcreate, hbefore.append hafter⟩, ?_⟩
    rw [List.filter_append, htold, hsettings]

/-- A source that was put into such a session is its code. -/
theorem Settled.addFile {c : σ} (h : T.Settled e c told s w)
    (hsource : T.source? told e.files file = some t) {s' : Session}
    (hrun : InSession.addFile file (s, w) = (.ok (), (s', w'))) :
    t.failed = false ∧ (T.translate t.text).failed = false ∧ T.Works w' ∧ s'.serial < w'.made ∧
      w'.files = e.files ∧ T.Contains w'.compiler s'.serial t.text := by
  have hfiles : w.files = e.files := congrArg Surroundings.files h.surroundings
  obtain ⟨qs, hopens, htold⟩ := h.opens
  have hblank := h.blank
  rw [← htold, ← hfiles] at hsource
  rw [← h.size] at hblank
  obtain ⟨c', hanswer, hok⟩ := T.sources hopens hblank hsource
  rw [h.size] at hanswer hok
  rw [Translator.addFile_of_exists (T.exists_of_source hsource)] at hrun
  obtain ⟨hdone, hserial, hafter⟩ := demand_eq_ok hrun
  have hmoves := Translator.Moves.asked (.of_steady h.toSteady) h.serial (.addFile file)
  rw [Linker.ask_of_answer hanswer] at hdone hafter hmoves
  obtain ⟨htranslated, hc, -⟩ := hok hdone
  obtain rfl : w' = _ := hafter
  refine ⟨hdone, htranslated, hmoves.works, ?_, hfiles, ?_⟩
  · rw [hserial]
    exact h.serial
  · rw [hserial]
    exact hc

/-- The object of the text in a session is written. -/
theorem write_of_writeFile (hw : T.Works w) (hs : s.serial < w.made)
    (hc : T.Contains w.compiler s.serial text) {s' : Session}
    (hrun : InSession.writeFile object (s, w) = (.ok (), (s', w'))) :
    T.Works w' ∧ s'.serial < w'.made ∧ w.files.write? object (T.object text) = some w'.files := by
  have hnul : hasNul object = false := by
    obtain ⟨⟨⟩, q, hcheck, -⟩ := Attempt.bind_eq_ok hrun
    exact hasNul_of_checkText hcheck
  rw [InSession.writeFile, Translator.demandWith_of_text hnul] at hrun
  obtain ⟨hdone, hserial, hafter⟩ := demand_eq_ok hrun
  obtain ⟨hfailed, hfiles⟩ := T.writes object w.files hw.ready (hw.made ▸ hs) hc
  have hmoves := Translator.Moves.asked hw hs (.writeFile object)
  obtain rfl : w' = _ := hafter
  refine ⟨hmoves.works, hserial ▸ hs, ?_⟩
  cases hwrite : w.files.write? object (T.object text) with
  | none =>
    rw [hwrite] at hfailed
    exact absurd (hfailed.symm.trans hdone) (by simp)
  | some files =>
    rw [hwrite] at hfiles
    exact congrArg some hfiles.symm

variable (T) in
/-- What is known when the object of a file was written under some flags. -/
structure Written (f : Flags) (t : SourceFile) (object : String) (w w' : World σ) : Prop where
  works : T.Works w'
  settings : w'.settings = w.settings
  /-- The flags hold no text that cannot be passed on. -/
  clean : f.Clean
  succeeded : t.failed = false
  translated : (T.translate t.text).failed = false
  files : w.files.write? object (T.object t.text) = some w'.files

/-- **The object of a file is written only if the file can be compiled under the flags.** -/
theorem written_of_writeProgram (hw : T.Works w) (hfiles : f.files = [file])
    (hsource : T.source? (w.surroundings.told ++ f.told) w.files file = some t) {r : RunResult}
    (hrun : writeProgram f program object w = (.ok r, w₁)) : T.Written f t object w w₁ := by
  have hplain : Plain (writeProgram f program object : Attempt (World σ) RunResult) :=
    ((World.law_rules).opened (World.law_rules.prepare.bind fun _ => (World.law_rules.apply f).bind
      fun _ => (World.law_rules).demandWith object _) .object program).bind fun p =>
        ((World.law_rules).delete p.2).bind fun _ => .pure _
  obtain ⟨cs, -, hmoves, -⟩ :=
    Translator.moves_of_leaves hplain (writeProgram_leaves f program object) hw
  rw [hrun] at hmoves
  obtain ⟨⟨⟨⟩, s₄⟩, w₄, hopened, hdelete⟩ := Attempt.bind_eq_ok hrun
  obtain ⟨s, w₀, hcreate, hbody⟩ := Session.exists_of_opened hopened
  obtain ⟨s', w₀', hcreate', hsettled⟩ := exists_settled hw .object program
  obtain ⟨hs, rfl⟩ := Prod.mk.inj (hcreate'.symm.trans hcreate)
  obtain rfl := Except.ok.inj hs
  -- one step of the session after the other
  obtain ⟨⟨⟩, ⟨s₁, w₁'⟩, hprepare, hbody⟩ := Attempt.bind_eq_ok hbody
  obtain ⟨⟨⟩, ⟨s₃, w₃⟩, happly, hwrite⟩ := Attempt.bind_eq_ok hbody
  rw [Flags.apply_of_file hfiles] at happly
  obtain ⟨⟨⟩, ⟨s₂, w₂⟩, hsettle, hadd⟩ := Attempt.bind_eq_ok happly
  have htells := prepare_tells (s', w₀')
  rw [hsettled.surroundings] at htells
  have hprepared := hsettled.tells InSession.Plain.prepare prepare_asksOnly htells hprepare
  have hready := hprepared.tells (plain_iff.2 (f.settle_keeps World.law_rules)) f.settle_asksOnly
    (f.settle_tells (s₁, w₁')) hsettle
  obtain ⟨hok, htranslated, hw₃, hs₃, hfiles₃, hc⟩ := hready.addFile hsource hadd
  obtain ⟨hw₄, hs₄, hwritten⟩ := write_of_writeFile hw₃ hs₃ hc hwrite
  refine ⟨hmoves.works, hmoves.settings, Flags.clean_of_settle hsettle, hok, htranslated, ?_⟩
  have hlast : w₁ = (s₄.delete w₄).2 := by
    dsimp only at hdelete
    rw [Attempt.bind_of_ok (s₄.delete_apply w₄)] at hdelete
    exact (Prod.mk.inj hdelete).2.symm
  rw [hlast, Translator.files_delete hw₄ hs₄, ← hwritten, hfiles₃]
  rfl

/-! ## Importing the object -/

theorem Written.told_eq (h : T.Written f t object w w₁) :
    w₁.surroundings.told = w.surroundings.told := by
  obtain ⟨hconfig, hrest⟩ := Prod.mk.inj h.settings
  obtain ⟨hbinding, hplatform⟩ := Prod.mk.inj hrest
  have hdirectory := FileTree.isDirectory_write h.files
  simp only [Surroundings.told, World.surroundings, hconfig, hbinding, hplatform, hdirectory]

/-- The entries of two programs that were built alongside have the same verdict. -/
theorem Alongside.verdict {x x' : Attempt (World σ) Session} (h : T.Alongside (x w) (x' w'))
    {program program' : String} (hprogram : hasNul program = false)
    (hprogram' : hasNul program' = false) (entry : String) (args : List String) :
    ((x >>= fun s => Execution.runEntry s entry program args) w).1.toOption.map RunResult.verdict =
      ((x' >>= fun s => Execution.runEntry s entry program' args) w').1.toOption.map
        RunResult.verdict := by
  rcases hx : x w with ⟨r, w₁⟩
  rcases hx' : x' w' with ⟨r', w₁'⟩
  rw [hx, hx'] at h
  rcases h with ⟨e, e', rfl, rfl⟩ | ⟨s, s', k, rfl, rfl, hserial, ⟨hready, hready'⟩, hab⟩
  · rw [Attempt.bind_of_error hx, Attempt.bind_of_error hx']
    rfl
  · rw [Attempt.bind_of_ok hx, Attempt.bind_of_ok hx']
    exact runEntry_abreast hab hserial (hready.trans hready'.symm) hprogram hprogram' entry args

/-- Importing an object file that is there and running its entry. -/
theorem runModule_of_object (hexists : w.files.exists? path = true)
    (hextension : Path.isObject path = true) (args : List String) :
    (importModule path >>= fun m => runModule m args) w =
      (build path (InSession.addFile path) >>= fun s =>
        Execution.runEntry s Execution.mainEntry path args) w := by
  have hobject : objectFor? w.files path w.linkage.platform.arch = some path := by
    rw [objectFor?, if_pos hexists]
  have himport : importModule path w = loadObject path path .object w := by
    rw [Translator.importModule_of_object (checkModulePath_of_exists hexists) hextension, hobject]
  rw [Attempt.bind_apply, himport, Translator.loadObject_apply, Attempt.bind_apply]
  rcases build path (InSession.addFile path) w with ⟨e | s, w'⟩ <;> rfl

/-- Running the entry of what was built, whatever becomes of the session then. -/
theorem buildAndRun_result (unitName : String) (load : InSession σ Unit) (args : List String)
    (w : World σ) : (buildAndRun unitName load args w).1 =
      ((build unitName load >>= fun s =>
        Execution.runEntry s Execution.mainEntry unitName args) w).1 := by
  rw [buildAndRun, Attempt.bind_apply, Attempt.bind_apply]
  rcases build unitName load w with ⟨e | s, w'⟩ <;> rfl

/-- **Writing the object of a file and importing it comes to running the file.** Its entry has the
same verdict both ways, or neither gives one. The compiler says nothing about the file, which is
still what it was when its object was written, if it is not the object itself. -/
theorem verdict_import_eq_direct (T : SourceTranslator σ) (hw : T.Works w)
    (hobjectOnly : f.objectOnly = true) (hfiles : f.files = [file]) (hlibraries : f.libraries = [])
    (hobject : f.objectFile? = some object) (hextension : Path.isObject object = true)
    (hsource : T.source? (w.surroundings.told ++ f.told) w.files file = some t)
    (hsilent : t.messages = []) {args₀ : List String} {r : RunResult}
    (hrun : runFlags f args₀ w = (.ok r, w₁))
    (hstays : T.source? (w.surroundings.told ++ f.told) w₁.files file = some t ∨
      w₁.files.bytes? file = some (T.object t.text)) (args : List String) :
    ((importModule object >>= fun m => runModule m args) w₁).1.toOption.map RunResult.verdict =
      (runFlags f.direct args w₁).1.toOption.map RunResult.verdict := by
  rw [runFlags_of_object hfiles hobjectOnly hobject] at hrun
  have hwritten := written_of_writeProgram hw hfiles hsource hrun
  rw [← hwritten.told_eq] at hstays
  have hbytes := FileTree.bytes?_write hwritten.files
  have hexists := FileTree.exists?_of_bytes? hbytes
  have hexists' : w₁.files.exists? file = true :=
    hstays.elim T.exists_of_source FileTree.exists?_of_bytes?
  -- both ways the same text is filled in
  have hfills : T.Fills w₁.surroundings w₁.surroundings.told (InSession.addFile object) t.text :=
    object_fills hbytes hwritten.translated
  have hfile : T.Fills w₁.surroundings (w₁.surroundings.told ++ f.told) (InSession.addFile file)
      t.text := by
    rcases hstays with hsource | hbytes
    · exact source_fills hsource hsilent hwritten.succeeded
    · exact object_fills hbytes hwritten.translated
  have hfills' : T.Fills w₁.surroundings w₁.surroundings.told f.direct.load t.text := by
    rw [funext (f.direct.load_of_nil hlibraries)]
    exact .apply hwritten.clean.direct hfiles hfile
  have halong := build_alongside hwritten.works hwritten.works (.refl T (Nat.le_refl _)) hfills
    hfills' object file
  rw [runModule_of_object hexists hextension, runFlags_direct hfiles, buildAndRun_result]
  exact halong.verdict (Translator.hasNul_of_exists? hexists)
    (Translator.hasNul_of_exists? hexists') _ args

/-- Flags that define a name and write the object of a source. -/
def objectFlags : Flags :=
  ⟨[], [], [], [], [], [("VALUE", some "1")], ["a.c"], some "b.o", true⟩

/-- A source that calls a function of the library: with its object it exits as it does without. -/
theorem verdict_import_eq_direct_calling : ∃ w₁,
    runFlags objectFlags [] (Translator.sourceWorld Translator.callingText) =
      (.ok (.exited 0), w₁) ∧
    ((importModule "b.o" >>= fun m => runModule m []) w₁).1.toOption.map RunResult.verdict =
      some (.ok 0) ∧
    ∀ args,
      ((importModule "b.o" >>= fun m => runModule m args) w₁).1.toOption.map RunResult.verdict =
        (runFlags objectFlags.direct args w₁).1.toOption.map RunResult.verdict := by
  have hfacts :
      (runFlags objectFlags [] (Translator.sourceWorld Translator.callingText)).1.toOption =
        some (.exited 0) ∧
      ((importModule "b.o" >>= fun m => runModule m [])
        (runFlags objectFlags [] (Translator.sourceWorld Translator.callingText)).2).1.toOption.map
          RunResult.verdict = some (.ok 0) ∧
      (Scripted.source? (Translator.sourceWorld Translator.callingText).files "a.c").map
        SourceFile.messages = some [] := by decide +kernel
  have hw : Scripted.sourceTranslator.Works (Translator.sourceWorld Translator.callingText) :=
    .start rfl rfl _ _ _
  have hextension : Path.isObject "b.o" = true := by decide +kernel
  rcases hrun : runFlags objectFlags [] (Translator.sourceWorld Translator.callingText) with
    ⟨e | r, w₁⟩
  · rw [hrun] at hfacts
    exact absurd hfacts.1 (by simp [Except.toOption])
  rw [hrun] at hfacts
  obtain ⟨hexited, hverdict, hmessages⟩ := hfacts
  obtain rfl := Option.some.inj hexited
  obtain ⟨t, hsource, hsilent⟩ := Option.map_eq_some_iff.1 hmessages
  have hread : Scripted.sourceTranslator.source?
      ((Translator.sourceWorld Translator.callingText).surroundings.told ++ objectFlags.told)
      (Translator.sourceWorld Translator.callingText).files "a.c" = some t := hsource
  have hwritten : Scripted.sourceTranslator.Written objectFlags t "b.o" _ w₁ :=
    written_of_writeProgram hw rfl hread hrun
  exact ⟨w₁, rfl, hverdict, verdict_import_eq_direct Scripted.sourceTranslator hw rfl rfl rfl rfl
    hextension hread hsilent hrun (Scripted.source?_write hsource hwritten.files)⟩

end SourceTranslator

end LiveC
