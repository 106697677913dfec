import LiveC.Proofs.Session.Course
import LiveC.Proofs.Session.Linker
import LiveC.Proofs.Session.Visits
/-!
# Compilers that translate texts

A `Translator` is a linker of which it is known what becomes of a text: a state that is given one to
compile contains its code then, the object written from such a state can be loaded in place of the
text, and what the routines do is told by the text alone. A call about one state leaves the others
as they are.

`Translator.Moves` collects what some calls keep: the settings, the files unless one is written, the
names that resolve, and the code of every state that they do not load anything into. `Course.moves`
proves it for every course of the engine whose calls can be followed, call by call, and
`Leaves.moves` for the operations that work on one state after the other.
-/

namespace LiveC

/-- What a compiler makes of a text. -/
structure Translation where
  /-- What it says meanwhile. -/
  messages : List String
  failed : Bool
  /-- The names that the linker is asked for. -/
  needed : List String
  /-- The routines by name, with their steps. -/
  routines : List (String × List Action)

namespace Translation

/-- The names that are defined. -/
def names (t : Translation) : List String := t.routines.map Prod.fst

/-- A text as a unit of the linker. -/
def unit (t : Translation) : LinkState := ⟨t.needed, t.names, []⟩

end Translation

/-- Whether a request leaves the code of its state as it is. -/
def Request.keepsCode : Request → Bool
  | .addLibrary _ | .compile _ | .addFile _ | .delete => false
  | _ => true

theorem InSession.Prepares.keepsCode {q : Request} (h : InSession.Prepares q) :
    q.keepsCode = true := by
  cases q <;> first | rfl | exact absurd h id

/-- The texts and the code of a compiler. -/
structure CodeModel (σ : Type) where
  /-- What becomes of a text. -/
  translate : String → Translation
  /-- The object that is written from a text. -/
  object : String → ByteArray
  /-- The code of a state is that of a text. A state in which nothing is compiled contains the empty
  text. -/
  Contains : σ → Nat → String → Prop
  /-- The address of a name that a state defines. -/
  symbol? : σ → Nat → String → Option Address
  /-- The code of a text in the state of a number fits into the address space. -/
  Addressed : Nat → String → Prop

/-- What is known of the code of a state is still so. -/
structure CodeModel.Same {σ : Type} [Compiler σ] (M : CodeModel σ) (n : Nat) (c c' : σ) : Prop where
  contains : ∀ text, M.Contains c n text → M.Contains c' n text
  symbol : M.symbol? c' n = M.symbol? c n
  reach : Compiler.reach? c' n = Compiler.reach? c n

namespace CodeModel.Same

variable {σ : Type} [Compiler σ] {M : CodeModel σ} {n : Nat} {c c' c'' : σ}

theorem refl (M : CodeModel σ) (n : Nat) (c : σ) : M.Same n c c := ⟨fun _ h => h, rfl, rfl⟩

theorem trans (h : M.Same n c c') (h' : M.Same n c' c'') : M.Same n c c'' :=
  ⟨fun text hc => h'.contains text (h.contains text hc), h'.symbol.trans h.symbol,
    h'.reach.trans h.reach⟩

end CodeModel.Same

/-- A linker that translates texts. It does not fail but for a reason that the text gives, and an
object stands for the text that it was written from. -/
structure Translator (σ : Type) [Compiler σ] extends Linker σ, CodeModel σ where
  /-- Nothing is compiled in a new state. -/
  blank : ∀ {c c' address}, Ready c → Compiler.create c = (some address, c') →
    Contains c' (size c) ""
  create_same : ∀ {c c' address n}, Ready c → Compiler.create c = (some address, c') →
    n < size c → toCodeModel.Same n c c'
  answer_ready : ∀ {c n} (q files), Ready c → n < size c →
    Ready (Compiler.answer n q files c).2.2 ∧ size (Compiler.answer n q files c).2.2 = size c
  /-- A call about one state leaves the others as they are. -/
  answer_same : ∀ {c n m} (q files), Ready c → n < size c → m < size c → m ≠ n →
    toCodeModel.Same m c (Compiler.answer n q files c).2.2
  /-- Nothing but writing changes files. -/
  answer_files : ∀ {c n q} (files), Ready c → n < size c → (∀ path, q ≠ .writeFile path) →
    (Compiler.answer n q files c).2.1 = files
  answer_contains : ∀ {c n q text} (files), Ready c → n < size c → q.keepsCode = true →
    Contains c n text → Contains (Compiler.answer n q files c).2.2 n text
  /-- A text is compiled. -/
  compiles : ∀ {c n} (text files), Ready c → n < size c → Contains c n "" →
    ∃ c', Compiler.answer n (.compile text) files c =
      (⟨(translate text).messages, (translate text).failed, none⟩, files, c') ∧
      ((translate text).failed = false → Contains c' n text ∧
        (holds c' n).registered = (holds c n).registered)
  /-- The object of a text is loaded in silence. -/
  loads : ∀ {c n files path text}, Ready c → n < size c → Contains c n "" →
    (translate text).failed = false → files.bytes? path = some (object text) →
    ∃ c', Compiler.answer n (.addFile path) files c = (.done, files, c') ∧ Contains c' n text ∧
      (holds c' n).registered = (holds c n).registered
  /-- The object of the text in a state is written if the file can be. -/
  writes : ∀ {c n text} (path files), Ready c → n < size c → Contains c n text →
    (Compiler.answer n (.writeFile path) files c).1.failed =
        (files.write? path (object text)).isNone ∧
      (Compiler.answer n (.writeFile path) files c).2.1 =
        (files.write? path (object text)).getD files
  /-- A name is found without further effect. -/
  finds : ∀ {c n} (name files), Ready c → n < size c →
    Compiler.answer n (.findSymbol name) files c = (⟨[], false, symbol? c n name⟩, files, c)
  holds_contains : ∀ {c n text}, Ready c → n < size c → Contains c n text →
    (holds c n).needed = (translate text).needed ∧ (holds c n).defined = (translate text).names
  isSome_symbol : ∀ {c n text} (name), Contains c n text →
    ((symbol? c n name).isSome = true ↔ name ∈ (translate text).names)
  /-- The routines of a text do what it says. -/
  runs : ∀ {c n text name address}, Contains c n text → Addressed n text →
    symbol? c n name = some address →
    ∃ steps, (translate text).routines.lookup name = some steps ∧
      Compiler.routine? c address = some ⟨n, steps⟩
  /-- Code reaches the routines of its own text first. -/
  reaches : ∀ {c n text name}, Contains c n text → name ∈ (translate text).names →
    Compiler.reach? c n name = symbol? c n name
  /-- Other names are reached as they were registered last. -/
  reaches_registered : ∀ {c n text name}, Contains c n text → name ∉ (translate text).names →
    Compiler.reach? c n name = (holds c n).registered.reverse.lookup name
  /-- Linking leaves the names that a state knows. -/
  relocate_registered : ∀ {c n} (files), Ready c → n < size c →
    (holds (Compiler.answer n .relocate files c).2.2 n).registered = (holds c n).registered

/-- What does not change while an engine is in use. -/
def World.settings {σ : Type} (w : World σ) : Config × Binding × Platform :=
  (w.config, w.binding, w.linkage.platform)

/-- What a preparation depends on is given by the settings and the files. -/
theorem World.surroundings_of_settings {σ : Type} {w w' : World σ} (h : w'.settings = w.settings)
    (hfiles : w'.files = w.files) : w'.surroundings = w.surroundings := by
  obtain ⟨hconfig, hrest⟩ := Prod.mk.inj h
  obtain ⟨hbinding, hplatform⟩ := Prod.mk.inj hrest
  rw [World.surroundings, World.surroundings, hconfig, hbinding, hplatform, hfiles]

namespace Translator

variable {σ α : Type} [Compiler σ] (T : Translator σ)

/-- A world in which the engine works: the compiler is ready, and its states and the names of code
are in order. -/
structure Works (w : World σ) : Prop where
  ready : T.Ready w.compiler
  made : w.made = T.size w.compiler
  sound : w.linkage.Sound

/-- What some calls keep. -/
structure Moves (w : World σ) (cs : List Call) (w' : World σ) : Prop where
  works : T.Works w'
  made : w.made ≤ w'.made
  settings : w'.settings = w.settings
  /-- The names that resolve are the same. -/
  resolves : ∀ name, (w'.linkage.resolve name).1.isSome = (w.linkage.resolve name).1.isSome
  files : (∀ n path failed, .asked n (.writeFile path) failed ∉ cs) → w'.files = w.files
  contains : ∀ n < w.made, (∀ q failed, .asked n q failed ∈ cs → q.keepsCode = true) →
    ∀ text, T.Contains w.compiler n text → T.Contains w'.compiler n text
  same : ∀ n < w.made, (∀ c ∈ cs, c.isAbout n = false) → T.Same n w.compiler w'.compiler

variable {T} {w w' w'' : World σ} {cs cs' : List Call}

theorem Works.steady (h : T.Works w) : T.Steady w.surroundings w := ⟨h.ready, h.made, h.sound, rfl⟩

theorem Works.of_steady {e : Surroundings} (h : T.Steady e w) : T.Works w :=
  ⟨h.ready, h.made, h.sound⟩

/-- A world in which nothing has happened works, if the compiler is ready. -/
theorem Works.start {c : σ} (hready : T.Ready c) (hsize : T.size c = 0) (files : FileTree)
    (loader : Loader) (colors : Bool) : T.Works (.start c files loader colors) :=
  .of_steady (.start hready hsize files loader colors)

namespace Moves

theorem of_rests (h : w.Rests w') (hw : T.Works w) : T.Moves w [] w' where
  works := ⟨h.compiler ▸ hw.ready, by rw [h.made, h.compiler, hw.made], h.linkage ▸ hw.sound⟩
  made := h.made.ge
  settings := by rw [World.settings, World.settings, h.config, h.binding, h.linkage]
  resolves name := by rw [h.linkage]
  files _ := h.files
  contains n _ _ text ht := h.compiler ▸ ht
  same n _ _ := h.compiler ▸ .refl T.toCodeModel n w.compiler

theorem trans (h : T.Moves w cs w') (h' : T.Moves w' cs' w'') : T.Moves w (cs ++ cs') w'' where
  works := h'.works
  made := h.made.trans h'.made
  settings := h'.settings.trans h.settings
  resolves name := (h'.resolves name).trans (h.resolves name)
  files hfiles := by
    rw [h'.files fun n path failed hc => hfiles n path failed (List.mem_append_right cs hc),
      h.files fun n path failed hc => hfiles n path failed (List.mem_append_left cs' hc)]
  contains n hn hkeeps text ht :=
    h'.contains n (hn.trans_le h.made)
      (fun q failed hc => hkeeps q failed (List.mem_append_right cs hc)) text
      (h.contains n hn (fun q failed hc => hkeeps q failed (List.mem_append_left cs' hc)) text ht)
  same n hn habout :=
    (h.same n hn fun c hc => habout c (List.mem_append_left cs' hc)).trans
      (h'.same n (hn.trans_le h.made) fun c hc => habout c (List.mem_append_right cs hc))

/-- The linkage changes, but for the platform and for which names resolve. -/
theorem relinked (hw : T.Works w) {k : Linkage} (hsound : k.Sound)
    (hplatform : k.platform = w.linkage.platform)
    (hresolves : ∀ name, (k.resolve name).1.isSome = (w.linkage.resolve name).1.isSome) :
    T.Moves w [] { w with linkage := k } where
  works := ⟨hw.ready, hw.made, hsound⟩
  made := Nat.le_refl _
  settings := by rw [World.settings, World.settings, hplatform]
  resolves := hresolves
  files _ := rfl
  contains _ _ _ _ ht := ht
  same n _ _ := .refl T.toCodeModel n w.compiler

theorem resolve (hw : T.Works w) (name : String) :
    T.Moves w [] { w with linkage := (w.linkage.resolve name).2 } := by
  exact relinked hw (hw.sound.resolve name) (Linkage.platform_resolve w.linkage name)
    (Linkage.isSome_resolve_resolve w.linkage name)

theorem created (hw : T.Works w) {address : Address} {c : σ}
    (h : Compiler.create w.compiler = (some address, c)) : T.Moves w [.created w.made]
      { w with compiler := c, made := w.made + 1, calls := w.calls.push (.created w.made) } where
  works := by
    obtain ⟨address', c', hcreate, hready, hsize, -⟩ := T.creates hw.ready
    obtain rfl : c' = c := (Prod.mk.inj (hcreate.symm.trans h)).2
    exact ⟨hready, by rw [hsize, hw.made], hw.sound⟩
  made := Nat.le_succ _
  settings := rfl
  resolves _ := rfl
  files _ := rfl
  contains n hn _ text ht := (T.create_same hw.ready h (hw.made ▸ hn)).contains text ht
  same n hn _ := T.create_same hw.ready h (hw.made ▸ hn)

/-- One request to a state. -/
theorem asked (hw : T.Works w) {n : Nat} (hn : n < w.made) (q : Request) :
    T.Moves w [.asked n q (w.ask n q).1.failed] (w.ask n q).2 where
  works := by
    obtain ⟨hready, hsize⟩ := T.answer_ready q w.files hw.ready (hw.made ▸ hn)
    exact ⟨hready, hw.made.trans hsize.symm, hw.sound⟩
  made := Nat.le_refl _
  settings := rfl
  resolves _ := rfl
  files hfiles := T.answer_files w.files hw.ready (hw.made ▸ hn) fun path hq => by
    subst hq
    exact hfiles n path _ (List.mem_singleton_self _)
  contains m hm hkeeps text ht := by
    by_cases he : m = n
    · subst he
      exact T.answer_contains w.files hw.ready (hw.made ▸ hm)
        (hkeeps q _ (List.mem_singleton_self _)) ht
    · exact (T.answer_same q w.files hw.ready (hw.made ▸ hn) (hw.made ▸ hm) he).contains text ht
  same m hm habout := by
    have hne : m ≠ n := fun he => by
      simpa [Call.isAbout, he] using habout _ (List.mem_singleton_self _)
    exact T.answer_same q w.files hw.ready (hw.made ▸ hn) (hw.made ▸ hm) hne

end Moves

/-- **A course keeps what its calls leave alone**, if they can be followed. -/
theorem moves_of_course (h : w.Course cs w') (hw : T.Works w) {c c' : Custody} (hc : c.Sound)
    (hmade : c.made = w.made) (hfollow : c.follow cs = some c') :
    T.Moves w cs w' ∧ c'.made = w'.made := by
  induction h generalizing c c' with
  | rest h =>
    obtain rfl := Option.some.inj hfollow
    exact ⟨.of_rests h hw, hmade.trans h.made.symm⟩
  | resolve w name =>
    obtain rfl := Option.some.inj hfollow
    exact ⟨.resolve hw name, hmade⟩
  | refused h =>
    obtain ⟨address, c₁, hcreate, -⟩ := T.creates hw.ready
    exact absurd (h.symm.trans hcreate) (by simp)
  | created h =>
    obtain ⟨c₁, hstep, hrest⟩ := Option.bind_eq_some_iff.1 hfollow
    obtain rfl := Option.some.inj hrest
    rw [Custody.step, if_pos hmade.symm] at hstep
    obtain rfl := Option.some.inj hstep
    exact ⟨.created hw h, rfl⟩
  | asked w n q =>
    obtain ⟨c₁, hstep, hrest⟩ := Option.bind_eq_some_iff.1 hfollow
    obtain rfl := Option.some.inj hrest
    have hlive : n ∈ c.live ∧ c₁.made = c.made := by
      rcases Custody.step_cases hstep with ⟨he, -⟩ | ⟨he, -⟩ | ⟨m, failed, he, hm, rfl⟩ |
        ⟨m, q', failed, he, -, hm, rfl⟩
      · exact absurd he (by simp)
      · exact absurd he (by simp)
      · exact ⟨(Call.asked.inj he).1 ▸ hm, rfl⟩
      · exact ⟨(Call.asked.inj he).1 ▸ hm, rfl⟩
    exact ⟨.asked hw (hmade ▸ hc.made n hlive.1) q, hlive.2.trans hmade⟩
  | trans h h' ih ih' =>
    rw [Custody.follow_append] at hfollow
    obtain ⟨c₁, hfirst, hrest⟩ := Option.bind_eq_some_iff.1 hfollow
    obtain ⟨hmoves, hmade₁⟩ := ih hw hc hmade hfirst
    obtain ⟨hmoves', hmade'⟩ := ih' hmoves.works (hc.follow hfirst) hmade₁ hrest
    exact ⟨hmoves.trans hmoves', hmade'⟩

/-- A computation that moves along a course, and whose calls can be followed, keeps what they leave
alone. -/
theorem moves_of_tends (hleads : w.Leads w') (hw : T.Works w) {live live' : Multiset Nat}
    (hlive : Custody.Sound ⟨w.made, live⟩) (h : w.Tends live cs w' live') : T.Moves w cs w' := by
  obtain ⟨cs', hcourse⟩ := hleads
  obtain rfl : cs = cs' := h.adds.unique hcourse.adds
  exact (moves_of_course hcourse hw hlive rfl h.follows).1

/-- What an operation keeps that works on one state after the other: its calls are about new states
only. -/
theorem moves_of_leaves {x : Attempt (World σ) α} {left : α → Option Nat} (hplain : Plain x)
    (hleaves : Leaves left x) (hw : T.Works w) : ∃ cs, w.Adds cs (x w).2 ∧
      T.Moves w cs (x w).2 ∧ ∀ n < w.made, ∀ c ∈ cs, c.isAbout n = false := by
  obtain ⟨cs, hvisited, -⟩ := hleaves w
  have htends := hvisited.tends
  exact ⟨cs, hvisited.adds, moves_of_tends (hplain.leads w) hw (.empty _) htends,
    fun n hn => htends.isAbout_eq_false hn (by simp)⟩

/-- What a computation in a session keeps that neither loads anything into it nor deletes it. -/
theorem moves_of_asks {x : InSession σ α} {P : Request → Prop} (hplain : InSession.Plain x)
    (hasks : InSession.AsksOnly P x) (hdelete : ∀ q, P q → q ≠ .delete) {s : Session}
    (hs : s.serial < w.made) (hw : T.Works w) : ∃ t, Asked t (s, w) (x (s, w)).2 ∧
      (∀ q ∈ t, P q.1) ∧ T.Moves w (Call.ofRequests s.serial t) (x (s, w)).2.2 := by
  obtain ⟨t, hasked, hP⟩ := hasks (s, w)
  obtain ⟨cs, hcourse⟩ := hplain.leads (s, w)
  obtain rfl : Call.ofRequests s.serial t = cs := World.Adds.unique hasked.calls hcourse.adds
  have hsound : Custody.Sound ⟨w.made, {s.serial}⟩ :=
    ⟨Multiset.nodup_singleton _, fun n hn => Multiset.mem_singleton.1 hn ▸ hs⟩
  have hfollow := Custody.follow_ofRequests (c := ⟨w.made, {s.serial}⟩)
    (fun q hq => hdelete q.1 (hP q hq)) (Multiset.mem_singleton_self _)
  exact ⟨t, hasked, hP, (moves_of_course hcourse hw hsound rfl hfollow).1⟩

end Translator

end LiveC
