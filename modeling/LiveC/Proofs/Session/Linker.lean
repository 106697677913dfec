import LiveC.Proofs.Session.Linking
import LiveC.Proofs.Session.Missing
import LiveC.Proofs.Symbol.Resolving
/-!
# Compilers that only miss names

A `Linker` is a compiler that takes everything that a session is prepared with, and whose only
complaint is about names: linking sends one message for every name that a state needs and that is
neither defined nor registered in it, and fails if there is such a name. For such a compiler the
steps of a build can be carried out: a preparation goes through and registers the names that every
session offers (`Linker.prepare_registers`), further names are registered (`Linker.names_quiet`),
and linking succeeds exactly when no name is missing (`Linker.relocate_of_nil`,
`Linker.relocate_of_missing`). `Loads` says of a computation that it puts a given unit into a
session of such a compiler.
-/

namespace LiveC

/-- What a compiler state holds, as far as linking goes. -/
structure LinkState where
  needed : List String
  defined : List String
  registered : List (String × Address)
  deriving DecidableEq, Repr

namespace LinkState

/-- Nothing compiled and nothing registered. -/
def empty : LinkState := ⟨[], [], []⟩

/-- Register further names. -/
def register (s : LinkState) (names : List (String × Address)) : LinkState :=
  { s with registered := s.registered ++ names }

/-- The names that are needed, but neither defined nor registered. -/
def missing (s : LinkState) : List String :=
  s.needed.filter fun n => !s.defined.contains n && !(s.registered.map Prod.fst).contains n

@[simp] theorem register_nil (s : LinkState) : s.register [] = s := by simp [register]

theorem register_register (s : LinkState) (names names' : List (String × Address)) :
    (s.register names).register names' = s.register (names ++ names') := by
  simp [register]

theorem mem_missing {s : LinkState} {n : String} : n ∈ s.missing ↔
    n ∈ s.needed ∧ n ∉ s.defined ∧ n ∉ s.registered.map Prod.fst := by
  simp only [missing, List.mem_filter, Bool.and_eq_true, Bool.not_eq_true', ← Bool.not_eq_true,
    List.contains_iff_mem]

end LinkState

/-- The name that a request registers. -/
def Request.registers : Request → List (String × Address)
  | .addSymbol name address => [(name, address)]
  | _ => []

open InSession in
/-- A compiler that takes every preparation and only complains about missing names. -/
structure Linker (σ : Type) [Compiler σ] where
  /-- Whether the compiler is such a one from now on. -/
  Ready : σ → Prop
  /-- The number of states made. -/
  size : σ → Nat
  /-- What a state holds. -/
  holds : σ → Nat → LinkState
  creates : ∀ {c}, Ready c → ∃ address c', Compiler.create c = (some address, c') ∧ Ready c' ∧
    size c' = size c + 1 ∧ holds c' (size c) = .empty
  prepares : ∀ {c n r} (files), Ready c → n < size c → Prepares r →
    ∃ c', Compiler.answer n r files c = (.done, files, c') ∧ Ready c' ∧ size c' = size c ∧
      holds c' n = (holds c n).register r.registers
  relocates : ∀ {c n} (files), Ready c → n < size c →
    ∃ c', Compiler.answer n .relocate files c =
      (⟨(holds c n).missing.map missingMessage, !(holds c n).missing.isEmpty, none⟩, files, c') ∧
      Ready c' ∧ size c' = size c
  deletes : ∀ {c n} (files), Ready c → n < size c →
    ∃ reply c', Compiler.answer n .delete files c = (reply, files, c') ∧ Ready c' ∧ size c' = size c

/-- What a preparation depends on. -/
structure Surroundings where
  config : Config
  binding : Binding
  platform : Platform
  files : FileTree

namespace Surroundings

/-- The settings hold no text that cannot be passed to the compiler. -/
structure Clean (e : Surroundings) : Prop where
  directory : ∀ path ∈ e.config.compilerDirectory, hasNul path = false
  includes : ∀ path ∈ e.config.includePaths, hasNul path = false
  libraries : ∀ path ∈ e.config.libraryPaths, hasNul path = false

/-- The texts of the settings that a session is prepared with. -/
def texts (e : Surroundings) : List String :=
  e.config.compilerDirectory.toList ++ e.config.includePaths ++ e.config.libraryPaths

/-- The first text of the settings that cannot be passed to the compiler. -/
def refused? (e : Surroundings) : Option String := e.texts.find? hasNul

theorem refused?_eq_none {e : Surroundings} : e.refused? = none ↔ e.Clean := by
  simp only [refused?, texts, List.find?_eq_none, List.mem_append, Option.mem_toList,
    Bool.not_eq_true]
  exact ⟨fun h => ⟨fun path hp => h path (.inl (.inl hp)), fun path hp => h path (.inl (.inr hp)),
    fun path hp => h path (.inr hp)⟩,
    fun h path hp => hp.elim (fun hp => hp.elim (h.directory path) (h.includes path))
      (h.libraries path)⟩

theorem refused?_congr {e e' : Surroundings} (h : e'.config = e.config) :
    e'.refused? = e.refused? := by rw [refused?, refused?, texts, texts, h]

theorem Clean.congr {e e' : Surroundings} (h : e.Clean) (hconfig : e'.config = e.config) :
    e'.Clean :=
  ⟨by rw [hconfig]; exact h.directory, by rw [hconfig]; exact h.includes,
    by rw [hconfig]; exact h.libraries⟩

end Surroundings

/-- What a preparation in a world depends on. -/
def World.surroundings {σ : Type} (w : World σ) : Surroundings :=
  ⟨w.config, w.binding, w.linkage.platform, w.files⟩

/-- The default settings hold no text that cannot be passed on. -/
theorem Surroundings.Clean.start {σ : Type} (c : σ) (files : FileTree) (loader : Loader)
    (colors : Bool) : (World.start c files loader colors).surroundings.Clean := by
  constructor
  · intro path h
    exact absurd h (by simp [World.surroundings, World.start, Config.default])
  · intro path h
    exact absurd h (by simp [World.surroundings, World.start, Config.default])
  · intro path h
    exact absurd h (by simp [World.surroundings, World.start, Config.default])

namespace Linker

open InSession

variable {σ α : Type} [Compiler σ] (L : Linker σ)

/-- A world in which a build can be carried out: the compiler is ready, and the names of code are in
order, as they are after every history (`Linkage.Sound.after`). -/
structure Steady (e : Surroundings) (w : World σ) : Prop where
  ready : L.Ready w.compiler
  made : w.made = L.size w.compiler
  sound : w.linkage.Sound
  surroundings : w.surroundings = e

/-- A session of a memory build in such a world, at which nothing is pending. -/
structure Fits (e : Surroundings) (s : Session) (w : World σ) : Prop extends L.Steady e w where
  serial : s.serial < w.made
  mode : s.mode = .memory
  relocated : s.relocated = false
  pending : s.pending = []

/-- Between two moments of a session the requests `t` were made, which registered some names, and
nothing else happened that a build depends on. -/
structure Quiet (s : Session) (w : World σ) (t : List (Request × Bool))
    (names : List (String × Address)) (w' : World σ) : Prop where
  asked : Asked t (s, w) (s, w')
  ready : L.Ready w'.compiler
  size : L.size w'.compiler = L.size w.compiler
  holds : L.holds w'.compiler s.serial = (L.holds w.compiler s.serial).register names
  linkage : w'.linkage = w.linkage
  surroundings : w'.surroundings = w.surroundings

/-- In every session that fits, whatever names it knows, `load` goes through without a message and
leaves the same: it needs and defines the names of `u`, and registers those of `u`. -/
def Loads (e : Surroundings) (load : InSession σ Unit) (u : LinkState) : Prop :=
  ∀ s (w : World σ) names, L.Fits e s w →
    L.holds w.compiler s.serial = LinkState.empty.register names →
    ∃ t w', load (s, w) = (.ok (), (s, w')) ∧ Asked t (s, w) (s, w') ∧ L.Fits e s w' ∧
      L.holds w'.compiler s.serial = { u with registered := names ++ u.registered }

variable {L} {s : Session} {w w' w'' : World σ} {t t' : List (Request × Bool)}
  {names names' : List (String × Address)} {e : Surroundings}

/-- A world in which nothing has happened is steady, if the compiler is ready. -/
theorem Steady.start {c : σ} (hready : L.Ready c) (hsize : L.size c = 0) (files : FileTree)
    (loader : Loader) (colors : Bool) : L.Steady (World.start c files loader colors).surroundings
      (.start c files loader colors) :=
  ⟨hready, hsize.symm, Linkage.Sound.make .host loader .native, rfl⟩

theorem Quiet.refl (h : L.Fits e s w) : L.Quiet s w [] [] w :=
  ⟨.refl _, h.ready, rfl, by simp, rfl, rfl⟩

theorem Quiet.fits (h : L.Quiet s w t names w') (hf : L.Fits e s w) : L.Fits e s w' where
  ready := h.ready
  made := h.asked.made.trans (hf.made.trans h.size.symm)
  sound := h.linkage ▸ hf.sound
  surroundings := h.surroundings.trans hf.surroundings
  serial := h.asked.made ▸ hf.serial
  mode := hf.mode
  relocated := hf.relocated
  pending := hf.pending

theorem Quiet.trans (h : L.Quiet s w t names w') (h' : L.Quiet s w' t' names' w'') :
    L.Quiet s w (t ++ t') (names ++ names') w'' where
  asked := h.asked.trans h'.asked
  ready := h'.ready
  size := h'.size.trans h.size
  holds := by rw [h'.holds, h.holds, LinkState.register_register]
  linkage := h'.linkage.trans h.linkage
  surroundings := h'.surroundings.trans h.surroundings

theorem session_eq (h : s.pending = []) : { s with pending := [] } = s := by rw [← h]

/-! ## Requests that are taken -/

/-- The world after a request that changes no file. -/
theorem ask_of_answer {n : Nat} {r : Request} {reply : Reply} {c' : σ}
    (h : Compiler.answer n r w.files w.compiler = (reply, w.files, c')) : w.ask n r = (reply,
      { w with compiler := c', calls := w.calls.push (.asked n r reply.failed) }) := by
  rw [World.ask, h]

/-- A request that is answered in silence changes the compiler only. -/
theorem request_of_answer (hf : L.Fits e s w) {r : Request} {c' : σ}
    (hanswer : Compiler.answer s.serial r w.files w.compiler = (.done, w.files, c'))
    (hready : L.Ready c') (hsize : L.size c' = L.size w.compiler) :
    ∃ w', request r (s, w) = (.ok .done, (s, w')) ∧ Asked [(r, false)] (s, w) (s, w') ∧
      L.Fits e s w' ∧ w'.compiler = c' ∧ w'.linkage = w.linkage := by
  have hpending : s.pending ++ keptMessages Reply.done.messages = [] := by rw [hf.pending]; rfl
  refine ⟨{ w with compiler := c', calls := w.calls.push (.asked s.serial r false) },
    ?_, ⟨?_, rfl, rfl, .inl rfl⟩, ?_, rfl, rfl⟩
  · rw [request_apply, ask_of_answer hanswer, hpending, session_eq hf.pending]
    rfl
  · simp [Call.ofRequests]
  · exact ⟨⟨hready, hf.made.trans hsize.symm, hf.sound, hf.surroundings⟩, hf.serial, hf.mode,
      hf.relocated, hf.pending⟩

theorem demand_of_request {r : Request} {p p' : Session × World σ}
    (h : request r p = (.ok .done, p')) : demand r p = (.ok (), p') := by
  rw [demand, Attempt.bind_of_ok h]
  rfl

/-- A request that prepares a state is taken in silence. -/
theorem request_quiet (hf : L.Fits e s w) {r : Request} (hr : Prepares r) :
    ∃ w', request r (s, w) = (.ok .done, (s, w')) ∧ L.Quiet s w [(r, false)] r.registers w' := by
  have hserial : s.serial < L.size w.compiler := hf.made ▸ hf.serial
  obtain ⟨c', hanswer, hready, hsize, hholds⟩ := L.prepares w.files hf.ready hserial hr
  obtain ⟨w', hrun, hasked, hfits, hc, hlinkage⟩ := request_of_answer hf hanswer hready hsize
  subst hc
  exact ⟨w', hrun, hasked, hready, hsize, hholds, hlinkage,
    hfits.surroundings.trans hf.surroundings.symm⟩

theorem demand_quiet (hf : L.Fits e s w) {r : Request} (hr : Prepares r) :
    ∃ w', demand r (s, w) = (.ok (), (s, w')) ∧ L.Quiet s w [(r, false)] r.registers w' := by
  obtain ⟨w', hrequest, hquiet⟩ := request_quiet hf hr
  exact ⟨w', demand_of_request hrequest, hquiet⟩

/-- Whenever `x` is run in a session that fits, it goes through and registers some names. -/
def Registers (L : Linker σ) (e : Surroundings) (x : InSession σ Unit)
    (names : List (String × Address)) : Prop :=
  ∀ s (w : World σ), L.Fits e s w →
    ∃ t w', x (s, w) = (.ok (), (s, w')) ∧ L.Quiet s w t names w'

namespace Registers

theorem pure : L.Registers e (pure ()) [] := fun _ w hf => ⟨[], w, rfl, .refl hf⟩

theorem bind {x : InSession σ Unit} {f : Unit → InSession σ Unit} (hx : L.Registers e x names)
    (hf : L.Registers e (f ()) names') : L.Registers e (x >>= f) (names ++ names') := by
  intro s w hfits
  obtain ⟨t, w', hrun, hquiet⟩ := hx s w hfits
  obtain ⟨t', w'', hrun', hquiet'⟩ := hf s w' (hquiet.fits hfits)
  exact ⟨t ++ t', w'', by rw [Attempt.bind_of_ok hrun, hrun'], hquiet.trans hquiet'⟩

/-- A step that registers nothing. -/
theorem skip {x : InSession σ Unit} {f : Unit → InSession σ Unit} (hx : L.Registers e x [])
    (hf : L.Registers e (f ()) names) : L.Registers e (x >>= f) names := hx.bind hf

theorem each {l : List α} {f : α → InSession σ Unit} {g : α → List (String × Address)}
    (h : ∀ a ∈ l, L.Registers e (f a) (g a)) : L.Registers e (Attempt.each l f) (l.flatMap g) := by
  induction l with
  | nil => exact pure
  | cons a l ih =>
    exact (h a (by simp)).bind (ih fun b hb => h b (by simp [hb]))

theorem eachNothing {l : List α} {f : α → InSession σ Unit}
    (h : ∀ a ∈ l, L.Registers e (f a) []) : L.Registers e (Attempt.each l f) [] := by
  have hflat : l.flatMap (fun _ => ([] : List (String × Address))) = [] := by simp
  rw [← hflat]
  exact each h

theorem world {f : World σ → InSession σ Unit}
    (h : ∀ w, w.surroundings = e → L.Registers e (f w) names) :
    L.Registers e (InSession.world >>= f) names :=
  fun s w hfits => h w hfits.surroundings s w hfits

theorem session {f : Session → InSession σ Unit}
    (h : ∀ s, s.mode = .memory → L.Registers e (f s) names) :
    L.Registers e (InSession.session >>= f) names :=
  fun s w hfits => h s hfits.mode s w hfits

theorem checkText {text : String} (h : hasNul text = false) {f : Unit → InSession σ Unit}
    (hf : L.Registers e (f ()) names) : L.Registers e (InSession.checkText text >>= f) names := by
  intro s w hfits
  obtain ⟨t, w', hrun, hquiet⟩ := hf s w hfits
  refine ⟨t, w', ?_, hquiet⟩
  rw [InSession.checkText, h, if_neg (by simp), Attempt.bind_of_ok (Attempt.pure_apply () (s, w)),
    hrun]

theorem demand {r : Request} (hr : Prepares r) : L.Registers e (demand r) r.registers :=
  fun _ _ hfits =>
    let ⟨w', hrun, hquiet⟩ := demand_quiet hfits hr
    ⟨_, w', hrun, hquiet⟩

theorem demandWith {text : String} (h : hasNul text = false) {r : Request} (hr : Prepares r) :
    L.Registers e (demandWith text r) r.registers := checkText h (demand hr)

/-- A request whose reply is not looked at. -/
theorem request {r : Request} (hr : Prepares r) :
    L.Registers e (do let _ ← InSession.request r : InSession σ Unit) r.registers := by
  intro s w hfits
  obtain ⟨w', hrun, hquiet⟩ := request_quiet hfits hr
  exact ⟨_, w', by rw [Attempt.bind_of_ok hrun]; rfl, hquiet⟩

theorem setOptions {options : String} (h : hasNul options = false) :
    L.Registers e (setOptions options) [] := by
  refine checkText h fun s w hfits => ?_
  obtain ⟨w', hrun, hquiet⟩ := request_quiet hfits (r := .setOptions options) trivial
  refine ⟨_, w', ?_, hquiet⟩
  rw [Attempt.bind_of_ok hrun, Attempt.bind_of_ok (x := takeMessages) rfl, session_eq hfits.pending,
    hfits.pending]
  rfl

theorem define {name : String} {value : Option String} (h : hasNul name = false)
    (hv : ∀ text ∈ value, hasNul text = false) : L.Registers e (define name value) [] := by
  refine checkText h ?_
  cases value with
  | none => exact pure.skip (request (r := .define name none) trivial)
  | some text => exact checkText (hv text rfl) (request (r := .define name (some text)) trivial)

end Registers

/-! ## Names -/

/-- A name that can be registered: there is an address, and the name can be passed on. -/
def accepted (n : String × Address) : List (String × Address) :=
  if n.2 = 0 ∨ hasNul n.1 = true then [] else [n]

/-- The names that every session offers. -/
def offered (e : Surroundings) : List (String × Address) :=
  (builtins.offered.map fun b => (b.name, b.address)).flatMap accepted ++
    e.binding.offered.flatMap accepted

theorem addSymbol_quiet (hf : L.Fits e s w) {name : String} {address : Address} (ha : address ≠ 0)
    (hn : hasNul name = false) : ∃ w', addSymbol name address (s, w) = (.ok (), (s, w')) ∧
      L.Quiet s w [(.addSymbol name address, false)] [(name, address)] w' := by
  obtain ⟨w', hrun, hquiet⟩ := demand_quiet hf (r := .addSymbol name address) trivial
  refine ⟨w', ?_, hquiet⟩
  rw [addSymbol, if_neg ha, demandWith, InSession.checkText, hn, if_neg (by simp),
    Attempt.bind_of_ok (Attempt.pure_apply () (s, w)), hrun]

/-- Further names are registered one after the other. -/
theorem names_quiet (hf : L.Fits e s w) (h : ∀ n ∈ names, n.2 ≠ 0 ∧ hasNul n.1 = false) :
    ∃ w', Attempt.each names (fun n => addSymbol n.1 n.2) (s, w) = (.ok (), (s, w')) ∧
      L.Quiet s w (names.map fun n => (.addSymbol n.1 n.2, false)) names w' := by
  induction names generalizing w with
  | nil => exact ⟨w, rfl, .refl hf⟩
  | cons n names ih =>
    have hn := h n (by simp)
    obtain ⟨w₁, hrun, hquiet⟩ := addSymbol_quiet hf hn.1 hn.2
    obtain ⟨w₂, hrest, hquiet'⟩ := ih (hquiet.fits hf) fun n hn => h n (by simp [hn])
    exact ⟨w₂, by rw [Attempt.each, Attempt.bind_of_ok hrun, hrest], hquiet.trans hquiet'⟩

/-- A name that cannot be registered is passed over. -/
theorem offer_registers (warning : String → String → Warning) (n : String × Address) :
    L.Registers e (offer warning n.1 n.2) (accepted n) := by
  intro s w hfits
  have passed (f : Failure) (h : addSymbol n.1 n.2 (s, w) = (.error f, (s, w))) :
      ∃ w', offer warning n.1 n.2 (s, w) = (.ok (), (s, w')) ∧ L.Quiet s w [] [] w' := by
    have hcapture : (addSymbol n.1 n.2).capture (s, w) = (.ok (.error f), (s, w)) := by
      rw [Attempt.capture, h]
    obtain ⟨errors, hwarn⟩ := w.exists_warn_eq (warning n.1 f.message)
    refine ⟨{ w with errors := errors }, ?_, asked_nil_of_calls s.pending rfl rfl, hfits.ready, rfl,
      by simp, rfl, rfl⟩
    rw [offer, Attempt.bind_of_ok hcapture]
    simp only [onWorld, Attempt.onSecond, Engine.warn, Attempt.change, hwarn]
  by_cases ha : n.2 = 0
  · rw [accepted, if_pos (.inl ha)]
    obtain ⟨w', hrun, hquiet⟩ := passed _ (by rw [addSymbol, if_pos ha]; rfl)
    exact ⟨_, w', hrun, hquiet⟩
  by_cases hn : hasNul n.1 = true
  · rw [accepted, if_pos (.inr hn)]
    have hrefused : addSymbol n.1 n.2 (s, w) =
        (.error (.invalidArgument (.interiorNul n.1)), (s, w)) := by
      rw [addSymbol, if_neg ha, demandWith, InSession.checkText, if_pos hn]
      rfl
    obtain ⟨w', hrun, hquiet⟩ := passed _ hrefused
    exact ⟨_, w', hrun, hquiet⟩
  · rw [accepted, if_neg (by simp [ha, hn])]
    obtain ⟨w', hrun, hquiet⟩ := addSymbol_quiet hfits ha (by simpa using hn)
    have hcapture : (addSymbol n.1 n.2).capture (s, w) = (.ok (.ok ()), (s, w')) := by
      rw [Attempt.capture, hrun]
    exact ⟨_, w', by rw [offer, Attempt.bind_of_ok hcapture]; rfl, hquiet⟩

theorem offerNames_registers : L.Registers e offerNames (offered e) := by
  rw [offered, List.flatMap_map, offerNames_eq]
  refine Registers.bind (.each fun b _ => offer_registers _ (b.name, b.address))
    (Registers.world fun w he => ?_)
  obtain rfl := he
  exact .each fun n _ => offer_registers _ n

/-! ## Preparing -/

theorem hasNul_of_isDirectory {files : FileTree} {path : String}
    (h : files.isDirectory path = true) : hasNul path = false := by
  cases hnul : hasNul path with
  | false => rfl
  | true =>
    rw [hasNul] at hnul
    have hpath : FileTree.isPath path.toList = false := by
      rw [FileTree.isPath, hnul]
      simp
    simp [FileTree.isDirectory, FileTree.entry?, FileTree.placeOf?, hpath] at h

theorem hasNul_of_mem_defines {p : Platform} {name : String} (h : name ∈ p.defines) :
    hasNul name = false := by
  have hall : ∀ os, ∀ n ∈ (Platform.mk os "").defines, hasNul n = false := by
    intro os
    cases os <;> decide
  exact hall p.os name h

/-- A directory for the compiler's own files, if there is one, is taken. -/
theorem directory_registers {directory : Option String}
    (h : ∀ path ∈ directory, hasNul path = false) :
    L.Registers e (directory.elim (pure ()) setLibraryDirectory) [] := by
  cases directory with
  | none => exact .pure
  | some path => exact .checkText (h path rfl) (.request (r := .setLibraryDirectory path) trivial)

/-- Directories to be searched are taken. -/
theorem paths_registers {r : String → Request} (hr : ∀ path, Prepares (r path))
    (hregisters : ∀ path, (r path).registers = []) {paths : List String}
    (h : ∀ path ∈ paths, hasNul path = false) :
    L.Registers e (Attempt.each paths fun path => demandWith path (r path)) [] :=
  .eachNothing fun path hpath => by
    rw [← hregisters path]
    exact .demandWith (h path hpath) (hr path)

theorem existing_registers {r : String → Request} (hr : ∀ path, Prepares (r path))
    (hregisters : ∀ path, (r path).registers = []) (w : World σ) (paths : List String) :
    L.Registers e (Attempt.each (existing w paths) fun path => demandWith path (r path)) [] :=
  paths_registers hr hregisters fun _ h => hasNul_of_isDirectory (List.mem_filter.1 h).2

theorem setOutput_registers : L.Registers e setOutput [] :=
  .session fun _ _ => .world fun _ _ => .demand trivial

theorem defines_registers (p : Platform) :
    L.Registers e (Attempt.each p.defines fun name => define name none) [] :=
  .eachNothing fun _ h => .define (hasNul_of_mem_defines h) (by simp)

/-- Preparing a session registers the names that every session offers. -/
theorem prepare_registers (hclean : e.Clean) : L.Registers e InSession.prepare (offered e) := by
  refine Registers.world fun w he => Registers.session fun s hs => ?_
  obtain rfl := he
  refine Registers.skip (directory_registers hclean.directory) ?_
  refine Registers.skip (.setOptions (by decide)) (Registers.skip setOutput_registers ?_)
  refine Registers.skip (defines_registers _) (Registers.skip (.define (by decide) (by simp)) ?_)
  refine Registers.skip (existing_registers (r := .addSystemIncludePath) (fun _ => trivial)
    (fun _ => rfl) _ _) ?_
  refine Registers.skip (paths_registers (r := .addIncludePath) (fun _ => trivial) (fun _ => rfl)
    hclean.includes) ?_
  refine Registers.skip (existing_registers (r := .addLibraryPath) (fun _ => trivial) (fun _ => rfl)
    _ _) ?_
  refine Registers.skip (paths_registers (r := .addLibraryPath) (fun _ => trivial) (fun _ => rfl)
    hclean.libraries) ?_
  rw [if_pos hs]
  exact offerNames_registers

/-! ## Settings that cannot be passed on -/

/-- In every session that fits, a computation fails because a text cannot be passed on. -/
def Refuses (L : Linker σ) (e : Surroundings) (x : InSession σ α) (text : String) : Prop :=
  ∀ s (w : World σ), L.Fits e s w →
    ∃ p, x (s, w) = (.error (.invalidArgument (.interiorNul text)), p)

namespace Refuses

variable {β : Type} {text : String}

theorem bind {x : InSession σ α} {f : α → InSession σ β} (hx : L.Refuses e x text) :
    L.Refuses e (x >>= f) text := fun s w hfits =>
  let ⟨p, hrun⟩ := hx s w hfits
  ⟨p, Attempt.bind_of_error hrun f⟩

/-- After steps that go through. -/
theorem after {x : InSession σ Unit} {f : Unit → InSession σ β} (hx : L.Registers e x names)
    (hf : L.Refuses e (f ()) text) : L.Refuses e (x >>= f) text := fun s w hfits =>
  let ⟨_, w', hrun, hquiet⟩ := hx s w hfits
  let ⟨p, hrun'⟩ := hf s w' (hquiet.fits hfits)
  ⟨p, by rw [Attempt.bind_of_ok hrun, hrun']⟩

theorem world {f : World σ → InSession σ β}
    (h : ∀ w, w.surroundings = e → L.Refuses e (f w) text) :
    L.Refuses e (InSession.world >>= f) text :=
  fun s w hfits => h w hfits.surroundings s w hfits

theorem session {f : Session → InSession σ β} (h : ∀ s, L.Refuses e (f s) text) :
    L.Refuses e (InSession.session >>= f) text := fun s w hfits => h s s w hfits

theorem checkText (h : hasNul text = true) : L.Refuses e (InSession.checkText text) text :=
  fun s w _ => ⟨(s, w), by rw [InSession.checkText, if_pos h]; rfl⟩

/-- The first text that cannot be passed on is refused. -/
theorem each (words : α → String) {l : List α} {f : α → InSession σ Unit}
    {g : α → List (String × Address)}
    (hok : ∀ a, hasNul (words a) = false → a ∈ l → L.Registers e (f a) (g a))
    (hbad : ∀ a ∈ l, hasNul (words a) = true → L.Refuses e (f a) (words a)) {a : α}
    (h : l.find? (fun a => hasNul (words a)) = some a) :
    L.Refuses e (Attempt.each l f) (words a) := by
  induction l with
  | nil => simp at h
  | cons b l ih =>
    rw [List.find?_cons] at h
    cases hb : hasNul (words b) with
    | true =>
      rw [hb] at h
      obtain rfl := Option.some.inj h
      exact (hbad b (by simp) hb).bind
    | false =>
      rw [hb] at h
      exact .after (hok b hb (by simp))
        (ih (fun a ha hl => hok a ha (by simp [hl])) (fun a hl => hbad a (by simp [hl])) h)

end Refuses

/-- Directories of which one cannot be passed on are refused. -/
theorem paths_refuses {r : String → Request} (hr : ∀ path, Prepares (r path)) {paths : List String}
    {path : String} (h : paths.find? hasNul = some path) :
    L.Refuses e (Attempt.each paths fun path => demandWith path (r path)) path :=
  .each (fun path => path) (g := fun path => (r path).registers)
    (fun path hpath _ => .demandWith hpath (hr path))
    (fun _ _ hpath => (Refuses.checkText hpath).bind) h

/-- **No session is prepared with settings that cannot be passed on**: the first such text is
refused. -/
theorem prepare_refuses {path : String} (h : e.refused? = some path) :
    L.Refuses e InSession.prepare path := by
  refine Refuses.world fun w he => Refuses.session fun s => ?_
  obtain rfl := he
  have hfirst : ((w.config.compilerDirectory.toList.find? hasNul).or
      (w.config.includePaths.find? hasNul)).or (w.config.libraryPaths.find? hasNul) =
        some path := by
    rw [← List.find?_append, ← List.find?_append]
    exact h
  cases hdirectory : w.config.compilerDirectory.toList.find? hasNul with
  | some refused =>
    rw [hdirectory] at hfirst
    obtain rfl : refused = path := by simpa using hfirst
    cases hdir : w.config.compilerDirectory with
    | none => simp [hdir] at hdirectory
    | some directory =>
      rw [hdir, Option.toList_some, List.find?_singleton] at hdirectory
      split at hdirectory
      · next hnul =>
        obtain rfl := Option.some.inj hdirectory
        exact (Refuses.checkText hnul).bind.bind
      · simp at hdirectory
  | none =>
    have hclean : ∀ path ∈ w.config.compilerDirectory, hasNul path = false := fun path hp => by
      simpa using List.find?_eq_none.1 hdirectory path (Option.mem_toList.2 hp)
    refine .after (directory_registers hclean) (.after (.setOptions (by decide)) ?_)
    refine .after setOutput_registers (.after (defines_registers _) ?_)
    refine .after (.define (by decide) (by simp)) ?_
    refine .after (existing_registers (r := .addSystemIncludePath) (fun _ => trivial)
      (fun _ => rfl) _ _) ?_
    rw [hdirectory, Option.none_or] at hfirst
    cases hincludes : w.config.includePaths.find? hasNul with
    | some refused =>
      rw [hincludes] at hfirst
      obtain rfl : refused = path := by simpa using hfirst
      exact (paths_refuses (r := .addIncludePath) (fun _ => trivial) hincludes).bind
    | none =>
      rw [hincludes, Option.none_or] at hfirst
      refine .after (paths_registers (r := .addIncludePath) (fun _ => trivial) (fun _ => rfl)
        fun path hp => by simpa using List.find?_eq_none.1 hincludes path hp) ?_
      refine .after (existing_registers (r := .addLibraryPath) (fun _ => trivial) (fun _ => rfl)
        _ _) ?_
      exact (paths_refuses (r := .addLibraryPath) (fun _ => trivial) hfirst).bind

/-- A library can be opened once the code is in, whether or not that succeeds. -/
theorem Loads.openLibrary {load : InSession σ Unit} {u : LinkState} (h : L.Loads e load u)
    (name : String) : L.Loads e (do
      load
      let _ ← (onWorld (Engine.openLibrary name)).capture) u := by
  intro s w names hf hholds
  obtain ⟨t, w₁, hrun, hasked, hfits, hleft⟩ := h s w names hf hholds
  obtain ⟨result, errors, hopening⟩ := Engine.opening_apply
    (fun linkage files => linkage.openLibrary files name) w₁
  generalize hw₂ : { w₁ with
    linkage := w₁.linkage.step (.openLibrary w₁.files name), errors := errors } = w₂
  have hopen : Engine.openLibrary name w₁ = (result, w₂) := hw₂ ▸ hopening
  have hcapture : (onWorld (Engine.openLibrary name)).capture (s, w₁) = (.ok result, (s, w₂)) := by
    simp only [Attempt.capture, onWorld, Attempt.onSecond, hopen]
  subst hw₂
  refine ⟨t, _, (Attempt.bind_of_ok hrun _).trans (Attempt.bind_of_ok hcapture _), ?_, ?_, hleft⟩
  · exact ⟨hasked.calls, hasked.made, hasked.session, hasked.relocated⟩
  · refine ⟨⟨hfits.ready, hfits.made, hfits.sound.step _, ?_⟩, hfits.serial, hfits.mode,
      hfits.relocated, hfits.pending⟩
    rw [← hfits.surroundings, World.surroundings, World.surroundings, Linkage.platform_step]

/-! ## Making, linking and deleting a session -/

/-- A state is made, and nothing is in it. -/
theorem create_fits (hw : L.Steady e w) (unitName : String) :
    ∃ s w', Session.create .memory unitName w = (.ok s, w') ∧ w.Adds [.created s.serial] w' ∧
      s.serial = w.made ∧ s.unitName = unitName ∧ L.Fits e s w' ∧
      L.holds w'.compiler s.serial = .empty := by
  obtain ⟨address, c', hcreate, hready, hsize, hholds⟩ := L.creates hw.ready
  have hmade : w.made + 1 = L.size c' := by rw [hsize, hw.made]
  refine ⟨⟨w.made, address, .memory, unitName, false, []⟩, { w with
      compiler := c'
      made := w.made + 1
      calls := w.calls.push (.created w.made) },
    by rw [Session.create, hcreate], by simp [World.Adds], rfl, rfl, ?_, ?_⟩
  · exact ⟨⟨hready, hmade, hw.sound, hw.surroundings⟩, Nat.lt_succ_self _, rfl, rfl, rfl⟩
  · simp only [hw.made, hholds]

/-- The compiler reports every missing name, and fails if there is one. -/
theorem ask_relocate (hf : L.Fits e s w) :
    ∃ w', w.ask s.serial .relocate = (⟨(L.holds w.compiler s.serial).missing.map missingMessage,
        !(L.holds w.compiler s.serial).missing.isEmpty, none⟩, w') ∧
      w.Adds [.asked s.serial .relocate (!(L.holds w.compiler s.serial).missing.isEmpty)] w' ∧
      L.Fits e s w' ∧ w'.linkage = w.linkage := by
  have hserial : s.serial < L.size w.compiler := hf.made ▸ hf.serial
  obtain ⟨c', hanswer, hready, hsize⟩ := L.relocates w.files hf.ready hserial
  have hask := ask_of_answer hanswer
  refine ⟨_, hask, by simp [World.Adds], ?_, rfl⟩
  exact ⟨⟨hready, hf.made.trans hsize.symm, hf.sound, hf.surroundings⟩, hf.serial, hf.mode,
    hf.relocated, hf.pending⟩

/-- Linking succeeds if no name is missing. -/
theorem relocate_of_nil (hf : L.Fits e s w)
    (hmissing : (L.holds w.compiler s.serial).missing = []) :
    ∃ w', InSession.relocate (s, w) = (.ok (), ({ s with relocated := true }, w')) ∧
      w.Adds [.asked s.serial .relocate false] w' ∧ w'.linkage = w.linkage := by
  obtain ⟨w', hask, hadds, -, hlinkage⟩ := ask_relocate hf
  rw [hmissing] at hask hadds
  have hpending : s.pending ++ keptMessages (w.ask s.serial .relocate).1.messages = [] := by
    rw [hask, hf.pending]
    rfl
  have hdemand := demand_of_done (r := .relocate) (s := s) (w := w) (by rw [hask]; rfl)
  rw [hpending, session_eq hf.pending, hask] at hdemand
  refine ⟨w', ?_, hadds, hlinkage⟩
  rw [relocate_of_fresh hf.mode hf.relocated, Attempt.bind_of_ok hdemand]
  rfl

/-- Linking fails if names are missing, and the failure carries the messages about them. -/
theorem relocate_of_missing (hf : L.Fits e s w) {missing : List String} (hne : missing ≠ [])
    (hmissing : (L.holds w.compiler s.serial).missing = missing)
    (hreadable : ∀ n ∈ missing, Readable n) :
    ∃ w', InSession.relocate (s, w) =
        (.error (.compilation s.unitName (missing.map missingMessage)), (s, w')) ∧
      w.Adds [.asked s.serial .relocate true] w' ∧ L.Fits e s w' ∧ w'.linkage = w.linkage := by
  obtain ⟨w', hask, hadds, hfits, hlinkage⟩ := ask_relocate hf
  have hfailed : (!missing.isEmpty) = true := by simpa using hne
  rw [hmissing, hfailed] at hask hadds
  have hpending : s.pending ++ keptMessages (w.ask s.serial .relocate).1.messages =
      missing.map missingMessage := by
    rw [hask, hf.pending, List.nil_append, keptMessages_missing hreadable]
  have hdemand := demand_of_failed (r := .relocate) (s := s) (w := w) (by rw [hask])
  rw [hpending, session_eq hf.pending, if_neg (by simpa using hne), hask] at hdemand
  refine ⟨w', ?_, hadds, hfits, hlinkage⟩
  rw [relocate_of_fresh hf.mode hf.relocated, Attempt.bind_of_error hdemand]

/-- A state is deleted, and nothing else happens. -/
theorem delete_fits (hf : L.Fits e s w) : ∃ failed,
    w.Adds [.asked s.serial .delete failed] (s.delete w).2 ∧ L.Steady e (s.delete w).2 ∧
      (s.delete w).2.linkage = w.linkage := by
  have hserial : s.serial < L.size w.compiler := hf.made ▸ hf.serial
  obtain ⟨reply, c', hanswer, hready, hsize⟩ := L.deletes w.files hf.ready hserial
  have hdelete : (s.delete w).2 = (w.ask s.serial .delete).2 := rfl
  rw [hdelete, ask_of_answer hanswer]
  exact ⟨reply.failed, by simp [World.Adds],
    ⟨hready, hf.made.trans hsize.symm, hf.sound, hf.surroundings⟩, rfl⟩

end Linker

end LiveC
