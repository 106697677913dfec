import LiveC.Flags.Run
/-!
# What a session asks of the compiler

Every computation in a session makes some calls of the compiler, all of them requests to the
session's own state. `Asked t p p'` says that between the pairs `p` and `p'` of a session and its
world exactly the requests `t` were made, each with whether it failed. `AsksOnly P x` says that
whatever `x` asks satisfies `P`; it goes through sequences, loops and captured failures, so that a
step of the engine has its requests read off its text (`prepare_asksOnly`, `load_asksOnly`). Linking
is the one step that is looked at more closely: it asks once, and it succeeds exactly when the
request does (`relocate_asks`).
-/

namespace LiveC

variable {σ α β : Type}

/-- Some requests to the state of a number, each with whether it failed, as calls. -/
def Call.ofRequests (serial : Nat) (t : List (Request × Bool)) : List Call :=
  t.map fun q => .asked serial q.1 q.2

@[simp] theorem Call.ofRequests_nil (serial : Nat) : Call.ofRequests serial [] = [] := rfl

@[simp] theorem Call.ofRequests_append (serial : Nat) (t u : List (Request × Bool)) :
    Call.ofRequests serial (t ++ u) = Call.ofRequests serial t ++ Call.ofRequests serial u :=
  List.map_append

@[simp] theorem Call.asked_mem_ofRequests {serial n : Nat} {q : Request} {failed : Bool}
    {t : List (Request × Bool)} :
    Call.asked n q failed ∈ Call.ofRequests serial t ↔ n = serial ∧ (q, failed) ∈ t := by
  simp only [ofRequests, List.mem_map, Call.asked.injEq, Prod.exists]
  constructor
  · rintro ⟨q', failed', h, rfl, rfl, rfl⟩
    exact ⟨rfl, h⟩
  · rintro ⟨rfl, h⟩
    exact ⟨q, failed, h, rfl, rfl, rfl⟩

/-! ## Requests between two moments of a session -/

/-- Between two moments of a session exactly the requests `t` were made, and of what its owner knows
only the messages changed, and whether its code can be called if it was linked meanwhile. -/
structure Asked (t : List (Request × Bool)) (p p' : Session × World σ) : Prop where
  calls : p'.2.calls.toList = p.2.calls.toList ++ Call.ofRequests p.1.serial t
  made : p'.2.made = p.2.made
  session : p'.1 = { p.1 with relocated := p'.1.relocated, pending := p'.1.pending }
  relocated : p'.1.relocated = p.1.relocated ∨ (.relocate, false) ∈ t

namespace Asked

variable {t u : List (Request × Bool)} {p p' p'' : Session × World σ}

theorem serial (h : Asked t p p') : p'.1.serial = p.1.serial := by rw [h.session]

theorem mode (h : Asked t p p') : p'.1.mode = p.1.mode := by rw [h.session]

theorem unitName (h : Asked t p p') : p'.1.unitName = p.1.unitName := by rw [h.session]

theorem refl (p : Session × World σ) : Asked [] p p := ⟨by simp, rfl, rfl, .inl rfl⟩

theorem trans (h : Asked t p p') (h' : Asked u p' p'') : Asked (t ++ u) p p'' where
  calls := by rw [h'.calls, h.calls, h.serial, Call.ofRequests_append, List.append_assoc]
  made := h'.made.trans h.made
  session := by rw [h'.session, h.session]
  relocated := by
    rcases h'.relocated with e' | m
    · rcases h.relocated with e | m
      · exact .inl (e'.trans e)
      · exact .inr (List.mem_append_left _ m)
    · exact .inr (List.mem_append_right _ m)

/-- The requests between two moments are determined by them. -/
theorem unique (h : Asked t p p') (h' : Asked u p p') : t = u := by
  have hcalls : Call.ofRequests p.1.serial t = Call.ofRequests p.1.serial u :=
    List.append_cancel_left (h.calls.symm.trans h'.calls)
  refine (List.map_inj_right ?_).1 hcalls
  rintro ⟨q, failed⟩ ⟨q', failed'⟩ heq
  obtain ⟨-, rfl, rfl⟩ := Call.asked.inj heq
  rfl

end Asked

/-- A change of the session's messages and of the world that leaves the compiler's calls alone asks
nothing. -/
theorem asked_nil_of_calls {s : Session} {w w' : World σ} (pending : List String)
    (hc : w'.calls = w.calls) (hm : w'.made = w.made) :
    Asked [] (s, w) ({ s with pending := pending }, w') :=
  ⟨by simp [hc], hm, rfl, .inl rfl⟩

/-! ## Computations that ask only some things -/

namespace InSession

/-- Whatever a computation asks satisfies `P`. -/
def AsksOnly (P : Request → Prop) (x : InSession σ α) : Prop :=
  ∀ p, ∃ t, Asked t p (x p).2 ∧ ∀ q ∈ t, P q.1

/-- A computation on the world that leaves the compiler's calls alone. -/
def Silent (x : Attempt (World σ) α) : Prop :=
  ∀ w, (x w).2.calls = w.calls ∧ (x w).2.made = w.made

theorem Silent.bind {x : Attempt (World σ) α} {f : α → Attempt (World σ) β} (hx : Silent x)
    (hf : ∀ a, Silent (f a)) : Silent (x >>= f) := by
  intro w
  rcases h : x w with ⟨_ | a, w'⟩
  · rw [Attempt.bind_of_error h]
    simpa only [h] using hx w
  · have hw := hx w
    rw [h] at hw
    rw [Attempt.bind_of_ok h]
    exact ⟨(hf a w').1.trans hw.1, (hf a w').2.trans hw.2⟩

variable {P Q : Request → Prop}

theorem AsksOnly.mono {x : InSession σ α} (hx : AsksOnly P x) (h : ∀ q, P q → Q q) :
    AsksOnly Q x := fun p =>
  let ⟨t, ht, hP⟩ := hx p
  ⟨t, ht, fun q hq => h _ (hP q hq)⟩

theorem AsksOnly.of_snd_eq {x : InSession σ α} (h : ∀ p, (x p).2 = p) : AsksOnly P x := fun p =>
  ⟨[], (h p).symm ▸ Asked.refl p, by simp⟩

theorem AsksOnly.pure (a : α) : AsksOnly P (pure a : InSession σ α) := .of_snd_eq fun _ => rfl

theorem AsksOnly.fail (e : Failure) : AsksOnly P (Attempt.fail e : InSession σ α) :=
  .of_snd_eq fun _ => rfl

theorem AsksOnly.bind {x : InSession σ α} {f : α → InSession σ β} (hx : AsksOnly P x)
    (hf : ∀ a, AsksOnly P (f a)) : AsksOnly P (x >>= f) := by
  intro p
  obtain ⟨t, ht, hP⟩ := hx p
  rcases h : x p with ⟨_ | a, p'⟩
  · rw [Attempt.bind_of_error h]
    exact ⟨t, by simpa only [h] using ht, hP⟩
  · rw [Attempt.bind_of_ok h]
    obtain ⟨u, hu, hQ⟩ := hf a p'
    rw [h] at ht
    exact ⟨t ++ u, ht.trans hu, fun q hq => (List.mem_append.1 hq).elim (hP q) (hQ q)⟩

theorem AsksOnly.capture {x : InSession σ α} (hx : AsksOnly P x) :
    AsksOnly P (Attempt.capture x : InSession σ (Except Failure α)) := hx

theorem AsksOnly.each {l : List α} {f : α → InSession σ Unit} (h : ∀ a ∈ l, AsksOnly P (f a)) :
    AsksOnly P (Attempt.each l f) := by
  induction l with
  | nil => exact .pure ()
  | cons a l ih => exact (h a (by simp)).bind fun _ => ih fun b hb => h b (by simp [hb])

theorem AsksOnly.onWorld {x : Attempt (World σ) α} (hx : Silent x) :
    AsksOnly P (InSession.onWorld x) := fun (s, w) =>
  ⟨[], asked_nil_of_calls s.pending (hx w).1 (hx w).2, by simp⟩

theorem silent_warn (warning : Warning) :
    Silent (Engine.warn warning : Attempt (World σ) Unit) := by
  intro w
  obtain ⟨errors, h⟩ := w.exists_warn_eq warning
  simp [Engine.warn, Attempt.change, h]

theorem silent_opening
    (f : Linkage → FileTree → Except Failure (Address × List Warning) × Linkage) :
    Silent (Engine.opening f : Attempt (World σ) Address) := by
  intro w
  obtain ⟨result, errors, h⟩ := Engine.opening_apply f w
  rw [h]
  exact ⟨rfl, rfl⟩

theorem AsksOnly.takeMessages : AsksOnly P (takeMessages : InSession σ _) := fun _ =>
  ⟨[], asked_nil_of_calls [] rfl rfl, by simp⟩

theorem AsksOnly.checkText (text : String) : AsksOnly P (checkText text : InSession σ Unit) := by
  unfold InSession.checkText
  split
  · exact .fail _
  · exact .pure ()

variable [Compiler σ]

/-- A request asks for what it says. -/
theorem request_asks (r : Request) (s : Session) (w : World σ) :
    Asked [(r, (w.ask s.serial r).1.failed)] (s, w) (request r (s, w)).2 := by
  rw [request_apply]
  exact ⟨by simp [Call.ofRequests], rfl, rfl, .inl rfl⟩

theorem AsksOnly.request {r : Request} (h : P r) : AsksOnly P (request r : InSession σ Reply) :=
  fun (s, w) => ⟨_, request_asks r s w, by simpa using h⟩

/-- A demand asks for what it says, and succeeds exactly when the request does. -/
theorem demand_asks (r : Request) (s : Session) (w : World σ) :
    ∃ failed, Asked [(r, failed)] (s, w) (demand r (s, w)).2 ∧
      (demand r (s, w)).2.1.relocated = s.relocated ∧
      ((demand r (s, w)).1 = .ok () ↔ failed = false) := by
  cases h : (w.ask s.serial r).1.failed with
  | false =>
    rw [demand_of_done h]
    exact ⟨false, ⟨by simp [Call.ofRequests, h], rfl, rfl, .inl rfl⟩, rfl, by simp⟩
  | true =>
    rw [demand_of_failed h]
    exact ⟨true, ⟨by simp [Call.ofRequests, h], rfl, rfl, .inl rfl⟩, rfl, by simp⟩

theorem AsksOnly.demand {r : Request} (h : P r) : AsksOnly P (demand r : InSession σ Unit) :=
  fun (s, w) =>
    let ⟨failed, hasked, _⟩ := demand_asks r s w
    ⟨[(r, failed)], hasked, by simpa using h⟩

theorem AsksOnly.demandWith {r : Request} (text : String) (h : P r) :
    AsksOnly P (demandWith text r : InSession σ Unit) :=
  (AsksOnly.checkText text).bind fun _ => .demand h

theorem AsksOnly.setOptions {options : String} (h : P (.setOptions options)) :
    AsksOnly P (setOptions options : InSession σ Unit) :=
  (AsksOnly.checkText _).bind fun _ => (AsksOnly.request h).bind fun _ =>
    AsksOnly.takeMessages.bind fun messages => by
      split
      · exact .pure ()
      · exact .fail _

theorem AsksOnly.setLibraryDirectory {path : String} (h : P (.setLibraryDirectory path)) :
    AsksOnly P (setLibraryDirectory path : InSession σ Unit) :=
  (AsksOnly.checkText _).bind fun _ => (AsksOnly.request h).bind fun _ => .pure ()

theorem AsksOnly.setOutput (h : ∀ kind, P (.setOutput kind)) :
    AsksOnly P (setOutput : InSession σ Unit) :=
  (AsksOnly.of_snd_eq fun _ => rfl).bind fun _ =>
    (AsksOnly.of_snd_eq fun _ => rfl).bind fun _ => .demand (h _)

theorem AsksOnly.define {name : String} {value : Option String} (h : P (.define name value)) :
    AsksOnly P (define name value : InSession σ Unit) :=
  (AsksOnly.checkText _).bind fun _ =>
    AsksOnly.bind (by cases value with
      | none => exact .pure ()
      | some text => exact .checkText text)
      fun _ => (AsksOnly.request h).bind fun _ => .pure ()

theorem AsksOnly.addSymbol {name : String} {address : Address} (h : P (.addSymbol name address)) :
    AsksOnly P (addSymbol name address : InSession σ Unit) := by
  unfold InSession.addSymbol
  split
  · exact .fail _
  · exact .demandWith name h

theorem AsksOnly.addFile {path : String} (h : P (.addFile path)) :
    AsksOnly P (addFile path : InSession σ Unit) :=
  (AsksOnly.of_snd_eq fun _ => rfl).bind fun w => by
    split
    · exact .demandWith path h
    · exact .fail _

theorem find_asksOnly (name : String) (h : P (.findSymbol name)) :
    AsksOnly P (find name : InSession σ (Option Address)) := by
  refine (AsksOnly.of_snd_eq fun _ => rfl).bind fun s => ?_
  split
  · exact (AsksOnly.request h).bind fun _ => .pure _
  · exact .pure none

/-! ## The steps of the engine -/

/-- The requests that prepare a state before anything is compiled in it. -/
def Prepares : Request → Prop
  | .setLibraryDirectory _ | .setOptions _ | .setOutput _ | .addIncludePath _
  | .addSystemIncludePath _ | .addLibraryPath _ | .define _ _ | .addSymbol _ _ => True
  | .addLibrary _ | .compile _ | .addFile _ | .writeFile _ | .relocate | .findSymbol _
  | .delete => False

theorem offer_asksOnly (warning : String → String → Warning) (name : String) (address : Address) :
    AsksOnly Prepares (offer warning name address : InSession σ Unit) := by
  refine (AsksOnly.addSymbol (P := Prepares) trivial).capture.bind fun r => ?_
  cases r with
  | ok _ => exact .pure ()
  | error e => exact .onWorld (silent_warn _)

theorem offerNames_asksOnly : AsksOnly Prepares (offerNames : InSession σ Unit) := by
  rw [offerNames_eq]
  exact (AsksOnly.each fun _ _ => offer_asksOnly _ _ _).bind fun _ =>
    (AsksOnly.of_snd_eq fun _ => rfl).bind fun _ => .each fun _ _ => offer_asksOnly _ _ _

/-- Preparing a session asks only for what prepares its state. -/
theorem prepare_asksOnly : AsksOnly Prepares (prepare : InSession σ Unit) := by
  refine (AsksOnly.of_snd_eq fun _ => rfl).bind fun w =>
    (AsksOnly.of_snd_eq fun _ => rfl).bind fun s => AsksOnly.bind ?_ fun _ =>
    (AsksOnly.setOptions trivial).bind fun _ => (AsksOnly.setOutput fun _ => trivial).bind fun _ =>
    (AsksOnly.each fun _ _ => .define trivial).bind fun _ =>
    (AsksOnly.define trivial).bind fun _ =>
    (AsksOnly.each fun _ _ => .demandWith _ trivial).bind fun _ =>
    (AsksOnly.each fun _ _ => .demandWith _ trivial).bind fun _ =>
    (AsksOnly.each fun _ _ => .demandWith _ trivial).bind fun _ =>
    (AsksOnly.each fun _ _ => .demandWith _ trivial).bind fun _ => ?_
  · cases w.config.compilerDirectory with
    | none => exact .pure ()
    | some path => exact .setLibraryDirectory trivial
  · split
    · exact offerNames_asksOnly
    · exact .pure ()

/-- What flags put into a session: everything that does not link, write or look up. -/
def Puts : Request → Prop
  | .writeFile _ | .relocate | .findSymbol _ | .delete => False
  | _ => True

theorem provide_asksOnly (name : String) :
    AsksOnly Puts (Flags.provide name : InSession σ Unit) := by
  refine (AsksOnly.onWorld (silent_opening _)).capture.bind fun r => ?_
  cases r with
  | ok _ => exact .pure ()
  | error _ => exact .demandWith name trivial

/-- Options, definitions, paths and files neither link a session nor end it. -/
theorem apply_asksOnly (f : Flags) : AsksOnly Puts (f.apply : InSession σ Unit) := by
  have hrest : AsksOnly Puts (do
      .each f.defines fun d => InSession.define d.1 d.2
      .each f.systemIncludePaths InSession.addSystemIncludePath
      .each f.includePaths InSession.addIncludePath
      .each f.libraryPaths InSession.addLibraryPath
      .each f.files InSession.addFile : InSession σ Unit) :=
    (AsksOnly.each fun _ _ => .define trivial).bind fun _ =>
      (AsksOnly.each fun _ _ => .demandWith _ trivial).bind fun _ =>
      (AsksOnly.each fun _ _ => .demandWith _ trivial).bind fun _ =>
      (AsksOnly.each fun _ _ => .demandWith _ trivial).bind fun _ =>
      .each fun _ _ => .addFile trivial
  unfold Flags.apply
  split
  · exact hrest
  · exact (AsksOnly.setOptions trivial).bind fun _ => hrest

/-- What a compiler's arguments put into a session neither links nor ends it. -/
theorem load_asksOnly (f : Flags) : AsksOnly Puts (f.load : InSession σ Unit) :=
  (apply_asksOnly f).bind fun _ => .each fun name _ => provide_asksOnly name

/-- Linking asks for it once, succeeds exactly when the request does, and makes the code callable
exactly then. -/
theorem relocate_asks {s : Session} (hm : s.mode = .memory) (hr : s.relocated = false)
    (w : World σ) : ∃ failed, Asked [(.relocate, failed)] (s, w) (relocate (s, w)).2 ∧
      (relocate (s, w)).2.1.relocated = !failed ∧
      ((relocate (s, w)).1 = .ok () ↔ failed = false) := by
  obtain ⟨failed, hasked, hrel, hok⟩ := demand_asks .relocate s w
  refine ⟨failed, ?_⟩
  rw [relocate_of_fresh hm hr]
  rcases h : demand .relocate (s, w) with ⟨e | u, s', w'⟩
  · have hf : failed = true := by simpa [h] using hok
    have hrel' : s'.relocated = false := by rw [← hr, ← hrel, h]
    rw [Attempt.bind_of_error h]
    rw [h] at hasked
    exact ⟨hasked, by simp [hf, hrel'], by simp [hf]⟩
  · have hf : failed = false := hok.1 (by rw [h])
    rw [Attempt.bind_of_ok h]
    rw [h] at hasked
    have hsame : s' = { s with relocated := s'.relocated, pending := s'.pending } := hasked.session
    refine ⟨⟨hasked.calls, hasked.made, ?_, .inr (by simp [hf])⟩, by simp [Attempt.change, hf],
      by simp [Attempt.change, hf]⟩
    simp only [Attempt.change]
    rw [hsame]

end InSession

end LiveC
