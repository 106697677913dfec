import LiveC.Proofs.Session.Building
/-!
# Compilers that take source files

A `SourceTranslator` is a translator of which it is known what becomes of a source file: under the
settings that its state was told before, the file amounts to a text. What a state is in the end is
told by its text and by the names that it knows, however the text came in. So two compilers of which
one was given a source and the other its object are `Alike`: they cannot be told apart by what the
engine does next, as long as the states before are only asked for names and given up.

Two worlds are `Abreast` if the engine sees the same in both and their compilers are alike. Its
moves keep them so (`SourceTranslator.abreast_rules`).
-/

namespace LiveC

variable {σ α : Type}

/-- Whether a request is a setting under which source files are compiled. -/
def Request.isSetting : Request → Bool
  | .setLibraryDirectory _ | .setOptions _ | .addIncludePath _ | .addSystemIncludePath _
  | .addLibraryPath _ | .define _ _ => true
  | _ => false

variable [Compiler σ]

/-- The state of a number is asked for some things, one after the other. -/
inductive Compiler.Asks (n : Nat) : σ → List Request → σ → Prop
  | nil (c : σ) : Asks n c [] c
  | cons {c c' : σ} {qs : List Request} (q : Request) (files : FileTree)
    (h : Asks n (Compiler.answer n q files c).2.2 qs c') : Asks n c (q :: qs) c'

theorem Compiler.Asks.append {n : Nat} {c c' c'' : σ} {qs qs' : List Request} (h : Asks n c qs c')
    (h' : Asks n c' qs' c'') : Asks n c (qs ++ qs') c'' := by
  induction h with
  | nil c => exact h'
  | cons q files h ih => exact .cons q files (ih h')

/-- A course whose calls are requests to one state asks that state for them. -/
theorem World.Course.asks {w w' : World σ} {cs : List Call} (h : w.Course cs w') {n : Nat}
    {t : List (Request × Bool)} (ht : cs = Call.ofRequests n t) :
    Compiler.Asks n w.compiler (t.map Prod.fst) w'.compiler := by
  have hnil {t : List (Request × Bool)} (ht : [] = Call.ofRequests n t) : t = [] :=
    List.map_eq_nil_iff.1 ht.symm
  have hone {t : List (Request × Bool)} {c : Call} (ht : [c] = Call.ofRequests n t) :
      ∃ q, t = [q] ∧ c = .asked n q.1 q.2 := by
    cases t with
    | nil => exact absurd ht (by simp)
    | cons q t =>
      obtain ⟨hc, hrest⟩ := List.cons.inj ht
      rw [hnil hrest]
      exact ⟨q, rfl, hc⟩
  induction h generalizing t with
  | rest h =>
    obtain rfl := hnil ht
    rw [h.compiler]
    exact .nil _
  | resolve w name =>
    obtain rfl := hnil ht
    exact .nil _
  | refused h =>
    obtain ⟨q, -, hc⟩ := hone ht
    exact absurd hc (by simp)
  | created h =>
    obtain ⟨q, -, hc⟩ := hone ht
    exact absurd hc (by simp)
  | asked w m q =>
    obtain ⟨⟨q', failed⟩, rfl, hc⟩ := hone ht
    obtain ⟨rfl, rfl, -⟩ := Call.asked.inj hc
    exact .cons _ w.files (.nil _)
  | trans h h' ih ih' =>
    obtain ⟨t₁, t₂, rfl, h₁, h₂⟩ := List.append_eq_map_iff.1 ht
    rw [List.map_append]
    exact (ih h₁.symm).append (ih' h₂.symm)

/-- A computation in a session asks its state for what it asks. -/
theorem Asked.asks {x : InSession σ α} (hplain : InSession.Plain x) {s : Session}
    {w : World σ} {t : List (Request × Bool)} (h : Asked t (s, w) (x (s, w)).2) :
    Compiler.Asks s.serial w.compiler (t.map Prod.fst) (x (s, w)).2.2.compiler := by
  obtain ⟨cs, hcourse⟩ := hplain.leads (s, w)
  exact hcourse.asks (hcourse.adds.unique h.calls)

/-- A compiler makes its next state and asks it for some things. -/
def Linker.Opens (L : Linker σ) (c : σ) (qs : List Request) (c' : σ) : Prop :=
  L.Ready c ∧ ∃ address c₁, Compiler.create c = (some address, c₁) ∧
    Compiler.Asks (L.size c) c₁ qs c'

/-- What becomes of a source file. -/
structure SourceFile where
  /-- What the compiler says about it. -/
  messages : List String
  failed : Bool
  /-- The text that it amounts to. -/
  text : String

/-- A translator that takes source files. An object stands for the source that it was written from:
with the code of one text and the same names, nothing tells two states apart. -/
structure SourceTranslator (σ : Type) [Compiler σ] extends Translator σ where
  /-- What becomes of a file under some settings, if it is a source. -/
  source? : List Request → FileTree → String → Option SourceFile
  exists_of_source : ∀ {settings files path t}, source? settings files path = some t →
    files.exists? path = true
  /-- A source is compiled under the settings that the state was told. -/
  sources : ∀ {c c' qs files path t}, toLinker.Opens c qs c' → Contains c' (size c) "" →
    source? (qs.filter Request.isSetting) files path = some t →
    ∃ c'', Compiler.answer (size c) (.addFile path) files c' =
        (⟨t.messages, t.failed, none⟩, files, c'') ∧
      (t.failed = false → (translate t.text).failed = false ∧ Contains c'' (size c) t.text ∧
        (holds c'' (size c)).registered = (holds c' (size c)).registered)
  /-- Nothing tells two compilers apart, as long as the states below a number are only asked for
  names and given up. -/
  Alike : Nat → σ → σ → Prop
  alike_refl : ∀ k c, Alike k c c
  alike_create : ∀ {k c c'}, Alike k c c' →
    (Compiler.create c).1 = (Compiler.create c').1 ∧
      Alike k (Compiler.create c).2 (Compiler.create c').2
  alike_answer : ∀ {k c c' n q} (files), Alike k c c' →
    k ≤ n ∨ (∃ name, q = .findSymbol name) ∨ q = .delete →
    (Compiler.answer n q files c).1 = (Compiler.answer n q files c').1 ∧
      (Compiler.answer n q files c).2.1 = (Compiler.answer n q files c').2.1 ∧
      Alike k (Compiler.answer n q files c).2.2 (Compiler.answer n q files c').2.2
  alike_routine : ∀ {k c c'}, Alike k c c' →
    (Compiler.routine? c : Address → Option Routine) = Compiler.routine? c'
  alike_reach : ∀ {k c c'}, Alike k c c' →
    (Compiler.reach? c : Nat → String → Option Address) = Compiler.reach? c'
  /-- A state is told by its text and by the names that it knows. -/
  alike_text : ∀ {c₀ c₀' c c' qs qs' text}, Alike (size c₀) c₀ c₀' → size c₀' = size c₀ →
    toLinker.Opens c₀ qs c → toLinker.Opens c₀' qs' c' →
    Contains c (size c₀) text → Contains c' (size c₀) text →
    (holds c (size c₀)).registered = (holds c' (size c₀)).registered → Alike (size c₀ + 1) c c'

namespace SourceTranslator

variable (T : SourceTranslator σ)

/-- The engine sees the same in two worlds, and their compilers are alike. -/
structure Abreast (k : Nat) (w w' : World σ) : Prop where
  surface : ∀ c, w.surface c = w'.surface c
  compiler : T.Alike k w.compiler w'.compiler
  made : k ≤ w.made

/-- Computations keep two worlds abreast. Nothing is said of one world. -/
def abreast (k : Nat) : Attempt.Law (World σ) where
  leads _ _ := True
  alike := T.Abreast k
  refl _ := trivial
  trans _ _ := trivial

variable {T} {k : Nat} {w w' : World σ}

namespace Abreast

theorem refl (T : SourceTranslator σ) (hk : k ≤ w.made) : T.Abreast k w w :=
  ⟨fun _ => rfl, T.alike_refl k w.compiler, hk⟩

theorem files (h : T.Abreast k w w') : w.files = w'.files := by
  have hsame := congrArg World.files (h.surface w.compiler)
  exact hsame

theorem linkage (h : T.Abreast k w w') : w.linkage = w'.linkage := by
  have hsame := congrArg World.linkage (h.surface w.compiler)
  exact hsame

theorem made_eq (h : T.Abreast k w w') : w.made = w'.made := by
  have hsame := congrArg World.made (h.surface w.compiler)
  exact hsame

/-- What a move of the engine changes is the same in both worlds again. -/
theorem change (h : T.Abreast k w w') {c c' : σ} {made made' : Nat} {calls calls' : Array Call}
    {files files' : FileTree} {linkage linkage' : Linkage} (hc : T.Alike k c c') (hk : k ≤ made)
    (hmade : made = made') (hfiles : files = files') (hlinkage : linkage = linkage') :
    T.Abreast k
      { w with compiler := c, made := made, calls := calls, files := files, linkage := linkage }
      { w' with compiler := c', made := made', calls := calls', files := files',
                linkage := linkage' } where
  surface d := by
    have hsame := h.surface d
    simp only [World.surface, World.mk.injEq] at hsame ⊢
    exact ⟨trivial, hmade, trivial, hfiles, hlinkage, hsame.2.2.2.2.2⟩
  compiler := hc
  made := hk

end Abreast

/-- The moves of the engine keep two worlds abreast. Everything may be asked of the states from a
number on. -/
theorem abreast_rules (T : SourceTranslator σ) (k : Nat) : World.Rules (T.abreast k) (k ≤ ·) where
  surface h := h.surface
  prints text :=
    { leads := fun _ => trivial
      alike := fun h => ⟨rfl, h.surface, h.compiler, h.made⟩ }
  resolve name := by
    refine ⟨fun _ => trivial, fun {w w'} h => ?_⟩
    have hw : T.Abreast k w w' := h
    rw [Engine.resolve_apply, Engine.resolve_apply, ← hw.linkage]
    exact ⟨rfl, hw.change hw.compiler hw.made hw.made_eq hw.files rfl⟩
  create mode unitName := by
    refine ⟨fun _ => trivial, fun {w w'} h => ?_⟩
    obtain ⟨haddress, hafter⟩ := T.alike_create h.compiler
    unfold Session.create
    rcases hcreate : Compiler.create w.compiler with ⟨_ | address, c⟩
    · rcases hcreate' : Compiler.create w'.compiler with ⟨_ | address', c'⟩
      · rw [hcreate, hcreate'] at hafter
        exact ⟨rfl, h.surface, hafter, h.made⟩
      · rw [hcreate, hcreate'] at haddress
        exact absurd haddress (by simp)
    · rcases hcreate' : Compiler.create w'.compiler with ⟨_ | address', c'⟩
      · rw [hcreate, hcreate'] at haddress
        exact absurd haddress (by simp)
      · rw [hcreate, hcreate'] at haddress hafter
        obtain rfl := Option.some.inj haddress
        dsimp only
        rw [← h.made_eq]
        exact ⟨rfl, h.change hafter (h.made.trans (Nat.le_succ _)) rfl h.files h.linkage⟩
  fresh h := h.made
  ask _ _ _ := trivial
  ask_alike {w w' n q} h hq := by
    obtain ⟨hreply, hfiles, hafter⟩ := T.alike_answer w.files h.compiler hq
    have hw : T.Abreast k w w' := h
    unfold World.ask
    rw [← hw.files]
    exact ⟨hreply, hw.change hafter hw.made hw.made_eq hfiles hw.linkage⟩

end SourceTranslator

end LiveC
