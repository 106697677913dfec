import LiveC.Proofs.Session.Linking
import LiveC.Proofs.Symbol.Resolving
/-!
# What a build fails with

A build goes through few computations that can fail, and each of them has its own failures: the
compiler does not start, something that was asked of it fails, or a text or an address cannot be
passed on to it (`Failure.OfBuild`). What `load` fails with comes on top, and nothing else does
(`Engine.build_failsWith`).
-/

namespace LiveC

variable {S T σ α β : Type} {P : Failure → Prop}

/-! ## Attempts and their failures -/

namespace Attempt

/-- Whatever an attempt fails with satisfies `P`. -/
def FailsWith (P : Failure → Prop) (x : Attempt S α) : Prop := ∀ s e, (x s).1 = .error e → P e

namespace FailsWith

variable {x : Attempt S α} {f : α → Attempt S β}

theorem of_ok (h : ∀ s, ∃ a, (x s).1 = .ok a) : FailsWith P x := by
  intro s e he
  obtain ⟨a, ha⟩ := h s
  exact absurd (ha.symm.trans he) (by simp)

theorem pure (a : α) : FailsWith P (Pure.pure a : Attempt S α) := .of_ok fun _ => ⟨a, rfl⟩

theorem fail {e : Failure} (h : P e) : FailsWith P (.fail e : Attempt S α) := by
  intro s e' he
  exact Except.error.inj he ▸ h

/-- What follows an attempt only has to be looked at for the values that it gives. -/
theorem bind_of (hx : FailsWith P x) (hf : ∀ s a, (x s).1 = .ok a → FailsWith P (f a)) :
    FailsWith P (x >>= f) := by
  intro s e he
  rcases h : x s with ⟨e' | a, s'⟩
  · rw [bind_of_error h] at he
    obtain rfl := Except.error.inj he
    exact hx s e' (by rw [h])
  · rw [bind_of_ok h] at he
    exact hf s a (by rw [h]) s' e he

theorem bind (hx : FailsWith P x) (hf : ∀ a, FailsWith P (f a)) : FailsWith P (x >>= f) :=
  hx.bind_of fun _ a _ => hf a

theorem capture (x : Attempt S α) : FailsWith P x.capture := .of_ok fun _ => ⟨_, rfl⟩

theorem onSecond (hx : FailsWith P x) : FailsWith P (x.onSecond : Attempt (T × S) α) :=
  fun s => hx s.2

theorem each {l : List α} {g : α → Attempt S Unit} (h : ∀ a ∈ l, FailsWith P (g a)) :
    FailsWith P (each l g) := by
  induction l with
  | nil => exact .pure ()
  | cons a l ih => exact (h a (by simp)).bind fun _ => ih fun b hb => h b (by simp [hb])

end FailsWith

end Attempt

open Attempt

/-! ## The failures of a session -/

/-- What a session that is made, prepared and linked can fail with. -/
inductive Failure.OfBuild : Failure → Prop
  /-- The compiler does not start. -/
  | start (fault : StartFault) : OfBuild (.compilerStart fault)
  /-- Something that was asked of the compiler failed. -/
  | compilation (unitName : String) (messages : List String) :
      OfBuild (.compilation unitName messages)
  /-- The compiler complained about its options. -/
  | badOptions (messages : List String) : OfBuild (.invalidArgument (.badOptions messages))
  /-- A text cannot be passed on to the compiler. -/
  | interiorNul (text : String) : OfBuild (.invalidArgument (.interiorNul text))
  /-- A name has no address. -/
  | nullAddress (name : String) : OfBuild (.invalidArgument (.nullAddress name))
  /-- Only code in memory is linked. -/
  | notInMemory : OfBuild (.invalidArgument .notInMemory)

namespace InSession

theorem checkText_failsWith (text : String) :
    FailsWith Failure.OfBuild (checkText text : InSession σ Unit) := by
  unfold checkText
  split
  · exact .fail (.interiorNul text)
  · exact .pure ()

variable [Compiler σ]

theorem request_failsWith (r : Request) : FailsWith P (request r : InSession σ Reply) :=
  .of_ok fun _ => ⟨_, rfl⟩

theorem demand_failsWith (r : Request) :
    FailsWith Failure.OfBuild (demand r : InSession σ Unit) := by
  rintro ⟨s, w⟩ e he
  cases h : (w.ask s.serial r).1.failed with
  | false => simp [demand_of_done h] at he
  | true =>
    rw [demand_of_failed h] at he
    exact Except.error.inj he ▸ .compilation _ _

theorem demandWith_failsWith (text : String) (r : Request) :
    FailsWith Failure.OfBuild (demandWith text r : InSession σ Unit) :=
  (checkText_failsWith text).bind fun _ => demand_failsWith r

theorem setOptions_failsWith (options : String) :
    FailsWith Failure.OfBuild (setOptions options : InSession σ Unit) :=
  (checkText_failsWith options).bind fun _ => (request_failsWith _).bind fun _ =>
    FailsWith.bind (.of_ok fun _ => ⟨_, rfl⟩) fun messages => by
      split
      · exact .pure ()
      · exact .fail (.badOptions messages)

theorem define_failsWith (name : String) (value : Option String) :
    FailsWith Failure.OfBuild (define name value : InSession σ Unit) :=
  (checkText_failsWith name).bind fun _ =>
    FailsWith.bind (by cases value with
      | none => exact .pure ()
      | some text => exact checkText_failsWith text)
      fun _ => (request_failsWith _).bind fun _ => .pure ()

theorem addSymbol_failsWith (name : String) (address : Address) :
    FailsWith Failure.OfBuild (addSymbol name address : InSession σ Unit) := by
  unfold addSymbol
  split
  · exact .fail (.nullAddress name)
  · exact demandWith_failsWith name _

theorem relocate_failsWith : FailsWith Failure.OfBuild (relocate : InSession σ Unit) :=
  FailsWith.bind (.of_ok fun _ => ⟨_, rfl⟩) fun s => by
    split
    · exact .fail .notInMemory
    split
    · exact .pure ()
    · exact (demand_failsWith _).bind fun _ => .of_ok fun _ => ⟨_, rfl⟩

/-- A name that is only offered does not fail. -/
theorem offer_failsWith (warning : String → String → Warning) (name : String) (address : Address) :
    FailsWith P (offer warning name address : InSession σ Unit) :=
  (FailsWith.capture _).bind fun r => by
    cases r with
    | ok a => exact .pure ()
    | error e => exact FailsWith.onSecond (.of_ok fun _ => ⟨_, rfl⟩)

theorem prepare_failsWith : FailsWith Failure.OfBuild (prepare : InSession σ Unit) := by
  unfold prepare
  refine FailsWith.bind (.of_ok fun _ => ⟨_, rfl⟩) fun w => ?_
  refine FailsWith.bind (.of_ok fun _ => ⟨_, rfl⟩) fun s => ?_
  have hdirectory : FailsWith Failure.OfBuild
      (w.config.compilerDirectory.elim (pure ()) setLibraryDirectory : InSession σ Unit) := by
    cases w.config.compilerDirectory with
    | none => exact .pure ()
    | some path =>
      exact (checkText_failsWith path).bind fun _ => (request_failsWith _).bind fun _ => .pure ()
  refine hdirectory.bind fun _ => (setOptions_failsWith _).bind fun _ => ?_
  refine FailsWith.bind ?_ fun _ => ?_
  · exact FailsWith.bind (.of_ok fun _ => ⟨_, rfl⟩) fun _ =>
      FailsWith.bind (.of_ok fun _ => ⟨_, rfl⟩) fun _ => demand_failsWith _
  refine (FailsWith.each fun name _ => define_failsWith name none).bind fun _ => ?_
  refine (define_failsWith _ _).bind fun _ => ?_
  iterate 4
    refine (FailsWith.each fun path _ => demandWith_failsWith path _).bind fun _ => ?_
  split
  · rw [offerNames_eq]
    exact (FailsWith.each fun b _ => offer_failsWith _ _ _).bind fun _ =>
      FailsWith.bind (.of_ok fun _ => ⟨_, rfl⟩) fun _ =>
        FailsWith.each fun f _ => offer_failsWith _ _ _
  · exact .pure ()

end InSession

/-! ## The failures of a build -/

/-- A session that is made for a computation fails as the computation does, if the compiler starts.
-/
theorem Session.opened_failsWith [Compiler σ] {body : InSession σ α}
    (hstart : ∀ fault, P (.compilerStart fault)) (hbody : FailsWith P body) (mode : OutputMode)
    (unitName : String) : FailsWith P (opened mode unitName body) := by
  have hcreate : FailsWith P (create mode unitName : Attempt (World σ) Session) := by
    intro w e he
    unfold create at he
    split at he
    · exact Except.error.inj he ▸ hstart _
    · simp at he
  refine hcreate.bind fun s w e he => ?_
  unfold keeping at he
  rcases hrun : body (s, w) with ⟨e' | a, s', w'⟩
  · rw [hrun] at he
    obtain rfl := Except.error.inj he
    exact hbody (s, w) e' (by rw [hrun])
  · simp [hrun] at he

namespace Engine

open InSession

/-- Looking names up does not fail: those that are not found are a value. -/
theorem resolveAll_failsWith (names : List String) :
    FailsWith P (resolveAll names : Attempt (World σ) _) :=
  .of_ok fun w => by
    obtain ⟨k, h, -⟩ := resolveAll_apply names w
    exact ⟨_, by rw [h]⟩

variable [Compiler σ] {load : InSession σ Unit} {unitName : String}

theorem populate_failsWith (hload : FailsWith Failure.OfBuild load)
    (names : List (String × Address)) : FailsWith Failure.OfBuild (populate names load) :=
  prepare_failsWith.bind fun _ =>
    (FailsWith.each fun n _ => addSymbol_failsWith n.1 n.2).bind fun _ => hload

/-- The failure to link that a first attempt gives as a value. -/
theorem ofBuild_of_linkOnce {p p' : Session × World σ} {e : Failure}
    (h : linkOnce load p = (.ok (.error e), p')) : e.OfBuild := by
  obtain ⟨-, p₁, -, hlink⟩ := Attempt.bind_eq_ok h
  exact relocate_failsWith p₁ e (Except.ok.inj (Prod.mk.inj hlink).1)

theorem retry_failsWith (hload : FailsWith Failure.OfBuild load) {e : Failure} (he : e.OfBuild) :
    FailsWith Failure.OfBuild (retry unitName load e) := by
  unfold retry
  split
  · exact .fail he
  refine (resolveAll_failsWith _).bind fun found => ?_
  cases found with
  | none => exact .fail he
  | some names =>
    have hlink : FailsWith Failure.OfBuild (linkWith names load) :=
      (populate_failsWith hload names).bind fun _ => relocate_failsWith
    exact (Session.opened_failsWith .start hlink .memory unitName).bind fun r => .pure r.2

/-- **What a build fails with**, if no other failure comes of what is put into its session. -/
theorem build_failsWith (hload : FailsWith Failure.OfBuild load) (unitName : String) :
    FailsWith Failure.OfBuild (build unitName load) := by
  have honce : FailsWith Failure.OfBuild (linkOnce load) :=
    (populate_failsWith hload []).bind fun _ => .capture _
  refine (Session.opened_failsWith .start honce .memory unitName).bind_of fun w r hr => ?_
  obtain ⟨linked, session⟩ := r
  cases linked with
  | ok u => exact .pure session
  | error e =>
    rcases hopened : Session.opened .memory unitName (linkOnce load) w with ⟨r, w'⟩
    rw [hopened] at hr
    obtain rfl : r = .ok (.error e, session) := hr
    obtain ⟨s, w₁, -, hbody⟩ := Session.exists_of_opened hopened
    exact FailsWith.bind (.of_ok fun _ => ⟨_, rfl⟩) fun _ =>
      retry_failsWith hload (ofBuild_of_linkOnce hbody)

end Engine

end LiveC
