import LiveC.Flags.Run
import LiveC.Module.Run
import LiveC.Proofs.Repl.Replacement
import Mathlib.Algebra.BigOperators.Group.List.Basic
import Mathlib.Algebra.Order.Group.Multiset
/-!
# Operations of the engine

A user of the engine holds modules that were imported and interactive sessions, and goes on with
operations: writing objects, importing, running and dropping modules, running files, texts and
compilations, and entering lines. `perform_tended` is the account of one operation: the states in
use are those of what the user holds, and those that compiled code left open. `play_tended` is the
account of many. When the user gives everything up at the end, every state was deleted once and not
used afterwards, unless it was lent to compiled code (`states_deleted`).
-/

namespace LiveC

open InSession

variable {σ α : Type}

namespace Engine

/-- What a user of the engine holds. -/
structure Holdings where
  modules : List Module
  repls : List Repl

namespace Holdings

/-- Nothing is held yet. -/
def empty : Holdings := ⟨[], []⟩

/-- The states of what is held. -/
def states (h : Holdings) : Multiset Nat :=
  (h.modules.map fun m => {m.session.serial}).sum + (h.repls.map Repl.state).sum

variable {h : Holdings}

/-- A module that is held, apart from the others. -/
theorem states_module {place : Nat} {m : Module} (hm : h.modules[place]? = some m) :
    h.states = { h with modules := h.modules.eraseIdx place }.states + {m.session.serial} := by
  obtain ⟨hlt, rfl⟩ := List.getElem?_eq_some_iff.1 hm
  have hperm := (List.getElem_cons_eraseIdx_perm hlt).map
    fun m : Module => ({m.session.serial} : Multiset Nat)
  rw [states, states, ← hperm.sum_eq, List.map_cons, List.sum_cons]
  exact (add_assoc _ _ _).trans (add_comm _ _)

/-- An interactive session that is held, apart from the others. -/
theorem states_repl {place : Nat} {r : Repl} (hr : h.repls[place]? = some r) :
    h.states = { h with repls := h.repls.eraseIdx place }.states + r.state := by
  obtain ⟨hlt, rfl⟩ := List.getElem?_eq_some_iff.1 hr
  have hperm := (List.getElem_cons_eraseIdx_perm hlt).map Repl.state
  rw [states, states, ← hperm.sum_eq, List.map_cons, List.sum_cons,
    add_comm (Repl.state _), add_assoc]

theorem states_set {place : Nat} {r r' : Repl} (hr : h.repls[place]? = some r) :
    { h with repls := h.repls.set place r' }.states =
      { h with repls := h.repls.eraseIdx place }.states + r'.state := by
  obtain ⟨hlt, rfl⟩ := List.getElem?_eq_some_iff.1 hr
  have hperm := (List.set_perm_cons_eraseIdx hlt r').map Repl.state
  rw [states, states, hperm.sum_eq, List.map_cons, List.sum_cons, add_comm r'.state, add_assoc]

theorem states_cons_module (m : Module) (h : Holdings) :
    { h with modules := m :: h.modules }.states = h.states + {m.session.serial} := by
  rw [states, states, List.map_cons, List.sum_cons]
  exact (add_assoc _ _ _).trans (add_comm _ _)

theorem states_start (h : Holdings) :
    { h with repls := .start :: h.repls }.states = h.states := by
  rw [states, states, List.map_cons, List.sum_cons]
  exact congrArg _ (Multiset.zero_add _)

end Holdings

/-- Something that the engine is asked to do. What is held is named by its place. -/
inductive Operation
  | writeObject (unitName source object : String)
  | importModule (path : String)
  | runModule (place : Nat) (args : List String)
  | findSymbol (place : Nat) (name : String)
  | dropModule (place : Nat)
  | runFile (path : String) (args : List String)
  | runInline (code : String) (args : List String)
  | runFlags (flags : Flags) (args : List String)
  | startRepl
  | eval (place : Nat) (line : String)
  | reset (place : Nat)
  | dropRepl (place : Nat)

/-- The states lent to compiled code by an operation, told by its calls: those linked while compiled
code was running. An operation that builds what it runs links that itself, before everything else.
-/
def Operation.lent : Operation → List Call → List Nat
  | runModule _ _, cs => Call.linkedStates cs
  | runFile _ _, cs | runInline _ _, cs | runFlags _ _, cs | eval _ _, cs =>
    (Call.linkedStates cs).tail
  | _, _ => []

/-! ## Accounts -/

/-- The account of a piece of work: the states in use before and after it, and those that compiled
code left open, which are among those lent to it. -/
def Tended (w : World σ) (live : Multiset Nat) (lent : List Call → List Nat) (w' : World σ)
    (live' : Multiset Nat) : Prop :=
  ∃ cs left, w.Tends live cs w' (left + live') ∧ ∀ n ∈ left, n ∈ lent cs

namespace Tended

variable {w w' : World σ} {live live' : Multiset Nat} {lent : List Call → List Nat}

theorem frame (h : Tended w live lent w' live') (others : Multiset Nat) :
    Tended w (others + live) lent w' (others + live') := by
  obtain ⟨cs, left, htends, hleft⟩ := h
  refine ⟨cs, left, ?_, hleft⟩
  rw [← Multiset.add_assoc, Multiset.add_comm left others, Multiset.add_assoc]
  exact htends.frame others

theorem of_tends {cs : List Call} (h : w.Tends live cs w' live') (lent : List Call → List Nat) :
    Tended w live lent w' live' := ⟨cs, 0, by rwa [Multiset.zero_add], by simp⟩

theorem refl (w : World σ) (live : Multiset Nat) (lent : List Call → List Nat) :
    Tended w live lent w live := of_tends (.refl w live) lent

/-- Work that begins and ends with no state in use, beside others that are. -/
theorem beside (h : Tended w 0 lent w' 0) (others : Multiset Nat) :
    Tended w others lent w' others := by
  have hframe := h.frame others
  rwa [Multiset.add_zero] at hframe

/-- The work on one of the interactive sessions held. -/
theorem repl {h : Holdings} {place : Nat} {r r' : Repl} (hr : h.repls[place]? = some r)
    (ht : Tended w r.state lent w' r'.state) :
    Tended w h.states lent w' { h with repls := h.repls.set place r' }.states := by
  rw [Holdings.states_repl hr, Holdings.states_set hr]
  exact ht.frame _

/-- The work on one of the modules held, which stays. -/
theorem module {h : Holdings} {place : Nat} {m : Module} (hm : h.modules[place]? = some m)
    (ht : Tended w {m.session.serial} lent w' {m.session.serial}) :
    Tended w h.states lent w' h.states := by
  rw [Holdings.states_module hm]
  exact ht.frame _

end Tended

/-- A computation that gives up every session that it makes. The first state that it links is its
own, and the others are lent. -/
def TendsAll (x : Attempt (World σ) α) : Prop :=
  ∀ w, Tended w 0 (fun cs => (Call.linkedStates cs).tail) (x w).2 0

theorem TendsAll.fail (e : Failure) : TendsAll (.fail e : Attempt (World σ) α) := fun w =>
  .refl w 0 _

theorem TendsAll.of_leavesNone {x : Attempt (World σ) α} (h : LeavesNone x) : TendsAll x := by
  intro w
  obtain ⟨cs, hcs, -⟩ := Leaves.none_iff.1 h w
  exact .of_tends hcs.tends _

/-- Work on one thing after the other, each of which has states in use that are not in use after it.
-/
theorem foldl_tends {β : Type} {f : World σ → β → World σ} (states : β → Multiset Nat)
    (hf : ∀ b (w : World σ), ∃ cs, w.Tends (states b) cs (f w b) 0) (l : List β) (w : World σ) :
    ∃ cs, w.Tends (l.map states).sum cs (l.foldl f w) 0 := by
  induction l generalizing w with
  | nil => exact ⟨[], .refl w 0⟩
  | cons b l ih =>
    obtain ⟨cs, hcs⟩ := hf b w
    obtain ⟨cs', hcs'⟩ := ih (f w b)
    rw [List.map_cons, List.sum_cons, add_comm]
    exact ⟨cs ++ cs', (hcs.sparing _).trans hcs'⟩

variable [Compiler σ]

/-- What an operation does. One that names a place where nothing is held does nothing. -/
def perform : Operation → Holdings × World σ → Holdings × World σ
  | .writeObject unitName source object, (h, w) =>
    (h, (Engine.writeObject unitName source object w).2)
  | .importModule path, (h, w) =>
    match Engine.importModule path w with
    | (.ok m, w) => ({ h with modules := m :: h.modules }, w)
    | (.error _, w) => (h, w)
  | .runModule place args, (h, w) =>
    (h, h.modules[place]?.elim w fun m => (Engine.runModule m args w).2)
  | .findSymbol place name, (h, w) =>
    (h, h.modules[place]?.elim w fun m => (symbolIn m name w).2)
  | .dropModule place, (h, w) =>
    match h.modules[place]? with
    | none => (h, w)
    | some m => ({ h with modules := h.modules.eraseIdx place }, (release m w).2)
  | .runFile path args, (h, w) => (h, (Engine.runFile path args w).2)
  | .runInline code args, (h, w) => (h, (Engine.runInline code args w).2)
  | .runFlags flags args, (h, w) => (h, (Engine.runFlags flags args w).2)
  | .startRepl, (h, w) => ({ h with repls := .start :: h.repls }, w)
  | .eval place line, (h, w) =>
    match h.repls[place]? with
    | none => (h, w)
    | some r => ({ h with repls := h.repls.set place (Repl.eval line (r, w)).2.1 },
        (Repl.eval line (r, w)).2.2)
  | .reset place, (h, w) =>
    match h.repls[place]? with
    | none => (h, w)
    | some r => ({ h with repls := h.repls.set place (Repl.reset (r, w)).2.1 },
        (Repl.reset (r, w)).2.2)
  | .dropRepl place, (h, w) =>
    match h.repls[place]? with
    | none => (h, w)
    | some r => ({ h with repls := h.repls.eraseIdx place }, (Repl.dropSession (r, w)).2.2)

/-- Operations, one after the other: the states lent to compiled code, and what is left. -/
def play : List Operation → Holdings × World σ → List Nat × (Holdings × World σ)
  | [], p => ([], p)
  | op :: ops, p =>
    let p' := perform op p
    let (lent, p'') := play ops p'
    (op.lent (p.2.since p'.2) ++ lent, p'')

/-- Give up everything that is held. -/
def giveUp (h : Holdings) (w : World σ) : World σ :=
  h.repls.foldl (fun w r => (Repl.dropSession (r, w)).2.2)
    (h.modules.foldl (fun w m => (release m w).2) w)

/-! ## The account of one operation -/

/-- The entry of a session is run: the code may leave open what it imported. -/
theorem runModule_tended (m : Module) (args : List String) (w : World σ) :
    Tended w {m.session.serial} Call.linkedStates (Engine.runModule m args w).2
      {m.session.serial} := by
  obtain ⟨t, cs, left, -, -, htends, hleft⟩ :=
    Execution.runEntry_tends m.session Execution.mainEntry m.path args w
  refine ⟨_, left, htends, fun n hn => ?_⟩
  rw [Call.linkedStates_append]
  exact List.mem_append_right _ (hleft n hn)

/-- A session is made for a program, and given up after its run. -/
theorem TendsAll.program {x : Attempt (World σ) α} {session : α → Session}
    (hx : Leaves (fun a => some (session a).serial) x) (name : α → String) (args : List String) :
    TendsAll (x >>= fun a => (Execution.runEntry (session a) Execution.mainEntry (name a)
      args).andThenAlways (session a).delete) := by
  intro w
  obtain ⟨cs, hcs, hlinked⟩ := hx w
  rcases h : x w with ⟨e | a, w₁⟩
  · rw [h] at hcs
    rw [Attempt.bind_of_error h]
    exact .of_tends hcs.tends _
  · rw [h] at hcs hlinked
    rw [Attempt.bind_of_ok h]
    have hmade : w.Tends 0 cs w₁ {(session a).serial} := hcs.tends
    have hown : Call.linkedStates cs = [(session a).serial] := hlinked
    obtain ⟨t, code, left, -, -, hrun, hleft⟩ :=
      Execution.runEntry_tends (session a) Execution.mainEntry (name a) args w₁
    obtain ⟨failed, hdelete⟩ := (session a).delete_tends
      (Execution.runEntry (session a) Execution.mainEntry (name a) args w₁).2
    refine ⟨_, left, (hmade.trans hrun).trans (hdelete.frame left), fun n hn => ?_⟩
    simp only [Call.linkedStates_append, hown, List.cons_append, List.nil_append, List.tail_cons]
    exact List.mem_append_left _ (List.mem_append_right _ (hleft n hn))

theorem runFile_tendsAll (path : String) (args : List String) :
    TendsAll (runFile path args : Attempt (World σ) RunResult) :=
  .program (importModule_leaves path) Module.path args

theorem buildAndRun_tendsAll {P : Request → Prop} {load : InSession σ Unit}
    (hload : AsksOnly P load) (hlink : ¬P .relocate) (hdelete : ¬P .delete) (unitName : String)
    (args : List String) : TendsAll (buildAndRun unitName load args) :=
  .program (build_leaves hload hlink hdelete unitName) (fun _ => unitName) args

theorem runInline_tendsAll (code : String) (args : List String) :
    TendsAll (runInline code args : Attempt (World σ) RunResult) := by
  unfold runInline
  split
  · exact .fail _
  · next source _ =>
    exact buildAndRun_tendsAll (P := (· = .compile source)) (.demandWith _ rfl) (by simp) (by simp)
      inlineUnit args

theorem writeProgram_leaves (f : Flags) (program object : String) :
    LeavesNone (writeProgram f program object : Attempt (World σ) RunResult) := by
  have hbody : AsksOnly (fun q => (Prepares q ∨ Puts q) ∨ q = .writeFile object) (do
      InSession.prepare
      f.apply
      InSession.writeFile object : InSession σ Unit) :=
    (prepare_asksOnly.mono fun _ h => .inl (.inl h)).bind fun _ =>
      ((apply_asksOnly f).mono fun _ h => .inl (.inr h)).bind fun _ =>
        .demandWith object (.inr rfl)
  have hleaves := (Session.opened_delete_leaves hbody (by simp [Prepares, Puts])
    (by simp [Prepares, Puts]) .object program).bind fun _ => Leaves.pure (RunResult.exited 0)
  rwa [Attempt.bind_assoc] at hleaves

theorem runFlags_tendsAll (f : Flags) (args : List String) :
    TendsAll (runFlags f args : Attempt (World σ) RunResult) := by
  unfold runFlags
  split
  · exact .fail _
  · next program _ =>
    split
    · split
      · exact .fail _
      · exact .of_leavesNone (writeProgram_leaves f program _)
    · split
      · exact .fail _
      · exact buildAndRun_tendsAll (load_asksOnly f) (by simp [Puts]) (by simp [Puts]) program args

/-- The account of an operation. What is held and not worked on stays as it is. -/
theorem perform_tended (op : Operation) (h : Holdings) (w : World σ) :
    Tended w h.states op.lent (perform op (h, w)).2 (perform op (h, w)).1.states := by
  cases op with
  | writeObject unitName source object =>
    obtain ⟨cs, hcs, -⟩ := Leaves.none_iff.1 (writeObject_leaves unitName source object) w
    have htends : w.Tends 0 cs (Engine.writeObject unitName source object w).2 0 := hcs.tends
    exact (Tended.of_tends htends _).beside h.states
  | importModule path =>
    obtain ⟨cs, hcs, -⟩ := importModule_leaves path w
    rcases hrun : Engine.importModule path w with ⟨e | m, w'⟩
    · rw [hrun] at hcs
      rw [perform, hrun]
      exact (Tended.of_tends hcs.tends _).beside h.states
    · rw [hrun] at hcs
      rw [perform, hrun, Holdings.states_cons_module]
      exact .of_tends (hcs.tends.beside h.states) _
  | runModule place args =>
    cases hm : h.modules[place]? with
    | none =>
      rw [perform, hm]
      exact .refl w _ _
    | some m =>
      rw [perform, hm]
      exact (runModule_tended m args w).module hm
  | findSymbol place name =>
    cases hm : h.modules[place]? with
    | none =>
      rw [perform, hm]
      exact .refl w _ _
    | some m =>
      obtain ⟨t, -, -, htends⟩ := m.session.find_tends name w
      rw [perform, hm]
      exact (Tended.of_tends htends _).module hm
  | dropModule place =>
    cases hm : h.modules[place]? with
    | none =>
      simp only [perform, hm]
      exact .refl w _ _
    | some m =>
      obtain ⟨failed, htends⟩ := m.session.delete_tends w
      simp only [perform, hm]
      rw [Holdings.states_module hm]
      exact .of_tends (htends.sparing _) _
  | runFile path args => exact (runFile_tendsAll path args w).beside h.states
  | runInline code args => exact (runInline_tendsAll code args w).beside h.states
  | runFlags flags args => exact (runFlags_tendsAll flags args w).beside h.states
  | startRepl =>
    rw [perform, Holdings.states_start]
    exact .refl w _ _
  | eval place line =>
    cases hr : h.repls[place]? with
    | none =>
      simp only [perform, hr]
      exact .refl w _ _
    | some r =>
      simp only [perform, hr]
      exact Tended.repl hr (Repl.eval_tends line r w)
  | reset place =>
    cases hr : h.repls[place]? with
    | none =>
      simp only [perform, hr]
      exact .refl w _ _
    | some r =>
      obtain ⟨failed, htends⟩ := r.dropped_tends w
      simp only [perform, hr, Repl.reset_apply]
      exact (Tended.of_tends htends _).repl hr
  | dropRepl place =>
    cases hr : h.repls[place]? with
    | none =>
      simp only [perform, hr]
      exact .refl w _ _
    | some r =>
      obtain ⟨failed, htends⟩ := r.dropped_tends w
      simp only [perform, hr, Repl.dropSession_apply]
      rw [Holdings.states_repl hr]
      exact .of_tends (htends.sparing _) _

/-! ## The account of many operations -/

/-- When everything is given up, no state of it is in use. -/
theorem giveUp_tends (h : Holdings) (w : World σ) :
    ∃ cs, w.Tends h.states cs (giveUp h w) 0 := by
  have hmodule (m : Module) (w : World σ) :
      ∃ cs, w.Tends {m.session.serial} cs (release m w).2 0 := by
    obtain ⟨failed, htends⟩ := m.session.delete_tends w
    exact ⟨_, htends⟩
  have hrepl (r : Repl) (w : World σ) :
      ∃ cs, w.Tends r.state cs (Repl.dropSession (r, w)).2.2 0 := by
    obtain ⟨failed, htends⟩ := r.dropped_tends w
    rw [Repl.dropSession_apply]
    exact ⟨_, htends⟩
  obtain ⟨cs, hmodules⟩ := foldl_tends _ hmodule h.modules w
  obtain ⟨cs', hrepls⟩ :=
    foldl_tends _ hrepl h.repls (h.modules.foldl (fun w m => (release m w).2) w)
  rw [Holdings.states, add_comm]
  exact ⟨cs ++ cs', (hmodules.sparing _).trans hrepls⟩

/-- The account of operations, one after the other. -/
theorem play_tended (ops : List Operation) (h : Holdings) (w : World σ) :
    Tended w h.states (fun _ => (play ops (h, w)).1) (play ops (h, w)).2.2
      (play ops (h, w)).2.1.states := by
  induction ops generalizing h w with
  | nil => exact .refl w _ _
  | cons op ops ih =>
    obtain ⟨cs, left, htends, hleft⟩ := perform_tended op h w
    obtain ⟨cs', left', htends', hleft'⟩ := ih (perform op (h, w)).1 (perform op (h, w)).2
    refine ⟨cs ++ cs', left + left', ?_, fun n hn => ?_⟩
    · rw [add_assoc]
      exact htends.trans (htends'.frame left)
    · rcases Multiset.mem_add.1 hn with hn | hn
      · have hlent : n ∈ op.lent (w.since (perform op (h, w)).2) := by
          rw [htends.adds.since]
          exact hleft n hn
        exact List.mem_append_left _ hlent
      · exact List.mem_append_right _ (hleft' n hn)

/-- The operations of a user who holds nothing before them, and gives everything up after them. -/
def finish (ops : List Operation) (w : World σ) : World σ :=
  giveUp (play ops (.empty, w)).2.1 (play ops (.empty, w)).2.2

/-- What becomes of the states of the compiler during the operations of a user. -/
structure Tidy (ops : List Operation) (w : World σ) : Prop where
  /-- In the end each state that was made was deleted once, after everything else that it was asked
  for, unless it was lent to compiled code. -/
  deleted : ∀ n, .created n ∈ w.since (finish ops w) → n ∉ (play ops (.empty, w)).1 →
    Call.DeletedOnce (w.since (finish ops w)) n
  /-- An interactive session that builds a new unit has the old one's state deleted between the link
  of the new one and the run of its entry; otherwise it leaves the old state alone. -/
  replaced : ∀ r ∈ (play ops (.empty, w)).2.1.repls, ∀ line, Repl.Replaces r
    ((play ops (.empty, w)).2.2.since (Repl.eval line (r, (play ops (.empty, w)).2.2)).2.2)
  /-- A build deletes the state that does not link before it makes another one. -/
  built : ∀ (w : World σ) unitName (load : InSession σ Unit), AsksOnly Puts load →
    Call.OneAtATime (w.since (build unitName load w).2)
  /-- An import deletes the state that writes the object before it makes that of the code. -/
  imported : ∀ (w : World σ) path, Call.OneAtATime (w.since (importModule path w).2)

/-- **Every state of the compiler is deleted once**, and not used afterwards, whatever the compiler
answers, and whichever operations there are. -/
theorem play_tidy (ops : List Operation) (w : World σ) : Tidy ops w := by
  obtain ⟨cs, left, hplayed, hleft⟩ := play_tended ops .empty w
  obtain ⟨cs', hgiven⟩ := giveUp_tends (play ops (.empty, w)).2.1 (play ops (.empty, w)).2.2
  have hplayed : w.Tends 0 cs (play ops (.empty, w)).2.2
      (left + (play ops (.empty, w)).2.1.states) := hplayed
  have hsound : Custody.Sound ⟨w.made, 0⟩ := .empty w.made
  refine ⟨fun n hn hlent => ?_, fun r hr line => ?_, fun w unitName load hload => ?_,
    fun w path => ?_⟩
  · have hall : w.Tends 0 (cs ++ cs') (finish ops w) (left + 0) :=
      hplayed.trans (hgiven.frame left)
    rw [hall.adds.since] at hn ⊢
    refine Custody.deletedOnce hsound hall.follows hn fun hlive => hlent (hleft n ?_)
    simpa using hlive
  · refine Repl.eval_replaces line fun n hn => (hsound.follow hplayed.follows).made n ?_
    obtain ⟨place, hplace⟩ := List.mem_iff_getElem?.1 hr
    rw [Holdings.states_repl hplace]
    exact Multiset.mem_add.2 (.inr (Multiset.mem_add.2 (.inr hn)))
  · obtain ⟨cs, hcs⟩ := build_visited hload (by simp [Puts]) unitName w
    rw [hcs.adds.since]
    exact hcs.visits.oneAtATime
  · obtain ⟨cs, hcs, -⟩ := importModule_leaves path w
    rw [hcs.adds.since]
    exact hcs.visits.oneAtATime

end Engine

end LiveC
