import LiveC.Proofs.Execution.Operations
import LiveC.Proofs.Session.Order
/-!
# The life of a state of the compiler

Compiled code, interactive sessions and all operations of the engine call the compiler in the order
of `Drives`. With the account of the states in use that gives the life of every state: its drive,
then the names that were looked up in it, if its code was linked, and then its deletion
(`Drives.life_of_created`). `play_ordered` says so of the states that are made by whatever
operations of a user, and what the drives have in common.
-/

namespace LiveC

open InSession

variable {σ α : Type} [Compiler σ]

/-! ## The life of a state -/

namespace Drive

omit [Compiler σ] in
theorem filter_calls_self (d : Drive) : d.calls.filter (Call.isAbout d.serial) = d.calls := by
  refine List.filter_eq_self.2 fun c hc => ?_
  rcases List.mem_cons.1 hc with rfl | hc
  · simp [Call.isAbout]
  · obtain ⟨x, -, rfl⟩ := List.mem_map.1 hc
    simp [Call.isAbout]

omit [Compiler σ] in
theorem filter_calls_of_ne (d : Drive) {n : Nat} (h : d.serial ≠ n) :
    d.calls.filter (Call.isAbout n) = [] := by
  refine List.filter_eq_nil_iff.2 fun c hc => ?_
  rcases List.mem_cons.1 hc with rfl | hc
  · simpa [Call.isAbout] using h
  · obtain ⟨x, -, rfl⟩ := List.mem_map.1 hc
    simpa [Call.isAbout] using h

/-- A drive makes a state, which is in use after it. -/
theorem Proper.follow_calls {settings : Config × Binding × Platform} {d : Drive}
    (hd : d.Proper σ settings) {c c' : Custody} {cs : List Call}
    (h : c.follow (d.calls ++ cs) = some c') :
    d.serial = c.made ∧ Custody.follow ⟨c.made + 1, c.made ::ₘ c.live⟩ cs = some c' := by
  rw [calls, List.cons_append, Custody.follow] at h
  obtain ⟨c₁, hstep, hrest⟩ := Option.bind_eq_some_iff.1 h
  rw [Custody.step] at hstep
  split at hstep
  · next hserial =>
    obtain rfl := Option.some.inj hstep
    have hcalls : Step.calls d.serial d.exchanges =
        Call.ofRequests d.serial (d.exchanges.map fun x => (x.1.request, x.2.failed)) := by
      rw [Step.calls, Call.ofRequests, List.map_map]
      rfl
    rw [Custody.follow_append, hcalls, Custody.follow_ofRequests (fun q hq => ?_)
      (by simp [hserial]), Option.bind_some, hserial] at hrest
    · exact ⟨hserial, hrest⟩
    · obtain ⟨x, hx, rfl⟩ := List.mem_map.1 hq
      exact hd.ne_delete hx
  · simp at hstep

/-- A drive that ends with the deletion of its state leaves no state in use. -/
theorem Proper.follow_ended {settings : Config × Binding × Platform} {d : Drive}
    (hd : d.Proper σ settings) {failed : Bool} {c c' : Custody} {cs : List Call}
    (h : c.follow (d.calls ++ .asked d.serial .delete failed :: cs) = some c') :
    d.serial = c.made ∧ Custody.follow ⟨c.made + 1, c.live⟩ cs = some c' := by
  obtain ⟨hserial, hrest⟩ := hd.follow_calls h
  rw [hserial] at hrest
  simpa [hserial, Custody.follow, Custody.step] using hrest

/-- What is asked of a state after its drive: names that are looked up, if the code was linked, and
then its deletion, unless the state is kept. -/
def Sequel (n : Nat) (linked kept : Prop) (cs : List Call) : Prop :=
  ∃ (finds : List (String × Bool)) (last : List Call),
    cs = finds.map (fun f => .asked n (.findSymbol f.1) f.2) ++ last ∧ (finds ≠ [] → linked) ∧
      (last = [] ∧ linked ∧ kept ∨ ∃ failed, last = [.asked n .delete failed])

namespace Sequel

variable {n : Nat} {linked kept : Prop} {cs : List Call}

omit [Compiler σ] in
theorem of_kept (hlinked : linked) (hkept : kept) : Sequel n linked kept [] :=
  ⟨[], [], rfl, fun _ => hlinked, .inl ⟨rfl, hlinked, hkept⟩⟩

omit [Compiler σ] in
theorem of_deleted (failed : Bool) : Sequel n linked kept [.asked n .delete failed] :=
  ⟨[], _, rfl, fun h => absurd rfl h, .inr ⟨failed, rfl⟩⟩

omit [Compiler σ] in
theorem found (hlinked : linked) (h : Sequel n linked kept cs) (name : String) (failed : Bool) :
    Sequel n linked kept (.asked n (.findSymbol name) failed :: cs) := by
  obtain ⟨finds, last, rfl, -, hlast⟩ := h
  exact ⟨(name, failed) :: finds, last, rfl, fun _ => hlinked, hlast⟩

omit [Compiler σ] in
theorem mono {kept' : Prop} (h : Sequel n linked kept cs) (hkept : kept → kept') :
    Sequel n linked kept' cs := by
  obtain ⟨finds, last, hcs, hfinds, hlast⟩ := h
  exact ⟨finds, last, hcs, hfinds, hlast.imp_left (And.imp_right (And.imp_right hkept))⟩

end Sequel

/-- The calls about a state: its drive and what comes after it. -/
structure Life (σ : Type) [Compiler σ] (d : Drive) (settings : Config × Binding × Platform)
    (n : Nat) (kept : Prop) (cs : List Call) : Prop where
  serial : d.serial = n
  proper : d.Proper σ settings
  calls : ∃ rest, cs = d.calls ++ rest ∧ Sequel n d.Linked kept rest

theorem Life.mono {settings : Config × Binding × Platform} {n : Nat} {kept kept' : Prop}
    {cs : List Call} {d : Drive} (h : Drive.Life σ d settings n kept cs) (hkept : kept → kept') :
    Drive.Life σ d settings n kept' cs := by
  obtain ⟨rest, hcs, hsequel⟩ := h.calls
  exact ⟨h.serial, h.proper, rest, hcs, hsequel.mono hkept⟩

end Drive

/-- A state that is asked for something is in use. -/
theorem Custody.follow_found {c c' : Custody} {cs : List Call} {m : Nat} {name : String}
    {failed : Bool} (h : c.follow (.asked m (.findSymbol name) failed :: cs) = some c') :
    m ∈ c.live ∧ c.follow cs = some c' := by
  obtain ⟨c₁, hstep, hrest⟩ := Option.bind_eq_some_iff.1 h
  rw [step_asked (by simp)] at hstep
  split at hstep
  · next hm =>
    obtain rfl := Option.some.inj hstep
    exact ⟨hm, hrest⟩
  · simp at hstep

theorem Custody.follow_deleted {c c' : Custody} {cs : List Call} {m : Nat} {failed : Bool}
    (h : c.follow (.asked m .delete failed :: cs) = some c') :
    m ∈ c.live ∧ Custody.follow ⟨c.made, c.live.erase m⟩ cs = some c' := by
  obtain ⟨c₁, hstep, hrest⟩ := Option.bind_eq_some_iff.1 h
  rw [step] at hstep
  split at hstep
  · next hm =>
    obtain rfl := Option.some.inj hstep
    exact ⟨hm, hrest⟩
  · simp at hstep

namespace Custody.Sound

variable {c : Custody}

/-- One more state is made, and is in use or not. -/
theorem created (hc : c.Sound) : Sound ⟨c.made + 1, c.made ::ₘ c.live⟩ :=
  have hstep : c.step (.created c.made) = some ⟨c.made + 1, c.made ::ₘ c.live⟩ := if_pos rfl
  hc.step hstep

theorem passed (hc : c.Sound) : Sound ⟨c.made + 1, c.live⟩ :=
  ⟨hc.nodup, fun n hn => Nat.lt_succ_of_lt (hc.made n hn)⟩

theorem deleted (hc : c.Sound) (m : Nat) : Sound ⟨c.made, c.live.erase m⟩ :=
  ⟨hc.nodup.erase m, fun n hn => hc.made n (Multiset.mem_of_mem_erase hn)⟩

end Custody.Sound

namespace Drives

open Drive

variable {settings : Config × Binding × Platform} {cs : List Call} {ds : List Drive}
  {c c' : Custody} {n : Nat}

/-- A state in use is looked into or deleted, and then not called any more. -/
theorem sequel {linked : Prop} (hlinked : linked) (h : Drives σ settings cs ds) (hc : c.Sound)
    (hfollow : c.follow cs = some c') (hlive : n ∈ c.live) :
    Sequel n linked (n ∈ c'.live) (cs.filter (Call.isAbout n)) := by
  induction h generalizing c with
  | nil =>
    obtain rfl := Option.some.inj hfollow
    exact .of_kept hlinked hlive
  | refused h ih => exact ih hc hfollow hlive
  | ended d hd failed h ih =>
    obtain ⟨hserial, hrest⟩ := hd.follow_ended hfollow
    have hne : d.serial ≠ n := fun e => Nat.lt_irrefl _ (hserial ▸ e ▸ hc.made n hlive)
    rw [List.filter_append, d.filter_calls_of_ne hne, List.nil_append,
      List.filter_cons_of_neg (by simpa [Call.isAbout] using hne)]
    exact ih hc.passed hrest hlive
  | linked d hd hlinked h ih =>
    obtain ⟨hserial, hrest⟩ := hd.follow_calls hfollow
    have hne : d.serial ≠ n := fun e => Nat.lt_irrefl _ (hserial ▸ e ▸ hc.made n hlive)
    rw [List.filter_append, d.filter_calls_of_ne hne, List.nil_append]
    exact ih hc.created hrest (Multiset.mem_cons_of_mem hlive)
  | found m name failed h ih =>
    obtain ⟨hm, hrest⟩ := Custody.follow_found hfollow
    by_cases hne : m = n
    · subst hne
      rw [List.filter_cons_of_pos (by simp [Call.isAbout])]
      exact (ih hc hrest hlive).found hlinked name failed
    · rw [List.filter_cons_of_neg (by simpa [Call.isAbout] using hne)]
      exact ih hc hrest hlive
  | deleted m failed h ih =>
    obtain ⟨hm, hrest⟩ := Custody.follow_deleted hfollow
    by_cases hne : m = n
    · subst hne
      rw [List.filter_cons_of_pos (by simp [Call.isAbout]),
        Custody.filter_isAbout_of_gone hrest (hc.made m hm) hc.nodup.notMem_erase]
      exact .of_deleted failed
    · rw [List.filter_cons_of_neg (by simpa [Call.isAbout] using hne)]
      exact ih (hc.deleted m) hrest ((Multiset.mem_erase_of_ne (Ne.symm hne)).2 hlive)

/-- **The life of a state that is made**: its drive, names that are looked up in it if its code was
linked, and its deletion. -/
theorem life_of_created (h : Drives σ settings cs ds) (hc : c.Sound)
    (hfollow : c.follow cs = some c') (hn : .created n ∈ cs) :
    ∃ d ∈ ds, Life σ d settings n (n ∈ c'.live) (cs.filter (Call.isAbout n)) := by
  have hle := Custody.made_le_of_created hfollow hn
  induction h generalizing c with
  | nil => simp at hn
  | refused h ih => exact ih hc hfollow (by simpa using hn) hle
  | @ended cs ds d hd failed h ih =>
    obtain ⟨hserial, hrest⟩ := hd.follow_ended hfollow
    rw [List.filter_append]
    by_cases hne : d.serial = n
    · subst hne
      have hgone : c.made ∉ c.live := fun hlive => Nat.lt_irrefl _ (hc.made _ hlive)
      rw [d.filter_calls_self, List.filter_cons_of_pos (by simp [Call.isAbout]), hserial,
        Custody.filter_isAbout_of_gone hrest (Nat.lt_succ_self _) hgone]
      exact ⟨d, List.mem_cons_self, hserial, hd, _, rfl, .of_deleted failed⟩
    · rw [d.filter_calls_of_ne hne, List.nil_append,
        List.filter_cons_of_neg (by simpa [Call.isAbout] using hne)]
      have hn' : .created n ∈ cs := by simpa [calls, Step.calls, Ne.symm hne] using hn
      obtain ⟨d', hd', hlife⟩ := ih hc.passed hrest hn' (Custody.made_le_of_created hrest hn')
      exact ⟨d', List.mem_cons_of_mem _ hd', hlife⟩
  | @linked cs ds d hd hlinked h ih =>
    obtain ⟨hserial, hrest⟩ := hd.follow_calls hfollow
    rw [List.filter_append]
    by_cases hne : d.serial = n
    · subst hne
      rw [d.filter_calls_self, hserial]
      exact ⟨d, List.mem_cons_self, hserial, hd, _, rfl,
        h.sequel hlinked hc.created hrest (Multiset.mem_cons_self _ _)⟩
    · rw [d.filter_calls_of_ne hne, List.nil_append]
      have hn' : .created n ∈ cs := by simpa [calls, Step.calls, Ne.symm hne] using hn
      obtain ⟨d', hd', hlife⟩ := ih hc.created hrest hn' (Custody.made_le_of_created hrest hn')
      exact ⟨d', List.mem_cons_of_mem _ hd', hlife⟩
  | found m name failed h ih =>
    obtain ⟨hm, hrest⟩ := Custody.follow_found hfollow
    have hne : m ≠ n := Nat.ne_of_lt (Nat.lt_of_lt_of_le (hc.made m hm) hle)
    rw [List.filter_cons_of_neg (by simpa [Call.isAbout] using hne)]
    exact ih hc hrest (by simpa using hn) hle
  | deleted m failed h ih =>
    obtain ⟨hm, hrest⟩ := Custody.follow_deleted hfollow
    have hne : m ≠ n := Nat.ne_of_lt (Nat.lt_of_lt_of_le (hc.made m hm) hle)
    rw [List.filter_cons_of_neg (by simpa [Call.isAbout] using hne)]
    exact ih (hc.deleted m) hrest (by simpa using hn) hle

end Drives

/-- The calls between two worlds are made of some drives. -/
def World.InOrder (w w' : World σ) : Prop := ∃ cs ds, w.Driven cs ds w'

namespace World.InOrder

variable {w w' w'' : World σ}

theorem refl (w : World σ) : w.InOrder w := ⟨[], [], .refl w⟩

theorem trans (h : w.InOrder w') (h' : w'.InOrder w'') : w.InOrder w'' := by
  obtain ⟨cs, ds, hcs⟩ := h
  obtain ⟨cs', ds', hcs'⟩ := h'
  exact ⟨_, _, hcs.trans hcs'⟩

theorem delete (s : Session) (w : World σ) : w.InOrder (s.delete w).2 := by
  obtain ⟨failed, h⟩ := s.delete_driven w
  exact ⟨_, _, h⟩

/-- Looking a name up asks for it at most. -/
theorem find (s : Session) (name : String) (w : World σ) :
    w.InOrder (s.inside (InSession.find name) w).2 := by
  by_cases h : (s.relocated && !hasNul name) = true
  · have hrun : s.inside (InSession.find name) w =
        (.ok (w.ask s.serial (.findSymbol name)).1.address,
          (w.ask s.serial (.findSymbol name)).2) := by
      rw [Session.inside, InSession.find, Attempt.bind_of_ok (x := session) rfl, if_pos h]
      rfl
    rw [hrun]
    exact ⟨[.asked s.serial (.findSymbol name) (w.ask s.serial (.findSymbol name)).1.failed], [],
      by simp [World.Adds], rfl, .found _ name _ .nil⟩
  · have hrun : s.inside (InSession.find name) w = (.ok none, w) := by
      rw [Session.inside, InSession.find, Attempt.bind_of_ok (x := session) rfl, if_neg h]
      rfl
    rw [hrun]
    exact .refl w

end World.InOrder

/-- A computation that calls the compiler in order. -/
def CallsInOrder (x : Attempt (World σ) α) : Prop := ∀ w : World σ, w.InOrder (x w).2

theorem Orderly.inOrder {known : List Failure} {x : Attempt (World σ) α} (hx : Orderly known x) :
    CallsInOrder x := fun w =>
  let ⟨cs, ds, h, _⟩ := hx w
  ⟨cs, ds, h⟩

/-! ## Compiled code -/

theorem Contract.importModule_orderly (path : String) :
    Orderly [] (importModule path : Attempt (World σ) (Option Module)) := by
  refine Orderly.state.bind fun w => ?_
  split
  · refine (Engine.importModule_orderly path).recover (fun m => .pure _) fun e => ?_
    have hcomplain : Orderly [e] (complain e : Attempt (World σ) Unit) :=
      .of_rest (fun _ => ⟨rfl, rfl⟩) (by simp [complain, Attempt.change])
    exact hcomplain.bind fun _ => .pure _
  · exact .pure none

/-- Compiled code calls the compiler in order. -/
theorem World.InOrder.lasting : World.Lasting (World.InOrder (σ := σ)) where
  rest h := by
    refine ⟨[], [], .rest h.calls ?_⟩
    simp only [World.settings, h.config, h.binding, h.linkage]
  trans := .trans
  imports path w := (Contract.importModule_orderly path).inOrder w
  finds := .find
  deletes := .delete

namespace Repl

theorem dropped_inOrder (r : Repl) (w : World σ) : w.InOrder (r.dropped w) := by
  unfold dropped
  cases r.session with
  | none => exact .refl w
  | some s => exact .delete s w

theorem execute_inOrder (f : Fragment) (r : Repl) (w : World σ) :
    w.InOrder (execute f (r, w)).2.2 := by
  by_cases hsize : codeLimit < (r.nextUnit f.text).utf8ByteSize
  · rw [execute_of_long hsize]
    exact .refl w
  have horderly : Orderly [] (Engine.build Code.unitName
      (InSession.compile (r.nextUnit f.text)) : Attempt (World σ) Session) :=
    Engine.build_orderly (.compile _) Code.unitName
  have hbuild := horderly.inOrder w
  rcases hb : Engine.build Code.unitName (InSession.compile (r.nextUnit f.text)) w with ⟨e | s, w₁⟩
  · rw [hb] at hbuild
    obtain ⟨result, h, -⟩ := execute_of_error hsize hb
    rw [h]
    exact hbuild
  · rw [hb] at hbuild
    obtain ⟨result, h, -⟩ := execute_eq_of_ok hsize hb
    rw [h]
    exact (hbuild.trans (r.dropped_inOrder w₁)).trans
      (Execution.runEntry_lasts World.InOrder.lasting s Code.entry Code.unitName [] _)

theorem eval_inOrder (line : String) (r : Repl) (w : World σ) :
    w.InOrder (eval line (r, w)).2.2 := by
  rcases eval_cases line r w with ⟨result, h, -⟩ | h | h
  · rw [h]
    exact .refl w
  · rw [h]
    exact .refl w
  · rw [h]
    exact execute_inOrder _ _ w

end Repl

/-! ## Operations -/

namespace Engine

open World

/-- A session is made for a program, and given up after its run. -/
theorem program_inOrder {x : Attempt (World σ) α} {session : α → Session} (hx : Orderly [] x)
    (name : α → String) (args : List String) :
    CallsInOrder (x >>= fun a => (Execution.runEntry (session a) Execution.mainEntry (name a)
      args).andThenAlways (session a).delete) := by
  intro w
  have hfirst := hx.inOrder w
  rcases h : x w with ⟨e | a, w₁⟩
  · rw [h] at hfirst
    rw [Attempt.bind_of_error h]
    exact hfirst
  · rw [h] at hfirst
    rw [Attempt.bind_of_ok h]
    exact (hfirst.trans (Execution.runEntry_lasts InOrder.lasting (session a) Execution.mainEntry
      (name a) args w₁)).trans (.delete (session a) _)

theorem writeProgram_orderly {known : List Failure} (f : Flags) (program object : String) :
    Orderly known (writeProgram f program object : Attempt (World σ) RunResult) := by
  have horderly : Orderly known (Session.opened .object program (do
      prepare
      f.apply
      writeFile object) >>= fun r => r.2.delete : Attempt (World σ) Unit) :=
    Session.opened_delete_orderly (.apply f) program object known
  have hall := horderly.bind fun _ => Orderly.pure (RunResult.exited 0)
  rwa [Attempt.bind_assoc] at hall

theorem runInline_inOrder (code : String) (args : List String) :
    CallsInOrder (runInline code args : Attempt (World σ) RunResult) := by
  unfold runInline
  split
  · exact fun w => .refl w
  · exact program_inOrder (build_orderly (.compile _) inlineUnit) (fun _ => inlineUnit) args

theorem runFlags_inOrder (f : Flags) (args : List String) :
    CallsInOrder (runFlags f args : Attempt (World σ) RunResult) := by
  unfold runFlags
  split
  · exact fun w => .refl w
  · next name _ =>
    split
    · split
      · exact fun w => .refl w
      · exact (writeProgram_orderly f name _ : Orderly [] _).inOrder
    · split
      · exact fun w => .refl w
      · exact program_inOrder (build_orderly (.load f) name) (fun _ => name) args

/-- **Every operation calls the compiler in order.** -/
theorem perform_inOrder (op : Operation) (h : Holdings) (w : World σ) :
    w.InOrder (perform op (h, w)).2 := by
  cases op with
  | writeObject unitName source object =>
    have hwrite : Orderly [] (Engine.writeObject unitName source object : Attempt (World σ) Unit) :=
      writeObject_orderly unitName source object
    exact hwrite.inOrder w
  | importModule path =>
    have horderly : Orderly [] (Engine.importModule path : Attempt (World σ) Module) :=
      importModule_orderly path
    have himport := horderly.inOrder w
    rw [perform]
    rcases hrun : Engine.importModule path w with ⟨e | m, w'⟩
    · rw [hrun] at himport
      exact himport
    · rw [hrun] at himport
      exact himport
  | runModule place args =>
    rw [perform]
    cases h.modules[place]? with
    | none => exact .refl w
    | some m => exact Execution.runEntry_lasts InOrder.lasting _ _ _ args w
  | findSymbol place name =>
    rw [perform]
    cases h.modules[place]? with
    | none => exact .refl w
    | some m => exact .find m.session name w
  | dropModule place =>
    rw [perform]
    cases h.modules[place]? with
    | none => exact .refl w
    | some m => exact .delete m.session w
  | runFile path args =>
    exact program_inOrder (importModule_orderly path) Module.path args w
  | runInline code args => exact runInline_inOrder code args w
  | runFlags flags args => exact runFlags_inOrder flags args w
  | startRepl => exact .refl w
  | eval place line =>
    rw [perform]
    cases h.repls[place]? with
    | none => exact .refl w
    | some r => exact r.eval_inOrder line w
  | reset place =>
    rw [perform]
    cases h.repls[place]? with
    | none => exact .refl w
    | some r =>
      dsimp only
      rw [Repl.reset_apply]
      exact r.dropped_inOrder w
  | dropRepl place =>
    rw [perform]
    cases h.repls[place]? with
    | none => exact .refl w
    | some r =>
      dsimp only
      rw [Repl.dropSession_apply]
      exact r.dropped_inOrder w

theorem foldl_inOrder {β : Type} {f : World σ → β → World σ}
    (hf : ∀ b (w : World σ), w.InOrder (f w b)) (l : List β) (w : World σ) :
    w.InOrder (l.foldl f w) := by
  induction l generalizing w with
  | nil => exact .refl w
  | cons b l ih => exact (hf b w).trans (ih (f w b))

theorem play_inOrder (ops : List Operation) (h : Holdings) (w : World σ) :
    w.InOrder (play ops (h, w)).2.2 := by
  induction ops generalizing h w with
  | nil => exact .refl w
  | cons op ops ih => exact (perform_inOrder op h w).trans (ih _ _)

theorem finish_inOrder (ops : List Operation) (w : World σ) : w.InOrder (finish ops w) := by
  refine (play_inOrder ops .empty w).trans ((foldl_inOrder (fun m w => ?_) _ _).trans
    (foldl_inOrder (fun r w => ?_) _ _))
  · exact .delete m.session w
  · rw [Repl.dropSession_apply]
    exact r.dropped_inOrder w

/-- What the operations of a user make of the states of the compiler. -/
structure Ordered (ops : List Operation) (w : World σ) : Prop where
  /-- Every state that is made goes through the script of its session. Then names are looked up in
  it if its code was linked, and it is deleted, unless it was lent to compiled code. -/
  lives : ∀ n, .created n ∈ w.since (finish ops w) → ∃ d : Drive,
    Drive.Life σ d w.settings n (n ∈ (play ops (.empty, w)).1)
      ((w.since (finish ops w)).filter (Call.isAbout n))
  /-- A session sets the output once, and stops at the first failure. What is offered to compiled
  code is neither. -/
  sessions : ∀ d : Drive, d.Proper σ w.settings → d.Strict w.settings
  /-- A build fails as one of its sessions does. -/
  built : ∀ unitName (load : InSession σ Unit), Loading load → Orderly [] (build unitName load)
  /-- An import fails as one of its sessions does, and so does what writes an object. -/
  imported : ∀ path, Orderly [] (Engine.importModule path : Attempt (World σ) Module)
  written : ∀ unitName source object,
    Orderly [] (Engine.writeObject unitName source object : Attempt (World σ) Unit)
  compiled : ∀ flags program object,
    Orderly [] (writeProgram flags program object : Attempt (World σ) RunResult)

/-- **Every session is driven in one order**, whatever the compiler answers, whichever the settings
are, and whichever operations there are. -/
theorem play_ordered (ops : List Operation) (w : World σ) : Ordered ops w where
  lives n hn := by
    obtain ⟨cs, left, hplayed, hleft⟩ := play_tended ops .empty w
    obtain ⟨cs', hgiven⟩ := giveUp_tends (play ops (.empty, w)).2.1 (play ops (.empty, w)).2.2
    have hplayed : w.Tends 0 cs (play ops (.empty, w)).2.2
        (left + (play ops (.empty, w)).2.1.states) := hplayed
    have hall : w.Tends 0 (cs ++ cs') (finish ops w) (left + 0) :=
      hplayed.trans (hgiven.frame left)
    obtain ⟨calls, ds, hdriven⟩ := finish_inOrder ops w
    obtain rfl := hall.adds.unique hdriven.adds
    rw [hall.adds.since] at hn ⊢
    obtain ⟨d, -, hlife⟩ :=
      hdriven.drives.life_of_created (.empty w.made) hall.follows hn
    exact ⟨d, hlife.mono fun hlive => hleft n (by simpa using hlive)⟩
  sessions _ hd := hd.strict
  built unitName _ hload := build_orderly hload unitName
  imported := importModule_orderly
  written := writeObject_orderly
  compiled := writeProgram_orderly

end Engine

end LiveC
