import LiveC.Proofs.Execution.Custody
import LiveC.Proofs.Repl.History
/-!
# The session of an interactive session

An interactive session holds on to the compiler state of the unit built last. A line that builds a
new unit has the old state deleted between the link of the new one and the call of its entry; a line
that builds none leaves the old state alone (`Repl.Replaces`, `eval_replaces`). `eval_tends` is the
account of a line: one state goes, another comes, and what else stays open was linked by the code.
-/

namespace LiveC

open InSession

variable {σ : Type}

namespace Repl

/-- The state of the unit built last. -/
def state (r : Repl) : Multiset Nat := ((r.session.map Session.serial).toList : List Nat)

theorem state_of_session_eq {r r' : Repl} (h : r'.session = r.session) : r'.state = r.state := by
  rw [state, state, h]

theorem state_of_some {r : Repl} {s : Session} (h : r.session = some s) : r.state = {s.serial} := by
  rw [state, h]
  rfl

/-- The deletion of the state of the unit built last. -/
def deletion (r : Repl) (failed : Bool) : List Call :=
  r.session.elim [] fun s => [.asked s.serial .delete failed]

theorem linkedStates_deletion (r : Repl) (failed : Bool) :
    Call.linkedStates (r.deletion failed) = [] := by
  unfold deletion
  cases r.session <;> rfl

/-! ## What a line does -/

/-- A line that builds no unit visits some states, and leaves the session as it is. -/
structure Idles (r : Repl) (w : World σ) (p : Repl × World σ) (calls : List Call) : Prop where
  session : p.1.session = r.session
  visited : w.Visited calls none p.2
  links : calls.any Call.links = false

/-- A line that builds a unit: the unit's session `s` is linked, the old session is given up, and
the entry of the new one is looked up and run. -/
structure Rebuilds (r : Repl) (w : World σ) (p : Repl × World σ) (s : Session)
    (before code : List Call) (failed failed' : Bool) : Prop where
  session : p.1.session = some s
  links : before.any Call.links = false
  steps : ∃ w₁ w₂ left, w.Visited (before ++ [.asked s.serial .relocate false]) (some s.serial) w₁ ∧
    w₁.Tends r.state (r.deletion failed) w₂ 0 ∧
    w₂.Tends {s.serial} (.asked s.serial (.findSymbol Code.entry) failed' :: code) p.2
      (left + {s.serial}) ∧ ∀ n ∈ left, n ∈ Call.linkedStates code

variable {r : Repl} {w : World σ} {p : Repl × World σ}

theorem Idles.tends {calls : List Call} (h : Idles r w p calls) :
    w.Tends r.state calls p.2 p.1.state := by
  have hvisited : w.Tends 0 calls p.2 0 := h.visited.tends
  rw [state_of_session_eq h.session]
  simpa using hvisited.beside r.state

/-- The calls of a line that builds a unit. -/
def rebuildCalls (r : Repl) (new : Nat) (before code : List Call) (failed failed' : Bool) :
    List Call :=
  before ++ .asked new .relocate false ::
    (r.deletion failed ++ .asked new (.findSymbol Code.entry) failed' :: code)

/-- What the calls made for a line say of the state of the session before it: it is left alone if no
unit was linked, and deleted between the first link and the look for the new entry otherwise. -/
structure Replaces (r : Repl) (calls : List Call) : Prop where
  kept : calls.any Call.links = false →
    ∀ old, r.session = some old → ∀ c ∈ calls, c.isAbout old.serial = false
  replaced : calls.any Call.links = true → ∃ new before code failed failed',
    calls = r.rebuildCalls new before code failed failed' ∧ before.any Call.links = false ∧
      ∀ old, r.session = some old →
        old.serial ≠ new ∧ ∀ c ∈ before ++ code, c.isAbout old.serial = false

theorem Idles.replaces {calls : List Call} (h : Idles r w p calls)
    (hmade : ∀ n ∈ r.state, n < w.made) : Replaces r calls where
  kept _ old hold := h.visited.tends.isAbout_eq_false
    (hmade _ (by rw [state_of_some hold]; exact Multiset.mem_singleton_self _))
    (Multiset.notMem_zero _)
  replaced hlinks := absurd hlinks (by simp [h.links])

section Rebuilds

variable {s : Session} {before code : List Call} {failed failed' : Bool}

theorem Rebuilds.tends (h : Rebuilds r w p s before code failed failed') :
    ∃ left, w.Tends r.state (r.rebuildCalls s.serial before code failed failed') p.2
      (left + p.1.state) ∧ ∀ n ∈ left, n ∈ Call.linkedStates code := by
  obtain ⟨w₁, w₂, left, hvisited, hdropped, hrun, hleft⟩ := h.steps
  refine ⟨left, ?_, hleft⟩
  have hbuilt : w.Tends r.state (before ++ [.asked s.serial .relocate false]) w₁
      (r.state + {s.serial}) := hvisited.tends.beside r.state
  have hgone : w₁.Tends (r.state + {s.serial}) (r.deletion failed) w₂ {s.serial} := by
    rw [Multiset.add_comm]
    exact hdropped.sparing {s.serial}
  rw [state_of_some h.session, rebuildCalls]
  simpa using (hbuilt.trans hgone).trans hrun

theorem Rebuilds.linkedStates (h : Rebuilds r w p s before code failed failed') :
    Call.linkedStates (r.rebuildCalls s.serial before code failed failed') =
      s.serial :: Call.linkedStates code := by
  have hsplit : r.rebuildCalls s.serial before code failed failed' = before ++
      ([.asked s.serial .relocate false] ++ (r.deletion failed ++
        ([.asked s.serial (.findSymbol Code.entry) failed'] ++ code))) := by simp [rebuildCalls]
  rw [hsplit, Call.linkedStates_append, Call.linkedStates_eq_nil h.links, Call.linkedStates_append,
    Call.linkedStates_append, linkedStates_deletion, Call.linkedStates_append]
  rfl

theorem Rebuilds.replaces (h : Rebuilds r w p s before code failed failed')
    (hmade : ∀ n ∈ r.state, n < w.made) :
    Replaces r (r.rebuildCalls s.serial before code failed failed') := by
  refine ⟨fun hlinks => absurd hlinks (by simp [rebuildCalls, Call.links]), fun _ => ?_⟩
  refine ⟨s.serial, before, code, failed, failed', rfl, h.links, fun old hold => ?_⟩
  obtain ⟨w₁, w₂, left, hvisited, hdropped, hrun, -⟩ := h.steps
  have hlt : old.serial < w.made :=
    hmade _ (by rw [state_of_some hold]; exact Multiset.mem_singleton_self _)
  have hne : old.serial ≠ s.serial :=
    Nat.ne_of_lt (Nat.lt_of_lt_of_le hlt (hvisited.visits.le_of_left rfl))
  have hlt₂ : old.serial < w₂.made :=
    Nat.lt_of_lt_of_le hlt (hvisited.tends.made_le.trans hdropped.made_le)
  have hbefore := hvisited.tends.isAbout_eq_false hlt (Multiset.notMem_zero _)
  have hafter := hrun.isAbout_eq_false hlt₂ (by simpa using hne)
  refine ⟨hne, fun c hc => ?_⟩
  rcases List.mem_append.1 hc with hc | hc
  · exact hbefore c (List.mem_append_left _ hc)
  · exact hafter c (List.mem_cons_of_mem _ hc)

end Rebuilds

/-! ## The account of a line -/

variable [Compiler σ]

theorem dropped_tends (r : Repl) (w : World σ) :
    ∃ failed, w.Tends r.state (r.deletion failed) (r.dropped w) 0 := by
  unfold dropped deletion
  cases h : r.session with
  | none => exact ⟨false, by rw [state, h]; exact .refl w 0⟩
  | some s =>
    rw [state_of_some h]
    exact s.delete_tends w

theorem execute_custody (f : Fragment) (r : Repl) (w : World σ) :
    (∃ cs, Idles r w (execute f (r, w)).2 cs) ∨
      ∃ s before code failed failed',
        Rebuilds r w (execute f (r, w)).2 s before code failed failed' := by
  by_cases hsize : codeLimit < (r.nextUnit f.text).utf8ByteSize
  · rw [execute_of_long hsize]
    exact .inl ⟨[], rfl, .of_calls_eq rfl rfl, rfl⟩
  have hload : AsksOnly (· = .compile (r.nextUnit f.text))
      (InSession.compile (r.nextUnit f.text) : InSession σ Unit) := .demandWith _ rfl
  obtain ⟨cs, linked, hadds, hcalls, hlinked, hok⟩ :=
    Engine.build_calls hload (by simp) Code.unitName w
  obtain ⟨cs', hvisited⟩ := Engine.build_visited hload (by simp) Code.unitName w
  obtain rfl := hvisited.adds.unique hadds
  rcases hb : Engine.build Code.unitName (InSession.compile (r.nextUnit f.text)) w with ⟨e | s, w₁⟩
  · rw [hb] at hvisited hlinked
    have hfalse : linked = false := by simpa using hlinked
    obtain ⟨result, h, -⟩ := execute_of_error hsize hb
    rw [h]
    exact .inl ⟨cs', rfl, hvisited, hcalls.links.trans hfalse⟩
  · rw [hb] at hvisited hlinked
    obtain ⟨hrel, hmem, -⟩ := hok s (by rw [hb])
    rw [hrel] at hmem
    obtain rfl : linked = true := hlinked.1 ⟨s, rfl⟩
    obtain ⟨c, hc, hcs⟩ := hcalls.exists_eq_append
    have hlast : c = .asked s.serial .relocate false := by
      rw [hcs, List.mem_append, List.mem_singleton] at hmem
      exact hmem.elim (fun hm => absurd rfl (List.any_eq_false.1 hcalls.last _ hm)) Eq.symm
    rw [hcs, hlast] at hvisited
    obtain ⟨result, h, -⟩ := execute_eq_of_ok hsize hb
    obtain ⟨failed, hdropped⟩ := r.dropped_tends w₁
    obtain ⟨t, code, left, -, hasks, hrun, hleft⟩ :=
      Execution.runEntry_tends s Code.entry Code.unitName [] (r.dropped w₁)
    obtain ⟨failed', rfl⟩ := hasks hrel (by decide)
    rw [h]
    exact .inr ⟨s, cs'.dropLast, code, failed, failed', rfl, hcalls.last, w₁, r.dropped w₁, left,
      hvisited, hdropped, hrun, hleft⟩

theorem eval_custody (line : String) (r : Repl) (w : World σ) :
    (∃ cs, Idles r w (eval line (r, w)).2 cs) ∨
      ∃ s before code failed failed',
        Rebuilds r w (eval line (r, w)).2 s before code failed failed' := by
  rcases eval_cases line r w with ⟨result, h, -⟩ | h | h
  · rw [h]
    exact .inl ⟨[], rfl, .of_calls_eq rfl rfl, rfl⟩
  · rw [h]
    exact .inl ⟨[], rfl, .of_calls_eq rfl rfl, rfl⟩
  · rw [h]
    rcases execute_custody ⟨Fragment.labelOf (r.inputs + 1), statementText line⟩
      { r with inputs := r.inputs + 1 } w with
      ⟨cs, hsession, hvisited, hlinks⟩ |
      ⟨s, before, code, failed, failed', hsession, hlinks, hsteps⟩
    · exact .inl ⟨cs, hsession, hvisited, hlinks⟩
    · exact .inr ⟨s, before, code, failed, failed', hsession, hlinks, hsteps⟩

/-- The account of a line: what stays open besides the state of the session was linked after the
first link. -/
theorem eval_tends (line : String) (r : Repl) (w : World σ) : ∃ cs left,
    w.Tends r.state cs (eval line (r, w)).2.2 (left + (eval line (r, w)).2.1.state) ∧
      ∀ n ∈ left, n ∈ (Call.linkedStates cs).tail := by
  rcases eval_custody line r w with ⟨cs, h⟩ | ⟨s, before, code, failed, failed', h⟩
  · exact ⟨cs, 0, by simpa using h.tends, by simp⟩
  · obtain ⟨left, htends, hleft⟩ := h.tends
    exact ⟨_, left, htends, by rw [h.linkedStates]; exact hleft⟩

/-- **A session is replaced.** The calls made for a line delete the old state between the link of
the new one and the look for its entry, or else leave it alone. -/
theorem eval_replaces (line : String) {r : Repl} {w : World σ} (hmade : ∀ n ∈ r.state, n < w.made) :
    Replaces r (w.since (eval line (r, w)).2.2) := by
  rcases eval_custody line r w with ⟨cs, h⟩ | ⟨s, before, code, failed, failed', h⟩
  · rw [h.visited.adds.since]
    exact h.replaces hmade
  · obtain ⟨left, htends, -⟩ := h.tends
    rw [htends.adds.since]
    exact h.replaces hmade

end Repl

end LiveC
