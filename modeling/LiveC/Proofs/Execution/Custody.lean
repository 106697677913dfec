import LiveC.Proofs.Execution.Growth
import LiveC.Proofs.Execution.Runs
import LiveC.Proofs.Module.Visits
/-!
# The states that compiled code leaves open

Compiled code reaches the compiler through imports only. A routine that imports a module calls into
it and releases it, unless the call does not come back: then the module stays open, and belongs to
the code that was given up. `World.Lent` says of a run of compiled code which states it leaves open:
some of those that were linked meanwhile, and none if the run returned (`callAddress_lent`). It asks
for nothing of a state that was open before.

`runEntry_tends` accounts for the run of a session's entry: the name is looked up in the session,
and the rest of the calls are those of the code.
-/

namespace LiveC

variable {σ : Type}

/-- A run of compiled code from a world on: the states that it leaves open were linked in it, and
there is none if it returned. -/
def World.Lent (w : World σ) (r : Outcome × World σ) : Prop :=
  ∃ cs left, w.Tends 0 cs r.2 left ∧ (∀ n ∈ left, n ∈ Call.linkedStates cs) ∧
    ∀ value, r.1 = .returned value → left = 0

/-- Compiled code on its way from a world to another one: the state that is open for a call, if
there is one, was linked on the way. -/
def World.Lends (opened : Option Nat) (w w' : World σ) : Prop :=
  ∃ cs, w.Tends 0 cs w' opened.toList ∧ ∀ n ∈ opened, n ∈ Call.linkedStates cs

namespace World

variable {w w₁ w₂ : World σ} {r : Outcome × World σ} {cs : List Call} {opened : Option Nat}

theorem lent_of_calls_eq (hcalls : r.2.calls = w.calls) (hmade : r.2.made = w.made) : w.Lent r :=
  ⟨[], 0, .of_calls_eq hcalls hmade 0, by simp, fun _ _ => rfl⟩

/-- A run after calls that leave no state open. -/
theorem Tends.lent (h : w.Tends 0 cs w₁ 0) (hr : w₁.Lent r) : w.Lent r := by
  obtain ⟨cs', left, htends, hlinked, hreturned⟩ := hr
  refine ⟨cs ++ cs', left, h.trans htends, fun n hn => ?_, hreturned⟩
  rw [Call.linkedStates_append]
  exact List.mem_append_right _ (hlinked n hn)

/-- Calls on the way that open and close no state in the end. -/
theorem Lends.tends (h : w.Lends opened w₁) (ht : w₁.Tends opened.toList cs w₂ opened.toList) :
    w.Lends opened w₂ := by
  obtain ⟨cs', htends, hlinked⟩ := h
  refine ⟨cs' ++ cs, htends.trans ht, fun n hn => ?_⟩
  rw [Call.linkedStates_append]
  exact List.mem_append_left _ (hlinked n hn)

/-- Recording an event is no call. -/
theorem tends_note (w : World σ) (e : Event) (live : Multiset Nat) :
    w.Tends live [] (w.note e) live := by
  have hcalls : (w.note e).calls = w.calls := rfl
  exact .of_calls_eq hcalls rfl live

/-- A run that returned leaves no state open. -/
theorem Lent.tends {value : Int32} {w' : World σ} (h : w.Lent (.returned value, w')) :
    ∃ cs, w.Tends 0 cs w' 0 := by
  obtain ⟨cs, left, htends, -, hreturned⟩ := h
  rw [hreturned value rfl] at htends
  exact ⟨cs, htends⟩

end World

/-- Finding a name in a session asks for it at most, and does so if the code can be called. -/
theorem Session.find_tends [Compiler σ] (s : Session) (name : String) (w : World σ) :
    ∃ t, (∀ q ∈ t, q.1 = .findSymbol name) ∧
      (s.relocated = true → hasNul name = false → ∃ failed, t = [(.findSymbol name, failed)]) ∧
      w.Tends {s.serial} (Call.ofRequests s.serial t) (s.inside (InSession.find name) w).2
        {s.serial} := by
  have hfind : InSession.AsksOnly (· = .findSymbol name)
      (InSession.find name : InSession σ (Option Address)) := InSession.find_asksOnly name rfl
  obtain ⟨t, ht, hP⟩ := hfind (s, w)
  obtain ⟨u, -, htends⟩ := Session.inside_tends (hfind.mono fun q hq => by simp [hq]) s w
  have hadds : w.Adds (Call.ofRequests s.serial t) (s.inside (InSession.find name) w).2 := ht.calls
  have hsame : Call.ofRequests s.serial t = Call.ofRequests s.serial u := hadds.unique htends.adds
  refine ⟨t, hP, fun hrel hnul => ?_, hsame ▸ htends⟩
  have hcond : (s.relocated && !hasNul name) = true := by rw [hrel, hnul]; rfl
  have hrun : (InSession.find name (s, w)).2 =
      (InSession.request (.findSymbol name) (s, w)).2 := by
    rw [InSession.find, Attempt.bind_of_ok (x := InSession.session) rfl, if_pos hcond]
    rfl
  have hasked := InSession.request_asks (.findSymbol name) s w
  rw [← hrun] at hasked
  exact ⟨_, ht.unique hasked⟩

namespace Execution

open World

theorem raise_lent (signal : Signal) (w : World σ) : w.Lent (raise signal w) := by
  rw [raise_eq]
  split
  · exact lent_of_calls_eq rfl rfl
  · split
    · exact lent_of_calls_eq rfl rfl
    · exact lent_of_calls_eq rfl rfl

theorem callOutside_lent (address : Address) (w : World σ) :
    w.Lent (callOutside address w) := by
  rw [callOutside_eq]
  cases reactionAt w address with
  | returns value => exact lent_of_calls_eq rfl rfl
  | raises signal => exact raise_lent signal w
  | ends status => exact lent_of_calls_eq rfl rfl

variable [Compiler σ]

/-- Compiled code keeps account of the states that it leaves open. -/
theorem lent_rules : World.RunRules (Lent (σ := σ)) Lends where
  returned _ _ := lent_of_calls_eq rfl rfl
  raise := raise_lent
  outside := callOutside_lent
  refl _ := ⟨[], .of_calls_eq rfl rfl 0, by simp⟩
  note e hw := hw.tends (tends_note _ e _)
  imports path w := by
    obtain ⟨cs, hcs, hlinked⟩ := Contract.importModule_leaves path w
    have hstate : (fun m : Option Module => m.bind Engine.moduleState) =
        fun m => m.map (·.session.serial) := funext fun m => by cases m <;> rfl
    rw [hstate] at hcs hlinked
    refine ⟨cs, hcs.tends, fun n hn => ?_⟩
    rw [hlinked]
    exact Option.mem_toList.2 hn
  finds {_ w₁} s name hw := by
    obtain ⟨t, -, -, hfind⟩ := s.find_tends name w₁
    exact hw.tends hfind
  deletes {_ w₁} s hw := by
    obtain ⟨cs, htends, -⟩ := hw
    obtain ⟨failed, hdelete⟩ := s.delete_tends w₁
    exact ⟨_, htends.trans hdelete, by simp⟩
  back {opened _ _ _ _} hw hr := by
    obtain ⟨cs, hreturned⟩ := hr.tends
    have hcalled := hreturned.beside opened.toList
    rw [Multiset.add_zero] at hcalled
    exact hw.tends hcalled
  away hw hr hnot := by
    obtain ⟨cs, htends, hlinked⟩ := hw
    obtain ⟨cs', left, htends', hlinked', -⟩ := hr
    refine ⟨_, _, htends.trans (htends'.beside _), fun n hn => ?_, fun value hvalue =>
      absurd hvalue (hnot value)⟩
    rw [Call.linkedStates_append, List.mem_append]
    rcases Multiset.mem_add.1 hn with hn | hn
    · exact .inl (hlinked n (Option.mem_toList.1 hn))
    · exact .inr (hlinked' n hn)
  after hw hr := by
    obtain ⟨cs, htends, -⟩ := hw
    exact htends.lent hr

/-- **Compiled code leaves no state open but those of modules that it imported**, and none of them
if it returns, however deep its calls are nested. -/
theorem callAddress_lent (depth : Nat) (address : Address) (passed : Passed)
    (w : World σ) : w.Lent (callAddress depth address passed w) :=
  lent_rules.callAddress depth address passed w

/-- The run of an entry: the name is looked up in the session, and the states that the code leaves
open were linked by the calls after that. -/
theorem runEntry_tends (s : Session) (entry program : String) (args : List String) (w : World σ) :
    ∃ t cs left, (∀ q ∈ t, q.1 = .findSymbol entry) ∧
      (s.relocated = true → hasNul entry = false → ∃ failed, t = [(.findSymbol entry, failed)]) ∧
      w.Tends {s.serial} (Call.ofRequests s.serial t ++ cs)
        (runEntry s entry program args w).2 (left + {s.serial}) ∧
      ∀ n ∈ left, n ∈ Call.linkedStates cs := by
  obtain ⟨t, ht, hasks, hfind⟩ := s.find_tends entry w
  rcases runEntry_cases s entry program args w with ⟨e, h⟩ | ⟨address, arguments, w₁, hrun, -, h⟩
  · rw [h]
    exact ⟨t, [], 0, ht, hasks, by simpa using hfind, by simp⟩
  · rw [hrun] at hfind
    rw [h]
    obtain ⟨cs, left, htends, hlinked, -⟩ := callAddress_lent callDepth address arguments.passed
      (Guarded.setGuard w₁ ((Guarded.guard w₁).enter ⟨s.unitName, entry, 0⟩ s.address))
    obtain ⟨guard, hguarded⟩ := exists_guarded_eq ⟨s.unitName, entry, 0⟩ s.address
      (callAddress callDepth address arguments.passed) w₁
    have hcode : w₁.Tends 0 cs (guarded ⟨s.unitName, entry, 0⟩ s.address
        (callAddress callDepth address arguments.passed) w₁).2 left := by
      rw [hguarded]
      exact ⟨htends.adds, htends.follows⟩
    have hframe := hcode.beside {s.serial}
    rw [Multiset.add_comm {s.serial} left] at hframe
    exact ⟨t, cs, left, ht, hasks, hfind.trans hframe, hlinked⟩

end Execution

end LiveC
