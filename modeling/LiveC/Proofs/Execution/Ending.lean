import LiveC.Proofs.Execution.Runs
import LiveC.Proofs.Session.Laws
/-!
# How compiled code ends

Only compiled code does something for others to see, crashes, or ends the process: building and
importing do nothing of the kind (`World.Calm`). Code that runs under a guard ends the process only
if a routine says so, and then with the status that the routine gives; whatever signal it raises
leads to the checkpoint of the guard, which still recovers (`callAddress_settles`).
-/

namespace LiveC

variable {σ : Type}

/-- Nothing happened that compiled code does: nothing was done for others to see, nothing crashed,
and the process was not ended. -/
structure World.Calm (w w' : World σ) : Prop where
  events : w'.events = w.events
  output : w'.output = w.output
  guard : w'.guard = w.guard
  ended : w'.ended = w.ended

namespace World

variable {w w₁ w₂ : World σ} {r : Outcome × World σ}

theorem Calm.refl (w : World σ) : w.Calm w := ⟨rfl, rfl, rfl, rfl⟩

theorem Calm.trans (h : w.Calm w₁) (h' : w₁.Calm w₂) : w.Calm w₂ :=
  ⟨h'.events.trans h.events, h'.output.trans h.output, h'.guard.trans h.guard,
    h'.ended.trans h.ended⟩

/-- Computations leave a world calm. Nothing is said of two worlds. -/
def calmLaw : Attempt.Law (World σ) where
  leads := Calm
  alike _ _ := False
  refl := .refl
  trans := .trans

/-- The moves of the engine leave a world calm. -/
theorem calm_rules [Compiler σ] : Rules (calmLaw (σ := σ)) fun _ => True :=
  .of_moves (fun _ _ => id) fun _ _ _ _ _ _ _ => ⟨rfl, rfl, rfl, rfl⟩

/-- Opening a library leaves a world calm. -/
theorem opening_calm
    (f : Linkage → FileTree → Except Failure (Address × List Warning) × Linkage) :
    calmLaw.Keeps (Engine.opening f : Attempt (World σ) Address) where
  leads w := by
    obtain ⟨result, errors, h⟩ := Engine.opening_apply f w
    rw [h]
    exact ⟨rfl, rfl, rfl, rfl⟩
  alike h := h.elim

/-- Warnings leave a world calm. -/
theorem warnAll_calm (w : World σ) (warnings : List Warning) : w.Calm (w.warnAll warnings) := by
  obtain ⟨errors, h⟩ := w.exists_warnAll_eq warnings
  rw [h]
  exact ⟨rfl, rfl, rfl, rfl⟩

/-- Starting the engine leaves a world calm. -/
theorem launch_calm (config : Config) (w : World σ) : w.Calm (Engine.launch config w).2 := by
  unfold Engine.launch
  rcases Binding.load .host config w.linkage.loader w.files with ⟨fault | binding, loader⟩
  · exact ⟨rfl, rfl, rfl, rfl⟩
  · refine Calm.trans (Calm.trans ?_ (warnAll_calm _ _)) (warnAll_calm _ _)
    exact ⟨rfl, rfl, rfl, rfl⟩

/-- What flags put into a session leaves the world calm. -/
theorem load_calm [Compiler σ] (f : Flags) :
    (calmLaw.inSession fun _ => True).Keeps (f.load : InSession σ Unit) := by
  refine (calm_rules.apply f).bind fun _ => .each fun name _ => ?_
  refine (Attempt.Law.Keeps.onWorld (opening_calm _)).capture.bind fun r => ?_
  cases r with
  | ok _ => exact .pure ()
  | error _ => exact calm_rules.demandWith name _

/-- How code ends that runs under a guard with its checkpoint at a place: the guard still recovers,
a signal leads to its checkpoint, and the process is ended exactly if the code says so. -/
structure Settled (place : Nat) (w : World σ) (r : Outcome × World σ) : Prop where
  landing : r.2.guard.landing? = some place
  raised : ∀ signal landing, r.1 = .raised signal landing → landing = place
  ended : ∀ n, r.1 = .ended n → r.2.ended = some n
  notEnded : (∀ n, r.1 ≠ .ended n) → r.2.ended = w.ended

/-- Code settles under whatever guard it runs. -/
def Settles (w : World σ) (r : Outcome × World σ) : Prop :=
  ∀ landing, w.guard.landing? = some landing → Settled landing w r

/-- Code that returns in a calm world. -/
theorem settles_of_returned {value : Int32} : w.Settles (.returned value, w) := fun _ hw =>
  ⟨hw, fun _ _ => Outcome.noConfusion, fun _ => Outcome.noConfusion, fun _ => rfl⟩

/-- Code goes on under its guard, and the process was not ended. -/
def Guards (w w' : World σ) : Prop :=
  ∀ landing, w.guard.landing? = some landing →
    w'.guard.landing? = some landing ∧ w'.ended = w.ended

theorem Guards.trans (h : w.Guards w₁) (h' : w₁.Guards w₂) : w.Guards w₂ := fun landing hw => by
  obtain ⟨hguard, hended⟩ := h landing hw
  obtain ⟨hguard', hended'⟩ := h' landing hguard
  exact ⟨hguard', hended'.trans hended⟩

theorem Calm.guards (h : w.Calm w₁) : w.Guards w₁ := fun _ hw => ⟨h.guard ▸ hw, h.ended⟩

/-- Code that came back is under its guard. -/
theorem Settles.guards {value : Int32} (h : w.Settles (.returned value, w₁)) : w.Guards w₁ :=
  fun landing hw =>
    ⟨(h landing hw).landing, (h landing hw).notEnded fun _ => Outcome.noConfusion⟩

/-- Code that goes on under its guard. -/
theorem Settles.after (h : w₁.Settles r) (hw₁ : w.Guards w₁) : w.Settles r := fun landing hw => by
  obtain ⟨hguard, hended⟩ := hw₁ landing hw
  have hsettled := h landing hguard
  exact ⟨hsettled.landing, hsettled.raised, hsettled.ended,
    fun hr => (hsettled.notEnded hr).trans hended⟩

end World

namespace Execution

open World

/-- Under a guard, a signal is reported and the guard recovers. -/
theorem raise_settles (signal : Signal) (w : World σ) : w.Settles (raise signal w) := by
  intro landing hw
  obtain ⟨harmed, hcheckpoint⟩ :
      w.guard.state = .armed ∧ w.guard.checkpoint = some landing := by
    simpa [Guard.landing?] using hw
  rw [raise_eq, if_neg (by simp [harmed]), hw]
  refine ⟨?_, fun _ _ h => ?_, fun _ => Outcome.noConfusion, fun _ => rfl⟩
  · have hafter : ({ w.guard with state := .armed } : Guard).landing? = some landing := by
      simp [Guard.landing?, hcheckpoint]
    exact hafter
  · cases h
    rfl

theorem callOutside_settles (address : Address) (w : World σ) :
    w.Settles (callOutside address w) := by
  rw [callOutside_eq]
  cases reactionAt w address with
  | returns value => exact settles_of_returned
  | raises signal => exact raise_settles signal w
  | ends status =>
    exact fun _ hw => ⟨hw, fun _ _ => Outcome.noConfusion, fun n hn => by cases hn; rfl,
      fun hnot => absurd rfl (hnot _)⟩

variable [Compiler σ]

/-- Compiled code settles, and is under its guard on the way. -/
theorem settles_rules : RunRules (Settles (σ := σ)) fun _ => Guards where
  returned _ _ := settles_of_returned
  raise := raise_settles
  outside := callOutside_settles
  refl _ _ hw := ⟨hw, rfl⟩
  note _ hw := hw
  imports path w := ((calm_rules.contract_importModule path).leads w).guards
  finds s name hw := hw.trans ((calm_rules.inside_find s name).leads _).guards
  deletes s hw := hw.trans ((calm_rules.delete s).leads _).guards
  back hw hr := hw.trans hr.guards
  away hw hr _ := hr.after hw
  after hw hr := hr.after hw

/-- **Code under a guard settles**, however deep its calls are nested: only a routine that ends the
process does so. -/
theorem callAddress_settles (depth : Nat) (address : Address) (passed : Passed)
    (w : World σ) : w.Settles (callAddress depth address passed w) :=
  settles_rules.callAddress depth address passed w

end Execution

end LiveC
