import LiveC.World
/-!
# The settings of a process

A process settles its settings once: the first that are made stay, and the engine that the whole
process shares is started from them when it is first needed.
-/

namespace LiveC

/-- The settings of a process, once they are made. -/
structure Settings where
  config : Option Config
  deriving DecidableEq, Repr

namespace Settings

/-- Nothing is settled yet. -/
def unset : Settings := ⟨none⟩

/-- Settle the settings, unless they are settled: the ones in force. -/
def settle (s : Settings) (config : Config) : Config × Settings :=
  match s.config with
  | some settled => (settled, s)
  | none => (config, ⟨some config⟩)

/-- The settings in force. -/
def get (s : Settings) : Except Failure Config :=
  match s.config with
  | some config => .ok config
  | none => .error .notConfigured

end Settings

/-- Start the engine that the whole process shares, unless it runs already. -/
def Engine.share {σ : Type} (s : Settings) : Attempt (World σ) Unit := do
  let w ← .state
  if w.installed then pure ()
  else do
    launch (← .ofExcept s.get)
    install

end LiveC
