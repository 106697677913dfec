import LiveC.Guard.Nesting
import LiveC.Proofs.Text.DigitWriter
import LiveC.Proofs.Text.Utf8
/-!
# Nested guards recover

What the crash handler knows while some guards are active is a function of them: `Guard.of` has the
identities of the outermost ones, the place of the innermost one's checkpoint, and the state of the
handler. Entering a guard puts it in front of them and leaving it takes it away again
(`Guard.enter_of`, `Guard.exit_of`), so nothing that guarded code does outlives its guard. What code
does under some guards can then be read off its text: how it ends (`Body.ending`), what is seen
meanwhile (`Body.sightings`) and what is reported (`Body.reports`). `run_of` says that it does so at
any depth: a signal sends control to the checkpoint of the innermost guard, and so never past it.
`guarded_recovers` states it of a guarded run.
-/

namespace LiveC

/-- A guard that is active: where its code came from, and the address of the compiler state that
made the code. -/
abbrev Active := Identity × Address

namespace Active

/-- A name as it is shown: what lies in its first 256 bytes. -/
def label (name : String) : String := String.ofList (Text.firstBytes 256 name.toList)

/-- The identity under which an active guard is shown: its file, its function and its line. -/
def shown (a : Active) : Identity := ⟨label a.1.file, label a.1.function, a.1.line⟩

/-- The lines of a report about the guard that a crash is reported under. -/
def lines (a : Active) : String :=
  "\nSource File: " ++ label a.1.file ++ "\nFunction: " ++ label a.1.function ++
    "\nLine: " ++ toString a.1.line.toNat ++
    (if a.2 = 0 then "" else
      "\nSession: " ++ ("0x" ++ String.ofList (Nat.toDigits 16 a.2.toNat))) ++ "\n"

end Active

theorem Identity.kept_eq (a : Active) : a.1.kept = a.shown := by
  rw [Identity.kept, Active.shown, Text.cutToBytes_eq, Text.cutToBytes_eq]
  rfl

namespace Guard

/-- What is known about an active guard. -/
def frameOf (a : Active) : Frame := ⟨a.shown, a.2⟩

/-- What the handler knows while some guards are active, the innermost first. Their checkpoints are
above each other. -/
def of (active : List Active) : Guard where
  frames := (active.drop (active.length - 8)).map frameOf
  checkpoint := if active.isEmpty then none else some (active.length - 1)
  state := if active.isEmpty then .disarmed else .armed

/-- The guard that a crash is reported under: the innermost, or the eighth of more. -/
def named? (active : List Active) : Option Active :=
  if active.length ≤ 8 then active.head? else active.reverse[7]?

theorem of_nil : of [] = idle := rfl

theorem depth_of (active : List Active) : (of active).depth = min active.length 8 := by
  simp only [depth, of, List.length_map, List.length_drop]
  omega

theorem hasRoom_of (active : List Active) :
    (of active).hasRoom = decide (active.length < 8) := by
  rw [hasRoom, depth_of, frameCapacity]
  refine decide_eq_decide.2 ?_
  omega

theorem nextPlace_of (active : List Active) : (of active).nextPlace = active.length := by
  cases active <;> rfl

theorem isNone_checkpoint_of (active : List Active) :
    (of active).checkpoint.isNone = active.isEmpty := by
  cases active <;> rfl

/-- Under guards, control goes to the checkpoint of the innermost. -/
theorem landing?_of {active : List Active} (h : active ≠ []) :
    (of active).landing? = some (active.length - 1) := by
  have hempty : active.isEmpty = false := List.isEmpty_eq_false_iff.2 h
  simp [landing?, of, hempty]

theorem head?_frames_of (active : List Active) :
    (of active).frames.head? = (named? active).map frameOf := by
  simp only [of, List.head?_map, List.head?_drop, named?]
  congr 1
  split
  · next h => rw [Nat.sub_eq_zero_of_le h, List.head?_eq_getElem?]
  · next h =>
    have hlt : 7 < active.length := by omega
    rw [List.getElem?_reverse hlt]
    congr 1

theorem current?_of (active : List Active) :
    (of active).current? = (named? active).map Active.shown := by
  rw [current?, head?_frames_of, Option.map_map]
  rfl

theorem enter_of (active : List Active) (identity : Identity) (session : Address) :
    (of active).enter identity session = of ((identity, session) :: active) := by
  rw [enter, hasRoom_of, nextPlace_of, Identity.kept_eq (identity, session)]
  by_cases h : active.length < 8
  · have h₁ : active.length - 8 = 0 := by omega
    have h₂ : active.length + 1 - 8 = 0 := by omega
    simp [of, h, h₁, h₂, frameOf]
  · have h₁ : active.length + 1 - 8 = active.length - 8 + 1 := by omega
    simp [of, h, h₁]

theorem exit_of (active : List Active) (a : Active) :
    (of (a :: active)).exit (of active).checkpoint (of active).hasRoom = of active := by
  rw [exit, hasRoom_of, isNone_checkpoint_of]
  by_cases h : active.length < 8
  · have h₁ : active.length - 8 = 0 := by omega
    have h₂ : active.length + 1 - 8 = 0 := by omega
    simp [of, h, h₁, h₂]
  · have h₁ : active.length + 1 - 8 = active.length - 8 + 1 := by omega
    simp [of, h, h₁]

end Guard

/-! ## What code does under some guards -/

/-- The report of a crash that a guard recovers from. -/
def Active.report (a : Active) (s : Signal) : String :=
  "\n" ++ reportRule ++ "CCRUN CRASH DETECTED\n" ++ reportRule ++
    "Signal: " ++ s.name ++ " (" ++ toString s.number ++ ")\n" ++
    "Description: " ++ s.description ++ "\n\nBacktrace:\n" ++ a.lines ++
    hintLines s.hints ++ reportRule ++ "Attempting graceful recovery...\n"

theorem Guard.lines_frameOf (a : Active) : (frameOf a).lines = a.lines := by
  unfold Frame.lines Active.lines
  rw [Text.writeDecimal_eq, Text.writeHex_eq, UInt32.toNat_toUInt64]
  rfl

theorem Signal.writeDecimal_number (s : Signal) :
    Text.writeDecimal (UInt64.ofNat s.number) = toString s.number := by
  have hlt : s.number < UInt64.size := by cases s <;> decide
  rw [Text.writeDecimal_eq, UInt64.toNat_ofNat_of_lt' hlt]

theorem recovers_of {active : List Active} (h : active ≠ []) :
    (Guard.of active).recovers = true := by
  rw [Guard.recovers, Guard.landing?_of h, Option.isSome_some]

theorem exists_named? {active : List Active} (h : active ≠ []) :
    ∃ a, Guard.named? active = some a := by
  rw [← Option.isSome_iff_exists, Guard.named?]
  split
  · simpa using h
  · next hlen =>
    rw [isSome_getElem?, List.length_reverse]
    omega

theorem crashReport_of {active : List Active} (h : active ≠ []) (s : Signal) :
    crashReport (Guard.of active) s = ((Guard.named? active).map (Active.report · s)).getD "" := by
  obtain ⟨a, ha⟩ := exists_named? h
  rw [ha, Option.map_some, Option.getD_some]
  unfold crashReport Active.report
  rw [Guard.head?_frames_of, ha, Option.map_some, Option.map_some, Option.getD_some,
    if_pos (recovers_of h), Guard.lines_frameOf, Signal.writeDecimal_number]

namespace Body

/-- How a body ends: with a status, or with a signal. -/
def ending : Body → Int32 → Except Signal Int32
  | done, _ => .ok 0
  | returns status, _ => .ok status
  | returnsCount, count => .ok count
  | raises signal rest, count =>
    match Signal.ofNumber? signal with
    | some s => .error s
    | none => rest.ending count
  | observes rest, count => rest.ending count
  | runs _ _ _ _ rest, count => rest.ending count

/-- The result of a guarded run whose body ended so. -/
def resultOf (identity : Identity) : Except Signal Int32 → RunResult
  | .ok status => .exited status
  | .error s => .crashed s (s.name ++ " (" ++ s.description ++ ") in " ++ identity.display)

/-- What is seen while a body runs under some guards, in order. -/
def sightings : Body → List Active → Int32 → List Sighting
  | done, _, _ => []
  | returns _, _, _ => []
  | returnsCount, _, _ => []
  | raises signal rest, active, count =>
    match Signal.ofNumber? signal with
    | some _ => []
    | none => rest.sightings active count
  | observes rest, active, count =>
    .handler .armed (min active.length 8) ((Guard.named? active).map Active.shown) ::
      rest.sightings active count
  | runs identity session args inner rest, active, count =>
    match args.find? hasNul with
    | some bad => .result (.error (.interiorNul bad)) :: rest.sightings active count
    | none =>
      inner.sightings ((identity, session) :: active) (clampedToInt args.length) ++
        .result (.ok (resultOf identity (inner.ending (clampedToInt args.length)))) ::
          rest.sightings active count

/-- What is reported while a body runs under some guards, in order. -/
def reports : Body → List Active → String
  | done, _ => ""
  | returns _, _ => ""
  | returnsCount, _ => ""
  | raises signal rest, active =>
    match Signal.ofNumber? signal with
    | some s => ((Guard.named? active).map (Active.report · s)).getD ""
    | none => rest.reports active
  | observes rest, active => rest.reports active
  | runs identity session args inner rest, active =>
    match args.find? hasNul with
    | some _ => rest.reports active
    | none => inner.reports ((identity, session) :: active) ++ rest.reports active

/-- A body that raises a fatal signal ends with it. -/
theorem ending_raises (s : Signal) (rest : Body) (count : Int32) :
    (raises s.number rest).ending count = .error s := by
  rw [ending, Signal.ofNumber?_number]

/-- An ending under some guards: a signal sends control to the checkpoint of the innermost. -/
def outcomeOf (active : List Active) : Except Signal Int32 → Outcome
  | .ok status => .returned status
  | .error s => .raised s (active.length - 1)

theorem ending_outcomeOf (identity : Identity) (a : Active) (active : List Active)
    (ending : Except Signal Int32) :
    (outcomeOf (a :: active) ending).ending identity active.length =
      .ok (resultOf identity ending) := by
  cases ending with
  | ok status => rfl
  | error s => exact if_pos rfl

/-- A further run inside a body, told by its arguments. -/
theorem run_runs (identity : Identity) (session : Address) (args : List String) (inner rest : Body)
    (count : Int32) (w : Watch) :
    (runs identity session args inner rest).run count w = match args.find? hasNul with
      | some bad => rest.run count (w.note (.result (.error (.interiorNul bad))))
      | none =>
        match guarded identity session (inner.run (clampedToInt args.length)) w with
        | (.ok result, w) => rest.run count (w.note (.result (.ok result)))
        | (.error outcome, w) => (outcome, w) := by
  rw [run]
  cases hargs : args.find? hasNul with
  | some bad =>
    have hmake : Arguments.make args [] = .error (.interiorNul bad) := by rw [Arguments.make, hargs]
    rw [hmake]
  | none =>
    have hmake : Arguments.make args [] = .ok ⟨pointersTo args, pointersTo []⟩ := by
      rw [Arguments.make, hargs]
      rfl
    rw [hmake]
    exact Arguments.argc_of_argv (Arguments.argv_of_make hmake).1 ▸ rfl

end Body

/-! ## Running under guards -/

variable {active : List Active} {written : String} {seen : Array Sighting}

/-- Under guards, a signal is reported and sends control to the innermost, and the handler is ready
for the next. -/
theorem raise_of (h : active ≠ []) (s : Signal) :
    raise s (⟨Guard.of active, written, seen⟩ : Watch) = (.raised s (active.length - 1),
      ⟨Guard.of active,
        written ++ ((Guard.named? active).map (Active.report · s)).getD "", seen⟩) := by
  have hstate : (Guard.of active).state = .armed := by simp [Guard.of, h]
  rw [← crashReport_of h, raise]
  simp only [Guarded.guard, Guarded.setGuard, Guarded.complain, hstate, Guard.landing?_of h]
  rw [if_neg (by simp), ← hstate]

/-- A guard takes in what its body does, and leaves the handler as it was. -/
theorem guarded_of {identity : Identity} {session : Address} {body : Watch → Outcome × Watch}
    {ending : Except Signal Int32} {text : String} {sightings : List Sighting}
    (h : body ⟨Guard.of ((identity, session) :: active), written, seen⟩ =
      (Body.outcomeOf ((identity, session) :: active) ending,
        ⟨Guard.of ((identity, session) :: active), written ++ text, seen ++ sightings.toArray⟩)) :
    guarded identity session body ⟨Guard.of active, written, seen⟩ =
      (.ok (Body.resultOf identity ending),
        ⟨Guard.of active, written ++ text, seen ++ sightings.toArray⟩) := by
  rw [guarded]
  simp only [Guarded.guard, Guarded.setGuard, Guard.enter_of]
  rw [h]
  simp only [Guard.nextPlace_of, Body.ending_outcomeOf, Guard.exit_of]

namespace Body

/-- A body that runs under some guards ends, is seen and reports as its text says, and leaves the
handler as it was. -/
theorem run_of (b : Body) (h : active ≠ []) (count : Int32) :
    b.run count ⟨Guard.of active, written, seen⟩ = (outcomeOf active (b.ending count),
      ⟨Guard.of active, written ++ b.reports active,
        seen ++ (b.sightings active count).toArray⟩) := by
  induction b generalizing active count written seen with
  | done => simp [run, ending, outcomeOf, reports, sightings]
  | returns status => simp [run, ending, outcomeOf, reports, sightings]
  | returnsCount => simp [run, ending, outcomeOf, reports, sightings]
  | raises signal rest ih =>
    rw [run, ending, reports, sightings]
    cases Signal.ofNumber? signal with
    | none => exact ih h count
    | some s =>
      simp only [raise_of h, outcomeOf]
      simp
  | observes rest ih =>
    have hstate : (Guard.of active).state = .armed := by simp [Guard.of, h]
    rw [run, Watch.observe, Watch.note, ih h count, ending, reports, sightings, hstate,
      Guard.depth_of, Guard.current?_of]
    simp
  | runs identity session args inner rest ihInner ihRest =>
    rw [run_runs, ending, reports, sightings]
    cases args.find? hasNul with
    | some bad =>
      simp only [Watch.note]
      rw [ihRest h count]
      simp
    | none =>
      have hactive : (identity, session) :: active ≠ [] := by simp
      have hinner : guarded identity session (inner.run (clampedToInt args.length))
          ⟨Guard.of active, written, seen⟩ = _ := guarded_of (ihInner hactive _)
      simp only [hinner, Watch.note]
      rw [ihRest h count]
      simp [String.append_assoc]

/-- Without any guard a body ends like under one, but its own signal ends the process. -/
theorem run_idle (b : Body) (count : Int32) :
    (b.run count ⟨.idle, written, seen⟩).1 = match b.ending count with
      | .ok status => .returned status
      | .error s => .ended (Int32.ofNat (128 + s.number)) := by
  induction b generalizing count written seen with
  | done => rfl
  | returns status => rfl
  | returnsCount => rfl
  | raises signal rest ih =>
    rw [run, ending]
    cases Signal.ofNumber? signal with
    | none => exact ih count
    | some s => rfl
  | observes rest ih => exact ih count
  | runs identity session args inner rest ihInner ihRest =>
    rw [run_runs, ending]
    cases args.find? hasNul with
    | some bad => exact ihRest count
    | none =>
      have hactive : [(identity, session)] ≠ [] := by simp
      have hinner : guarded identity session (inner.run (clampedToInt args.length))
          ⟨Guard.of [], written, seen⟩ = _ := guarded_of (inner.run_of hactive _)
      rw [Guard.of_nil] at hinner
      simp only [hinner]
      exact ihRest count

end Body

/-- **Guards recover at any depth.** While some guards are active, a guarded run gives the status or
the signal of its own body and leaves the handler as it was; what is seen and reported meanwhile is
what the body's text says, for the body itself and for all that it runs. A signal of the body sends
control to the checkpoint of the body's own guard, whose place is above those of the guards around
it. Without any guard, a body's own signal ends the process. Every fatal signal that a body raises
is its own. -/
theorem guarded_recovers (active : List Active) (identity : Identity) (session : Address) (b : Body)
    (count : Int32) (written : String) (seen : Array Sighting) :
    guarded identity session (b.run count) ⟨Guard.of active, written, seen⟩ =
      (.ok (Body.resultOf identity (b.ending count)),
        ⟨Guard.of active, written ++ b.reports ((identity, session) :: active),
          seen ++ (b.sightings ((identity, session) :: active) count).toArray⟩) ∧
    (b.run count ⟨Guard.of ((identity, session) :: active), written, seen⟩).1 =
      (match b.ending count with
        | .ok status => .returned status
        | .error s => .raised s active.length) ∧
    Guard.of [] = .idle ∧
    (b.run count ⟨.idle, written, seen⟩).1 = (match b.ending count with
      | .ok status => .returned status
      | .error s => .ended (Int32.ofNat (128 + s.number))) ∧
    ∀ (s : Signal) (rest : Body), (Body.raises s.number rest).ending count = .error s := by
  refine ⟨guarded_of (b.run_of (by simp) count), ?_, Guard.of_nil, b.run_idle count,
    fun s rest => Body.ending_raises s rest count⟩
  rw [b.run_of (by simp) count]
  cases b.ending count <;> rfl

end LiveC
