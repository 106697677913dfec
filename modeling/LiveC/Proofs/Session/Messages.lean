import LiveC.Proofs.Session.Script
/-!
# Every message once

What a compiler says is kept by its session until a call of the session carries it away: a call that
fails does, and so does one that takes the messages. `SessionCall` are the calls of a session. A
call is refused (`SessionCall.refusal?`), makes one step (`SessionCall.step?`), or asks for nothing;
what each comes to is said by `SessionCall.run_of_refusal`, `Makes` and `SessionCall.run_of_idle`.
From these comes the account of a single call (`Exchange.accounted`), and by induction over the
calls that of a whole history: nothing that was accepted is lost or told twice, and nothing is added
but the word of the session itself where a failing call found no message
(`SessionCall.messages_conserved`).
-/

namespace LiveC

variable {σ α β : Type}

/-- What a call of a session is for. -/
inductive SessionCall
  | setOptions (options : String)
  | setLibraryDirectory (path : String)
  | setOutput
  | addIncludePath (path : String)
  | addSystemIncludePath (path : String)
  | addLibraryPath (path : String)
  | addLibrary (name : String)
  | define (name : String) (value : Option String)
  | addSymbol (name : String) (address : Address)
  | compile (source : String)
  | addFile (path : String)
  | writeFile (path : String)
  | relocate
  | find (name : String)
  | takeMessages
  deriving DecidableEq, Repr

/-- Why a text cannot be passed to the compiler, if it cannot. -/
def nulFault? (text : String) : Option Failure :=
  if hasNul text then some (.invalidArgument (.interiorNul text)) else none

theorem quoted_of_nulFault {text : String} {e : Failure} (h : nulFault? text = some e) :
    e.quoted = [] := by
  unfold nulFault? at h
  split at h
  · obtain rfl := Option.some.inj h
    rfl
  · simp at h

namespace SessionCall

/-- Make a call, for the messages that it takes. -/
def run [Compiler σ] : SessionCall → InSession σ (List String)
  | setOptions options => do InSession.setOptions options; pure []
  | setLibraryDirectory path => do InSession.setLibraryDirectory path; pure []
  | setOutput => do InSession.setOutput; pure []
  | addIncludePath path => do InSession.addIncludePath path; pure []
  | addSystemIncludePath path => do InSession.addSystemIncludePath path; pure []
  | addLibraryPath path => do InSession.addLibraryPath path; pure []
  | addLibrary name => do InSession.addLibrary name; pure []
  | define name value => do InSession.define name value; pure []
  | addSymbol name address => do InSession.addSymbol name address; pure []
  | compile source => do InSession.compile source; pure []
  | addFile path => do InSession.addFile path; pure []
  | writeFile path => do InSession.writeFile path; pure []
  | relocate => do InSession.relocate; pure []
  | find name => do let _ ← InSession.find name; pure []
  | takeMessages => InSession.takeMessages

/-- Why a call is refused before it gets to the compiler, if it is: a text holds a NUL, an address
is null, a file is missing, or the session is not in memory. -/
def refusal? (p : Session × World σ) : SessionCall → Option Failure
  | setOptions text | setLibraryDirectory text | addIncludePath text | addSystemIncludePath text
  | addLibraryPath text | addLibrary text | compile text | writeFile text => nulFault? text
  | define name value => (nulFault? name).or (value.bind nulFault?)
  | addSymbol name address =>
    if address = 0 then some (.invalidArgument (.nullAddress name)) else nulFault? name
  | addFile path => if p.2.files.exists? path then nulFault? path else some (.fileNotFound path)
  | relocate => if p.1.mode = .memory then none else some (.invalidArgument .notInMemory)
  | setOutput | find _ | takeMessages => none

/-- The step that a call makes, if it asks for something. -/
def step? (p : Session × World σ) : SessionCall → Option Step
  | setOptions options => some ⟨.checked, .setOptions options⟩
  | setLibraryDirectory path => some ⟨.told, .setLibraryDirectory path⟩
  | setOutput => some ⟨.demanded, .setOutput (match p.1.mode with
    | .memory => Dialect.memoryOutput
    | .object => p.2.binding.dialect.objectOutput)⟩
  | addIncludePath path => some ⟨.demanded, .addIncludePath path⟩
  | addSystemIncludePath path => some ⟨.demanded, .addSystemIncludePath path⟩
  | addLibraryPath path => some ⟨.demanded, .addLibraryPath path⟩
  | addLibrary name => some ⟨.demanded, .addLibrary name⟩
  | define name value => some ⟨.told, .define name value⟩
  | addSymbol name address => some ⟨.demanded, .addSymbol name address⟩
  | compile source => some ⟨.demanded, .compile source⟩
  | addFile path => some ⟨.demanded, .addFile path⟩
  | writeFile path => some ⟨.demanded, .writeFile path⟩
  | relocate => if p.1.relocated then none else some ⟨.demanded, .relocate⟩
  | find name => if p.1.relocated && !hasNul name then some ⟨.told, .findSymbol name⟩ else none
  | takeMessages => none

end SessionCall

/-- A refusal quotes no message. -/
theorem SessionCall.quoted_of_refusal {p : Session × World σ} {c : SessionCall} {e : Failure}
    (h : c.refusal? p = some e) : e.quoted = [] := by
  cases c with
  | setOptions text | setLibraryDirectory text | addIncludePath text | addSystemIncludePath text
  | addLibraryPath text | addLibrary text | compile text | writeFile text =>
    exact quoted_of_nulFault h
  | define name value =>
    rcases Option.or_eq_some_iff.1 h with hname | ⟨-, hvalue⟩
    · exact quoted_of_nulFault hname
    · obtain ⟨text, -, htext⟩ := Option.bind_eq_some_iff.1 hvalue
      exact quoted_of_nulFault htext
  | addSymbol name address =>
    by_cases hnull : address = 0
    · obtain rfl : .invalidArgument (.nullAddress name) = e := by simpa [refusal?, hnull] using h
      rfl
    · exact quoted_of_nulFault (by simpa [refusal?, hnull] using h)
  | addFile path =>
    by_cases hfile : p.2.files.exists? path = true
    · exact quoted_of_nulFault (by simpa [refusal?, hfile] using h)
    · obtain rfl : .fileNotFound path = e := by simpa [refusal?, hfile] using h
      rfl
  | relocate =>
    by_cases hmode : p.1.mode = .memory
    · simp [refusal?, hmode] at h
    · obtain rfl : .invalidArgument .notInMemory = e := by simpa [refusal?, hmode] using h
      rfl
  | setOutput | find name | takeMessages => simp [refusal?] at h

/-- No call only offers something, and only options are checked. -/
theorem SessionCall.manner_of_step? {c : SessionCall} {p : Session × World σ} {step : Step}
    (h : c.step? p = some step) : step.manner ≠ .offered ∧
      (step.manner = .checked → ∃ options, c = .setOptions options) := by
  cases c with
  | setOptions options =>
    obtain rfl := Option.some.inj h
    exact ⟨by simp, fun _ => ⟨options, rfl⟩⟩
  | relocate =>
    simp only [step?, Option.ite_none_left_eq_some, Option.some.injEq] at h
    obtain ⟨-, rfl⟩ := h
    exact ⟨by simp, by simp⟩
  | find name =>
    simp only [step?, Option.ite_none_right_eq_some, Option.some.injEq] at h
    obtain ⟨-, rfl⟩ := h
    exact ⟨by simp, by simp⟩
  | takeMessages => simp [step?] at h
  | _ =>
    obtain rfl := Option.some.inj h
    exact ⟨by simp, by simp⟩

/-! ## One step -/

namespace InSession

variable {step : Step} {p : Session × World σ}

/-- A text that cannot be passed on is refused. -/
theorem checkText_bind (text : String) (x : InSession σ α) (p : Session × World σ) :
    (checkText text >>= fun _ => x) p = match nulFault? text with
      | some e => (.error e, p)
      | none => x p := by
  unfold checkText nulFault?
  split <;> rfl

theorem checkText_bind_of_none {text : String} (h : nulFault? text = none) (x : InSession σ α)
    (p : Session × World σ) : (checkText text >>= fun _ => x) p = x p := by
  rw [checkText_bind, h]

theorem checkText_bind_of_some {text : String} {e : Failure} (h : nulFault? text = some e)
    (x : InSession σ α) (p : Session × World σ) :
    (checkText text >>= fun _ => x) p = (.error e, p) := by
  rw [checkText_bind, h]

variable [Compiler σ]

/-- A computation asks for the one thing of a step, takes the answer as the step says, and gives no
messages of its own. -/
structure Makes (step : Step) (x : InSession σ (List String)) (p : Session × World σ) : Prop where
  outcome : (x p).1 =
    (step.take p.1.unitName p.1.pending (p.2.ask p.1.serial step.request).1).map fun _ => []
  pending : (x p).2.1.pending =
    (step.take p.1.unitName p.1.pending (p.2.ask p.1.serial step.request).1).toOption.getD []
  world : (x p).2.2 = (p.2.ask p.1.serial step.request).2

namespace Makes

theorem of_ok {x : InSession σ α} {a : α} {heard : List String} {p' : Session × World σ}
    (htake : step.take p.1.unitName p.1.pending (p.2.ask p.1.serial step.request).1 = .ok heard)
    (hrun : x p = (.ok a, p')) (hpending : p'.1.pending = heard)
    (hworld : p'.2 = (p.2.ask p.1.serial step.request).2) :
    Makes step (x >>= fun _ => pure []) p := by
  have hbind : (x >>= fun _ => pure ([] : List String)) p = (.ok [], p') :=
    Attempt.bind_of_ok hrun _
  constructor <;> rw [hbind]
  · rw [htake]
    rfl
  · rw [htake]
    exact hpending
  · exact hworld

theorem of_error {x : InSession σ α} {e : Failure} {p' : Session × World σ}
    (htake : step.take p.1.unitName p.1.pending (p.2.ask p.1.serial step.request).1 = .error e)
    (hrun : x p = (.error e, p')) (hpending : p'.1.pending = [])
    (hworld : p'.2 = (p.2.ask p.1.serial step.request).2) :
    Makes step (x >>= fun _ => pure []) p := by
  have hbind : (x >>= fun _ => pure ([] : List String)) p = (.error e, p') :=
    Attempt.bind_of_error hrun _
  constructor <;> rw [hbind]
  · rw [htake]
    rfl
  · rw [htake]
    exact hpending
  · exact hworld

theorem congr {x y : InSession σ α} (h : x p = y p)
    (hy : Makes step (y >>= fun _ => pure []) p) : Makes step (x >>= fun _ => pure []) p := by
  have hbind : (x >>= fun _ => pure ([] : List String)) p = (y >>= fun _ => pure []) p := by
    rw [Attempt.bind_apply, h, Attempt.bind_apply]
  constructor <;> rw [hbind]
  · exact hy.outcome
  · exact hy.pending
  · exact hy.world

theorem demand (q : Request) (p : Session × World σ) :
    Makes ⟨.demanded, q⟩ (do demand q; pure []) p := by
  cases h : (p.2.ask p.1.serial q).1.failed with
  | false => exact of_ok (by simp [Step.take, h]) (demand_of_done h) rfl rfl
  | true => exact of_error (by simp [Step.take, h]) (demand_of_failed h) rfl rfl

theorem demandWith {text : String} (h : nulFault? text = none) (q : Request)
    (p : Session × World σ) : Makes ⟨.demanded, q⟩ (do demandWith text q; pure []) p :=
  congr (checkText_bind_of_none h _ p) (demand q p)

/-- A request whose answer is not looked at. -/
theorem request (q : Request) (g : Reply → α) (p : Session × World σ) :
    Makes ⟨.told, q⟩ (do let _ ← (do let reply ← request q; pure (g reply)); pure []) p :=
  of_ok rfl (Attempt.bind_of_ok (request_apply q p.1 p.2) _) rfl rfl

theorem setOptions {options : String} (h : nulFault? options = none) (p : Session × World σ) :
    Makes ⟨.checked, .setOptions options⟩ (do setOptions options; pure []) p := by
  refine congr (checkText_bind_of_none h _ p) ?_
  have hrun {x : List String → InSession σ Unit} :=
    Attempt.bind_of_ok (request_apply (.setOptions options) p.1 p.2) fun _ => takeMessages >>= x
  by_cases h : (p.1.pending ++
      keptMessages (p.2.ask p.1.serial (.setOptions options)).1.messages).isEmpty = true
  · exact of_ok (if_pos h) (hrun.trans (congrFun (if_pos h) _)) rfl rfl
  · exact of_error (if_neg h) (hrun.trans (congrFun (if_neg h) _)) rfl rfl

theorem define {name : String} {value : Option String} (hname : nulFault? name = none)
    (hvalue : value.bind nulFault? = none) (p : Session × World σ) :
    Makes ⟨.told, .define name value⟩ (do define name value; pure []) p := by
  refine congr (checkText_bind_of_none hname _ p) ?_
  cases value with
  | none => exact request _ (fun _ => ()) p
  | some text => exact congr (checkText_bind_of_none hvalue _ p) (request _ (fun _ => ()) p)

theorem relocate (hmode : p.1.mode = .memory) (hfresh : p.1.relocated = false) :
    Makes ⟨.demanded, .relocate⟩ (do relocate; pure []) p := by
  refine congr (relocate_of_fresh hmode hfresh p.2) ?_
  cases h : (p.2.ask p.1.serial .relocate).1.failed with
  | false => exact of_ok (by simp [Step.take, h]) (Attempt.bind_of_ok (demand_of_done h) _) rfl rfl
  | true =>
    exact of_error (by simp [Step.take, h]) (Attempt.bind_of_error (demand_of_failed h) _) rfl rfl

end Makes

end InSession

/-! ## One call -/

namespace SessionCall

variable [Compiler σ] {c : SessionCall} {p : Session × World σ}

/-- **A refused call leaves everything alone.** -/
theorem run_of_refusal {e : Failure} (h : c.refusal? p = some e) :
    c.run p = (.error e, p) := by
  cases c with
  | setOptions text | setLibraryDirectory text | addIncludePath text | addSystemIncludePath text
  | addLibraryPath text | addLibrary text | compile text | writeFile text =>
    exact Attempt.bind_of_error (InSession.checkText_bind_of_some h _ p) _
  | define name value =>
    refine Attempt.bind_of_error ?_ _
    cases hname : nulFault? name with
    | some e' =>
      obtain rfl : e' = e := by simpa [refusal?, hname] using h
      exact InSession.checkText_bind_of_some hname _ p
    | none =>
      refine (InSession.checkText_bind_of_none hname _ p).trans ?_
      cases value with
      | none => simp [refusal?, hname] at h
      | some text =>
        have htext : nulFault? text = some e := by simpa [refusal?, hname] using h
        exact InSession.checkText_bind_of_some htext _ p
  | addSymbol name address =>
    refine Attempt.bind_of_error ?_ _
    by_cases hnull : address = 0
    · obtain rfl : .invalidArgument (.nullAddress name) = e := by simpa [refusal?, hnull] using h
      exact congrFun (if_pos hnull) p
    · have hname : nulFault? name = some e := by simpa [refusal?, hnull] using h
      exact (congrFun (if_neg hnull) p).trans (InSession.checkText_bind_of_some hname _ p)
  | addFile path =>
    refine Attempt.bind_of_error ((Attempt.bind_of_ok (x := InSession.world) rfl _).trans ?_) _
    by_cases hfile : p.2.files.exists? path = true
    · have hpath : nulFault? path = some e := by simpa [refusal?, hfile] using h
      exact (congrFun (if_pos hfile) p).trans (InSession.checkText_bind_of_some hpath _ p)
    · obtain rfl : .fileNotFound path = e := by simpa [refusal?, hfile] using h
      exact congrFun (if_neg hfile) p
  | relocate =>
    refine Attempt.bind_of_error ((Attempt.bind_of_ok (x := InSession.session) rfl _).trans ?_) _
    by_cases hmode : p.1.mode = .memory
    · simp [refusal?, hmode] at h
    · obtain rfl : .invalidArgument .notInMemory = e := by simpa [refusal?, hmode] using h
      exact congrFun (if_pos (bne_iff_ne.2 hmode)) p
  | setOutput | find name | takeMessages => simp [refusal?] at h

/-- **A call that asks for nothing** gives the messages that it takes, and leaves the others. -/
theorem run_of_idle (hrefusal : c.refusal? p = none) (h : c.step? p = none) :
    ∃ taken s, c.run p = (.ok taken, (s, p.2)) ∧ taken ++ s.pending = p.1.pending := by
  cases c with
  | relocate =>
    have hmode : p.1.mode = .memory := by simpa [refusal?] using hrefusal
    have hrelocated : p.1.relocated = true := by simpa [step?] using h
    have hrun : (InSession.relocate : InSession σ Unit) p = (.ok (), p) := by
      refine (Attempt.bind_of_ok (x := InSession.session) rfl _).trans ?_
      refine (congrFun (if_neg ?_) p).trans (congrFun (if_pos hrelocated) p)
      simp [hmode]
    exact ⟨[], p.1, Attempt.bind_of_ok hrun _, rfl⟩
  | find name =>
    have hunknown : ¬ (p.1.relocated && !hasNul name) = true := by simpa [step?] using h
    have hrun : (InSession.find name : InSession σ (Option Address)) p = (.ok none, p) := by
      refine (Attempt.bind_of_ok (x := InSession.session) rfl _).trans ?_
      exact congrFun (if_neg hunknown) p
    exact ⟨[], p.1, Attempt.bind_of_ok hrun _, rfl⟩
  | takeMessages => exact ⟨p.1.pending, { p.1 with pending := [] }, rfl, List.append_nil _⟩
  | _ => simp [step?] at h

/-- **Any other call makes its step.** -/
theorem run_of_step {step : Step} (hrefusal : c.refusal? p = none) (h : c.step? p = some step) :
    InSession.Makes step c.run p := by
  cases c with
  | setOptions options =>
    obtain rfl := Option.some.inj h
    exact .setOptions hrefusal p
  | setLibraryDirectory path =>
    obtain rfl := Option.some.inj h
    exact .congr (InSession.checkText_bind_of_none hrefusal _ p) (.request _ (fun _ => ()) p)
  | setOutput =>
    obtain rfl := Option.some.inj h
    exact .congr (y := InSession.demand _) rfl (.demand _ p)
  | addIncludePath text | addSystemIncludePath text | addLibraryPath text | addLibrary text
  | compile text | writeFile text =>
    obtain rfl := Option.some.inj h
    exact .demandWith hrefusal _ p
  | define name value =>
    obtain rfl := Option.some.inj h
    obtain ⟨hname, hvalue⟩ := Option.or_eq_none_iff.1 hrefusal
    exact .define hname hvalue p
  | addSymbol name address =>
    obtain rfl := Option.some.inj h
    have hnull : address ≠ 0 := by
      rintro rfl
      simp [refusal?] at hrefusal
    have hname : nulFault? name = none := by simpa [refusal?, hnull] using hrefusal
    exact .congr (congrFun (if_neg hnull) p) (.demandWith hname _ p)
  | addFile path =>
    obtain rfl := Option.some.inj h
    have hfile : p.2.files.exists? path = true := by
      by_contra hfile
      simp [refusal?, hfile] at hrefusal
    have hpath : nulFault? path = none := by simpa [refusal?, hfile] using hrefusal
    refine .congr ?_ (.demandWith hpath _ p)
    exact (Attempt.bind_of_ok (x := InSession.world) rfl _).trans (congrFun (if_pos hfile) p)
  | relocate =>
    have hmode : p.1.mode = .memory := by simpa [refusal?] using hrefusal
    have hfresh : p.1.relocated = false := by
      by_contra hrelocated
      simp [step?, hrelocated] at h
    obtain rfl : ⟨.demanded, .relocate⟩ = step := by simpa [step?, hfresh] using h
    exact .relocate hmode hfresh
  | find name =>
    have hknown : (p.1.relocated && !hasNul name) = true := by
      by_contra hunknown
      simp [step?, hunknown] at h
    obtain rfl : ⟨.told, .findSymbol name⟩ = step := by simpa [step?, hknown] using h
    refine .congr ?_ (.request _ Reply.address p)
    exact (Attempt.bind_of_ok (x := InSession.session) rfl _).trans (congrFun (if_pos hknown) p)
  | takeMessages => simp [step?] at h

end SessionCall

/-- What comes of a step that does not only offer something: the session goes on with all that was
heard, or its failure carries it away. -/
theorem Step.take_cases {step : Step} (hmanner : step.manner ≠ .offered) (unitName : String)
    (pending : List String) (reply : Reply) :
    (step.take unitName pending reply = .ok (pending ++ keptMessages reply.messages) ∧
      ¬ (step.manner = .demanded ∧ reply.failed = true)) ∨
    (step.manner = .demanded ∧ reply.failed = true ∧
      step.take unitName pending reply = .error (.compilation unitName
        (if pending ++ keptMessages reply.messages = [] then [silentFailure step.request]
          else pending ++ keptMessages reply.messages))) ∨
    (step.manner = .checked ∧ pending ++ keptMessages reply.messages ≠ [] ∧
      step.take unitName pending reply =
        .error (.invalidArgument (.badOptions (pending ++ keptMessages reply.messages)))) := by
  unfold take
  cases h : step.manner with
  | told => exact .inl ⟨rfl, by simp⟩
  | checked =>
    by_cases hheard : pending ++ keptMessages reply.messages = []
    · exact .inl ⟨by simp [hheard], by simp⟩
    · exact .inr (.inr ⟨rfl, hheard, by simp [hheard]⟩)
  | demanded =>
    cases hfailed : reply.failed with
    | false => exact .inl ⟨rfl, by simp⟩
    | true => exact .inr (.inl ⟨rfl, rfl, by simp [List.isEmpty_iff]⟩)
  | offered => exact absurd h hmanner

/-! ## The account of a call -/

/-- A call that was made, with the session and its world before and after. -/
structure Exchange (σ : Type) where
  call : SessionCall
  before : Session × World σ
  outcome : Except Failure (List String)
  after : Session × World σ

namespace Exchange

/-- The messages that a call carries away, in its failure or as those that it takes. -/
def carried (x : Exchange σ) : List String :=
  match x.outcome with
  | .ok taken => taken
  | .error e => e.quoted

/-- What is asked of the compiler in a call, if anything is. -/
def step? (x : Exchange σ) : Option Step :=
  if (x.call.refusal? x.before).isSome then none else x.call.step? x.before

variable [Compiler σ]

/-- The answer to a step. -/
def reply (x : Exchange σ) (step : Step) : Reply :=
  (x.before.2.ask x.before.1.serial step.request).1

/-- The messages that are accepted during a call. -/
def accepted (x : Exchange σ) : List String :=
  match x.step? with
  | some step => keptMessages (x.reply step).messages
  | none => []

/-- The messages that a call finds. -/
def found (x : Exchange σ) : List String := x.before.1.pending ++ x.accepted

/-- The word of the session itself, when a call fails and finds no message. -/
def fallback (x : Exchange σ) : List String :=
  match x.step? with
  | some step =>
    if step.manner = .demanded ∧ (x.reply step).failed = true ∧ x.found = [] then
      ["tcc: error: " ++ step.request.phrase ++ " failed"]
    else []
  | none => []

/-- **The account of a call.** -/
structure Accounted (x : Exchange σ) : Prop where
  /-- Nothing is asked but what the call is for. -/
  asked : x.after.2 = match x.step? with
    | some step => (x.before.2.ask x.before.1.serial step.request).2
    | none => x.before.2
  /-- A call that is refused leaves everything alone. -/
  refused : ∀ e, x.call.refusal? x.before = some e → x.outcome = .error e ∧ x.after = x.before
  /-- What is carried away and what is left are what was found, and the word of the session. -/
  conserved : x.carried ++ x.after.1.pending = x.found ++ x.fallback
  /-- What is asked for and fails carries away all that was found, or the word of the session. -/
  failed : ∀ step, x.step? = some step → step.manner = .demanded → (x.reply step).failed = true →
    x.outcome = .error (.compilation x.before.1.unitName
      (if x.found = [] then ["tcc: error: " ++ step.request.phrase ++ " failed"] else x.found))
  /-- Every failure is a refusal, that of something that was asked for and failed, which holds
  messages, or that of options, whose text is that of its messages. -/
  failure : ∀ e, x.outcome = .error e → x.call.refusal? x.before = some e ∨
    (∃ step messages, x.step? = some step ∧ step.manner = .demanded ∧
      (x.reply step).failed = true ∧ messages ≠ [] ∧
      e = .compilation x.before.1.unitName messages) ∨
    ∃ options messages, x.call = .setOptions options ∧ messages ≠ [] ∧
      e = .invalidArgument (.badOptions messages) ∧
      e.message = "invalid argument: " ++ String.intercalate "; " messages

/-- A call that was not refused, and made its step. -/
structure Makes (x : Exchange σ) (step : Step) : Prop where
  refusal : x.call.refusal? x.before = none
  steps : x.step? = some step
  world : x.after.2 = (x.before.2.ask x.before.1.serial step.request).2

namespace Makes

variable {x : Exchange σ} {step : Step}

theorem found_eq (h : x.Makes step) :
    x.found = x.before.1.pending ++ keptMessages (x.reply step).messages := by
  rw [found, accepted, h.steps]

theorem fallback_eq (h : x.Makes step) : x.fallback =
    if step.manner = .demanded ∧ (x.reply step).failed = true ∧ x.found = [] then
      ["tcc: error: " ++ step.request.phrase ++ " failed"]
    else [] := by
  rw [fallback, h.steps]

theorem asked (h : x.Makes step) : x.after.2 = match x.step? with
    | some step => (x.before.2.ask x.before.1.serial step.request).2
    | none => x.before.2 := by
  rw [h.steps]
  exact h.world

theorem refused (h : x.Makes step) (e : Failure) (he : x.call.refusal? x.before = some e) :
    x.outcome = .error e ∧ x.after = x.before := absurd (h.refusal.symm.trans he) (by simp)

/-- What was done leaves all that was found. -/
theorem accounted_of_done (h : x.Makes step)
    (hdone : ¬ (step.manner = .demanded ∧ (x.reply step).failed = true))
    (houtcome : x.outcome = .ok []) (hpending : x.after.1.pending = x.found) : x.Accounted := by
  refine ⟨h.asked, h.refused, ?_, fun step' h' hdemanded hfailed => ?_, fun e h' => ?_⟩
  · rw [carried, houtcome, hpending, h.fallback_eq,
      if_neg fun hfallback => hdone ⟨hfallback.1, hfallback.2.1⟩, List.append_nil]
    rfl
  · obtain rfl := Option.some.inj (h.steps.symm.trans h')
    exact absurd ⟨hdemanded, hfailed⟩ hdone
  · exact absurd (houtcome.symm.trans h') (by simp)

/-- What was asked for and failed carries away all that was found, or the word of the session. -/
theorem accounted_of_failed (h : x.Makes step) (hdemanded : step.manner = .demanded)
    (hfailed : (x.reply step).failed = true)
    (houtcome : x.outcome = .error (.compilation x.before.1.unitName
      (if x.found = [] then ["tcc: error: " ++ step.request.phrase ++ " failed"] else x.found)))
    (hpending : x.after.1.pending = []) : x.Accounted := by
  refine ⟨h.asked, h.refused, ?_, fun step' h' _ _ => ?_, fun e h' => ?_⟩
  · rw [carried, houtcome, hpending, h.fallback_eq]
    by_cases hnone : x.found = []
    · rw [if_pos hnone, if_pos ⟨hdemanded, hfailed, hnone⟩, hnone]
      rfl
    · rw [if_neg hnone, if_neg fun hfallback => hnone hfallback.2.2]
      rfl
  · obtain rfl := Option.some.inj (h.steps.symm.trans h')
    exact houtcome
  · refine .inr (.inl ⟨step, _, h.steps, hdemanded, hfailed, ?_,
      Except.error.inj (h'.symm.trans houtcome)⟩)
    split
    · simp
    · next hsome => exact hsome

/-- Options that are refused carry away all that was found. -/
theorem accounted_of_checked (h : x.Makes step) (hmanner : step.manner = .checked)
    (hcall : ∃ options, x.call = .setOptions options) (hsome : x.found ≠ [])
    (houtcome : x.outcome = .error (.invalidArgument (.badOptions x.found)))
    (hpending : x.after.1.pending = []) : x.Accounted := by
  refine ⟨h.asked, h.refused, ?_, fun step' h' hdemanded _ => ?_, fun e h' => ?_⟩
  · rw [carried, houtcome, hpending, h.fallback_eq, if_neg fun hfallback => hsome hfallback.2.2]
    rfl
  · obtain rfl := Option.some.inj (h.steps.symm.trans h')
    rw [hmanner] at hdemanded
    simp at hdemanded
  · obtain ⟨options, hcall⟩ := hcall
    obtain rfl := Except.error.inj (h'.symm.trans houtcome)
    exact .inr (.inr ⟨options, _, hcall, hsome, rfl, rfl⟩)

end Makes

end Exchange

namespace SessionCall

variable [Compiler σ]

/-- Make a call, and keep a record of it. -/
def exchange (c : SessionCall) (p : Session × World σ) : Exchange σ :=
  ⟨c, p, (c.run p).1, (c.run p).2⟩

variable {c : SessionCall} {p : Session × World σ}

theorem accounted_of_refusal {e : Failure} (h : c.refusal? p = some e) :
    (c.exchange p).Accounted := by
  have hrun := run_of_refusal h
  have hstep : (c.exchange p).step? = none := by simp [Exchange.step?, exchange, h]
  have haccepted : (c.exchange p).accepted = [] := by rw [Exchange.accepted, hstep]
  have houtcome : (c.exchange p).outcome = .error e := congrArg Prod.fst hrun
  have hafter : (c.exchange p).after = p := congrArg Prod.snd hrun
  refine ⟨?_, fun e' h' => ?_, ?_, fun step h' => ?_, fun e' h' => .inl ?_⟩
  · rw [hstep, hafter]
    rfl
  · obtain rfl := Option.some.inj (h.symm.trans h')
    exact ⟨houtcome, hafter⟩
  · rw [Exchange.carried, houtcome, hafter, Exchange.found, haccepted, Exchange.fallback, hstep]
    simp [quoted_of_refusal h, exchange]
  · rw [hstep] at h'
    simp at h'
  · obtain rfl := Except.error.inj (houtcome.symm.trans h')
    exact h

theorem accounted_of_idle (hrefusal : c.refusal? p = none) (h : c.step? p = none) :
    (c.exchange p).Accounted := by
  obtain ⟨taken, s, hrun, htaken⟩ := run_of_idle hrefusal h
  have hstep : (c.exchange p).step? = none := by simp [Exchange.step?, exchange, hrefusal, h]
  have haccepted : (c.exchange p).accepted = [] := by rw [Exchange.accepted, hstep]
  have houtcome : (c.exchange p).outcome = .ok taken := congrArg Prod.fst hrun
  have hafter : (c.exchange p).after = (s, p.2) := congrArg Prod.snd hrun
  refine ⟨?_, fun e h' => ?_, ?_, fun step h' => ?_, fun e h' => ?_⟩
  · rw [hstep, hafter]
    rfl
  · exact absurd (hrefusal.symm.trans h') (by simp)
  · rw [Exchange.carried, houtcome, hafter, Exchange.found, haccepted, Exchange.fallback, hstep]
    simpa [exchange] using htaken
  · rw [hstep] at h'
    simp at h'
  · exact absurd (houtcome.symm.trans h') (by simp)

theorem accounted_of_step {step : Step} (hrefusal : c.refusal? p = none)
    (h : c.step? p = some step) : (c.exchange p).Accounted := by
  obtain ⟨houtcome, hpending, hworld⟩ := run_of_step hrefusal h
  obtain ⟨hoffered, hchecked⟩ := manner_of_step? h
  have hstep : (c.exchange p).step? = some step := by
    simp [Exchange.step?, exchange, hrefusal, h]
  have hmakes : (c.exchange p).Makes step := ⟨hrefusal, hstep, hworld⟩
  have htake := Step.take_cases hoffered p.1.unitName p.1.pending
    (p.2.ask p.1.serial step.request).1
  have hfound : (c.exchange p).found =
      p.1.pending ++ keptMessages (p.2.ask p.1.serial step.request).1.messages := hmakes.found_eq
  rw [← hfound] at htake
  rcases htake with ⟨htake, hdone⟩ | ⟨hdemanded, hfailed, htake⟩ | ⟨hmanner, hsome, htake⟩
  · rw [htake] at houtcome hpending
    exact hmakes.accounted_of_done hdone houtcome hpending
  · rw [htake] at houtcome hpending
    exact hmakes.accounted_of_failed hdemanded hfailed houtcome hpending
  · rw [htake] at houtcome hpending
    exact hmakes.accounted_of_checked hmanner (hchecked hmanner) hsome houtcome hpending

/-- **Every call has its account.** -/
theorem accounted (c : SessionCall) (p : Session × World σ) : (c.exchange p).Accounted := by
  cases hrefusal : c.refusal? p with
  | some e => exact accounted_of_refusal hrefusal
  | none =>
    cases h : c.step? p with
    | none => exact accounted_of_idle hrefusal h
    | some step => exact accounted_of_step hrefusal h

/-! ## Histories -/

/-- Make some calls one after the other. -/
def history : List SessionCall → Session × World σ → List (Exchange σ)
  | [], _ => []
  | c :: cs, p => c.exchange p :: history cs (c.run p).2

/-- The session and its world after some calls. -/
def afterAll (cs : List SessionCall) (p : Session × World σ) : Session × World σ :=
  cs.foldl (fun p c => (c.run p).2) p

/-- **No message is lost or told twice.** -/
theorem messages_conserved (cs : List SessionCall) (p : Session × World σ) :
    (history cs p).flatMap Exchange.carried ++ (afterAll cs p).1.pending =
        p.1.pending ++ (history cs p).flatMap (fun x => x.accepted ++ x.fallback) ∧
      ∀ x ∈ history cs p, x.Accounted := by
  induction cs generalizing p with
  | nil => exact ⟨(List.append_nil _).symm, by simp [history]⟩
  | cons c cs ih =>
    obtain ⟨hcarried, haccounted⟩ := ih (c.run p).2
    refine ⟨?_, List.forall_mem_cons.2 ⟨accounted c p, haccounted⟩⟩
    rw [history, List.flatMap_cons, List.flatMap_cons]
    calc (c.exchange p).carried ++ (history cs (c.run p).2).flatMap Exchange.carried ++
          (afterAll cs (c.run p).2).1.pending
        = (c.exchange p).carried ++ ((c.run p).2.1.pending ++
            (history cs (c.run p).2).flatMap fun x => x.accepted ++ x.fallback) := by
          rw [List.append_assoc, hcarried]
      _ = (c.exchange p).found ++ (c.exchange p).fallback ++
            (history cs (c.run p).2).flatMap fun x => x.accepted ++ x.fallback := by
          rw [← List.append_assoc, ← (accounted c p).conserved]
          rfl
      _ = p.1.pending ++ ((c.exchange p).accepted ++ (c.exchange p).fallback ++
            (history cs (c.run p).2).flatMap fun x => x.accepted ++ x.fallback) := by
          rw [Exchange.found]
          simp only [List.append_assoc]
          rfl

end SessionCall

end LiveC
