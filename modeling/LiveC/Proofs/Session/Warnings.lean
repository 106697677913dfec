import LiveC.Compiler.Scripted
import LiveC.Proofs.Diagnostic.Announcement
import LiveC.Proofs.Session.Messages
/-!
# Which messages are dropped

A session drops every message that holds `warningMark`, wherever in the message it stands; what the
message is about is read only later, from those that were kept. So every warning is dropped
(`contains_of_severity`), but also every other message with the mark in it, such as an error about a
file whose name holds it: it is `mistaken` for a warning. The warnings alone are dropped exactly
when no message is mistaken for one, and an error that a failing call sends is told exactly when it
is not (`SessionCall.errors_told_iff`). For histories of calls the step is `SessionCall.sifted_run`:
no call leaves a message with the mark to be told later.
-/

namespace LiveC

open Text Diagnostic

variable {σ : Type} {m unitName : String} {messages : List String}

/-! ## The mark of a warning -/

/-- A message that is dropped as if it were a warning, and is none. -/
def mistaken (m : String) : Bool :=
  Text.contains m warningMark && (ofMessage m).severity != .warning

/-- A warning holds the mark. -/
theorem contains_of_severity (h : (ofMessage m).severity = .warning) :
    Text.contains m warningMark = true := by
  have hmarked : warningMark.toList <:+: marker .warning := by decide
  have hstart : warningMark.toList <:+: bareMarker .warning := by decide
  obtain ⟨t, ht, -⟩ := exists_eq_trimEnd_append m.toList
  have htext : trimEnd m.toList <:+: m.toList :=
    ⟨[], t, by rw [List.nil_append]; exact ht.symm⟩
  rw [contains_iff]
  rcases (severity_ofMessage_eq_warning_iff.1 h).2.2 with hmarker | ⟨-, hbare⟩
  · exact hmarked.trans (hmarker.trans htext)
  · exact hstart.trans (hbare.isInfix.trans htext)

theorem mem_keptMessages_iff :
    m ∈ keptMessages messages ↔ m ∈ messages ∧ Text.contains m warningMark = false := by
  rw [keptMessages, List.mem_filter, Bool.not_eq_true']

/-- **Only the warnings are dropped** exactly when no message is mistaken for one. -/
theorem keptMessages_eq_filter_iff :
    keptMessages messages = messages.filter (fun m => (ofMessage m).severity != .warning) ↔
      ∀ m ∈ messages, mistaken m = false := by
  constructor
  · intro h m hm
    by_contra hmistaken
    obtain ⟨hmark, hother⟩ := Bool.and_eq_true_iff.1 (eq_true_of_ne_false hmistaken)
    have hkept : m ∈ keptMessages messages := by
      rw [h]
      exact List.mem_filter.2 ⟨hm, hother⟩
    rw [(mem_keptMessages_iff.1 hkept).2] at hmark
    simp at hmark
  · intro h
    refine List.filter_congr fun m hm => ?_
    have hmistaken := h m hm
    cases hmark : Text.contains m warningMark with
    | true => simpa [mistaken, hmark] using hmistaken
    | false =>
      have hother : (ofMessage m).severity ≠ .warning := fun hwarning => by
        rw [contains_of_severity hwarning] at hmark
        simp at hmark
      simpa using hother

/-- An error is kept exactly when it is not mistaken for a warning. -/
theorem mem_keptMessages_iff_of_error (hm : m ∈ messages) (h : (ofMessage m).severity = .error) :
    m ∈ keptMessages messages ↔ mistaken m = false := by
  rw [mem_keptMessages_iff, and_iff_right hm, mistaken, h]
  simp

/-! ## What a failing call tells -/

/-- A session in which no message with the mark of a warning is waiting. -/
def Session.Sifted (s : Session) : Prop := ∀ m ∈ s.pending, Text.contains m warningMark = false

namespace Exchange

variable {x : Exchange σ} {step : Step}

/-- What is asked for was not refused. -/
theorem refusal_of_step (h : x.step? = some step) : x.call.refusal? x.before = none := by
  unfold step? at h
  split at h
  · simp at h
  · next hsome => exact Option.not_isSome_iff_eq_none.1 hsome

variable [Compiler σ]

/-- The messages that the compiler sends during a call. -/
def sent (x : Exchange σ) : List String :=
  match x.step? with
  | some step => (x.reply step).messages
  | none => []

theorem accepted_eq (x : Exchange σ) : x.accepted = keptMessages x.sent := by
  unfold accepted sent
  cases x.step? <;> rfl

theorem exists_step_of_mem_sent (h : m ∈ x.sent) : ∃ step, x.step? = some step := by
  unfold sent at h
  cases hstep : x.step? with
  | some step => exact ⟨step, rfl⟩
  | none => simp [hstep] at h

/-- A call that fails in the compiler tells all that was found, or has a word of its own. -/
theorem Accounted.messages_eq (h : x.Accounted) (hstep : x.step? = some step)
    (hx : x.outcome = .error (.compilation unitName messages)) :
    messages = x.found ++ x.fallback := by
  rcases h.failure _ hx with
    hrefused | ⟨step', _, hstep', hdemanded, hfailed, -, -⟩ | ⟨_, _, -, -, he, -⟩
  · rw [refusal_of_step hstep] at hrefused
    simp at hrefused
  · have hfailure := h.failed step' hstep' hdemanded hfailed
    obtain ⟨-, htold⟩ := Failure.compilation.inj (Except.error.inj (hx.symm.trans hfailure))
    rw [htold, fallback, hstep']
    by_cases hnone : x.found = []
    · simp [hnone, hdemanded, hfailed]
    · simp [hnone]
  · simp at he

end Exchange

namespace SessionCall

variable [Compiler σ] {c : SessionCall} {p : Session × World σ}

/-- **No call leaves a message with the mark of a warning.** -/
theorem sifted_run (h : p.1.Sifted) : (c.run p).2.1.Sifted := by
  cases hrefusal : c.refusal? p with
  | some e =>
    rw [run_of_refusal hrefusal]
    exact h
  | none =>
    cases hstep : c.step? p with
    | none =>
      obtain ⟨taken, s, hrun, htaken⟩ := run_of_idle hrefusal hstep
      rw [hrun]
      exact fun m hm => h m (htaken ▸ List.mem_append_right taken hm)
    | some step =>
      have hpending := (run_of_step hrefusal hstep).pending
      have htake := Step.take_cases (manner_of_step? hstep).1 p.1.unitName p.1.pending
        (p.2.ask p.1.serial step.request).1
      intro m hm
      rw [hpending] at hm
      rcases htake with ⟨htake, -⟩ | ⟨-, -, htake⟩ | ⟨-, -, htake⟩ <;> rw [htake] at hm
      · rcases List.mem_append.1 hm with hwaiting | hheard
        · exact h m hwaiting
        · exact (mem_keptMessages_iff.1 hheard).2
      · exact absurd hm List.not_mem_nil
      · exact absurd hm List.not_mem_nil

/-- Every call of a history is made in a session without such messages. -/
theorem exists_of_mem_history {x : Exchange σ} {cs : List SessionCall} (h : p.1.Sifted)
    (hx : x ∈ history cs p) : ∃ c q, x = exchange c q ∧ q.1.Sifted := by
  induction cs generalizing p with
  | nil => simp [history] at hx
  | cons c cs ih =>
    rcases List.mem_cons.1 hx with rfl | hlater
    · exact ⟨c, p, rfl, h⟩
    · exact ih (sifted_run h) hlater

/-- An error that was sent is told exactly when it is not mistaken for a warning, or happens to be
the word of the session itself. -/
theorem mem_messages_iff (hp : p.1.Sifted)
    (h : (c.exchange p).outcome = .error (.compilation unitName messages))
    (hm : m ∈ (c.exchange p).sent) (herror : (ofMessage m).severity = .error) :
    m ∈ messages ↔ mistaken m = false ∨ m ∈ (c.exchange p).fallback := by
  obtain ⟨step, hstep⟩ := Exchange.exists_step_of_mem_sent hm
  have hwaiting : m ∈ p.1.pending → mistaken m = false := fun hm => by
    rw [mistaken, hp m hm, Bool.false_and]
  rw [(accounted c p).messages_eq hstep h, List.mem_append, Exchange.found, List.mem_append,
    Exchange.accepted_eq, mem_keptMessages_iff_of_error hm herror]
  exact or_congr_left (or_iff_right_of_imp hwaiting)

/-- The word of the session about a text that does not compile is not mistaken. -/
theorem not_mistaken_of_fallback {source : String}
    (h : m ∈ ((compile source).exchange p).fallback) : mistaken m = false := by
  unfold Exchange.fallback Exchange.step? at h
  split at h
  · next step hstep =>
    split at hstep
    · simp at hstep
    · obtain rfl := Option.some.inj hstep
      split at h
      · rw [List.mem_singleton.1 h]
        show mistaken ("tcc: error: " ++ "compile" ++ " failed") = false
        decide +kernel
      · simp at h
  · simp at h

/-- **When only the warnings are dropped.** What a session keeps of the messages that the compiler
sends during a request is all but the warnings exactly when none of them is mistaken for a
warning. And an error that was sent during a call that fails is among the messages of the failure
exactly when it is not mistaken, or is what the session says of a silent failure; for a text that
does not compile it is never the latter. -/
theorem errors_told_iff (cs : List SessionCall) (p : Session × World σ) (hp : p.1.Sifted) :
    (∀ (r : Request) (s : Session) (w : World σ), (InSession.request r (s, w)).2.1.pending =
        s.pending ++ (w.ask s.serial r).1.messages.filter
          (fun m => (ofMessage m).severity != .warning) ↔
      ∀ m ∈ (w.ask s.serial r).1.messages, mistaken m = false) ∧
    ∀ x ∈ history cs p, ∀ unitName messages,
      x.outcome = .error (.compilation unitName messages) →
        ∀ m ∈ x.sent, (ofMessage m).severity = .error →
          (m ∈ messages ↔ mistaken m = false ∨ m ∈ x.fallback) ∧
          ∀ source, x.call = .compile source → (m ∈ messages ↔ mistaken m = false) := by
  refine ⟨fun r s w => ?_, fun x hx unitName messages houtcome m hm herror => ?_⟩
  · rw [InSession.request_apply, List.append_cancel_left_eq, keptMessages_eq_filter_iff]
  · obtain ⟨c, q, rfl, hq⟩ := exists_of_mem_history hp hx
    have htold := mem_messages_iff hq houtcome hm herror
    refine ⟨htold, fun source hcall => ?_⟩
    obtain rfl : c = .compile source := hcall
    rw [htold]
    exact or_iff_left_of_imp not_mistaken_of_fallback

/-- A world with the compiler of scripts, in which nothing has happened yet. -/
def quietWorld : World Scripted.Library := .start (.start []) (.empty 0) (.start ⟨[]⟩ ⟨[]⟩ []) false

/-- After a warning, an error that speaks of a warning without the mark is told. -/
theorem errors_told_iff_afterWarning :
    let told := "<string>:1: error: a warning is missing"
    let call := compile "@[warning unused]@[error a warning is missing]"
    ∃ s w messages, Session.create .memory "a.c" quietWorld = (.ok s, w) ∧ s.Sifted ∧
      (call.exchange (s, w)).sent = ["<string>:1: warning: unused", told] ∧
      (call.exchange (s, w)).outcome = .error (.compilation "a.c" messages) ∧
      (ofMessage told).severity = .error ∧ mistaken told = false ∧ told ∈ messages := by
  intro told call
  obtain ⟨s, w, hcreate, hpending, hsent, houtcome⟩ :
      ∃ s w, Session.create .memory "a.c" quietWorld = (.ok s, w) ∧ s.pending = [] ∧
        (call.exchange (s, w)).sent = ["<string>:1: warning: unused", told] ∧
        (call.exchange (s, w)).outcome = .error (.compilation "a.c" [told]) := by
    refine ⟨_, _, rfl, rfl, ?_, ?_⟩ <;> decide +kernel
  have hsifted : s.Sifted := by simp [Session.Sifted, hpending]
  have herror : (ofMessage told).severity = .error := by decide +kernel
  have hmistaken : mistaken told = false := by decide +kernel
  have hmem : told ∈ (call.exchange (s, w)).sent := by simp [hsent]
  have htold := (errors_told_iff [call] (s, w) hsifted).2 _ List.mem_cons_self _ _ houtcome
    told hmem herror
  exact ⟨s, w, _, hcreate, hsifted, hsent, houtcome, herror, hmistaken, (htold.2 _ rfl).2 hmistaken⟩

/-- An error that speaks of a warning by its mark is not told: the failure has the word of the
session alone. -/
theorem quotedWarning_untold :
    let sent := "<string>:1: error: no warning: an error"
    let call := compile "@[error no warning: an error]"
    ∃ s w, Session.create .memory "a.c" quietWorld = (.ok s, w) ∧
      (call.exchange (s, w)).sent = [sent] ∧ (ofMessage sent).severity = .error ∧
      sent ∉ keptMessages [sent] ∧
      (call.exchange (s, w)).outcome =
        .error (.compilation "a.c" ["tcc: error: compile failed"]) := by
  refine ⟨_, _, rfl, ?_, ?_, ?_, ?_⟩ <;> decide +kernel

end SessionCall

end LiveC
