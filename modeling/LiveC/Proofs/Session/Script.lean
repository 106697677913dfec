import LiveC.Flags.Run
import LiveC.Proofs.Session.Translator
/-!
# The script of a session

What a session asks of its compiler state, and how it takes the answers, is fixed before the first
call: a `Step` is a request with the manner in which its answer is taken, and a script is a list of
steps. `Follows` says what comes of a script for some answers. The session goes through it step by
step; a step that fails is the last one, unless it only offered a name (`Follows.eq_nil_of_fails`).
What the compiler says when it does not take a name that was offered is never heard of again
(`Follows.quoted`).

`Plays` says of a computation in a session that it goes through a script, with the answers that its
compiler gives. It goes through sequences and loops, so that the preparation of a session has its
script read off its text (`prepare_plays`), and so have the steps that load a unit (`Loading`).
-/

namespace LiveC

variable {σ α β : Type}

/-- The messages of the compiler that a failure quotes. -/
def Failure.quoted : Failure → List String
  | compilation _ messages => messages
  | invalidArgument (.badOptions messages) => messages
  | _ => []

/-! ## Steps -/

/-- How the answer to a request is taken. -/
inductive Manner
  /-- There is nothing to be taken but messages. -/
  | told
  /-- Any message that nobody has taken yet is a failure. -/
  | checked
  /-- A failure of the request is one of the session. -/
  | demanded
  /-- A failure of the request is passed over. -/
  | offered
  deriving DecidableEq

/-- A request, and how its answer is taken. -/
structure Step where
  manner : Manner
  request : Request
  deriving DecidableEq

namespace Step

/-- What an answer makes of the messages that nobody has taken: the session goes on with some of
them, or it fails. -/
def take (unitName : String) (pending : List String) (step : Step) (reply : Reply) :
    Except Failure (List String) :=
  let heard := pending ++ keptMessages reply.messages
  match step.manner with
  | .told => .ok heard
  | .checked => if heard.isEmpty then .ok [] else .error (.invalidArgument (.badOptions heard))
  | .demanded =>
    if reply.failed then
      .error (.compilation unitName
        (if heard.isEmpty then [silentFailure step.request] else heard))
    else .ok heard
  | .offered => .ok (if reply.failed then [] else heard)

/-- Whether an answer is a failure by itself, whatever was said before. -/
def Fails (step : Step) (reply : Reply) : Prop :=
  step.manner = .demanded ∧ reply.failed = true ∨
    step.manner = .checked ∧ keptMessages reply.messages ≠ []

theorem exists_take_of_fails {step : Step} {reply : Reply} (h : step.Fails reply)
    (unitName : String) (pending : List String) :
    ∃ e, step.take unitName pending reply = .error e := by
  rcases h with ⟨hm, hr⟩ | ⟨hm, hr⟩
  · exact ⟨_, by simp only [take, hm, hr, if_true]; rfl⟩
  · exact ⟨_, by simp only [take, hm]; rw [if_neg (by simp [hr])]⟩

theorem mem_of_mem_heard {pending : List String} {reply : Reply} {m : String}
    (h : m ∈ pending ++ keptMessages reply.messages) : m ∈ pending ∨ m ∈ reply.messages :=
  (List.mem_append.1 h).imp_right fun h => (List.mem_filter.1 h).1

/-- The messages that the session goes on with were said. -/
theorem mem_of_take_ok {step : Step} {reply : Reply} {unitName m : String}
    {pending heard : List String} (h : step.take unitName pending reply = .ok heard)
    (hm : m ∈ heard) : m ∈ pending ∨ m ∈ reply.messages := by
  refine mem_of_mem_heard ?_
  unfold take at h
  cases hmanner : step.manner with
  | told =>
    simp only [hmanner] at h
    rwa [Except.ok.inj h]
  | checked =>
    simp only [hmanner] at h
    split at h
    · rw [← Except.ok.inj h] at hm
      simp at hm
    · simp at h
  | demanded =>
    simp only [hmanner] at h
    split at h
    · simp at h
    · rwa [Except.ok.inj h]
  | offered =>
    simp only [hmanner] at h
    rw [← Except.ok.inj h] at hm
    split at hm
    · simp at hm
    · exact hm

/-- A failure quotes what was said, or says itself that the request failed. -/
theorem mem_of_take_error {step : Step} {reply : Reply} {unitName m : String}
    {pending : List String} {e : Failure} (h : step.take unitName pending reply = .error e)
    (hm : m ∈ e.quoted) : m ∈ pending ∨ m ∈ reply.messages ∨ m = silentFailure step.request := by
  unfold take at h
  cases hmanner : step.manner with
  | told => simp [hmanner] at h
  | offered => simp [hmanner] at h
  | checked =>
    simp only [hmanner] at h
    split at h
    · simp at h
    · obtain rfl := Except.error.inj h
      exact (mem_of_mem_heard hm).imp_right .inl
  | demanded =>
    simp only [hmanner] at h
    split at h
    · obtain rfl := Except.error.inj h
      rw [Failure.quoted] at hm
      split at hm
      · exact .inr (.inr (List.mem_singleton.1 hm))
      · exact (mem_of_mem_heard hm).imp_right .inl
    · simp at h

/-- The calls to the state of a number that some steps and their answers are. -/
def calls (n : Nat) (t : List (Step × Reply)) : List Call :=
  t.map fun x => .asked n x.1.request x.2.failed

theorem calls_append (n : Nat) (t u : List (Step × Reply)) :
    calls n (t ++ u) = calls n t ++ calls n u := List.map_append

end Step

/-! ## Scripts -/

/-- What comes of a script in a session with messages that nobody has taken: the steps that are made
with their answers, and the messages left, or the failure of the session. A step that cannot be
passed on to the compiler fails, or is passed over if it only offers something. -/
inductive Follows (unitName : String) :
    List Step → List String → List (Step × Reply) → Except Failure (List String) → Prop
  | done (pending : List String) : Follows unitName [] pending [] (.ok pending)
  | asked {step : Step} {script : List Step} {pending heard : List String} {reply : Reply}
    {t : List (Step × Reply)} {o : Except Failure (List String)}
    (h : step.take unitName pending reply = .ok heard) (rest : Follows unitName script heard t o) :
    Follows unitName (step :: script) pending ((step, reply) :: t) o
  | failed {step : Step} {script : List Step} {pending : List String} {reply : Reply} {e : Failure}
    (h : step.take unitName pending reply = .error e) :
    Follows unitName (step :: script) pending [(step, reply)] (.error e)
  | refused {step : Step} {script : List Step} {pending : List String} {e : Failure}
    (h : step.manner ≠ .offered) (hquoted : e.quoted = []) :
    Follows unitName (step :: script) pending [] (.error e)
  | passed {step : Step} {script : List Step} {pending : List String} {t : List (Step × Reply)}
    {o : Except Failure (List String)} (h : step.manner = .offered)
    (rest : Follows unitName script pending t o) : Follows unitName (step :: script) pending t o

namespace Follows

variable {unitName : String} {script script' : List Step} {pending heard : List String}
  {t t' : List (Step × Reply)} {o : Except Failure (List String)} {e : Failure}

/-- After a script that is gone through comes another one. -/
theorem append (h : Follows unitName script pending t (.ok heard))
    (h' : Follows unitName script' heard t' o) :
    Follows unitName (script ++ script') pending (t ++ t') o := by
  generalize ho : (Except.ok heard : Except Failure (List String)) = r at h
  induction h with
  | done pending =>
    obtain rfl := Except.ok.inj ho
    exact h'
  | asked h rest ih => exact .asked h (ih ho)
  | failed h => simp at ho
  | refused h hquoted => simp at ho
  | passed h rest ih => exact .passed h (ih ho)

/-- After a failure nothing else comes. -/
theorem append_of_error (h : Follows unitName script pending t (.error e)) (script' : List Step) :
    Follows unitName (script ++ script') pending t (.error e) := by
  generalize ho : (Except.error e : Except Failure (List String)) = r at h
  induction h with
  | done pending => simp at ho
  | asked h rest ih => exact .asked h (ih ho)
  | failed h =>
    obtain rfl := Except.error.inj ho
    exact .failed h
  | refused h hquoted =>
    obtain rfl := Except.error.inj ho
    exact .refused h hquoted
  | passed h rest ih => exact .passed h (ih ho)

/-- The steps are made in the order of the script. -/
theorem sublist (h : Follows unitName script pending t o) : (t.map Prod.fst).Sublist script := by
  induction h with
  | done pending => exact .slnil
  | asked h rest ih => exact ih.cons_cons _
  | failed h => exact .cons_cons _ (List.nil_sublist _)
  | refused h hquoted => exact List.nil_sublist _
  | passed h rest ih => exact ih.cons _

/-- A session that does not fail makes all steps, save that it may pass over what it offers. -/
theorem filter_eq (h : Follows unitName script pending t (.ok heard)) :
    (t.map Prod.fst).filter (·.manner != .offered) = script.filter (·.manner != .offered) := by
  generalize ho : (Except.ok heard : Except Failure (List String)) = r at h
  induction h with
  | done pending => rfl
  | asked h rest ih => rw [List.map_cons, List.filter_cons, List.filter_cons, ih ho]
  | failed h => simp at ho
  | refused h hquoted => simp at ho
  | passed h rest ih => rw [List.filter_cons_of_neg (by simp [h]), ih ho]

/-- The steps that a session makes, save what it offers, are the first ones of the script. -/
theorem first_filter (h : Follows unitName script pending t o) :
    (t.map Prod.fst).filter (·.manner != .offered) <+: script.filter (·.manner != .offered) := by
  induction h with
  | done pending => exact List.nil_prefix
  | @asked step script pending heard reply t o h rest ih =>
    rw [List.map_cons, List.filter_cons, List.filter_cons]
    split
    · exact (List.prefix_cons_inj step).2 ih
    · exact ih
  | @failed step script pending reply e h =>
    have hmanner : step.manner ≠ .offered := fun hoffered => by simp [Step.take, hoffered] at h
    rw [List.map_cons, List.map_nil, List.filter_cons_of_pos (by simpa using hmanner),
      List.filter_cons_of_pos (by simpa using hmanner)]
    exact (List.prefix_cons_inj step).2 List.nil_prefix
  | refused h hquoted => exact List.nil_prefix
  | passed h rest ih =>
    rw [List.filter_cons_of_neg (by simp [h])]
    exact ih

/-- **What is offered never makes a session fail**: a failure is that of a step of the script which
offers nothing. Either that step cannot be passed on to the compiler, or it is the last one made. -/
theorem exists_failed (h : Follows unitName script pending t (.error e)) :
    ∃ step ∈ script, step.manner ≠ .offered ∧ (e.quoted = [] ∨ ∃ before reply heard,
      t = before ++ [(step, reply)] ∧ step.take unitName heard reply = .error e) := by
  generalize ho : (Except.error e : Except Failure (List String)) = r at h
  induction h with
  | done pending => simp at ho
  | @asked step script pending heard reply t o h rest ih =>
    obtain ⟨failed, hmem, hmanner, hfailed⟩ := ih ho
    refine ⟨failed, List.mem_cons_of_mem _ hmem, hmanner, hfailed.imp_right ?_⟩
    rintro ⟨before, reply', heard', rfl, htake⟩
    exact ⟨(step, reply) :: before, reply', heard', rfl, htake⟩
  | @failed step script pending reply e h =>
    obtain rfl := Except.error.inj ho
    have hmanner : step.manner ≠ .offered := fun hoffered => by simp [Step.take, hoffered] at h
    exact ⟨step, List.mem_cons_self, hmanner, .inr ⟨[], reply, pending, rfl, h⟩⟩
  | @refused step script pending e h hquoted =>
    obtain rfl := Except.error.inj ho
    exact ⟨step, List.mem_cons_self, h, .inl hquoted⟩
  | passed h rest ih =>
    obtain ⟨failed, hmem, hfailed⟩ := ih ho
    exact ⟨failed, List.mem_cons_of_mem _ hmem, hfailed⟩

/-- **A step that fails is the last one**, and its failure is that of the session. -/
theorem eq_nil_of_fails (h : Follows unitName script pending t o)
    {before after : List (Step × Reply)}
    {step : Step} {reply : Reply} (ht : t = before ++ (step, reply) :: after)
    (hfails : step.Fails reply) : after = [] ∧ ∃ e, o = .error e := by
  induction h generalizing before with
  | done pending => simp at ht
  | @asked step' script pending heard reply' t o h rest ih =>
    cases before with
    | nil =>
      obtain ⟨hx, -⟩ := List.cons.inj ht
      obtain ⟨rfl, rfl⟩ := Prod.mk.inj hx
      obtain ⟨e, he⟩ := Step.exists_take_of_fails hfails unitName pending
      rw [h] at he
      simp at he
    | cons x before => exact ih (List.cons.inj ht).2
  | failed h =>
    cases before with
    | nil => exact ⟨(List.cons.inj ht).2.symm, _, rfl⟩
    | cons x before => simp at ht
  | refused h hquoted => simp at ht
  | passed h rest ih => exact ih ht

/-- What a failure quotes was said by the compiler and taken by nobody, or is the word of the
session itself that a request failed. -/
theorem mem_quoted (h : Follows unitName script pending t (.error e)) {m : String}
    (hm : m ∈ e.quoted) :
    m ∈ pending ∨ ∃ x ∈ t, m ∈ x.2.messages ∨ m = silentFailure x.1.request := by
  generalize ho : (Except.error e : Except Failure (List String)) = r at h
  induction h with
  | done pending => simp at ho
  | @asked step script pending heard reply t o h rest ih =>
    rcases ih ho with hpending | ⟨x, hx, hm⟩
    · exact (Step.mem_of_take_ok h hpending).imp_right fun h => ⟨_, List.mem_cons_self, .inl h⟩
    · exact .inr ⟨x, List.mem_cons_of_mem _ hx, hm⟩
  | failed h =>
    obtain rfl := Except.error.inj ho
    rcases Step.mem_of_take_error h hm with h | h | h
    · exact .inl h
    · exact .inr ⟨_, List.mem_cons_self, .inl h⟩
    · exact .inr ⟨_, List.mem_cons_self, .inr h⟩
  | refused h hquoted =>
    obtain rfl := Except.error.inj ho
    rw [hquoted] at hm
    simp at hm
  | passed h rest ih => exact ih ho

/-- **What is said of a name that was not taken is never heard of again**: whatever a failure quotes
was said after that, or is the word of the session itself. -/
theorem quoted (h : Follows unitName script pending t (.error e))
    {before after : List (Step × Reply)}
    {step : Step} {reply : Reply} (ht : t = before ++ (step, reply) :: after)
    (hmanner : step.manner = .offered) (hfailed : reply.failed = true) :
    ∀ m ∈ e.quoted, ∃ x ∈ after, m ∈ x.2.messages ∨ m = silentFailure x.1.request := by
  generalize ho : (Except.error e : Except Failure (List String)) = r at h
  induction h generalizing before with
  | done pending => simp at ho
  | @asked step' script pending heard reply' t o h rest ih =>
    cases before with
    | nil =>
      obtain ⟨hx, rfl⟩ := List.cons.inj ht
      obtain ⟨rfl, rfl⟩ := Prod.mk.inj hx
      have hheard : heard = [] := by
        simp only [Step.take, hmanner, hfailed, if_true] at h
        exact (Except.ok.inj h).symm
      subst hheard ho
      exact fun m hm => (rest.mem_quoted hm).resolve_left (by simp)
    | cons x before => exact ih (List.cons.inj ht).2 ho
  | failed h =>
    cases before with
    | nil =>
      obtain ⟨hx, -⟩ := List.cons.inj ht
      obtain ⟨rfl, rfl⟩ := Prod.mk.inj hx
      simp [Step.take, hmanner] at h
    | cons x before => simp at ht
  | refused h hquoted => simp at ht
  | passed h rest ih => exact ih ht ho

end Follows

/-! ## Talking to a state -/

namespace World

/-- Nothing changed that a session depends on, save which libraries are open. -/
structure Stays (w w' : World σ) : Prop where
  compiler : w'.compiler = w.compiler
  made : w'.made = w.made
  calls : w'.calls = w.calls
  files : w'.files = w.files
  settings : w'.settings = w.settings

theorem Stays.refl (w : World σ) : w.Stays w := ⟨rfl, rfl, rfl, rfl, rfl⟩

/-- Between two worlds the state of a number is asked for some things, and gives these answers. -/
inductive Talks [Compiler σ] (n : Nat) : World σ → List (Step × Reply) → World σ → Prop
  | rest {w w' : World σ} (h : w.Stays w') : Talks n w [] w'
  | asked (w : World σ) (step : Step) :
    Talks n w [(step, (w.ask n step.request).1)] (w.ask n step.request).2
  | trans {w w' w'' : World σ} {t t' : List (Step × Reply)} (h : Talks n w t w')
    (h' : Talks n w' t' w'') : Talks n w (t ++ t') w''

namespace Talks

variable [Compiler σ] {n : Nat} {w w' : World σ} {t : List (Step × Reply)}

theorem adds (h : w.Talks n t w') : w.Adds (Step.calls n t) w' := by
  induction h with
  | rest h => exact .of_calls_eq h.calls
  | asked w step => simp [Adds, Step.calls]
  | trans h h' ih ih' =>
    rw [Step.calls_append]
    exact ih.trans ih'

theorem made (h : w.Talks n t w') : w'.made = w.made := by
  induction h with
  | rest h => exact h.made
  | asked w step => rfl
  | trans h h' ih ih' => exact ih'.trans ih

theorem settings (h : w.Talks n t w') : w'.settings = w.settings := by
  induction h with
  | rest h => exact h.settings
  | asked w step => rfl
  | trans h h' ih ih' => exact ih'.trans ih

end Talks

end World

/-! ## Computations that go through a script -/

namespace InSession

variable [Compiler σ] {script script' : List Step} {p : Session × World σ}

/-- From a session and its world on, a computation goes through a script: it fails as the script
does, and of the session it only changes the messages. -/
def Plays (script : List Step) (x : InSession σ α) (p : Session × World σ) : Prop :=
  ∃ t, Follows p.1.unitName script p.1.pending t ((x p).1.map fun _ => (x p).2.1.pending) ∧
    p.2.Talks p.1.serial t (x p).2.2 ∧ (x p).2.1 = { p.1 with pending := (x p).2.1.pending }

namespace Plays

theorem session {x : InSession σ α} (h : Plays script x p) :
    (x p).2.1 = { p.1 with pending := (x p).2.1.pending } :=
  let ⟨_, _, _, hsession⟩ := h
  hsession

theorem settings {x : InSession σ α} (h : Plays script x p) :
    (x p).2.2.settings = p.2.settings :=
  let ⟨_, _, htalks, _⟩ := h
  htalks.settings

theorem pure (a : α) (p : Session × World σ) : Plays [] (pure a : InSession σ α) p :=
  ⟨[], .done _, .rest (.refl _), rfl⟩

/-- A step that cannot be passed on to the compiler. -/
theorem refuse {step : Step} (hstep : step.manner ≠ .offered) {e : Failure} (he : e.quoted = [])
    (p : Session × World σ) : Plays [step] (Attempt.fail e : InSession σ α) p :=
  ⟨[], .refused hstep he, .rest (.refl _), rfl⟩

theorem bind {x : InSession σ α} {f : α → InSession σ β} (hx : Plays script x p)
    (hf : ∀ a p', x p = (.ok a, p') → Plays script' (f a) p') :
    Plays (script ++ script') (x >>= f) p := by
  obtain ⟨t, hfollows, htalks, hsession⟩ := hx
  rcases h : x p with ⟨e | a, p'⟩
  · rw [h] at hfollows htalks hsession
    rw [Plays, Attempt.bind_of_error h]
    exact ⟨t, hfollows.append_of_error script', htalks, hsession⟩
  · rw [h] at hfollows htalks hsession
    obtain ⟨t', hfollows', htalks', hsession'⟩ := hf a p' h
    have hunit : p'.1.unitName = p.1.unitName := by rw [hsession]
    have hserial : p'.1.serial = p.1.serial := by rw [hsession]
    rw [hunit] at hfollows'
    rw [hserial] at htalks'
    rw [Plays, Attempt.bind_of_ok h]
    exact ⟨t ++ t', hfollows.append hfollows', htalks.trans htalks', by rw [hsession', hsession]⟩

/-- Looking at the session or its world is no step. -/
theorem look {x : InSession σ α} {a : α} (hx : x p = (.ok a, p)) {f : α → InSession σ β}
    (hf : Plays script (f a) p) : Plays script (x >>= f) p := by
  rw [Plays, Attempt.bind_of_ok hx]
  exact hf

theorem each {l : List α} {f : α → InSession σ Unit} (step : α → Step)
    (h : ∀ a p, Plays [step a] (f a) p) (p : Session × World σ) :
    Plays (l.map step) (Attempt.each l f) p := by
  induction l generalizing p with
  | nil => exact .pure () p
  | cons a l ih => exact (h a p).bind fun _ p' _ => ih p'

/-- A text that cannot be passed on is refused. -/
theorem checkText {step : Step} (hstep : step.manner ≠ .offered) (text : String)
    {x : InSession σ Unit} (hx : ∀ p, Plays [step] x p) (p : Session × World σ) :
    Plays [step] (checkText text >>= fun _ => x) p := by
  unfold InSession.checkText
  split
  · exact .refuse hstep rfl p
  · exact hx p

/-- A request whose answer is not looked at. -/
theorem request (q : Request) (p : Session × World σ) :
    Plays [⟨.told, q⟩] (request q >>= fun _ => Pure.pure () : InSession σ Unit) p := by
  obtain ⟨s, w⟩ := p
  rw [Plays, Attempt.bind_of_ok (request_apply q s w)]
  exact ⟨[(⟨.told, q⟩, (w.ask s.serial q).1)], .asked rfl (.done _), .asked w ⟨.told, q⟩, rfl⟩

theorem demand (q : Request) (p : Session × World σ) :
    Plays [⟨.demanded, q⟩] (demand q : InSession σ Unit) p := by
  obtain ⟨s, w⟩ := p
  have htalks : w.Talks s.serial [(⟨.demanded, q⟩, (w.ask s.serial q).1)] (w.ask s.serial q).2 :=
    .asked w ⟨.demanded, q⟩
  cases h : (w.ask s.serial q).1.failed with
  | false =>
    rw [Plays, demand_of_done h]
    exact ⟨_, .asked (by simp [Step.take, h]) (.done _), htalks, rfl⟩
  | true =>
    rw [Plays, demand_of_failed h]
    exact ⟨_, .failed (by simp [Step.take, h]), htalks, rfl⟩

theorem demandWith (text : String) (q : Request) (p : Session × World σ) :
    Plays [⟨.demanded, q⟩] (demandWith text q : InSession σ Unit) p :=
  checkText (by simp) text (demand q) p

theorem setOptions (options : String) (p : Session × World σ) :
    Plays [⟨.checked, .setOptions options⟩] (setOptions options : InSession σ Unit) p := by
  refine checkText (by simp) options (fun p => ?_) p
  obtain ⟨s, w⟩ := p
  have htalks : w.Talks s.serial
      [(⟨.checked, .setOptions options⟩, (w.ask s.serial (.setOptions options)).1)]
      (w.ask s.serial (.setOptions options)).2 := .asked w ⟨.checked, .setOptions options⟩
  rw [Plays, Attempt.bind_of_ok (request_apply _ s w), Attempt.bind_of_ok (x := takeMessages) rfl]
  split
  · next h => exact ⟨_, .asked (by simp only [Step.take]; exact if_pos h) (.done _), htalks, rfl⟩
  · next h => exact ⟨_, .failed (by simp only [Step.take]; exact if_neg h), htalks, rfl⟩

theorem setLibraryDirectory (path : String) (p : Session × World σ) :
    Plays [⟨.told, .setLibraryDirectory path⟩] (setLibraryDirectory path : InSession σ Unit) p :=
  checkText (by simp) path (request _) p

theorem define (name : String) (value : Option String) (p : Session × World σ) :
    Plays [⟨.told, .define name value⟩] (define name value : InSession σ Unit) p := by
  refine checkText (by simp) name (fun p => ?_) p
  cases value with
  | none => exact .look rfl (request _ p)
  | some text => exact checkText (by simp) text (request _) p

theorem addSymbol (name : String) (address : Address) (p : Session × World σ) :
    Plays [⟨.demanded, .addSymbol name address⟩] (addSymbol name address : InSession σ Unit) p := by
  unfold InSession.addSymbol
  split
  · exact .refuse (by simp) rfl p
  · exact demandWith name _ p

theorem addFile (path : String) (p : Session × World σ) :
    Plays [⟨.demanded, .addFile path⟩] (addFile path : InSession σ Unit) p := by
  refine .look rfl ?_
  split
  · exact demandWith path _ p
  · exact .refuse (by simp) rfl p

/-- An address is made known by a demand, unless there is none or the name cannot be passed on. -/
theorem addSymbol_cases (name : String) (address : Address) (p : Session × World σ) :
    (InSession.addSymbol name address p = InSession.demand (.addSymbol name address) p) ∨
      ∃ e, (InSession.addSymbol name address : InSession σ Unit) p = (.error e, p) := by
  unfold InSession.addSymbol
  split
  · exact .inr ⟨_, rfl⟩
  · unfold InSession.demandWith InSession.checkText
    split
    · exact .inr ⟨_, rfl⟩
    · exact .inl rfl

/-- A name is offered: whether or not it is taken, the session goes on. -/
theorem offer (warning : String → String → Warning) (name : String) (address : Address)
    (p : Session × World σ) :
    Plays [⟨.offered, .addSymbol name address⟩]
      (offer warning name address : InSession σ Unit) p := by
  obtain ⟨s, w⟩ := p
  have hwarn (e : Failure) (s : Session) (w : World σ) : ∃ w', w.Stays w' ∧
      (onWorld (Engine.warn (warning name e.message)) : InSession σ Unit) (s, w) =
        (.ok (), (s, w')) := by
    obtain ⟨errors, h⟩ := w.exists_warn_eq (warning name e.message)
    exact ⟨{ w with errors := errors }, ⟨rfl, rfl, rfl, rfl, rfl⟩, by rw [← h]; rfl⟩
  have hcapture {r : Except Failure Unit} {p' : Session × World σ}
      (h : InSession.addSymbol name address (s, w) = (r, p')) :
      (InSession.addSymbol name address).capture (s, w) = (.ok r, p') := by
    rw [Attempt.capture, h]
  have htalks : w.Talks s.serial
      [(⟨.offered, .addSymbol name address⟩, (w.ask s.serial (.addSymbol name address)).1)]
      (w.ask s.serial (.addSymbol name address)).2 := .asked w ⟨.offered, .addSymbol name address⟩
  rcases addSymbol_cases name address (s, w) with hdemand | ⟨e, hrefused⟩
  · cases h : (w.ask s.serial (.addSymbol name address)).1.failed with
    | false =>
      rw [demand_of_done h] at hdemand
      rw [Plays, InSession.offer, Attempt.bind_of_ok (hcapture hdemand)]
      exact ⟨_, .asked (by simp [Step.take, h]) (.done _), htalks, rfl⟩
    | true =>
      rw [demand_of_failed h] at hdemand
      obtain ⟨w', hstays, hrun⟩ := hwarn _ { s with pending := [] }
        (w.ask s.serial (.addSymbol name address)).2
      rw [Plays, InSession.offer, Attempt.bind_of_ok (hcapture hdemand)]
      dsimp only
      rw [hrun]
      exact ⟨_, .asked (by simp [Step.take, h]) (.done _), htalks.trans (.rest hstays), rfl⟩
  · obtain ⟨w', hstays, hrun⟩ := hwarn e s w
    rw [Plays, InSession.offer, Attempt.bind_of_ok (hcapture hrefused)]
    dsimp only
    rw [hrun]
    exact ⟨[], .passed rfl (.done _), .rest hstays, rfl⟩

end Plays

end InSession

/-! ## The preparation of a session -/

/-- The number of a kind of output. -/
def OutputMode.number (b : Binding) : OutputMode → Nat
  | memory => Dialect.memoryOutput
  | object => b.dialect.objectOutput

/-- The names that code in memory is offered: the builtins, and the functions of the compiler
library. -/
def offers (b : Binding) : List Step :=
  (builtins.offered.map fun b => ⟨.offered, .addSymbol b.name b.address⟩) ++
    b.offered.map fun f : String × Address => ⟨.offered, .addSymbol f.1 f.2⟩

/-- The script by which a session is prepared, told by the settings and by which directories there
are: the directory of the compiler if one is set, the options, the output, the names of the target
and of the engine, the usual and the further directories of headers, those of libraries, and, for
code in memory only, the names that it is offered. -/
def preparation (settings : Config × Binding × Platform) (isDirectory : String → Bool)
    (mode : OutputMode) : List Step :=
  let (config, binding, platform) := settings
  config.compilerDirectory.toList.map (fun path => ⟨.told, .setLibraryDirectory path⟩) ++
    [⟨.checked, .setOptions defaultOptions⟩] ++
    [⟨.demanded, .setOutput (mode.number binding)⟩] ++
    platform.defines.map (fun name => ⟨.told, .define name none⟩) ++
    [⟨.told, .define engineDefine none⟩] ++
    (platform.includeCandidates.filter isDirectory).map
      (fun path => ⟨.demanded, .addSystemIncludePath path⟩) ++
    config.includePaths.map (fun path => ⟨.demanded, .addIncludePath path⟩) ++
    (platform.libraryCandidates.filter isDirectory).map
      (fun path => ⟨.demanded, .addLibraryPath path⟩) ++
    config.libraryPaths.map (fun path => ⟨.demanded, .addLibraryPath path⟩) ++
    if mode = .memory then offers binding else []

namespace InSession

variable [Compiler σ] {settings : Config × Binding × Platform} {mode : OutputMode}
  {script script' : List Step}

/-- A computation that goes through a script in every session of a mode, under some settings. -/
def PlaysIn (settings : Config × Binding × Platform) (mode : OutputMode) (script : List Step)
    (x : InSession σ α) : Prop :=
  ∀ p, p.2.settings = settings → p.1.mode = mode → Plays script x p

namespace PlaysIn

theorem of_forall {x : InSession σ α} (h : ∀ p, Plays script x p) :
    PlaysIn settings mode script x := fun p _ _ => h p

theorem bind {x : InSession σ α} {f : α → InSession σ β} (hx : PlaysIn settings mode script x)
    (hf : ∀ a, PlaysIn settings mode script' (f a)) :
    PlaysIn settings mode (script ++ script') (x >>= f) := by
  intro p hsettings hmode
  have hplays := hx p hsettings hmode
  refine hplays.bind fun a p' h => hf a p' ?_ ?_
  · have hsame := hplays.settings
    rw [h] at hsame
    exact hsame.trans hsettings
  · have hsession := hplays.session
    rw [h] at hsession
    rw [hsession, hmode]

theorem each {l : List α} {f : α → InSession σ Unit} (step : α → Step)
    (h : ∀ a p, Plays [step a] (f a) p) :
    PlaysIn settings mode (l.map step) (Attempt.each l f) :=
  .of_forall (Plays.each step h)

end PlaysIn

theorem setOutput_plays (settings : Config × Binding × Platform) (mode : OutputMode) :
    PlaysIn settings mode [⟨.demanded, .setOutput (mode.number settings.2.1)⟩]
      (setOutput : InSession σ Unit) := by
  rintro p rfl rfl
  refine .look (x := session) rfl (.look (x := world) rfl ?_)
  have hplays := Plays.demand (.setOutput (p.1.mode.number p.2.binding)) p
  cases hmode : p.1.mode with
  | memory =>
    rw [hmode] at hplays
    exact hplays
  | object =>
    rw [hmode] at hplays
    exact hplays

theorem offerNames_plays (settings : Config × Binding × Platform) (mode : OutputMode) :
    PlaysIn settings mode (offers settings.2.1) (offerNames : InSession σ Unit) := by
  rw [offerNames_eq]
  refine PlaysIn.bind (.each (fun b : Builtin => ⟨.offered, .addSymbol b.name b.address⟩)
    fun b => .offer unregisteredBuiltin b.name b.address) fun _ => ?_
  rintro p rfl -
  exact .look rfl (.each (fun f : String × Address => ⟨.offered, .addSymbol f.1 f.2⟩)
    (fun f => .offer unregisteredFunction f.1 f.2) p)

/-- **Every session is prepared by one script**, which the settings and the directories fix. -/
theorem prepare_plays (p : Session × World σ) :
    Plays (preparation p.2.settings p.2.files.isDirectory p.1.mode)
      (prepare : InSession σ Unit) p := by
  refine .look (x := world) rfl (.look (x := session) rfl ?_)
  have hdirectory : PlaysIn p.2.settings p.1.mode
      (p.2.config.compilerDirectory.toList.map fun path => ⟨.told, .setLibraryDirectory path⟩)
      (p.2.config.compilerDirectory.elim (pure ()) setLibraryDirectory : InSession σ Unit) := by
    cases p.2.config.compilerDirectory with
    | none => exact .of_forall (.pure ())
    | some path => exact .of_forall (.setLibraryDirectory path)
  have hoffers : PlaysIn p.2.settings p.1.mode
      (if p.1.mode = .memory then offers p.2.binding else [])
      (if p.1.mode = .memory then offerNames else pure () : InSession σ Unit) := by
    split
    · exact offerNames_plays _ _
    · exact .of_forall (.pure ())
  have hall := hdirectory.bind fun _ =>
    (PlaysIn.of_forall (.setOptions defaultOptions)).bind fun _ =>
    (setOutput_plays _ _).bind fun _ =>
    (PlaysIn.each (l := p.2.linkage.platform.defines) _ fun name => .define name none).bind fun _ =>
    (PlaysIn.of_forall (.define engineDefine none)).bind fun _ =>
    (PlaysIn.each (l := existing p.2 p.2.linkage.platform.includeCandidates) _
      fun path => .demandWith path (.addSystemIncludePath path)).bind fun _ =>
    (PlaysIn.each (l := p.2.config.includePaths) _
      fun path => .demandWith path (.addIncludePath path)).bind fun _ =>
    (PlaysIn.each (l := existing p.2 p.2.linkage.platform.libraryCandidates) _
      fun path => .demandWith path (.addLibraryPath path)).bind fun _ =>
    (PlaysIn.each (l := p.2.config.libraryPaths) _
      fun path => .demandWith path (.addLibraryPath path)).bind fun _ => hoffers
  have hplays := hall p rfl rfl
  simp only [← List.append_assoc] at hplays
  exact hplays

end InSession

/-! ## The steps that load a unit -/

/-- Whether a step belongs to the loading of a unit: it sets options, directories or names, compiles
or links something, and none of its failures is passed over. -/
def Step.Loads : Step → Prop
  | ⟨.checked, .setOptions _⟩ | ⟨.told, .define _ _⟩ | ⟨.demanded, .addSystemIncludePath _⟩
  | ⟨.demanded, .addIncludePath _⟩ | ⟨.demanded, .addLibraryPath _⟩ | ⟨.demanded, .addLibrary _⟩
  | ⟨.demanded, .addFile _⟩ | ⟨.demanded, .compile _⟩ => True
  | _ => False

namespace InSession

variable [Compiler σ] {script : List Step}

/-- A computation that goes through steps which load something. -/
def Loading (x : InSession σ α) : Prop :=
  ∀ p, ∃ script, (∀ step ∈ script, step.Loads) ∧ Plays script x p

namespace Loading

theorem of_plays {x : InSession σ α} (hscript : ∀ step ∈ script, step.Loads)
    (h : ∀ p, Plays script x p) : Loading x := fun p => ⟨script, hscript, h p⟩

/-- After a computation that goes through a script comes the loading of a unit. -/
theorem after {p : Session × World σ} {x : InSession σ α} {f : α → InSession σ β}
    (hx : Plays script x p) (hf : ∀ a, Loading (f a)) : ∃ script',
      (∀ step ∈ script', step.Loads) ∧ Plays (script ++ script') (x >>= f) p := by
  rcases h : x p with ⟨e | a, p'⟩
  · refine ⟨[], by simp, hx.bind fun a p' hok => ?_⟩
    rw [h] at hok
    simp at hok
  · obtain ⟨script', hscript', hplays'⟩ := hf a p'
    refine ⟨script', hscript', hx.bind fun b p'' hok => ?_⟩
    rw [h] at hok
    obtain ⟨hab, rfl⟩ := Prod.mk.inj hok
    obtain rfl := Except.ok.inj hab
    exact hplays'

theorem bind {x : InSession σ α} {f : α → InSession σ β} (hx : Loading x)
    (hf : ∀ a, Loading (f a)) : Loading (x >>= f) := by
  intro p
  obtain ⟨script, hscript, hplays⟩ := hx p
  obtain ⟨script', hscript', hall⟩ := after hplays hf
  exact ⟨script ++ script', List.forall_mem_append.2 ⟨hscript, hscript'⟩, hall⟩

theorem pure (a : α) : Loading (pure a : InSession σ α) :=
  .of_plays (by simp) (Plays.pure a)

theorem each {l : List α} {f : α → InSession σ Unit} (h : ∀ a, Loading (f a)) :
    Loading (Attempt.each l f) := by
  induction l with
  | nil => exact .pure ()
  | cons a l ih => exact (h a).bind fun _ => ih

theorem compile (source : String) : Loading (compile source : InSession σ Unit) :=
  .of_plays (by simp [Step.Loads]) (Plays.demandWith source (.compile source))

theorem addFile (path : String) : Loading (addFile path : InSession σ Unit) :=
  .of_plays (by simp [Step.Loads]) (Plays.addFile path)

/-- Options, definitions, directories and files. -/
theorem apply (f : Flags) : Loading (f.apply : InSession σ Unit) := by
  have hoptions (options : String) : Loading (setOptions options : InSession σ Unit) :=
    .of_plays (by simp [Step.Loads]) (Plays.setOptions options)
  have hdefine (d : String × Option String) : Loading (define d.1 d.2 : InSession σ Unit) :=
    .of_plays (by simp [Step.Loads]) (Plays.define d.1 d.2)
  have hsystem (path : String) : Loading (addSystemIncludePath path : InSession σ Unit) :=
    .of_plays (by simp [Step.Loads]) (Plays.demandWith path (.addSystemIncludePath path))
  have hinclude (path : String) : Loading (addIncludePath path : InSession σ Unit) :=
    .of_plays (by simp [Step.Loads]) (Plays.demandWith path (.addIncludePath path))
  have hlibrary (path : String) : Loading (addLibraryPath path : InSession σ Unit) :=
    .of_plays (by simp [Step.Loads]) (Plays.demandWith path (.addLibraryPath path))
  have hrest := (Loading.each (l := f.defines) hdefine).bind fun _ =>
    (Loading.each (l := f.systemIncludePaths) hsystem).bind fun _ =>
    (Loading.each (l := f.includePaths) hinclude).bind fun _ =>
    (Loading.each (l := f.libraryPaths) hlibrary).bind fun _ => .each (l := f.files) addFile
  unfold Flags.apply
  split
  · exact hrest
  · exact (hoptions _).bind fun _ => hrest

/-- A library is opened in the process, or else given to the compiler. -/
theorem provide (name : String) : Loading (Flags.provide name : InSession σ Unit) := by
  refine Loading.bind ?_ fun r => ?_
  · rintro ⟨s, w⟩
    obtain ⟨result, errors, hopen⟩ := Engine.opening_apply
      (fun linkage files => linkage.openLibrary files name) w
    have hplatform : (w.linkage.openLibrary w.files name).2.platform = w.linkage.platform :=
      Linkage.platform_step w.linkage (.openLibrary w.files name)
    have hrun : (onWorld (Engine.openLibrary name)).capture (s, w) = (.ok result,
        (s, { w with linkage := (w.linkage.openLibrary w.files name).2, errors := errors })) := by
      rw [Attempt.capture, onWorld, Attempt.onSecond, Engine.openLibrary, hopen]
    refine ⟨[], by simp, [], ?_, ?_, ?_⟩
    · rw [hrun]
      exact .done _
    · rw [hrun]
      exact .rest ⟨rfl, rfl, rfl, rfl, by simp only [World.settings, hplatform]⟩
    · rw [hrun]
  · cases r with
    | ok _ => exact .pure ()
    | error _ =>
      exact .of_plays (by simp [Step.Loads]) (Plays.demandWith name (.addLibrary name))

/-- What a compiler's arguments put into a session. -/
theorem load (f : Flags) : Loading (f.load : InSession σ Unit) :=
  (apply f).bind fun _ => .each provide

end Loading

end InSession

end LiveC
