import LiveC.Proofs.Compiler.Texts
import LiveC.Proofs.Files.Tree
import LiveC.Proofs.Session.Sources
/-!
# The scripted compiler takes source files

A file that is no object amounts to its own text: where a text stands only shows in the messages
about it (`Progress.Agrees.compileLines`). What the scripted compiler is after it made a state and
was asked for some things is told by the text and the names of that state. So it is a translator
that takes sources (`sourceTranslator`).
-/

namespace LiveC.Scripted

namespace Progress

/-- Two compilations have come to the same, but for what they report and for where they are. -/
structure Agrees (p q : Progress) : Prop where
  state : p.state = q.state
  failed : p.failed = q.failed

variable {p q : Progress}

namespace Agrees

theorem obey (h : p.Agrees q) (loading : Bool) (d : Directive) :
    (p.obey loading d).Agrees (q.obey loading d) := by
  cases d with
  | error text | fail => cases loading <;> exact ⟨h.state, by first | rfl | exact h.failed⟩
  | warning text | raw text => cases loading <;> exact ⟨h.state, h.failed⟩
  | need name => exact ⟨congrArg (State.need · name) h.state, h.failed⟩
  | act step => exact ⟨congrArg (State.addStep · step) h.state, h.failed⟩

theorem obeyAll (h : p.Agrees q) (loading : Bool) (ds : List Directive) :
    (p.obeyAll loading ds).Agrees (q.obeyAll loading ds) := by
  induction ds generalizing p q with
  | nil => exact h
  | cons d ds ih =>
    have hfirst := h.obey loading d
    rw [Progress.obeyAll, Progress.obeyAll, hfirst.failed]
    split
    · exact hfirst
    · exact ih hfirst

/-- **Where a text stands makes no difference to what becomes of it.** -/
theorem compileLines (h : p.Agrees q) (loading : Bool) (lines : List (List Char)) :
    (p.compileLines loading lines).Agrees (q.compileLines loading lines) := by
  induction lines generalizing p q with
  | nil => exact h
  | cons line lines ih =>
    have hrest {p q : Progress} (h : p.Agrees q) :
        (p.compileRest loading line lines).Agrees (q.compileRest loading line lines) := by
      have hline := h.obeyAll loading (directivesOf line)
      rw [compileRest, compileRest, hline.failed]
      split
      · exact hline
      · exact ih ⟨hline.state, rfl⟩
    rw [compileLines_cons, compileLines_cons]
    split
    · exact ih ⟨h.state, h.failed⟩
    · exact hrest h
    · next name _ _ =>
      rw [h.state]
      split
      · exact ⟨h.state, rfl⟩
      · exact hrest ⟨rfl, h.failed⟩

end Agrees

end Progress

/-! ## Source files -/

/-- What becomes of a text that stands in a file. -/
def outcomeIn (path text : String) : Progress :=
  Progress.compileLines false ⟨.fresh, path, 1, #[], false⟩ (Text.splitAll '\n' text.toList)

theorem outcomeIn_agrees (path text : String) : (outcomeIn path text).Agrees (outcome text) :=
  Progress.Agrees.compileLines (p := ⟨.fresh, path, 1, #[], false⟩)
    (q := ⟨.fresh, textFile, 1, #[], false⟩) ⟨rfl, rfl⟩ false _

/-- What becomes of a file that is there and is no object. -/
def source? (files : FileTree) (path : String) : Option SourceFile :=
  let text := ((files.bytes? path).map Text.textOf).getD ""
  if files.exists? path = false ∨ (Text.stripStart? objectMark.toList text.toList).isSome ∨
      Text.endsWith path ".o" then none
  else some ⟨(outcomeIn path text).messages.toList, (outcomeIn path text).failed, text⟩

variable {files : FileTree} {path text : String} {t : SourceFile} {s s' : State}

theorem source?_eq_some (h : source? files path = some t) : files.exists? path = true ∧
    ((files.bytes? path).map Text.textOf).getD "" = t.text ∧
    Text.stripStart? objectMark.toList t.text.toList = none ∧ Text.endsWith path ".o" = false ∧
    t.messages = (outcomeIn path t.text).messages.toList ∧
    t.failed = (outcomeIn path t.text).failed := by
  unfold source? at h
  dsimp only at h
  split at h
  · exact absurd h (by simp)
  · next hplain =>
    obtain rfl := Option.some.inj h
    simp only [not_or, Bool.not_eq_false, Bool.not_eq_true, Option.isSome_eq_false_iff,
      Option.isNone_iff_eq_none] at hplain
    exact ⟨hplain.1, rfl, hplain.2.1, hplain.2.2, rfl, rfl⟩

/-- A source is what it was when another file is written. -/
theorem source?_write {files' : FileTree} {other : String} {bytes : ByteArray}
    (hsource : source? files path = some t) (h : files.write? other bytes = some files') :
    source? files' path = some t ∨ files'.bytes? path = some bytes := by
  obtain ⟨hexists, -⟩ := source?_eq_some hsource
  refine (FileTree.bytes?_write_cases h hexists).imp_left fun hbytes => ?_
  obtain ⟨e, he⟩ := FileTree.exists?_iff.1 hexists
  have hexists' : files'.exists? path = true :=
    FileTree.exists?_iff.2 ⟨e, FileTree.entry?_write_of_some h he⟩
  rw [← hsource, source?, source?, hbytes, hexists, hexists']

/-- A source is compiled into a state with no text. -/
theorem State.Holds.addSource (h : s.Holds "") (hsource : source? files path = some t) :
    s.addFile path files = (⟨t.messages, t.failed, none⟩,
      ((outcomeIn path t.text).rebase s.registered t.text).state) := by
  obtain ⟨-, htext, hplain, hname, hmessages, hfailed⟩ := source?_eq_some hsource
  have hcompile : s.compile false path t.text =
      (outcomeIn path t.text).rebase s.registered t.text := by
    rw [State.compile, h.eq_rebase, outcomeIn, ← Progress.rebase_compileLines]
    rfl
  unfold State.addFile
  rw [htext]
  dsimp only
  rw [hplain]
  dsimp only
  rw [hname, if_neg (by simp), hcompile, hmessages, hfailed]
  rfl

/-- A source that was compiled is held as its text. -/
theorem holds_addSource (registered : List (String × Address)) (path text : String) :
    ((outcomeIn path text).rebase registered text).state.Holds text := by
  have hstate := (outcomeIn_agrees path text).state
  refine ⟨rfl, ?_, ?_⟩
  · have hsame := congrArg State.definitions hstate
    exact hsame
  · have hsame := congrArg State.needs hstate
    exact hsame

/-- A state is told by its text and by the names that it knows. -/
theorem State.Holds.ext (h : s.Holds text) (h' : s'.Holds text) (hlink : s.link.registered =
    s'.link.registered) : s = s' := by
  have hregistered : s.registered = s'.registered := List.reverse_injective hlink
  obtain ⟨definitions, needs, registered, kept⟩ := s
  obtain ⟨definitions', needs', registered', kept'⟩ := s'
  obtain rfl := h.kept.trans h'.kept.symm
  obtain rfl := h.definitions.trans h'.definitions.symm
  obtain rfl := h.needs.trans h'.needs.symm
  obtain rfl := hregistered
  rfl

/-! ## The last state -/

namespace Library

variable {c c' : Library} {states : Array State} {qs : List Request}

theorem state_last (states : Array State) (s : State) :
    state ⟨states.push s, []⟩ states.size = s := state_push (c := ⟨states, []⟩) s []

/-- The last state answers. -/
theorem answer_last (states : Array State) (s : State) (q : Request) (files : FileTree) :
    Compiler.answer states.size q files (⟨states.push s, []⟩ : Library) =
      ((s.answer states.size files q).1, (s.answer states.size files q).2.1,
        ⟨states.push (s.answer states.size files q).2.2, []⟩) := by
  have hanswer : Compiler.answer states.size q files (⟨states.push s, []⟩ : Library) = _ :=
    answer_eq rfl states.size q files
  have hset (s' : State) : (states.push s).setIfInBounds states.size s' = states.push s' := by grind
  rw [hanswer, state_last, hset]

/-- Requests to the last state change that state only. -/
theorem exists_of_asks (h : Compiler.Asks states.size c qs c')
    (hc : ∃ s, c = ⟨states.push s, []⟩) : ∃ s, c' = ⟨states.push s, []⟩ := by
  induction h with
  | nil c => exact hc
  | cons q files h ih =>
    obtain ⟨s, rfl⟩ := hc
    exact ih ⟨_, congrArg (·.2.2) (answer_last states s q files)⟩

theorem exists_of_opens (h : linker.Opens c qs c') : ∃ s, c' = ⟨c.states.push s, []⟩ := by
  obtain ⟨hready, address, c₁, hcreate, hasks⟩ := h
  obtain rfl := create_of_nil hready hcreate
  exact exists_of_asks hasks ⟨_, rfl⟩

theorem contains_last {s : State} {text : String} :
    codeModel.Contains ⟨states.push s, []⟩ states.size text ↔ s.Holds text := by
  have hlt : states.size < (states.push s).size := by rw [Array.size_push]; exact Nat.lt_succ_self _
  have hlast : codeModel.Contains ⟨states.push s, []⟩ states.size text ↔
      states.size < (states.push s).size ∧ (state ⟨states.push s, []⟩ states.size).Holds text :=
        .rfl
  rw [hlast, state_last, and_iff_right hlt]

theorem holds_last (states : Array State) (s : State) :
    linker.holds ⟨states.push s, []⟩ states.size = s.link :=
      congrArg State.link (state_last states s)

end Library

/-- **The scripted compiler takes sources** when nothing is planned to fail. Nothing less than the
same states makes two of its libraries alike. -/
def sourceTranslator : SourceTranslator Library where
  toTranslator := translator
  source? _ := source?
  exists_of_source h := (source?_eq_some h).1
  sources := by
    intro c c' qs files path t hopens hblank hsource
    obtain ⟨s, rfl⟩ := Library.exists_of_opens hopens
    have hadd := (Library.contains_last.1 hblank).addSource hsource
    have hanswer := Library.answer_last c.states s (.addFile path) files
    rw [State.answer, hadd] at hanswer
    refine ⟨_, hanswer, fun hok => ⟨?_, ?_, ?_⟩⟩
    · obtain ⟨-, -, -, -, -, hfailed⟩ := source?_eq_some hsource
      exact (outcomeIn_agrees path t.text).failed.symm.trans (hfailed.symm.trans hok)
    · exact Library.contains_last.2 (holds_addSource s.registered path t.text)
    · have hbefore := Library.holds_last c.states s
      have hafter := Library.holds_last c.states
        ((outcomeIn path t.text).rebase s.registered t.text).state
      exact (congrArg LinkState.registered hafter).trans
        (congrArg LinkState.registered hbefore).symm
  Alike _ c c' := c = c'
  alike_refl _ _ := rfl
  alike_create h := h ▸ ⟨rfl, rfl⟩
  alike_answer _ h _ := h ▸ ⟨rfl, rfl, rfl⟩
  alike_routine h := h ▸ rfl
  alike_reach h := h ▸ rfl
  alike_text := by
    intro c₀ c₀' c c' qs qs' text h hsize hopens hopens' hc hc' hknown
    obtain rfl := h
    obtain ⟨s, rfl⟩ := Library.exists_of_opens hopens
    obtain ⟨s', rfl⟩ := Library.exists_of_opens hopens'
    have hregistered : s.link.registered = s'.link.registered := by
      rw [← Library.holds_last c₀.states s, ← Library.holds_last c₀.states s']
      exact hknown
    rw [(Library.contains_last.1 hc).ext (Library.contains_last.1 hc') hregistered]

end LiveC.Scripted
