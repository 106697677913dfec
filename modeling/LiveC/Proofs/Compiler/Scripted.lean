import LiveC.Compiler.Scripted
import LiveC.Proofs.Session.Linker
import LiveC.Proofs.Text.Lines
/-!
# The scripted compiler misses names

When nothing is planned to fail, the scripted compiler is one that only misses names (`linker`): a
state holds the names that its source texts asked for, the routines that they define and the names
registered. `State.missing_eq` says that it reports exactly those asked for and neither defined nor
registered. `needing_loads` is a source text that asks for one name.
-/

namespace LiveC.Scripted

/-! ## What a state holds -/

namespace State

/-- What a state holds, as far as linking goes. -/
def link (s : State) : LinkState :=
  ⟨s.needs.toList, s.definitions.toList.map (·.name), s.registered.reverse⟩

theorem lookup_isNone (registered : List (String × Address)) (name : String) :
    (registered.lookup name).isNone = !(registered.map Prod.fst).contains name := by
  induction registered with
  | nil => rfl
  | cons n registered ih =>
    obtain ⟨other, address⟩ := n
    rw [List.lookup_cons, List.map_cons, List.contains_cons]
    cases h : name == other with
    | true => simp
    | false => simpa using ih

theorem index?_isNone (s : State) (name : String) :
    (s.index? name).isNone = !(s.definitions.toList.map (·.name)).contains name := by
  rw [index?, Bool.eq_iff_iff, Option.isNone_iff_eq_none, Array.findIdx?_eq_none_iff,
    Bool.not_eq_true', ← Bool.not_eq_true, List.contains_iff_mem, List.mem_map]
  simp only [beq_eq_false_iff_ne, Array.mem_toList_iff, not_exists, not_and]

/-- The names that a state reports are those that it misses. -/
theorem missing_eq (s : State) : s.missing = s.link.missing := by
  have hreverse (name : String) : (s.registered.reverse.map Prod.fst).contains name =
      (s.registered.map Prod.fst).contains name := by
    rw [List.map_reverse, List.contains_reverse]
  rw [missing, LinkState.missing, link]
  simp only [lookup_isNone, index?_isNone, hreverse, Bool.and_comm]

theorem relocate_eq (s : State) : s.relocate =
    ⟨s.link.missing.map missingMessage, !s.link.missing.isEmpty, none⟩ := by
  have hmessage : (fun name => "tcc: error: undefined symbol '" ++ name ++ "'") = missingMessage :=
    rfl
  rw [relocate, missing_eq, hmessage, List.isEmpty_map]

/-- Preparing a state registers the name that the request registers, and nothing else changes. -/
theorem answer_prepares {r : Request} (hr : InSession.Prepares r) (s : State) (serial : Nat)
    (files : FileTree) : ∃ s', s.answer serial files r = (.done, files, s') ∧
      s'.link = s.link.register r.registers := by
  cases r with
  | addSymbol name address =>
    refine ⟨_, rfl, ?_⟩
    simp [link, LinkState.register, Request.registers]
  | setLibraryDirectory _ | setOptions _ | setOutput _ | addIncludePath _
  | addSystemIncludePath _ | addLibraryPath _ | define _ _ =>
    exact ⟨s, rfl, s.link.register_nil.symm⟩
  | addLibrary _ | compile _ | addFile _ | writeFile _ | relocate | findSymbol _ | delete =>
    exact absurd hr id

end State

/-! ## A library with no plan -/

namespace Library

variable {c : Library}

/-- The state of a number. -/
def state (c : Library) (n : Nat) : State := c.states.getD n .fresh

/-- When nothing is planned to fail, the state of a number answers. -/
theorem answer_of_nil (h : c.plan = []) {n : Nat} {r : Request} {files files' : FileTree}
    {reply : Reply} {s : State} (hs : (c.state n).answer n files r = (reply, files', s)) :
    c.answer n r files = (reply, files', ⟨c.states.setIfInBounds n s, []⟩) := by
  rw [state] at hs
  unfold answer
  cases planKey? r with
  | none => simp only [h, hs]
  | some key => simp only [h, takePlanned, hs]

theorem state_set {n : Nat} (hn : n < c.states.size) (s : State) (plan : Plan) :
    state ⟨c.states.setIfInBounds n s, plan⟩ n = s := by
  simp [state, Array.getD_eq_getD_getElem?, hn]

theorem state_push (s : State) (plan : Plan) : state ⟨c.states.push s, plan⟩ c.states.size = s := by
  simp [state, Array.getD_eq_getD_getElem?]

end Library

/-- The scripted compiler only misses names when nothing is planned to fail. -/
def linker : Linker Library where
  Ready c := c.plan = []
  size c := c.states.size
  holds c n := (c.state n).link
  creates := by
    intro c h
    have hcreate : Library.create c =
        (some (stateAddress c.states.size), ⟨c.states.push .fresh, []⟩) := by
      rw [Library.create, h]
      rfl
    exact ⟨_, _, hcreate, rfl, Array.size_push _, by rw [Library.state_push]; rfl⟩
  prepares := by
    intro c n r files h hn hr
    obtain ⟨s, hanswer, hlink⟩ := (c.state n).answer_prepares hr n files
    refine ⟨_, Library.answer_of_nil h hanswer, rfl, Array.size_setIfInBounds, ?_⟩
    rw [Library.state_set hn, hlink]
  relocates := by
    intro c n files h hn
    have hanswer : (c.state n).answer n files .relocate =
        ((c.state n).relocate, files, c.state n) := rfl
    rw [State.relocate_eq] at hanswer
    exact ⟨_, Library.answer_of_nil h hanswer, rfl, Array.size_setIfInBounds⟩
  deletes := by
    intro c n files h hn
    have hanswer : (c.state n).answer n files .delete = (.done, files, c.state n) := rfl
    exact ⟨_, _, Library.answer_of_nil h hanswer, rfl, Array.size_setIfInBounds⟩

/-! ## A text that asks for one name -/

/-- The text of a directive that asks for a name. -/
def needing (name : String) : String := "@[need " ++ name ++ "]"

theorem toList_needing (name : String) :
    (needing name).toList = '@' :: '[' :: ("need".toList ++ ' ' :: name.toList ++ [']']) := by
  have hhead : "@[need ".toList = '@' :: '[' :: ("need".toList ++ [' ']) := by decide
  have hlast : "]".toList = [']'] := by decide
  have happend : (needing name).toList = "@[need ".toList ++ name.toList ++ "]".toList :=
    toList_append_append _ _ _
  rw [happend, hhead, hlast]
  simp only [List.cons_append, List.append_assoc, List.nil_append]

/-- A directive is read up to its end. -/
theorem directiveTexts_some {text : List Char} (h : ']' ∉ text) (body : List Char) :
    directiveTexts (some body) (text ++ [']']) = [body.reverse ++ text] := by
  induction text generalizing body with
  | nil => simp [directiveTexts]
  | cons c text ih =>
    have hc : c ≠ ']' := fun hc => h (by simp [hc])
    have hrest := ih (fun hmem => h (by simp [hmem])) (c :: body)
    rw [List.reverse_cons, List.append_assoc] at hrest
    rw [List.cons_append, directiveTexts]
    · exact hrest
    · exact hc

variable {name : String}

theorem directivesOf_needing (h : IsIdentifier name) :
    directivesOf (needing name).toList = [.need name] := by
  have hend : ']' ∉ "need".toList ++ ' ' :: name.toList := by
    rw [List.mem_append, List.mem_cons, not_or, not_or]
    exact ⟨by decide, by decide, h.not_mem (by decide)⟩
  have hneed : "need".toList = ['n', 'e', 'e', 'd'] := by decide
  have hdirective : Directive.ofText? ("need".toList ++ ' ' :: name.toList) =
      some (.need name) := by
    rw [hneed]
    simp [Directive.ofText?, Text.splitOnce?, Text.splitOnceFrom, List.isPrefixOf]
  rw [directivesOf, toList_needing, directiveTexts, directiveTexts_some hend]
  simp only [List.reverse_nil, List.nil_append, List.filterMap_cons, hdirective, List.filterMap_nil]

/-- The directive holds nothing but its own characters and those of the name. -/
theorem not_mem_needing (h : IsIdentifier name) {c : Char} (hc : isIdentifierChar c = false)
    (hown : c ∉ ['@', '[', 'n', 'e', 'd', ' ', ']']) : c ∉ (needing name).toList := by
  have hneed : "need".toList = ['n', 'e', 'e', 'd'] := by decide
  have hname := h.not_mem hc
  rw [toList_needing, hneed]
  simp_all

/-- Compiling the text asks for the name, without a message. -/
theorem compile_needing (h : IsIdentifier name) (s : State) :
    s.compile false textFile (needing name) =
      ⟨{ s with text := s.text ++ needing name }.need name, textFile, 2, #[], false⟩ := by
  have hlines : Text.splitAll '\n' (needing name).toList = [(needing name).toList] :=
    Text.splitAll_of_notMem (not_mem_needing h (by decide) (by decide))
  have hmark : lineMark? (needing name).toList = none := by
    have hstart : "#line ".toList = '#' :: "line ".toList := by decide
    rw [lineMark?, toList_needing, Text.stripStart?, hstart]
    rfl
  have hdefined : definedName? (needing name).toList = none := by
    have hstart : "int ".toList = 'i' :: "nt ".toList := by decide
    rw [definedName?, toList_needing, Text.stripStart?, hstart]
    rfl
  rw [State.compile, hlines, Progress.compileLines]
  simp only [hmark, hdefined, directivesOf_needing h, Progress.obeyAll, Progress.obey,
    Progress.compileLines]
  rfl

theorem hasNul_needing (h : IsIdentifier name) : hasNul (needing name) = false := by
  have hnul := not_mem_needing h (c := '\x00') (by decide) (by decide)
  simpa [hasNul] using hnul

/-- A session in which the text is compiled needs the name and nothing else. -/
theorem needing_loads (h : IsIdentifier name) (e : Surroundings) :
    linker.Loads e (InSession.compile (needing name)) ⟨[name], [], []⟩ := by
  intro s w names hf hholds
  have hserial : s.serial < linker.size w.compiler := hf.made ▸ hf.serial
  have hneeds : (w.compiler.state s.serial).needs = #[] :=
    Array.toList_eq_nil_iff.1 (congrArg LinkState.needed hholds)
  have hanswer : (w.compiler.state s.serial).answer s.serial w.files (.compile (needing name)) =
      (.done, w.files, { w.compiler.state s.serial with
        text := (w.compiler.state s.serial).text ++ needing name }.need name) := by
    rw [State.answer, compile_needing h]
    rfl
  obtain ⟨w', hrun, hasked, hfits, hc, -⟩ :=
    Linker.request_of_answer hf (Library.answer_of_nil hf.ready hanswer) rfl
      Array.size_setIfInBounds
  refine ⟨_, w', ?_, hasked, hfits, ?_⟩
  · rw [InSession.compile, InSession.demandWith, InSession.checkText, hasNul_needing h,
      if_neg (by simp), Attempt.bind_of_ok (Attempt.pure_apply () (s, w)),
      Linker.demand_of_request hrun]
  · have hleft : linker.holds w'.compiler s.serial = ({ w.compiler.state s.serial with
        text := (w.compiler.state s.serial).text ++ needing name }.need name).link := by
      rw [hc]
      exact congrArg State.link (Library.state_set hserial _ _)
    have hdefined : (w.compiler.state s.serial).definitions.toList.map (·.name) = [] :=
      congrArg LinkState.defined hholds
    have hregistered : (w.compiler.state s.serial).registered.reverse = names :=
      congrArg LinkState.registered hholds
    rw [hleft, State.need, if_neg (by simp [hneeds])]
    simp only [State.link, hneeds, hdefined, hregistered, List.append_nil]
    rfl

end LiveC.Scripted
