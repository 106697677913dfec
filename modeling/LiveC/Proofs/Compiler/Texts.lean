import LiveC.Proofs.Compiler.Scripted
import LiveC.Proofs.Session.Translator
import Mathlib.Data.UInt
/-!
# The scripted compiler translates texts

When nothing is planned to fail, what the scripted compiler makes of a text depends on the text
alone (`rebase_compileLines`), and loading an object, in which nothing is reported, makes the same
of it as compiling its text did if that succeeded (`compileLines_loading`). So it is a translator
(`translator`).
-/

namespace LiveC.Scripted

/-! ## What a text becomes -/

namespace State

/-- A state that knows other names and was given another text. -/
def rebase (s : State) (registered : List (String × Address)) (text : String) : State :=
  { s with registered := registered, text := text }

theorem rebase_need (s : State) (registered : List (String × Address)) (text name : String) :
    (s.rebase registered text).need name = (s.need name).rebase registered text := by
  have hneeds : (s.rebase registered text).needs = s.needs := rfl
  rw [need, need, hneeds]
  split <;> rfl

end State

namespace Progress

variable {loading : Bool} {p q : Progress} {registered : List (String × Address)} {text : String}

/-- A compilation in a state that knows other names and was given another text. -/
def rebase (p : Progress) (registered : List (String × Address)) (text : String) : Progress :=
  { p with state := p.state.rebase registered text }

@[simp] theorem failed_rebase : (p.rebase registered text).failed = p.failed := rfl

theorem rebase_obey (p : Progress) (d : Directive) :
    (p.rebase registered text).obey loading d = (p.obey loading d).rebase registered text := by
  cases d with
  | error text' => cases loading <;> rfl
  | warning text' => cases loading <;> rfl
  | raw text' => cases loading <;> rfl
  | fail => cases loading <;> rfl
  | need name => exact congrArg (fun s => { p with state := s }) (State.rebase_need _ _ _ _)
  | act step => rfl

theorem rebase_obeyAll (p : Progress) (ds : List Directive) :
    (p.rebase registered text).obeyAll loading ds =
      (p.obeyAll loading ds).rebase registered text := by
  induction ds generalizing p with
  | nil => rfl
  | cons d ds ih =>
    rw [obeyAll, obeyAll, rebase_obey, failed_rebase, ih]
    split <;> rfl

/-- A line that is none of the marks is obeyed, and then the next ones are compiled. -/
def compileRest (loading : Bool) (p : Progress) (line : List Char) (lines : List (List Char)) :
    Progress :=
  let p := p.obeyAll loading (directivesOf line)
  if p.failed then p else compileLines loading { p with line := p.line + 1 } lines

theorem compileLines_cons (p : Progress) (line : List Char) (lines : List (List Char)) :
    p.compileLines loading (line :: lines) =
      match lineMark? line, definedName? line with
      | some (number, file), _ => compileLines loading { p with line := number, file := file } lines
      | none, none => p.compileRest loading line lines
      | none, some name =>
        if (p.state.index? name).isSome then
          (p.send (p.located "error" ("redefinition of '" ++ name ++ "'"))).failing
        else compileRest loading { p with state := p.state.define name } line lines := by
  rw [compileLines]
  cases lineMark? line with
  | some _ => rfl
  | none => cases definedName? line <;> rfl

/-- **What becomes of a text does not depend on the names that are known**, nor on what was compiled
before, as far as it is only kept. -/
theorem rebase_compileLines (p : Progress) (lines : List (List Char)) :
    (p.rebase registered text).compileLines loading lines =
      (p.compileLines loading lines).rebase registered text := by
  induction lines generalizing p with
  | nil => rfl
  | cons line lines ih =>
    have hrest (p : Progress) : (p.rebase registered text).compileRest loading line lines =
        (p.compileRest loading line lines).rebase registered text := by
      rw [compileRest, compileRest, rebase_obeyAll, failed_rebase]
      split
      · rfl
      · exact ih { p.obeyAll loading (directivesOf line) with
          line := (p.obeyAll loading (directivesOf line)).line + 1 }
    rw [compileLines_cons, compileLines_cons]
    split
    · next number file _ => exact ih { p with line := number, file := file }
    · exact hrest p
    · next name _ _ =>
      have hindex : (p.rebase registered text).state.index? name = p.state.index? name := rfl
      rw [hindex]
      split
      · rfl
      · exact hrest { p with state := p.state.define name }

/-! ### Loading -/

/-- While an object is loaded, a directive does the same to the state as when its text was compiled,
and says nothing. -/
theorem obey_loading (hstate : q.state = p.state) (d : Directive)
    (h : (p.obey false d).failed = false) :
    q.obey true d = { q with state := (p.obey false d).state } := by
  obtain ⟨state, file, line, messages, failed⟩ := q
  obtain rfl := hstate
  cases d with
  | error text => simp [obey, failing] at h
  | fail => simp [obey, failing] at h
  | warning text => rfl
  | raw text => rfl
  | need name => rfl
  | act step => rfl

theorem obeyAll_loading (hstate : q.state = p.state) (hq : q.failed = false) (ds : List Directive)
    (h : (p.obeyAll false ds).failed = false) :
    q.obeyAll true ds = { q with state := (p.obeyAll false ds).state } := by
  induction ds generalizing p q with
  | nil =>
    obtain ⟨state, file, line, messages, failed⟩ := q
    obtain rfl := hstate
    rfl
  | cons d ds ih =>
    rw [obeyAll] at h ⊢
    have hfirst : (p.obey false d).failed = false := by
      by_contra hfailed
      rw [if_pos (by simpa using hfailed)] at h
      exact hfailed h
    rw [if_neg (by simp [hfirst])] at h
    rw [obey_loading hstate d hfirst, if_neg (by simp [hq]), ih
      (q := { q with state := (p.obey false d).state }) (p := p.obey false d) rfl hq h, obeyAll,
      if_neg (by simp [hfirst])]

/-- **An object is loaded in silence**, and then the state is as if its text had been compiled. -/
theorem compileLines_loading (hstate : q.state = p.state) (hq : q.failed = false)
    (lines : List (List Char)) (h : (p.compileLines false lines).failed = false) :
    (q.compileLines true lines).state = (p.compileLines false lines).state ∧
      (q.compileLines true lines).messages = q.messages ∧
      (q.compileLines true lines).failed = false := by
  induction lines generalizing p q with
  | nil => exact ⟨hstate, rfl, hq⟩
  | cons line lines ih =>
    have hrest {p q : Progress} (hstate : q.state = p.state) (hq : q.failed = false)
        (h : (p.compileRest false line lines).failed = false) :
        (q.compileRest true line lines).state = (p.compileRest false line lines).state ∧
          (q.compileRest true line lines).messages = q.messages ∧
          (q.compileRest true line lines).failed = false := by
      rw [compileRest] at h
      have hfirst : (p.obeyAll false (directivesOf line)).failed = false := by
        by_contra hfailed
        rw [if_pos (by simpa using hfailed)] at h
        exact hfailed h
      rw [if_neg (by simp [hfirst])] at h
      rw [compileRest, obeyAll_loading hstate hq _ hfirst, compileRest, if_neg (by simp [hq]),
        if_neg (by simp [hfirst])]
      exact ih rfl hq h
    rw [compileLines_cons] at h ⊢
    rw [compileLines_cons]
    split at h
    · exact ih hstate hq h
    · exact hrest hstate hq h
    · next name _ _ =>
      have hindex : q.state.index? name = p.state.index? name := by rw [hstate]
      split at h
      · simp [failing] at h
      · next hnew =>
        rw [hindex, if_neg hnew, if_neg hnew]
        exact hrest (congrArg (State.define · name) hstate) hq h

end Progress

/-! ## Texts and states -/

/-- What becomes of a text. -/
def outcome (text : String) : Progress :=
  Progress.compileLines false ⟨.fresh, textFile, 1, #[], false⟩ (Text.splitAll '\n' text.toList)

/-- What the scripted compiler makes of a text. -/
def translate (text : String) : Translation where
  messages := (outcome text).messages.toList
  failed := (outcome text).failed
  needed := (outcome text).state.needs.toList
  routines := (outcome text).state.definitions.toList.map fun d => (d.name, d.steps.toList)

/-- The object of a text. -/
def objectOf (text : String) : ByteArray := (objectMark ++ text).toUTF8

namespace State

/-- Nothing was put into a state but a text. -/
structure Holds (s : State) (text : String) : Prop where
  kept : s.text = text
  definitions : s.definitions = (outcome text).state.definitions
  needs : s.needs = (outcome text).state.needs

variable {s : State} {text : String}

theorem holds_fresh : fresh.Holds "" := ⟨rfl, rfl, rfl⟩

/-- A state with no text knows names only. -/
theorem Holds.eq_rebase (h : s.Holds "") (text : String) :
    { s with text := s.text ++ text } = fresh.rebase s.registered text := by
  obtain ⟨definitions, needs, registered, text'⟩ := s
  obtain ⟨rfl, hdefinitions, hneeds⟩ := h
  have hblank : (outcome "").state = fresh := rfl
  rw [hblank] at hdefinitions hneeds
  obtain rfl := hdefinitions
  obtain rfl := hneeds
  rw [rebase, fresh, String.empty_append]

/-- A text is compiled in a state with no text as in a new one. -/
theorem Holds.compile (h : s.Holds "") (text : String) :
    s.compile false textFile text = (outcome text).rebase s.registered text := by
  rw [State.compile, h.eq_rebase, outcome, ← Progress.rebase_compileLines]
  rfl

/-- The object of a text is loaded into a state with no text. -/
theorem Holds.load (h : s.Holds "") (htranslated : (translate text).failed = false)
    (path : String) :
    (s.compile true path text).reply = .done ∧ (s.compile true path text).state.Holds text ∧
      (s.compile true path text).state.registered = s.registered := by
  have hrebase : s.compile true path text = (Progress.compileLines true
      ⟨.fresh, path, 1, #[], false⟩ (Text.splitAll '\n' text.toList)).rebase s.registered text := by
    rw [State.compile, h.eq_rebase, ← Progress.rebase_compileLines]
    rfl
  obtain ⟨hstate, hmessages, hfailed⟩ := Progress.compileLines_loading
    (p := ⟨.fresh, textFile, 1, #[], false⟩) (q := ⟨.fresh, path, 1, #[], false⟩) rfl rfl
    (Text.splitAll '\n' text.toList) htranslated
  rw [hrebase]
  refine ⟨?_, ⟨rfl, ?_, ?_⟩, rfl⟩
  · rw [Progress.reply, Progress.failed_rebase, hfailed]
    exact congrArg (fun messages => (⟨messages, false, none⟩ : Reply))
      (congrArg Array.toList hmessages)
  · have hsame := congrArg State.definitions hstate
    exact hsame
  · have hsame := congrArg State.needs hstate
    exact hsame

theorem Holds.of_compile (h : s.Holds "") (text : String) :
    (s.compile false textFile text).state.Holds text ∧
      (s.compile false textFile text).state.registered = s.registered := by
  rw [h.compile]
  exact ⟨⟨rfl, rfl, rfl⟩, rfl⟩

/-- A request that loads nothing leaves the text. -/
theorem Holds.answer (h : s.Holds text) {q : Request} (hq : q.keepsCode = true) (serial : Nat)
    (files : FileTree) : (s.answer serial files q).2.2.Holds text := by
  cases q with
  | addSymbol name address => exact ⟨h.kept, h.definitions, h.needs⟩
  | addLibrary _ | compile _ | addFile _ | delete => simp [Request.keepsCode] at hq
  | _ => exact h

theorem textOf_toUTF8 (s : String) : Text.textOf s.toUTF8 = s := by
  have hread : String.fromUTF8? s.toUTF8 = some s := dif_pos s.isValidUTF8
  rw [Text.textOf, Text.textOf?, hread, Option.getD_some]

theorem addFile_of_mark {path contents object : String} {files : FileTree}
    (h : ((files.bytes? path).map Text.textOf).getD "" = contents)
    (hstrip : Text.stripStart? objectMark.toList contents.toList = some object.toList) :
    s.addFile path files =
      ((s.compile true path object).reply, (s.compile true path object).state) := by
  unfold addFile
  rw [h]
  dsimp only
  rw [hstrip]
  dsimp only
  rw [String.ofList_toList]

/-- The text of an object is read back. -/
theorem addFile_object {path : String} {files : FileTree}
    (hobject : files.bytes? path = some (objectOf text)) :
    s.addFile path files =
      ((s.compile true path text).reply, (s.compile true path text).state) := by
  have hstrip := Text.stripStart?_append objectMark.toList text.toList
  rw [← String.toList_append] at hstrip
  refine addFile_of_mark ?_ hstrip
  rw [hobject, Option.map_some, Option.getD_some]
  exact textOf_toUTF8 _

end State

/-! ## Symbols -/

/-- The routine of a name is the first one that is defined under it. -/
theorem lookup_routines (definitions : List Definition) (name : String) :
    (definitions.map fun d => (d.name, d.steps.toList)).lookup name =
      (definitions.find? (·.name == name)).map fun d => d.steps.toList := by
  induction definitions with
  | nil => rfl
  | cons d definitions ih =>
    rw [List.map_cons, List.lookup_cons, List.find?_cons, Bool.beq_comm]
    cases d.name == name with
    | true => rfl
    | false => exact ih

/-- The routine of a name, with its place. -/
theorem exists_of_index? {s : State} {name : String} {i : Nat} (h : s.index? name = some i) :
    ∃ d, s.definitions[i]? = some d ∧ s.definitions.toList.find? (·.name == name) = some d ∧
      i < s.definitions.size := by
  obtain ⟨hlt, hp, hbefore⟩ := Array.findIdx?_eq_some_iff_getElem.1 h
  refine ⟨s.definitions[i], Array.getElem?_eq_getElem hlt, ?_, hlt⟩
  exact List.find?_eq_some_iff_getElem.2 ⟨hp, i, hlt, rfl, fun j hj => by simpa using hbefore j hj⟩

theorem toNat_routineAddress {n i : Nat} (hn : n < 2 ^ 32) (hi : i < 2 ^ 20) :
    (routineAddress n i).toNat = routineBase.toNat + 2 ^ 24 * n + 2 ^ 4 * i := by
  have hbase : routineBase.toNat = 0x500000000000 := rfl
  have hstride : stateStride.toNat = 2 ^ 24 := rfl
  have hroom : routineStride.toNat = 2 ^ 4 := rfl
  rw [routineAddress, UInt64.toNat_add, UInt64.toNat_add, UInt64.toNat_mul, UInt64.toNat_mul,
    UInt64.toNat_ofNat', UInt64.toNat_ofNat', hbase, hstride, hroom]
  omega

/-- The number of a state and the place of a routine can be read off an address. -/
theorem place_routineAddress {n i : Nat} (hn : n < 2 ^ 32) (hi : i < 2 ^ 20) :
    ¬routineAddress n i < routineBase ∧
      ((routineAddress n i - routineBase) / stateStride).toNat = n ∧
      ((routineAddress n i - routineBase) % stateStride / routineStride).toNat = i := by
  have hstride : stateStride.toNat = 2 ^ 24 := rfl
  have hroom : routineStride.toNat = 2 ^ 4 := rfl
  have haddress := toNat_routineAddress hn hi
  have hle : routineBase ≤ routineAddress n i := by
    rw [UInt64.le_iff_toNat_le, haddress]
    omega
  rw [UInt64.toNat_div, UInt64.toNat_div, UInt64.toNat_mod, UInt64.toNat_sub_of_le _ _ hle,
    haddress, hstride, hroom]
  refine ⟨?_, ?_, ?_⟩
  · rw [UInt64.lt_iff_toNat_lt, haddress]
    omega
  · omega
  · omega

theorem names_translate (text : String) :
    (translate text).names = (outcome text).state.definitions.toList.map (·.name) := by
  rw [Translation.names, translate, List.map_map]
  rfl

theorem State.Holds.isSome_symbol {s : State} {text : String} (h : s.Holds text) {n : Nat}
    (name : String) :
    ((s.index? name).map (routineAddress n)).isSome = true ↔ name ∈ (translate text).names := by
  have hnone := s.index?_isNone name
  rw [names_translate, ← h.definitions, Option.isSome_map, ← List.contains_iff_mem,
    ← Bool.eq_iff_iff]
  cases hindex : s.index? name with
  | none =>
    rw [hindex] at hnone
    simpa using hnone
  | some i =>
    rw [hindex] at hnone
    simpa using hnone

/-! ## The translator -/

namespace Library

variable {c : Library}

/-- A library with other states than that of a number. -/
theorem state_set_of_ne {n m : Nat} (h : m ≠ n) (s : State) (plan : Plan) :
    state ⟨c.states.setIfInBounds n s, plan⟩ m = c.state m := by
  simp [state, Array.getD_eq_getD_getElem?, Array.getElem?_setIfInBounds_ne h.symm]

theorem state_push_of_lt {n : Nat} (h : n < c.states.size) (s : State) (plan : Plan) :
    state ⟨c.states.push s, plan⟩ n = c.state n := by
  simp [state, Array.getD_eq_getD_getElem?, Array.getElem?_push_lt h, h]

/-- The address of a routine of a state. -/
def symbol? (c : Library) (n : Nat) (name : String) : Option Address :=
  ((c.state n).index? name).map (routineAddress n)

theorem getElem?_states {n : Nat} (h : n < c.states.size) : c.states[n]? = some (c.state n) := by
  simp [state, Array.getD_eq_getD_getElem?, h]

end Library

/-- The texts and the code of the scripted compiler. -/
def codeModel : CodeModel Library where
  translate := translate
  object := objectOf
  Contains c n text := n < c.states.size ∧ (c.state n).Holds text
  symbol? := Library.symbol?
  Addressed n text := n < 2 ^ 32 ∧ (outcome text).state.definitions.size ≤ 2 ^ 20

theorem codeModel_same {c c' : Library} {n : Nat} (hn : n < c.states.size)
    (hn' : n < c'.states.size) (h : c'.state n = c.state n) : codeModel.Same n c c' where
  contains text hc := ⟨hn', h ▸ hc.2⟩
  symbol := by
    funext name
    exact congrArg (fun s : State => (s.index? name).map (routineAddress n)) h
  reach := by
    funext name
    have hreach : c'.reach? n name = c.reach? n name := by
      rw [Library.reach?, Library.reach?, Library.getElem?_states hn',
        Library.getElem?_states hn, h]
    exact hreach

theorem contains_set {c : Library} {n : Nat} (hn : n < c.states.size) {s : State} {text : String}
    (h : s.Holds text) : codeModel.Contains ⟨c.states.setIfInBounds n s, []⟩ n text := by
  refine ⟨by rwa [Array.size_setIfInBounds], ?_⟩
  rwa [Library.state_set hn]

theorem holds_set {c : Library} {n : Nat} (hn : n < c.states.size) (s : State) :
    linker.holds ⟨c.states.setIfInBounds n s, []⟩ n = s.link :=
  congrArg State.link (Library.state_set hn s [])

theorem create_of_nil {c c' : Library} {address : Address} (h : c.plan = [])
    (hcreate : c.create = (some address, c')) : c' = ⟨c.states.push .fresh, []⟩ := by
  rw [Library.create, h] at hcreate
  exact (Prod.mk.inj hcreate).2.symm

/-- What a request does when nothing is planned to fail. -/
theorem answer_eq {c : Library} (h : c.plan = []) (n : Nat) (q : Request) (files : FileTree) :
    c.answer n q files = (((c.state n).answer n files q).1, ((c.state n).answer n files q).2.1,
      ⟨c.states.setIfInBounds n ((c.state n).answer n files q).2.2, []⟩) :=
  Library.answer_of_nil h rfl

theorem set_state {c : Library} (h : c.plan = []) (n : Nat) :
    (⟨c.states.setIfInBounds n (c.state n), []⟩ : Library) = c := by
  obtain ⟨states, plan⟩ := c
  obtain rfl := h
  have hset : states.setIfInBounds n (Library.state ⟨states, []⟩ n) = states := by
    refine Array.ext (by simp) fun i hi hi' => ?_
    rw [Array.getElem_setIfInBounds (by simpa using hi)]
    split
    · next he =>
      subst he
      simp [Library.state, Array.getD_eq_getD_getElem?, hi']
    · rfl
  rw [hset]

/-- Nothing but writing changes files. -/
theorem State.answer_files (s : State) (n : Nat) {q : Request} (files : FileTree)
    (h : ∀ path, q ≠ .writeFile path) : (s.answer n files q).2.1 = files := by
  cases q with
  | writeFile path => exact absurd rfl (h path)
  | _ => rfl

/-- **The scripted compiler translates texts** when nothing is planned to fail. -/
def translator : Translator Library where
  toLinker := linker
  toCodeModel := codeModel
  blank := by
    intro c c' address h hcreate
    obtain rfl := create_of_nil h hcreate
    have hstate : (Library.state ⟨c.states.push .fresh, []⟩ c.states.size).Holds "" := by
      rw [Library.state_push]
      exact State.holds_fresh
    exact ⟨by simp [linker], hstate⟩
  create_same := by
    intro c c' address n h hcreate hn
    obtain rfl := create_of_nil h hcreate
    have hlt : n < (c.states.push State.fresh).size := by
      rw [Array.size_push]
      exact Nat.lt_succ_of_lt hn
    exact codeModel_same hn hlt (Library.state_push_of_lt hn _ _)
  answer_ready := by
    intro c n q files h hn
    have hanswer : Compiler.answer n q files c = _ := answer_eq h n q files
    rw [hanswer]
    exact ⟨rfl, Array.size_setIfInBounds⟩
  answer_same := by
    intro c n m q files h hn hm hne
    have hanswer : Compiler.answer n q files c = _ := answer_eq h n q files
    rw [hanswer]
    have hlt : m < (c.states.setIfInBounds n ((c.state n).answer n files q).2.2).size := by
      rw [Array.size_setIfInBounds]
      exact hm
    exact codeModel_same hm hlt (Library.state_set_of_ne hne _ _)
  answer_files := by
    intro c n q files h hn hq
    have hanswer : Compiler.answer n q files c = _ := answer_eq h n q files
    rw [hanswer]
    exact (c.state n).answer_files n files hq
  answer_contains := by
    intro c n q text files h hn hq hc
    have hanswer : Compiler.answer n q files c = _ := answer_eq h n q files
    rw [hanswer]
    exact contains_set hn (hc.2.answer hq n files)
  compiles := by
    intro c n text files h hn hblank
    have hanswer : Compiler.answer n (.compile text) files c = _ := answer_eq h n _ files
    obtain ⟨hholds, hregistered⟩ := hblank.2.of_compile text
    refine ⟨_, hanswer.trans ?_, fun _ => ⟨contains_set hn hholds, ?_⟩⟩
    · rw [State.answer, hblank.2.compile text]
      rfl
    · rw [holds_set hn]
      exact congrArg List.reverse hregistered
  loads := by
    intro c n files path text h hn hblank htranslated hobject
    have hanswer : Compiler.answer n (.addFile path) files c = _ := answer_eq h n _ files
    obtain ⟨hreply, hholds, hregistered⟩ := hblank.2.load htranslated path
    have hload := State.addFile_object (s := c.state n) hobject
    have hload' : (c.state n).answer n files (.addFile path) =
        (.done, files, ((c.state n).compile true path text).state) := by
      rw [State.answer, hload, hreply]
    rw [hload'] at hanswer
    refine ⟨_, hanswer, contains_set hn hholds, ?_⟩
    rw [holds_set hn]
    exact congrArg List.reverse hregistered
  writes := by
    intro c n text path files h hn hc
    have hanswer : Compiler.answer n (.writeFile path) files c = _ := answer_eq h n _ files
    have hobject : (objectMark ++ (c.state n).text).toUTF8 = objectOf text := by
      rw [hc.2.kept, objectOf]
    have hwrite : (c.state n).answer n files (.writeFile path) =
        (((c.state n).writeFile path files).1, ((c.state n).writeFile path files).2, c.state n) :=
          rfl
    rw [hanswer, hwrite, State.writeFile, hobject]
    dsimp only [codeModel]
    cases files.write? path (objectOf text) with
    | none => exact ⟨rfl, rfl⟩
    | some files' => exact ⟨rfl, rfl⟩
  finds := by
    intro c n name files h hn
    have hanswer : Compiler.answer n (.findSymbol name) files c = _ := answer_eq h n _ files
    rw [hanswer]
    have hfound : (c.state n).answer n files (.findSymbol name) =
        (⟨[], false, codeModel.symbol? c n name⟩, files, c.state n) := rfl
    rw [hfound, set_state h n]
  holds_contains := by
    intro c n text h hn hc
    constructor
    · exact congrArg Array.toList hc.2.needs
    · have hdefined : (linker.holds c n).defined = (c.state n).definitions.toList.map (·.name) :=
          rfl
      rw [hdefined, hc.2.definitions]
      exact (names_translate text).symm
  isSome_symbol := by
    intro c n text name hc
    exact hc.2.isSome_symbol name
  runs := by
    intro c n text name address hc haddressed hsymbol
    obtain ⟨i, hi, rfl⟩ := Option.map_eq_some_iff.1 hsymbol
    obtain ⟨d, hd, hfind, hlt⟩ := exists_of_index? hi
    have hroom : i < 2 ^ 20 := hlt.trans_le (hc.2.definitions ▸ haddressed.2)
    obtain ⟨hbase, hserial, hplace⟩ := place_routineAddress haddressed.1 hroom
    refine ⟨d.steps.toList, ?_, ?_⟩
    · have hlookup := lookup_routines (c.state n).definitions.toList name
      rw [hfind, hc.2.definitions] at hlookup
      exact hlookup
    · have hroutine : c.routine? (routineAddress n i) = some ⟨n, d.steps.toList⟩ := by
        rw [Library.routine?, if_neg hbase]
        dsimp only
        rw [hserial, hplace, Library.getElem?_states hc.1]
        simp only [Option.bind_eq_bind, Option.bind_some, hd]
        rfl
      exact hroutine
  reaches := by
    intro c n text name hc hname
    have hsome : (c.symbol? n name).isSome = true := (hc.2.isSome_symbol name).2 hname
    obtain ⟨address, hsymbol⟩ := Option.isSome_iff_exists.1 hsome
    have hreach : c.reach? n name = c.symbol? n name := by
      rw [Library.reach?, Library.getElem?_states hc.1, Library.symbol?]
      have hown : ((c.state n).index? name).map (routineAddress n) = some address := hsymbol
      simp only [Option.bind_eq_bind, Option.bind_some, hown]
      rfl
    exact hreach
  reaches_registered := by
    intro c n text name hc hname
    have hnone : c.symbol? n name = none := by
      rw [← Option.not_isSome_iff_eq_none]
      exact fun hsome => hname ((hc.2.isSome_symbol name).1 hsome)
    have hreach : c.reach? n name = (c.state n).registered.lookup name := by
      rw [Library.reach?, Library.getElem?_states hc.1]
      have hown : ((c.state n).index? name).map (routineAddress n) = none := hnone
      simp only [Option.bind_eq_bind, Option.bind_some, hown]
      rfl
    have hregistered : (linker.holds c n).registered = (c.state n).registered.reverse := rfl
    rw [hregistered, List.reverse_reverse]
    exact hreach
  relocate_registered := by
    intro c n files h hn
    have hanswer : Compiler.answer n .relocate files c = _ := answer_eq h n .relocate files
    rw [hanswer]
    exact congrArg LinkState.registered (congrArg State.link (Library.state_set hn (c.state n) []))

end LiveC.Scripted
