import LiveC.Proofs.Session.Requests
/-!
# The calls of a build

A build makes a session, prepares it, puts code into it and links it, and it may do so once more.
Its calls of the compiler tell how far it came: `Call.links` is a request to link that succeeded,
and `Call.opens` one for a new state. `build_calls` says that a build succeeds exactly when its
calls hold a successful link, that the session it gives can be called then, that it asks for at most
two states, and that besides preparing, linking and deleting them it asks for nothing but what
`load` asks for.
-/

namespace LiveC

variable {σ α : Type}

/-- A request to link that succeeded. -/
def Call.links : Call → Bool
  | .asked _ .relocate false => true
  | _ => false

/-- A request for a new state. -/
def Call.opens : Call → Bool
  | .refused | .created _ => true
  | .asked _ _ _ => false

theorem Call.links_iff {c : Call} : c.links ↔ ∃ n, c = .asked n .relocate false := by
  constructor
  · intro h
    unfold Call.links at h
    split at h
    · exact ⟨_, rfl⟩
    · exact absurd h (by simp)
  · rintro ⟨n, rfl⟩
    rfl

/-- After some calls, those of one world are those of another. -/
def World.Adds (w : World σ) (cs : List Call) (w' : World σ) : Prop :=
  w'.calls.toList = w.calls.toList ++ cs

namespace World.Adds

variable {w w' w'' : World σ} {cs cs' : List Call}

theorem refl (w : World σ) : w.Adds [] w := by simp [Adds]

theorem of_calls_eq (h : w'.calls = w.calls) : w.Adds [] w' := by simp [Adds, h]

theorem trans (h : w.Adds cs w') (h' : w'.Adds cs' w'') : w.Adds (cs ++ cs') w'' := by
  rw [Adds, h', h, List.append_assoc]

end World.Adds

/-! ## Putting a unit into a session and linking it -/

namespace InSession

/-- A run of `x` from `p` to `p'` that asks for `t` and gives `r`. -/
structure Runs (x : InSession σ α) (p : Session × World σ) (t : List (Request × Bool))
    (r : Except Failure α) (p' : Session × World σ) : Prop where
  eq : x p = (r, p')
  asked : Asked t p p'

variable [Compiler σ] {P : Request → Prop} {load : InSession σ Unit}
  {names : List (String × Address)}

/-- A demand that succeeds asks for what it says and for nothing else. -/
theorem Runs.demandWith {text : String} {q : Request} {p p' : Session × World σ}
    {t : List (Request × Bool)} (h : Runs (demandWith text q) p t (.ok ()) p') :
    t = [(q, false)] := by
  obtain ⟨_, p₁, hcheck, hdemand⟩ := Attempt.bind_eq_ok h.eq
  have hp : p₁ = p := by
    unfold checkText at hcheck
    split at hcheck
    · exact absurd hcheck (by simp [Attempt.fail])
    · exact (Prod.mk.inj hcheck).2.symm
  obtain ⟨failed, hasked, -, hok⟩ := demand_asks q p₁.1 p₁.2
  rw [hdemand, hp] at hasked
  rw [hdemand] at hok
  obtain rfl : failed = false := hok.1 rfl
  exact h.asked.unique hasked

theorem names_asksOnly (names : List (String × Address)) :
    AsksOnly Prepares (Attempt.each names fun n => addSymbol n.1 n.2 : InSession σ Unit) :=
  .each fun _ _ => .addSymbol trivial

theorem populate_asksOnly (hload : AsksOnly P load) (names : List (String × Address)) :
    AsksOnly (fun q => Prepares q ∨ P q) (Engine.populate names load) :=
  (prepare_asksOnly.mono fun _ => .inl).bind fun _ =>
    ((names_asksOnly names).mono fun _ => .inl).bind fun _ => hload.mono fun _ => .inr

/-- The steps of putting a unit into a session, when none of them fails. -/
structure Populates (names : List (String × Address)) (load : InSession σ Unit)
    (p : Session × World σ) (t₁ t₂ t₃ : List (Request × Bool)) (p' : Session × World σ) : Prop where
  steps : ∃ p₁ p₂, Runs prepare p t₁ (.ok ()) p₁ ∧
    Runs (.each names fun n => addSymbol n.1 n.2) p₁ t₂ (.ok ()) p₂ ∧ Runs load p₂ t₃ (.ok ()) p'

theorem Populates.asked {p p' : Session × World σ} {t₁ t₂ t₃ : List (Request × Bool)}
    (h : Populates names load p t₁ t₂ t₃ p') : Asked (t₁ ++ t₂ ++ t₃) p p' := by
  obtain ⟨p₁, p₂, h₁, h₂, h₃⟩ := h.steps
  exact (h₁.asked.trans h₂.asked).trans h₃.asked

theorem populates_of_ok (hload : AsksOnly P load) {p p' : Session × World σ}
    (h : Engine.populate names load p = (.ok (), p')) :
    ∃ t₁ t₂ t₃, Populates names load p t₁ t₂ t₃ p' ∧ (∀ q ∈ t₁, Prepares q.1) ∧
      (∀ q ∈ t₂, Prepares q.1) ∧ ∀ q ∈ t₃, P q.1 := by
  obtain ⟨_, p₁, h₁, h⟩ := Attempt.bind_eq_ok h
  obtain ⟨_, p₂, h₂, h₃⟩ := Attempt.bind_eq_ok h
  obtain ⟨t₁, a₁, hP₁⟩ := prepare_asksOnly p
  obtain ⟨t₂, a₂, hP₂⟩ := names_asksOnly names p₁
  obtain ⟨t₃, a₃, hP₃⟩ := hload p₂
  rw [h₁] at a₁
  rw [h₂] at a₂
  rw [h₃] at a₃
  exact ⟨t₁, t₂, t₃, ⟨p₁, p₂, ⟨h₁, a₁⟩, ⟨h₂, a₂⟩, ⟨h₃, a₃⟩⟩, hP₁, hP₂, hP₃⟩

/-- A fresh session into which a unit was put is linked by one request: it succeeds exactly when the
request does, and the code can be called exactly then. -/
theorem Populates.relocate {s : Session} {w : World σ} {p : Session × World σ}
    {t₁ t₂ t₃ : List (Request × Bool)} (h : Populates names load (s, w) t₁ t₂ t₃ p)
    (hm : s.mode = .memory) (hr : s.relocated = false)
    (ht : ∀ q ∈ t₁ ++ t₂ ++ t₃, q.1 ≠ .relocate) :
    ∃ failed, Asked (t₁ ++ t₂ ++ t₃ ++ [(.relocate, failed)]) (s, w) (relocate p).2 ∧
      (relocate p).2.1.relocated = !failed ∧ ((relocate p).1 = .ok () ↔ failed = false) := by
  obtain ⟨s', w'⟩ := p
  have hr' : s'.relocated = false := by
    rcases h.asked.relocated with e | m
    · exact e.trans hr
    · exact absurd rfl (ht _ m)
  obtain ⟨failed, hlink, hrel, hok⟩ := relocate_asks (h.asked.mode.trans hm) hr' w'
  exact ⟨failed, h.asked.trans hlink, hrel, hok⟩

end InSession

/-! ## Making and deleting sessions -/

namespace Session

variable [Compiler σ]

theorem create_cases (mode : OutputMode) (unitName : String) (w : World σ) :
    (∃ e w', create mode unitName w = (.error e, w') ∧ w.Adds [.refused] w') ∨
      ∃ s w', create mode unitName w = (.ok s, w') ∧ w.Adds [.created s.serial] w' ∧
        s.serial = w.made ∧ s.mode = mode ∧ s.relocated = false ∧ w'.made = w.made + 1 := by
  unfold create
  rcases Compiler.create w.compiler with ⟨_ | address, compiler⟩
  · exact .inl ⟨_, _, rfl, by simp [World.Adds]⟩
  · exact .inr ⟨_, _, rfl, by simp [World.Adds], rfl, rfl, rfl, rfl⟩

theorem opened_of_error {mode : OutputMode} {unitName : String} {w w' : World σ} {e : Failure}
    (h : create mode unitName w = (.error e, w')) (body : InSession σ α) :
    opened mode unitName body w = (.error e, w') := Attempt.bind_of_error h _

theorem opened_of_failed {mode : OutputMode} {unitName : String} {w w₁ : World σ} {s : Session}
    (h : create mode unitName w = (.ok s, w₁)) {body : InSession σ α} {e : Failure}
    {p : Session × World σ} (hb : body (s, w₁) = (.error e, p)) :
    opened mode unitName body w = (.error e, (p.1.delete p.2).2) := by
  rw [opened, Attempt.bind_of_ok h, keeping, hb]

theorem opened_of_ok {mode : OutputMode} {unitName : String} {w w₁ : World σ} {s : Session}
    (h : create mode unitName w = (.ok s, w₁)) {body : InSession σ α} {a : α}
    {p : Session × World σ} (hb : body (s, w₁) = (.ok a, p)) :
    opened mode unitName body w = (.ok (a, p.1), p.2) := by
  rw [opened, Attempt.bind_of_ok h, keeping, hb]

/-- A computation in a session of its own that goes through. -/
theorem exists_of_opened {mode : OutputMode} {unitName : String} {w w' : World σ} {s' : Session}
    {body : InSession σ α} {a : α} (h : opened mode unitName body w = (.ok (a, s'), w')) :
    ∃ s w₁, create mode unitName w = (.ok s, w₁) ∧ body (s, w₁) = (.ok a, (s', w')) := by
  obtain ⟨s, w₁, hcreate, hkeeping⟩ := Attempt.bind_eq_ok h
  refine ⟨s, w₁, hcreate, ?_⟩
  unfold keeping at hkeeping
  rcases hbody : body (s, w₁) with ⟨e | a', s₁, w₂⟩
  · rw [hbody] at hkeeping
    exact absurd (Prod.mk.inj hkeeping).1 (by simp)
  · rw [hbody] at hkeeping
    obtain ⟨ha, rfl⟩ := Prod.mk.inj hkeeping
    obtain ⟨rfl, rfl⟩ := Prod.mk.inj (Except.ok.inj ha)
    rfl

theorem delete_adds (s : Session) (w : World σ) :
    ∃ failed, w.Adds [.asked s.serial .delete failed] (s.delete w).2 :=
  ⟨(w.ask s.serial .delete).1.failed, by simp [delete, Attempt.change, World.Adds]⟩

end Session

/-! ## What the calls of a build tell -/

open InSession in
/-- Calls that ask for at most `k` states and, besides preparing, linking and deleting them, only
for what satisfies `P`. `linked` says whether a link among them succeeded; it is the last of them
then. -/
structure BuildCalls (P : Request → Prop) (k : Nat) (linked : Bool) (cs : List Call) : Prop where
  asked : ∀ n q failed, .asked n q failed ∈ cs → Prepares q ∨ P q ∨ q = .relocate ∨ q = .delete
  opens : (cs.filter Call.opens).length ≤ k
  links : cs.any Call.links = linked
  last : cs.dropLast.any Call.links = false

namespace BuildCalls

open InSession

variable {P : Request → Prop} {k k' n : Nat} {b : Bool} {cs cs' : List Call}

theorem append (h : BuildCalls P k false cs) (h' : BuildCalls P k' b cs') :
    BuildCalls P (k + k') b (cs ++ cs') where
  asked n q failed hq := (List.mem_append.1 hq).elim (h.asked n q failed) (h'.asked n q failed)
  opens := by
    have := h.opens
    have := h'.opens
    simp only [List.filter_append, List.length_append]
    omega
  links := by rw [List.any_append, h.links, h'.links, Bool.false_or]
  last := by
    cases cs' with
    | nil =>
      rw [List.append_nil, List.any_eq_false]
      intro c hc
      exact List.any_eq_false.1 h.links c (List.dropLast_subset cs hc)
    | cons c cs' =>
      rw [List.dropLast_append_of_ne_nil (by simp), List.any_append, h.links, h'.last]
      rfl

theorem mono (h : BuildCalls P k b cs) (hk : k ≤ k') : BuildCalls P k' b cs :=
  ⟨h.asked, Nat.le_trans h.opens hk, h.links, h.last⟩

theorem nil : BuildCalls P k false [] := ⟨by simp, by simp, rfl, rfl⟩

theorem refused : BuildCalls P 1 false [.refused] := ⟨by simp, by decide, rfl, rfl⟩

theorem created : BuildCalls P 1 false [.created n] :=
  ⟨by simp, List.length_filter_le _ _, rfl, rfl⟩

theorem delete {failed : Bool} : BuildCalls P 0 false [.asked n .delete failed] := by
  refine ⟨fun m q failed h => ?_, by simp [Call.opens], rfl, rfl⟩
  obtain ⟨_, rfl, _⟩ := Call.asked.inj (List.mem_singleton.1 h)
  exact .inr (.inr (.inr rfl))

theorem relocate {failed : Bool} : BuildCalls P 0 (!failed) [.asked n .relocate failed] := by
  refine ⟨fun m q failed h => ?_, by simp [Call.opens], by cases failed <;> rfl, rfl⟩
  obtain ⟨_, rfl, _⟩ := Call.asked.inj (List.mem_singleton.1 h)
  exact .inr (.inr (.inl rfl))

theorem ofRequests (hP : ¬P .relocate) {t : List (Request × Bool)}
    (h : ∀ q ∈ t, Prepares q.1 ∨ P q.1) : BuildCalls P 0 false (Call.ofRequests n t) := by
  have hlinks : ∀ c ∈ Call.ofRequests n t, ¬c.links = true := by
    intro c hc hlinks
    obtain ⟨m, rfl⟩ := Call.links_iff.1 hlinks
    rcases h _ (Call.asked_mem_ofRequests.1 hc).2 with hq | hq
    · exact hq
    · exact hP hq
  refine ⟨fun m q failed hq => ?_, ?_, List.any_eq_false.2 hlinks, ?_⟩
  · rw [Call.asked_mem_ofRequests] at hq
    exact (h _ hq.2).imp_right .inl
  · rw [Call.ofRequests, List.filter_map, List.filter_eq_nil_iff.2 (by simp [Call.opens])]
    simp
  · exact List.any_eq_false.2 fun c hc => hlinks c (List.dropLast_subset _ hc)

/-- The successful link of a build is the last of its calls. -/
theorem exists_eq_append (h : BuildCalls P k true cs) :
    ∃ c, c.links = true ∧ cs = cs.dropLast ++ [c] := by
  obtain ⟨c, hc, hlinks⟩ := List.any_eq_true.1 h.links
  have hcs := List.dropLast_concat_getLast (List.ne_nil_of_mem hc)
  rw [← hcs] at hc
  rcases List.mem_append.1 hc with hc | hc
  · exact absurd hlinks (List.any_eq_false.1 h.last c hc)
  · exact ⟨c, hlinks, by rw [List.mem_singleton.1 hc, hcs]⟩

/-- Up to the first successful link, calls that start with those of a build are that build's. -/
theorem takeWhile_append (h : BuildCalls P k true cs) (rest : List Call) :
    (cs ++ rest).takeWhile (!·.links) = cs.dropLast := by
  obtain ⟨c, hlinks, hcs⟩ := h.exists_eq_append
  have hearly : ∀ c ∈ cs.dropLast, (!c.links) = true := by
    intro c hc
    simpa using List.any_eq_false.1 h.last c hc
  have hsplit : cs ++ rest = cs.dropLast ++ c :: rest := by
    rw [List.append_cons, ← hcs]
  rw [hsplit, List.takeWhile_append_of_pos hearly, List.takeWhile_cons_of_neg (by simp [hlinks]),
    List.append_nil]

/-- The first successful link among calls that start with those of a build is that build's. -/
theorem find?_append (h : BuildCalls P k true cs) {c : Call} (hc : c ∈ cs) (hl : c.links = true)
    (rest : List Call) : (cs ++ rest).find? Call.links = some c := by
  obtain ⟨d, -, hcs⟩ := h.exists_eq_append
  have hearly := List.any_eq_false.1 h.last
  have hd : c = d := by
    rw [hcs] at hc
    rcases List.mem_append.1 hc with hc | hc
    · exact absurd hl (hearly c hc)
    · exact List.mem_singleton.1 hc
  rw [hcs, List.append_assoc, List.find?_append, List.find?_eq_none.2 hearly, Option.none_or, ← hd,
    List.singleton_append, List.find?_cons_of_pos hl]

theorem mem_dropLast (h : BuildCalls P k true cs) {c : Call} (hc : c ∈ cs)
    (hl : c.links = false) : c ∈ cs.dropLast := by
  obtain ⟨d, hd, hcs⟩ := h.exists_eq_append
  rw [hcs] at hc
  rcases List.mem_append.1 hc with hc | hc
  · exact hc
  · rw [List.mem_singleton.1 hc, hd] at hl
    exact absurd hl (by simp)

end BuildCalls

namespace Engine

open InSession

theorem silent_resolve (name : String) : Silent (resolve name : Attempt (World σ) _) := by
  intro w
  obtain ⟨address, linkage, h⟩ := exists_resolve_eq name w
  rw [h]
  exact ⟨rfl, rfl⟩

theorem silent_resolveAll (names : List String) :
    Silent (resolveAll names : Attempt (World σ) _) := by
  induction names with
  | nil => exact fun _ => ⟨rfl, rfl⟩
  | cons name names ih =>
    refine (silent_resolve name).bind fun a => ?_
    cases a with
    | none => exact fun _ => ⟨rfl, rfl⟩
    | some a => exact ih.bind fun _ _ => ⟨rfl, rfl⟩

/-- Some calls hold those of a run of `load` in a session, and the request to link it. -/
def Loaded (load : InSession σ Unit) (s : Session) (cs : List Call) : Prop :=
  .asked s.serial .relocate (!s.relocated) ∈ cs ∧
    ∃ p t p', Runs load p t (.ok ()) p' ∧ Call.ofRequests s.serial t ⊆ cs

theorem Loaded.mono {load : InSession σ Unit} {s : Session} {cs cs' : List Call}
    (h : Loaded load s cs) (hcs : cs ⊆ cs') : Loaded load s cs' :=
  let ⟨hlink, p, t, p', hrun, ht⟩ := h
  ⟨hcs hlink, p, t, p', hrun, List.Subset.trans ht hcs⟩

variable [Compiler σ] {P : Request → Prop} {load : InSession σ Unit}

/-- A unit in a fresh session: one of the steps before linking fails, or linking is asked for once
and its result is that of the whole. On the way `load` ran through. -/
theorem populate_relocate_cases (hload : AsksOnly P load) (hP : ¬P .relocate)
    (names : List (String × Address)) {s : Session} (hm : s.mode = .memory)
    (hr : s.relocated = false) (w : World σ) :
    (∃ e p' t, populate names load (s, w) = (.error e, p') ∧ Asked t (s, w) p' ∧
      BuildCalls P 0 false (Call.ofRequests s.serial t)) ∨
    ∃ p₁ p₂ t t₃ r failed, populate names load (s, w) = (.ok (), p₁) ∧
      InSession.relocate p₁ = (r, p₂) ∧ Asked t (s, w) p₂ ∧
      BuildCalls P 0 (!failed) (Call.ofRequests s.serial t) ∧ (r = .ok () ↔ failed = false) ∧
      p₂.1.relocated = !failed ∧ (.relocate, failed) ∈ t ∧
      (∃ p₀, Runs load p₀ t₃ (.ok ()) p₁) ∧ t₃ ⊆ t := by
  rcases h : populate names load (s, w) with ⟨e | ⟨⟩, p₁⟩
  · obtain ⟨t, ht, hall⟩ := populate_asksOnly hload names (s, w)
    rw [h] at ht
    exact .inl ⟨e, p₁, t, rfl, ht, .ofRequests hP hall⟩
  · obtain ⟨t₁, t₂, t₃, hpop, hP₁, hP₂, hP₃⟩ := populates_of_ok hload h
    have hall : ∀ q ∈ t₁ ++ t₂ ++ t₃, Prepares q.1 ∨ P q.1 := by
      intro q hq
      rcases List.mem_append.1 hq with hq | hq
      · exact .inl ((List.mem_append.1 hq).elim (hP₁ q) (hP₂ q))
      · exact .inr (hP₃ q hq)
    have hne : ∀ q ∈ t₁ ++ t₂ ++ t₃, q.1 ≠ .relocate := by
      rintro q hq e
      rcases hall q hq with h | h
      · rw [e] at h
        exact h
      · rw [e] at h
        exact hP h
    obtain ⟨failed, hasked, hrel, hok⟩ := hpop.relocate hm hr hne
    obtain ⟨_, p₀, _, _, hrun⟩ := hpop.steps
    refine .inr ⟨p₁, _, _, t₃, _, failed, rfl, rfl, hasked, ?_, hok, hrel,
      List.mem_append_right _ List.mem_cons_self, ⟨p₀, hrun⟩, ?_⟩
    · rw [Call.ofRequests_append, ← Bool.false_or (!failed)]
      exact (BuildCalls.ofRequests hP hall).append .relocate
    · intro q hq
      simp [hq]

/-- How far a unit in a session of its own comes, told by the calls: there is no session, or one of
the steps before linking fails, or linking is asked for and its result is that of the whole. -/
theorem unit_cases (hload : AsksOnly P load) (hP : ¬P .relocate) (names : List (String × Address))
    (unitName : String) (w : World σ) :
    (∃ e w' cs, Session.create .memory unitName w = (.error e, w') ∧ w.Adds cs w' ∧
      BuildCalls P 1 false cs) ∨
    ∃ s w₁, Session.create .memory unitName w = (.ok s, w₁) ∧
      ((∃ e p cs, populate names load (s, w₁) = (.error e, p) ∧ w.Adds cs (p.1.delete p.2).2 ∧
        BuildCalls P 1 false cs) ∨
      ∃ p₁ r p₂ cs, populate names load (s, w₁) = (.ok (), p₁) ∧ InSession.relocate p₁ = (r, p₂) ∧
        w.Adds cs p₂.2 ∧ BuildCalls P 1 p₂.1.relocated cs ∧
        (r = .ok () ↔ p₂.1.relocated = true) ∧ Loaded load p₂.1 cs) := by
  rcases Session.create_cases .memory unitName w with
    ⟨e, w', he, hw⟩ | ⟨s, w₁, hs, hw, -, hm, hr, -⟩
  · exact .inl ⟨e, w', _, he, hw, .refused⟩
  refine .inr ⟨s, w₁, hs, ?_⟩
  rcases populate_relocate_cases hload hP names hm hr w₁ with
    ⟨e, p, t, hpop, hasked, hcalls⟩ |
    ⟨p₁, p₂, t, t₃, r, failed, hpop, hlink, hasked, hcalls, hok, hrel, hmem, ⟨p₀, hrun⟩, hsub⟩
  · obtain ⟨failed, hdel⟩ := p.1.delete_adds p.2
    refine .inl ⟨e, p, _, hpop, (hw.trans hasked.calls).trans hdel, ?_⟩
    rw [hasked.serial]
    exact (BuildCalls.created.append hcalls).append .delete
  · refine .inr ⟨p₁, r, p₂, _, hpop, hlink, hw.trans hasked.calls, ?_, ?_, ?_, p₀, t₃, p₁, hrun, ?_⟩
    · rw [hrel]
      exact BuildCalls.created.append hcalls
    · rw [hok, hrel, Bool.not_eq_true']
    · rw [hrel, Bool.not_not, hasked.serial]
      exact List.mem_append_right _ (Call.asked_mem_ofRequests.2 ⟨rfl, hmem⟩)
    · intro c hc
      obtain ⟨q, hq, rfl⟩ := List.mem_map.1 hc
      rw [hasked.serial]
      exact List.mem_append_right _ (List.mem_map_of_mem (hsub hq))

/-- The first attempt at a unit, told by its calls. -/
theorem opened_linkOnce_cases (hload : AsksOnly P load) (hP : ¬P .relocate) (unitName : String)
    (w : World σ) :
    (∃ e w' cs, Session.opened .memory unitName (linkOnce load) w = (.error e, w') ∧ w.Adds cs w' ∧
      BuildCalls P 1 false cs) ∨
    ∃ r s w' cs, Session.opened .memory unitName (linkOnce load) w = (.ok (r, s), w') ∧
      w.Adds cs w' ∧ BuildCalls P 1 s.relocated cs ∧ (r = .ok () ↔ s.relocated = true) ∧
      Loaded load s cs := by
  rcases unit_cases hload hP [] unitName w with ⟨e, w', cs, he, hw, hcs⟩ | ⟨s, w₁, hs, hcase⟩
  · exact .inl ⟨e, w', cs, Session.opened_of_error he _, hw, hcs⟩
  rcases hcase with ⟨e, p, cs, hpop, hw, hcs⟩ | ⟨p₁, r, p₂, cs, hpop, hlink, hw, hcs, hok, hrun⟩
  · exact .inl ⟨e, _, cs, Session.opened_of_failed hs (Attempt.bind_of_error hpop _), hw, hcs⟩
  · have hbody : linkOnce load (s, w₁) = (.ok r, p₂) := by
      rw [linkOnce, Attempt.bind_of_ok hpop, Attempt.capture, hlink]
    exact .inr ⟨r, p₂.1, p₂.2, cs, Session.opened_of_ok hs hbody, hw, hcs, hok, hrun⟩

/-- The second attempt at a unit, told by its calls. -/
theorem opened_linkWith_cases (hload : AsksOnly P load) (hP : ¬P .relocate)
    (names : List (String × Address)) (unitName : String) (w : World σ) :
    (∃ e w' cs, Session.opened .memory unitName (linkWith names load) w = (.error e, w') ∧
      w.Adds cs w' ∧ BuildCalls P 1 false cs) ∨
    ∃ s w' cs, Session.opened .memory unitName (linkWith names load) w = (.ok ((), s), w') ∧
      w.Adds cs w' ∧ BuildCalls P 1 true cs ∧ s.relocated = true ∧ Loaded load s cs := by
  rcases unit_cases hload hP names unitName w with ⟨e, w', cs, he, hw, hcs⟩ | ⟨s, w₁, hs, hcase⟩
  · exact .inl ⟨e, w', cs, Session.opened_of_error he _, hw, hcs⟩
  rcases hcase with ⟨e, p, cs, hpop, hw, hcs⟩ | ⟨p₁, r, p₂, cs, hpop, hlink, hw, hcs, hok, hrun⟩
  · exact .inl ⟨e, _, cs, Session.opened_of_failed hs (Attempt.bind_of_error hpop _), hw, hcs⟩
  have hbody : linkWith names load (s, w₁) = (r, p₂) := by
    rw [linkWith, Attempt.bind_of_ok hpop, hlink]
  cases r with
  | error e =>
    obtain ⟨failed, hdel⟩ := p₂.1.delete_adds p₂.2
    have hrel : p₂.1.relocated = false := by simpa using hok
    rw [hrel] at hcs
    exact .inl ⟨e, _, _, Session.opened_of_failed hs hbody, hw.trans hdel, hcs.append .delete⟩
  | ok u =>
    have hrel : p₂.1.relocated = true := hok.1 rfl
    rw [hrel] at hcs
    exact .inr ⟨p₂.1, p₂.2, cs, Session.opened_of_ok hs hbody, hw, hcs, hrel, hrun⟩

/-- What follows a failure to link, told by its calls. -/
theorem retry_cases (hload : AsksOnly P load) (hP : ¬P .relocate) (unitName : String) (e : Failure)
    (w : World σ) :
    (∃ e' w' cs, retry unitName load e w = (.error e', w') ∧ w.Adds cs w' ∧
      BuildCalls P 1 false cs) ∨
    ∃ s w' cs, retry unitName load e w = (.ok s, w') ∧ w.Adds cs w' ∧ BuildCalls P 1 true cs ∧
      s.relocated = true ∧ Loaded load s cs := by
  unfold retry
  cases e.missingNames with
  | nil => exact .inl ⟨e, w, [], rfl, .refl w, .nil⟩
  | cons name names =>
    have hcalls := silent_resolveAll (name :: names) w
    rcases h : resolveAll (name :: names) w with ⟨_ | found, w₁⟩
    · rw [h] at hcalls
      exact .inl ⟨_, w₁, [], Attempt.bind_of_error h _, .of_calls_eq hcalls.1, .nil⟩
    rw [h] at hcalls
    dsimp only
    rw [Attempt.bind_of_ok h]
    cases found with
    | none => exact .inl ⟨e, w₁, [], rfl, .of_calls_eq hcalls.1, .nil⟩
    | some late =>
      rcases opened_linkWith_cases hload hP late unitName w₁ with
        ⟨e', w', cs, he, hw, hcs⟩ | ⟨s, w', cs, hs, hw, hcs, hrun⟩
      · exact .inl ⟨e', w', cs, Attempt.bind_of_error he _,
          World.Adds.trans (.of_calls_eq hcalls.1) hw, hcs⟩
      · exact .inr ⟨s, w', cs, Attempt.bind_of_ok hs _,
          World.Adds.trans (.of_calls_eq hcalls.1) hw, hcs, hrun⟩

/-- **The calls of a build.** A build asks for at most two states. It succeeds exactly when one of
its calls is a successful link; then its session can be called, and `load` ran through in it. -/
theorem build_calls (hload : AsksOnly P load) (hP : ¬P .relocate) (unitName : String)
    (w : World σ) : ∃ cs linked, w.Adds cs (build unitName load w).2 ∧ BuildCalls P 2 linked cs ∧
      ((∃ s, (build unitName load w).1 = .ok s) ↔ linked = true) ∧
      ∀ s, (build unitName load w).1 = .ok s → s.relocated = true ∧ Loaded load s cs := by
  rcases opened_linkOnce_cases hload hP unitName w with
    ⟨e, w', cs, he, hw, hcs⟩ | ⟨r, s, w', cs, hs, hw, hcs, hok, hrun⟩
  · rw [build, Attempt.bind_of_error he]
    exact ⟨cs, false, hw, hcs.mono (by decide), by simp, by simp⟩
  rw [build, Attempt.bind_of_ok hs]
  cases r with
  | ok u =>
    have hrel : s.relocated = true := hok.1 rfl
    refine ⟨cs, true, hw, hrel ▸ hcs.mono (by decide), by simp, ?_⟩
    rintro s' h
    obtain rfl : s = s' := Except.ok.inj h
    exact ⟨hrel, hrun⟩
  | error e =>
    have hrel : s.relocated = false := by simpa using hok
    rw [hrel] at hcs
    obtain ⟨failed, hdel⟩ := s.delete_adds w'
    have hcs₁ : BuildCalls P (1 + 0) false (cs ++ [.asked s.serial .delete failed]) :=
      hcs.append .delete
    dsimp only
    rw [Attempt.bind_of_ok (s.delete_apply w')]
    rcases retry_cases hload hP unitName e (s.delete w').2 with
      ⟨e', w'', cs', he, hw', hcs'⟩ | ⟨s', w'', cs', hs', hw', hcs', hrel', hrun'⟩
    · rw [he]
      exact ⟨_, _, (hw.trans hdel).trans hw', hcs₁.append hcs', by simp, by simp⟩
    · rw [hs']
      refine ⟨_, _, (hw.trans hdel).trans hw', hcs₁.append hcs', by simp, ?_⟩
      rintro s'' h
      obtain rfl : s' = s'' := Except.ok.inj h
      exact ⟨hrel', hrun'.mono (List.subset_append_right _ _)⟩

end Engine

end LiveC
