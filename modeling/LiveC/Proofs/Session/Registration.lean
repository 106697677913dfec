import LiveC.Proofs.Session.Requests
import LiveC.Proofs.Symbol.Builtins
import LiveC.Proofs.Symbol.Trampolines
/-!
# Registering builtins

A session that registers the builtins asks its compiler state for each one that has an address, once
and in the order of the table, and reports how many were taken (`InSession.registerBuiltins_spec`).
What is taken under a name is the address to which the name resolves, whatever was opened or
resolved before: both are read off the same table, in which no name is twice
(`registerBuiltins_agrees_with_resolve`).
-/

namespace LiveC

variable {σ : Type} [Compiler σ]

/-- The requests by which some builtins are registered, each with whether it failed. -/
def registrations (answers : List (Builtin × Bool)) : List (Request × Bool) :=
  answers.map fun q => (.addSymbol q.1.name q.1.address, q.2)

namespace InSession

/-- A name and an address that can be passed on are demanded. -/
theorem addSymbol_eq_demand {name : String} {address : Address} (haddress : address ≠ 0)
    (hname : hasNul name = false) (p : Session × World σ) :
    addSymbol name address p = demand (.addSymbol name address) p := by
  rw [addSymbol, if_neg haddress, demandWith, checkText, if_neg (by simp [hname])]
  rfl

/-- A builtin is asked for once, and reported as taken when the request does not fail. -/
theorem register_spec {b : Builtin} (haddress : b.address ≠ 0) (hname : hasNul b.name = false)
    (p : Session × World σ) : ∃ failed, (register b p).1 = .ok (!failed) ∧
      Asked [(.addSymbol b.name b.address, failed)] p (register b p).2 := by
  obtain ⟨s, w⟩ := p
  obtain ⟨failed, hasked, -, hdone⟩ := demand_asks (.addSymbol b.name b.address) s w
  rw [← addSymbol_eq_demand haddress hname] at hasked hdone
  rcases hadd : addSymbol b.name b.address (s, w) with ⟨r, p'⟩
  rw [hadd] at hasked hdone
  have hcapture : (addSymbol b.name b.address).capture (s, w) = (.ok r, p') := by
    rw [Attempt.capture, hadd]
  refine ⟨failed, ?_⟩
  rw [register, Attempt.bind_of_ok hcapture]
  cases r with
  | ok u =>
    obtain rfl : failed = false := hdone.1 rfl
    exact ⟨rfl, hasked⟩
  | error e =>
    obtain rfl : failed = true := by simpa using hdone
    obtain ⟨s', w'⟩ := p'
    have hwarn := silent_warn (unregisteredBuiltin b.name e.message) w'
    exact ⟨rfl, hasked.trans (asked_nil_of_calls s'.pending hwarn.1 hwarn.2)⟩

/-- Some builtins are asked for one after the other, and those that are taken are counted. -/
theorem count_register_spec {l : List Builtin}
    (h : ∀ b ∈ l, b.address ≠ 0 ∧ hasNul b.name = false) (p : Session × World σ) :
    ∃ answers : List (Builtin × Bool), answers.map Prod.fst = l ∧
      (Attempt.count l register p).1 = .ok (answers.countP (!·.2)) ∧
      Asked (registrations answers) p (Attempt.count l register p).2 := by
  induction l generalizing p with
  | nil => exact ⟨[], rfl, rfl, .refl p⟩
  | cons b l ih =>
    rw [List.forall_mem_cons] at h
    obtain ⟨failed, htaken, hasked⟩ := register_spec h.1.1 h.1.2 p
    rcases hregister : register b p with ⟨r, p'⟩
    rw [hregister] at htaken hasked
    obtain rfl := htaken
    obtain ⟨answers, hanswers, hcount, hrest⟩ := ih h.2 p'
    refine ⟨(b, failed) :: answers, by rw [List.map_cons, hanswers], ?_⟩
    rw [Attempt.count, Attempt.bind_of_ok hregister, Attempt.bind_pure_apply, hcount]
    refine ⟨?_, hasked.trans hrest⟩
    cases failed <;> simp [Except.map]

/-- No name of a builtin ends early. -/
theorem hasNul_of_mem_offered {b : Builtin} (h : b ∈ builtins.offered) : hasNul b.name = false := by
  have hall : ∀ b ∈ builtins.offered, hasNul b.name = false := by decide +kernel
  exact hall b h

/-- **Registering the builtins** asks for every builtin that has an address, once and in order. It
reports how many were taken. -/
theorem registerBuiltins_spec (p : Session × World σ) :
    ∃ answers : List (Builtin × Bool), answers.map Prod.fst = builtins.offered ∧
      (registerBuiltins p).1 = .ok (answers.countP (!·.2)) ∧
      Asked (registrations answers) p (registerBuiltins p).2 :=
  count_register_spec
    (fun _ hb => ⟨(BuiltinTable.mem_offered.1 hb).2, hasNul_of_mem_offered hb⟩) p

end InSession

open InSession

theorem nodup_names_builtins : builtins.names.Nodup := BuiltinTable.nodup_names_ofList _

/-- A builtin that is offered resolves to its address, whatever was asked of the linkage before. -/
theorem Linkage.resolve_of_offered {b : Builtin} (h : b ∈ builtins.offered) (k : Linkage) :
    k.resolve b.name = (some b.address, k) :=
  resolve_of_builtin ((BuiltinTable.address?_eq_some_iff_offered nodup_names_builtins).2
    ⟨b, h, rfl, rfl⟩)

/-- **Builtins are registered as they resolve.** A table has the names of its entries once each, in
the order in which they first appear; a name has the address of its first entry, unless that is a
placeholder, and this is what is offered. A session asks its compiler state for all that is offered,
for no placeholder and for no name twice. What it takes under a name is the address to which the
name resolves, also after any history of opening and resolving. -/
theorem registerBuiltins_agrees_with_resolve :
    (∀ entries : List Builtin,
      (BuiltinTable.ofList entries).names = (entries.map (·.name)).eraseDups ∧
      (BuiltinTable.ofList entries).names.Nodup ∧
      ∀ name a,
        ((BuiltinTable.ofList entries).address? name = some a ↔
          ∃ b, entries.find? (·.name == name) = some b ∧ b.address = a ∧ a ≠ 0) ∧
        ((BuiltinTable.ofList entries).address? name = some a ↔
          ∃ b ∈ (BuiltinTable.ofList entries).offered, b.name = name ∧ b.address = a)) ∧
    ∀ (s : Session) (w : World σ), ∃ answers : List (Builtin × Bool),
      (registerBuiltins (s, w)).1 = .ok (answers.countP (!·.2)) ∧
      Asked (registrations answers) (s, w) (registerBuiltins (s, w)).2 ∧
      (∀ q ∈ answers, ¬q.1.isPlaceholder) ∧
      (answers.map (·.1.name)).Nodup ∧
      (∀ name a, builtins.address? name = some a ↔
        ∃ q ∈ answers, q.1.name = name ∧ q.1.address = a) ∧
      ∀ b, (b, false) ∈ answers → ∀ (k : Linkage) (history : List Linkage.Operation),
        ((k.after history).resolve b.name).1 = some b.address := by
  refine ⟨fun entries => ⟨BuiltinTable.names_ofList entries, ?_, fun name a => ⟨?_, ?_⟩⟩,
    fun s w => ?_⟩
  · exact BuiltinTable.nodup_names_ofList entries
  · exact BuiltinTable.address?_ofList_eq_some_iff entries
  · exact BuiltinTable.address?_eq_some_iff_offered (BuiltinTable.nodup_names_ofList entries)
  obtain ⟨answers, hanswers, hcount, hasked⟩ := registerBuiltins_spec (s, w)
  have hoffered : ∀ {q}, q ∈ answers → q.1 ∈ builtins.offered := by
    intro q hq
    rw [← hanswers]
    exact List.mem_map_of_mem hq
  have hnames : answers.map (·.1.name) = builtins.offered.map (·.name) := by
    rw [← hanswers, List.map_map]
    rfl
  refine ⟨answers, hcount, hasked, ?_, ?_, fun name a => ?_, fun b hb k history => ?_⟩
  · intro q hq
    simpa [Builtin.isPlaceholder] using (BuiltinTable.mem_offered.1 (hoffered hq)).2
  · rw [hnames]
    exact BuiltinTable.nodup_offered nodup_names_builtins
  · rw [BuiltinTable.address?_eq_some_iff_offered nodup_names_builtins, ← hanswers]
    simp
  · rw [Linkage.resolve_of_offered (hoffered hb)]

end LiveC
