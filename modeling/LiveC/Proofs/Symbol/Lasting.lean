import LiveC.Proofs.Session.Course
/-!
# Names that keep their addresses

A name `Gives` an address if it resolves to it whatever other names are resolved before. A builtin
does (`gives_of_builtin`), and so does a name whose function is called in a `Settled` way: directly,
through a trampoline that is remembered, or directly for want of room (`gives_of_settled`). Without
bridging that is every name that resolves (`gives_of_inactive`), and with it every name that was
resolved before the bridge was full (`gives_resolve`). A bridge that has space left never was full
(`isFull_of_after`), so of some names that were resolved in turn each gives the address that was
found (`gives_of_mem_addresses?`). What names give survives whatever the engine does
(`World.Leads.gives`).
-/

namespace LiveC

namespace Linkage

variable {k : Linkage} {name other : String} {handle function handle' function' a b : Address}

/-- A name resolves to an address, whatever names are resolved before. -/
def Gives (k : Linkage) (name : String) (a : Address) : Prop :=
  ∀ names : List String, ((k.after (names.map .resolve)).resolve name).1 = some a

namespace Gives

theorem resolve_eq (h : k.Gives name a) : (k.resolve name).1 = some a := h []

/-- It stays so when another name is resolved. -/
theorem resolve (h : k.Gives name a) (other : String) : (k.resolve other).2.Gives name a := by
  intro names
  rw [← after_resolve]
  exact h (other :: names)

/-- It stays so when other names are resolved. -/
theorem after (h : k.Gives name a) (names : List String) :
    (k.after (names.map .resolve)).Gives name a := by
  induction names generalizing k with
  | nil => exact h
  | cons other names ih =>
    rw [after_resolve]
    exact ih (h.resolve other)

/-- When names are resolved in turn, it is the address that is found. -/
theorem eq_of_mem (h : k.Gives name a) {names : List String} {late : List (String × Address)}
    (hlate : k.addresses? names = some late) (hmem : (name, b) ∈ late) : b = a := by
  induction names generalizing k late with
  | nil =>
    obtain rfl : [] = late := Option.some.inj hlate
    exact absurd hmem (by simp)
  | cons first names ih =>
    obtain ⟨c, rest, hc, hrest, rfl⟩ := addresses?_cons.1 hlate
    rcases List.mem_cons.1 hmem with heq | hmem
    · obtain ⟨rfl, rfl⟩ := Prod.mk.inj heq
      exact Option.some.inj (hc.symm.trans h.resolve_eq)
    · exact ih (h.resolve first) hrest hmem

end Gives

/-- A builtin has one address. -/
theorem gives_of_builtin (h : builtins.address? name = some a) : k.Gives name a := by
  intro names
  rw [resolve_of_builtin h]

/-! ## Functions that are called in a settled way -/

/-- Nothing is left to choose about the address that is called for a function: it is the function's
own, that of a trampoline that is remembered, or the function's own because none can be made. -/
inductive Settled (k : Linkage) (handle function : Address) : Address → Prop
  | direct (h : k.bridge.needsTrampoline (k.isCode function) handle function = false) :
    Settled k handle function function
  | cached {trampoline : Address}
    (h : k.bridge.needsTrampoline (k.isCode function) handle function = true)
    (hcached : k.bridge.cached? function = some trampoline) : Settled k handle function trampoline
  | full (hcached : k.bridge.cached? function = none) (hroom : k.room? = none) :
    Settled k handle function function

/-- What reaching an address does: nothing, or a trampoline is written and remembered. -/
theorem wrapped_cases (k : Linkage) (handle function : Address) :
    (k.wrapped handle function).2 = k ∨
    ∃ place, k.room? = some place ∧ (k.wrapped handle function).2 =
      { k with bridge := k.bridge.remember function place, code := k.code.write function } := by
  cases hneeds : k.bridge.needsTrampoline (k.isCode function) handle function with
  | false => exact .inl (by rw [wrapped_of_direct hneeds])
  | true =>
    cases hcached : k.bridge.cached? function with
    | some trampoline => exact .inl (by rw [wrapped_of_cached hneeds hcached])
    | none =>
      cases hroom : k.room? with
      | none => exact .inl (by rw [wrapped_of_full hneeds hcached hroom])
      | some place => exact .inr ⟨place, rfl, by rw [wrapped_of_room hneeds hcached hroom]⟩

theorem needsTrampoline_remember (bridge : Bridge) (function' place : Address) :
    (bridge.remember function' place).needsTrampoline = bridge.needsTrampoline := by
  rw [Bridge.remember]
  rfl

theorem cached?_remember {bridge : Bridge} {trampoline place : Address}
    (h : bridge.cached? function = some trampoline) :
    (bridge.remember function' place).cached? function = some trampoline := by
  have hcache : bridge.cache.lookup function = some trampoline := h
  rw [Bridge.remember, Bridge.cached?]
  dsimp only
  split
  · rw [List.lookup_append, hcache]
    rfl
  · exact hcache

/-- A trampoline is remembered as long as there is space. -/
theorem cached?_remember_self {bridge : Bridge} {place : Address} (hspace : bridge.isFull = false)
    (hcached : bridge.cached? function = none) :
    (bridge.remember function place).cached? function = some place := by
  have hlookup : bridge.cache.lookup function = none := hcached
  have hlt : bridge.cache.length < trampolineCapacity := by simpa [Bridge.isFull] using hspace
  rw [Bridge.remember, Bridge.cached?]
  dsimp only
  rw [if_pos hlt, List.lookup_append, hlookup, Option.none_or, List.lookup_cons_self]

theorem Settled.wrapped_eq (h : k.Settled handle function a) :
    k.wrapped handle function = (a, k) := by
  cases h with
  | direct h => exact wrapped_of_direct h
  | cached h hcached => exact wrapped_of_cached h hcached
  | full hcached hroom =>
    cases hneeds : k.bridge.needsTrampoline (k.isCode function) handle function with
    | false => exact wrapped_of_direct hneeds
    | true => exact wrapped_of_full hneeds hcached hroom

/-- What is settled stays so when another address is reached. -/
theorem Settled.wrapped (h : k.Settled handle function a) (handle' function' : Address) :
    (k.wrapped handle' function').2.Settled handle function a := by
  rcases wrapped_cases k handle' function' with hsame | ⟨place, hplace, hwritten⟩
  · rwa [hsame]
  · have hneeds : (k.wrapped handle' function').2.bridge.needsTrampoline =
        k.bridge.needsTrampoline := by rw [hwritten, needsTrampoline_remember]
    have hcode : (k.wrapped handle' function').2.isCode = k.isCode := by
      funext address
      rw [hwritten, isCode, isCode]
    have hremembered {trampoline : Address} (h : k.bridge.cached? function = some trampoline) :
        (k.wrapped handle' function').2.bridge.cached? function = some trampoline := by
      rw [hwritten]
      exact cached?_remember h
    cases h with
    | direct h => exact .direct (by rw [hneeds, hcode, h])
    | cached h hcached => exact .cached (by rw [hneeds, hcode, h]) (hremembered hcached)
    | full hcached hroom => exact absurd (hroom.symm.trans hplace) (by simp)

/-- An address that was reached is settled, if what was written for it could be remembered. -/
theorem settled_wrapped (hspace : k.bridge.isFull = false) (handle function : Address) :
    (k.wrapped handle function).2.Settled handle function (k.wrapped handle function).1 := by
  cases hneeds : k.bridge.needsTrampoline (k.isCode function) handle function with
  | false =>
    rw [wrapped_of_direct hneeds]
    exact .direct hneeds
  | true =>
    cases hcached : k.bridge.cached? function with
    | some trampoline =>
      rw [wrapped_of_cached hneeds hcached]
      exact .cached hneeds hcached
    | none =>
      cases hroom : k.room? with
      | none =>
        rw [wrapped_of_full hneeds hcached hroom]
        exact .full hcached hroom
      | some place =>
        rw [wrapped_of_room hneeds hcached hroom]
        refine .cached ?_ (cached?_remember_self hspace hcached)
        rw [needsTrampoline_remember, isCode]
        exact hneeds

/-! ## Names that are found in a library -/

theorem Settled.settled (h : k.Settled handle function a) :
    k.settled.Settled handle function a := by
  cases h with
  | direct h => exact .direct h
  | cached h hcached => exact .cached h hcached
  | full hcached hroom => exact .full hcached hroom

theorem Settled.resolve (h : k.Settled handle function a) (name : String) :
    (k.resolve name).2.Settled handle function a := by
  rcases resolve_cases k name with
    ⟨b, -, heq⟩ | ⟨-, -, heq⟩ | ⟨handle', function', -, -, heq⟩
  · rwa [heq]
  · rw [heq]
    exact h.settled
  · rw [heq]
    exact h.settled.wrapped handle' function'

/-- Where a name is found does not depend on what was resolved. -/
theorem lookup?_resolve (k : Linkage) (name other : String) :
    (k.resolve other).2.registry.lookup? (k.resolve other).2.loader name =
      k.registry.lookup? k.loader name := by
  obtain ⟨cache, emitted, code, failed, h⟩ := resolve_frame k other
  rw [h]
  rfl

/-- A name whose function is called in a settled way gives its address. -/
theorem gives_of_settled (hbuiltin : builtins.address? name = none)
    (hfound : k.registry.lookup? k.loader name = some (handle, function))
    (h : k.Settled handle function a) : k.Gives name a := by
  intro names
  induction names generalizing k with
  | nil =>
    have hsettled := h.settled.wrapped_eq
    have hafter : k.after (([] : List String).map .resolve) = k := rfl
    rw [hafter, resolve_of_found hbuiltin hfound, hsettled]
  | cons other names ih =>
    rw [after_resolve]
    exact ih ((lookup?_resolve k name other).trans hfound) (h.resolve other)

/-- Without bridging every name that resolves gives its address. -/
theorem gives_of_inactive (hactive : k.bridge.active = false) (h : (k.resolve name).1 = some a) :
    k.Gives name a := by
  cases hbuiltin : builtins.address? name with
  | some address =>
    have hgives : k.Gives name address := gives_of_builtin hbuiltin
    obtain rfl := Option.some.inj (hgives.resolve_eq.symm.trans h)
    exact hgives
  | none =>
    cases hfound : k.registry.lookup? k.loader name with
    | none =>
      have hsome := k.isSome_resolve name
      rw [h, hbuiltin, hfound] at hsome
      exact absurd hsome (by simp)
    | some found =>
      obtain ⟨handle, function⟩ := found
      have hneeds : k.bridge.needsTrampoline (k.isCode function) handle function = false := by
        simp [Bridge.needsTrampoline, hactive]
      have hgives := gives_of_settled hbuiltin hfound (.direct hneeds)
      obtain rfl := Option.some.inj (hgives.resolve_eq.symm.trans h)
      exact hgives

/-- **A name that was resolved keeps its address**, if what was written for it could be
remembered. -/
theorem gives_resolve (hspace : k.bridge.isFull = false) (h : (k.resolve name).1 = some a) :
    (k.resolve name).2.Gives name a := by
  cases hbuiltin : builtins.address? name with
  | some address =>
    have hgives : k.Gives name address := gives_of_builtin hbuiltin
    obtain rfl := Option.some.inj (hgives.resolve_eq.symm.trans h)
    exact hgives.resolve name
  | none =>
    cases hfound : k.registry.lookup? k.loader name with
    | none =>
      have hsome := k.isSome_resolve name
      rw [h, hbuiltin, hfound] at hsome
      exact absurd hsome (by simp)
    | some found =>
      obtain ⟨handle, function⟩ := found
      have hresolve := resolve_of_found hbuiltin hfound
      have hsettled : (k.resolve name).2.Settled handle function
          (k.settled.wrapped handle function).1 := by
        rw [hresolve]
        exact settled_wrapped (k := k.settled) hspace handle function
      rw [hresolve] at h
      obtain rfl := Option.some.inj h
      exact gives_of_settled hbuiltin ((lookup?_resolve k name name).trans hfound) hsettled

/-! ## Names that are resolved in turn -/

/-- A bridge that has space left when it has remembered a trampoline had space before. -/
theorem isFull_of_remember {bridge : Bridge} {place : Address}
    (hspace : (bridge.remember function place).isFull = false) : bridge.isFull = false := by
  rw [Bridge.remember, Bridge.isFull] at hspace
  dsimp only at hspace
  rw [Bridge.isFull, decide_eq_false_iff_not]
  intro hfull
  rw [if_neg (Nat.not_lt.2 hfull), decide_eq_false_iff_not] at hspace
  exact hspace hfull

/-- What resolving a name does to the bridge: nothing, or a trampoline is remembered. -/
theorem bridge_resolve_cases (k : Linkage) (name : String) :
    (k.resolve name).2.bridge = k.bridge ∨
    ∃ function place, (k.resolve name).2.bridge = k.bridge.remember function place := by
  rcases resolve_cases k name with
    ⟨b, -, heq⟩ | ⟨-, -, heq⟩ | ⟨handle, function, -, -, heq⟩
  · exact .inl (by rw [heq])
  · exact .inl (by rw [heq]; rfl)
  · rcases wrapped_cases k.settled handle function with hsame | ⟨place, -, hwritten⟩
    · exact .inl (by rw [heq, hsame]; rfl)
    · exact .inr ⟨function, place, by rw [heq, hwritten]; rfl⟩

theorem isFull_of_resolve (hspace : (k.resolve name).2.bridge.isFull = false) :
    k.bridge.isFull = false := by
  rcases bridge_resolve_cases k name with hsame | ⟨function, place, hremembered⟩
  · exact (congrArg Bridge.isFull hsame).symm.trans hspace
  · exact isFull_of_remember ((congrArg Bridge.isFull hremembered).symm.trans hspace)

/-- A bridge that has space left after some names were resolved never was full. -/
theorem isFull_of_after {names : List String}
    (hspace : (k.after (names.map .resolve)).bridge.isFull = false) : k.bridge.isFull = false := by
  induction names generalizing k with
  | nil =>
    have hafter : k.after (([] : List String).map .resolve) = k := rfl
    rwa [hafter] at hspace
  | cons other names ih =>
    rw [after_resolve] at hspace
    exact isFull_of_resolve (ih hspace)

/-- **Names that were resolved in turn keep their addresses**, if there is space left at the end. -/
theorem gives_of_mem_addresses? {names : List String} {late : List (String × Address)}
    (hlate : k.addresses? names = some late) (hmem : (name, a) ∈ late)
    (hspace : (k.after (names.map .resolve)).bridge.isFull = false) :
    (k.after (names.map .resolve)).Gives name a := by
  induction names generalizing k late with
  | nil =>
    obtain rfl : [] = late := Option.some.inj hlate
    exact absurd hmem (by simp)
  | cons first names ih =>
    obtain ⟨b, rest, hb, hrest, rfl⟩ := addresses?_cons.1 hlate
    rw [after_resolve] at hspace ⊢
    rcases List.mem_cons.1 hmem with heq | hmem
    · obtain ⟨rfl, rfl⟩ := Prod.mk.inj heq
      -- the name that is resolved first
      exact (gives_resolve (isFull_of_resolve (isFull_of_after hspace)) hb).after names
    · exact ih hrest hmem hspace

end Linkage

/-- What a name gives survives whatever the engine does. -/
theorem World.Leads.gives {σ : Type} [Compiler σ] {w w' : World σ} (h : w.Leads w') {name : String}
    {a : Address} (hgives : w.linkage.Gives name a) : w'.linkage.Gives name a := by
  obtain ⟨cs, hcourse⟩ := h
  induction hcourse with
  | rest h => rwa [h.linkage]
  | resolve w other =>
    rw [World.linkage_mk]
    exact hgives.resolve other
  | refused h => exact hgives
  | created h => exact hgives
  | asked w n q => exact hgives
  | trans h h' ih ih' => exact ih' (ih hgives)

/-- Whatever the engine does, a bridge that has space left at the end had space before. -/
theorem World.Leads.isFull {σ : Type} [Compiler σ] {w w' : World σ} (h : w.Leads w')
    (hspace : w'.linkage.bridge.isFull = false) : w.linkage.bridge.isFull = false := by
  obtain ⟨cs, hcourse⟩ := h
  induction hcourse with
  | rest h => rwa [h.linkage] at hspace
  | resolve w other =>
    rw [World.linkage_mk] at hspace
    exact Linkage.isFull_of_resolve hspace
  | refused h => exact hspace
  | created h => exact hspace
  | asked w n q => exact hspace
  | trans h h' ih ih' => exact ih (ih' hspace)

end LiveC
