import LiveC.Proofs.Symbol.Builtins
import LiveC.Proofs.Symbol.Trampolines
import LiveC.Session.Build
/-!
# Resolving some names in turn

Whether a name resolves depends on the builtins and on the opened libraries only, so resolving one
name has no influence on whether another one does. `Linkage.addresses?` gives the addresses of some
names that are resolved one after the other; there are addresses exactly when every name resolves by
itself (`isSome_addresses?`), and none of them is zero (`addresses?_ne_zero`). `resolveAll_apply`
says that the engine resolves names that way, and `resolveAll_of_addresses?` what it leaves when all
of them are found.
-/

namespace LiveC

/-! ## Addresses that are found are not zero -/

theorem Loader.found?_ne_zero {l : Loader} {handle a : Address} {name : String}
    (h : l.found? handle name = some a) : a ≠ 0 := by
  simpa using (Option.filter_eq_some_iff.1 h).2

theorem Registry.lookup?_ne_zero {r : Registry} {l : Loader} {name : String}
    {found : Address × Address} (h : r.lookup? l name = some found) : found.2 ≠ 0 := by
  obtain ⟨handle, -, hfound⟩ := List.exists_of_findSome?_eq_some h
  obtain ⟨a, ha, rfl⟩ := Option.map_eq_some_iff.1 hfound
  exact Loader.found?_ne_zero ha

namespace Linkage

/-! ## One name after the other -/

variable {k : Linkage} {name : String}

/-- The addresses of some names that are resolved in turn, if every one of them is found. -/
def addresses? (k : Linkage) : List String → Option (List (String × Address))
  | [] => some []
  | name :: names =>
    (k.resolve name).1.bind fun a =>
      ((k.resolve name).2.addresses? names).map fun rest => (name, a) :: rest

/-- A name resolves if it is a builtin or an opened library exports it. -/
theorem isSome_resolve (k : Linkage) (name : String) : (k.resolve name).1.isSome =
    ((builtins.address? name).isSome || (k.registry.lookup? k.loader name).isSome) := by
  rcases resolve_cases k name with ⟨a, h, heq⟩ | ⟨h, hl, heq⟩ | ⟨handle, function, h, hl, heq⟩
  · rw [heq, h, Option.isSome_some, Bool.true_or]
  · rw [heq, h, hl]; rfl
  · rw [heq, h, hl]; rfl

/-- What resolving a name leaves. -/
theorem resolve_frame (k : Linkage) (name : String) : ∃ cache emitted code pending,
    (k.resolve name).2 = { k with
      bridge := { k.bridge with cache := cache, emitted := emitted }
      code := code
      loader := { k.loader with pending := pending } } := by
  rcases resolve_cases k name with ⟨a, -, heq⟩ | ⟨-, -, heq⟩ | ⟨handle, function, -, -, heq⟩
  · exact ⟨_, _, _, _, by rw [heq]⟩
  · exact ⟨_, _, _, _, by rw [heq, settled]⟩
  · obtain ⟨cache, emitted, code, h⟩ := wrapped_frame k.settled handle function
    exact ⟨cache, emitted, code, none, by rw [heq, h, settled]⟩

/-- Resolving one name has no influence on whether another one resolves. -/
theorem isSome_resolve_resolve (k : Linkage) (name other : String) :
    ((k.resolve name).2.resolve other).1.isSome = (k.resolve other).1.isSome := by
  obtain ⟨cache, emitted, code, pending, h⟩ := resolve_frame k name
  rw [isSome_resolve, isSome_resolve, h]
  rfl

theorem platform_resolve (k : Linkage) (name : String) :
    (k.resolve name).2.platform = k.platform := by
  obtain ⟨cache, emitted, code, pending, h⟩ := resolve_frame k name
  rw [h]

/-- Some names have addresses exactly when every one of them resolves by itself. -/
theorem isSome_addresses? (k : Linkage) (names : List String) :
    (k.addresses? names).isSome = true ↔ ∀ n ∈ names, (k.resolve n).1.isSome = true := by
  induction names generalizing k with
  | nil => simp [addresses?]
  | cons name names ih =>
    rw [addresses?, List.forall_mem_cons]
    cases h : (k.resolve name).1 with
    | none => simp
    | some a =>
      rw [Option.bind_some, Option.isSome_map, ih]
      simp only [isSome_resolve_resolve, Option.isSome_some, true_and]

theorem addresses?_cons {names : List String} {late : List (String × Address)} :
    k.addresses? (name :: names) = some late ↔ ∃ a rest, (k.resolve name).1 = some a ∧
      (k.resolve name).2.addresses? names = some rest ∧ (name, a) :: rest = late := by
  simp [addresses?, Option.bind_eq_some_iff, Option.map_eq_some_iff]

/-- The addresses are those of the names, in order. -/
theorem map_fst_addresses? {names : List String} {late : List (String × Address)}
    (h : k.addresses? names = some late) : late.map Prod.fst = names := by
  induction names generalizing k late with
  | nil =>
    obtain rfl : [] = late := Option.some.inj h
    rfl
  | cons name names ih =>
    obtain ⟨a, rest, -, hrest, rfl⟩ := addresses?_cons.1 h
    rw [List.map_cons, ih hrest]

theorem after_resolve (k : Linkage) (name : String) (names : List String) :
    k.after ((name :: names).map .resolve) = (k.resolve name).2.after (names.map .resolve) := by
  rw [List.map_cons, after, List.foldl_cons, step, after]

theorem Sound.resolve (h : Sound k) (name : String) : Sound (k.resolve name).2 := by
  rcases resolve_cases k name with ⟨a, -, heq⟩ | ⟨-, -, heq⟩ | ⟨handle, function, -, -, heq⟩
  · rwa [heq]
  · rw [heq]
    exact h.settled
  · rw [heq]
    exact h.settled.wrapped handle function

/-- An address that a name resolves to is not zero. -/
theorem Sound.resolve_ne_zero (h : Sound k) {a : Address} (ha : (k.resolve name).1 = some a) :
    a ≠ 0 := by
  rcases resolve_cases k name with ⟨b, hb, heq⟩ | ⟨-, -, heq⟩ | ⟨handle, function, -, hlookup, heq⟩
  · rw [heq] at ha
    obtain rfl : b = a := Option.some.inj ha
    exact BuiltinTable.address?_ne_zero hb
  · rw [heq] at ha
    exact absurd ha (by simp)
  · rw [heq] at ha
    obtain rfl := Option.some.inj ha
    exact h.settled.wrapped_ne_zero (Registry.lookup?_ne_zero hlookup)

theorem Sound.addresses?_ne_zero (h : Sound k) {names : List String}
    {late : List (String × Address)} (hlate : k.addresses? names = some late) :
    ∀ p ∈ late, p.2 ≠ 0 := by
  induction names generalizing k late with
  | nil =>
    obtain rfl : [] = late := Option.some.inj hlate
    simp
  | cons name names ih =>
    obtain ⟨a, rest, ha, hrest, rfl⟩ := addresses?_cons.1 hlate
    rw [List.forall_mem_cons]
    exact ⟨h.resolve_ne_zero ha, ih (h.resolve name) hrest⟩

end Linkage

@[simp] theorem World.linkage_mk {σ : Type} (w : World σ) (k : Linkage) :
    ({ w with linkage := k } : World σ).linkage = k := rfl

namespace Engine

variable {σ : Type}

/-- The engine resolves names in turn, and nothing but the linkage changes meanwhile. -/
theorem resolveAll_apply (names : List String) (w : World σ) :
    ∃ k, resolveAll names w = (.ok (w.linkage.addresses? names), { w with linkage := k }) ∧
      (w.linkage.Sound → k.Sound) ∧ k.platform = w.linkage.platform := by
  induction names generalizing w with
  | nil => exact ⟨w.linkage, rfl, id, rfl⟩
  | cons name names ih =>
    have hplatform := w.linkage.platform_resolve name
    have hsound : w.linkage.Sound → (w.linkage.resolve name).2.Sound := fun h => h.resolve name
    rw [resolveAll, Attempt.bind_of_ok (resolve_apply name w), Linkage.addresses?]
    generalize w.linkage.resolve name = found at hplatform hsound ⊢
    obtain ⟨address, linkage⟩ := found
    cases address with
    | none => exact ⟨linkage, rfl, hsound, hplatform⟩
    | some a =>
      obtain ⟨k, h, hkept, hk⟩ := ih { w with linkage := linkage }
      refine ⟨k, ?_, fun hw => hkept (hsound hw), hk.trans hplatform⟩
      dsimp only
      rw [Attempt.bind_of_ok h, Attempt.pure_apply, Option.bind_some]

/-- When all names are found, all of them were resolved in turn. -/
theorem resolveAll_of_addresses? {w : World σ} {names : List String}
    {late : List (String × Address)} (h : w.linkage.addresses? names = some late) :
    resolveAll names w =
      (.ok (some late), { w with linkage := w.linkage.after (names.map .resolve) }) := by
  induction names generalizing w late with
  | nil =>
    obtain rfl : [] = late := Option.some.inj h
    rfl
  | cons name names ih =>
    obtain ⟨a, rest, ha, hrest, rfl⟩ := Linkage.addresses?_cons.1 h
    rw [resolveAll, Attempt.bind_of_ok (resolve_apply name w), Linkage.after_resolve]
    generalize w.linkage.resolve name = found at ha hrest ⊢
    obtain ⟨address, linkage⟩ := found
    obtain rfl : address = some a := ha
    have hall := ih (w := { w with linkage := linkage }) hrest
    dsimp only at hall ⊢
    rw [Attempt.bind_of_ok hall, Attempt.pure_apply, Option.map_some]

end Engine

end LiveC
