import LiveC.Proofs.Bridge.Cache
import LiveC.Symbol.Linkage
/-!
# The trampolines of a linkage

`Linkage.wrapped` leaves an address alone, exchanges it for a trampoline that was written before, or
writes one: the three ways are told apart by whether the bridge wants a trampoline, whether it
remembers one and whether there is room for one (`wrapped_of_direct` and the lemmas after it). A
linkage is `Sound` when no trampoline that it remembers is zero or stands for itself. It is sound at
the start, and after every history of operations (`Sound.after`).
-/

namespace LiveC.Linkage

/-! ## Reaching a trampoline -/

section

variable {k : Linkage} {handle function : Address}

theorem wrapped_of_direct
    (h : k.bridge.needsTrampoline (k.isCode function) handle function = false) :
    k.wrapped handle function = (function, k) := by
  simp [wrapped, Bridge.wrap, h]

theorem wrapped_of_cached {trampoline : Address}
    (h : k.bridge.needsTrampoline (k.isCode function) handle function = true)
    (hc : k.bridge.cached? function = some trampoline) :
    k.wrapped handle function = (trampoline, k) := by
  simp [wrapped, Bridge.wrap, h, hc]

theorem wrapped_of_room {place : Address}
    (h : k.bridge.needsTrampoline (k.isCode function) handle function = true)
    (hc : k.bridge.cached? function = none) (hr : k.room? = some place) :
    k.wrapped handle function = (place,
      { k with bridge := k.bridge.remember function place, code := k.code.write function }) := by
  simp [wrapped, Bridge.wrap, h, hc, hr, Bridge.remember]

theorem wrapped_of_full
    (h : k.bridge.needsTrampoline (k.isCode function) handle function = true)
    (hc : k.bridge.cached? function = none) (hr : k.room? = none) :
    k.wrapped handle function = (function, k) := by
  simp [wrapped, Bridge.wrap, h, hc, hr]

/-- The bridge wants a trampoline for code only. -/
theorem isCode_of_needsTrampoline
    (h : k.bridge.needsTrampoline (k.isCode function) handle function = true) :
    k.isCode function = true := by
  simp only [Bridge.needsTrampoline, Bool.and_eq_true] at h
  exact h.2

/-- A trampoline is never written where its function lies: there is no room where a library lies. -/
theorem ne_of_room? {place : Address} (hr : k.room? = some place)
    (hcode : k.isCode function = true) : place ≠ function := by
  rintro rfl
  rw [room?, Option.filter_eq_some_iff] at hr
  rw [isCode, Option.isNone_iff_eq_none.1 hr.2] at hcode
  exact absurd hcode (by simp)

/-- The memory for trampolines does not start at zero. -/
theorem ne_zero_of_room? {place : Address} (hr : k.room? = some place) : place ≠ 0 := by
  rintro rfl
  rw [room?, Option.filter_eq_some_iff, CodeArea.free?] at hr
  have hfree := hr.1
  split at hfree
  · next hrange =>
    rw [Option.some.inj hfree, Bool.and_eq_true, decide_eq_true_eq] at hrange
    exact absurd hrange.1 (by decide)
  · exact absurd hfree (by simp)

theorem mem_cache_remember {b : Bridge} {trampoline : Address} {p : Address × Address}
    (h : p ∈ (b.remember function trampoline).cache) :
    p ∈ b.cache ∨ p = (function, trampoline) := by
  rw [Bridge.remember] at h
  dsimp only at h
  split at h
  · rwa [List.mem_append, List.mem_singleton] at h
  · exact .inl h

/-- Reaching an address touches nothing but the trampolines. -/
theorem wrapped_frame (k : Linkage) (handle function : Address) :
    ∃ cache emitted code, (k.wrapped handle function).2 =
      { k with bridge := { k.bridge with cache := cache, emitted := emitted }, code := code } := by
  cases hneeds : k.bridge.needsTrampoline (k.isCode function) handle function with
  | false => exact ⟨_, _, _, by rw [wrapped_of_direct hneeds]⟩
  | true =>
    cases hcached : k.bridge.cached? function with
    | some trampoline => exact ⟨_, _, _, by rw [wrapped_of_cached hneeds hcached]⟩
    | none =>
      cases hroom : k.room? with
      | none => exact ⟨_, _, _, by rw [wrapped_of_full hneeds hcached hroom]⟩
      | some place => exact ⟨_, _, _, by rw [wrapped_of_room hneeds hcached hroom]; rfl⟩

/-- **What resolving a name does**: it gives the address of a builtin, it finds nothing, or it
reaches what a library exports. -/
theorem resolve_cases (k : Linkage) (name : String) :
    (∃ a, builtins.address? name = some a ∧ k.resolve name = (some a, k)) ∨
    (builtins.address? name = none ∧ k.registry.lookup? k.loader name = none ∧
      k.resolve name = (none, k.settled)) ∨
    ∃ handle function, builtins.address? name = none ∧
      k.registry.lookup? k.loader name = some (handle, function) ∧
      k.resolve name = (some (k.settled.wrapped handle function).1,
        (k.settled.wrapped handle function).2) := by
  unfold resolve
  split
  · next a h => exact .inl ⟨a, h, rfl⟩
  · next h =>
    split
    · next hlookup => exact .inr (.inl ⟨h, hlookup, rfl⟩)
    · next handle function hlookup => exact .inr (.inr ⟨handle, function, h, hlookup, rfl⟩)

/-- A builtin resolves to its own address. -/
theorem resolve_of_builtin {name : String} {a : Address} (h : builtins.address? name = some a) :
    k.resolve name = (some a, k) := by
  rcases resolve_cases k name with ⟨b, hb, heq⟩ | ⟨hnone, -, -⟩ | ⟨_, _, hnone, -, -⟩
  · rw [heq, Option.some.inj (hb.symm.trans h)]
  · exact absurd (h.symm.trans hnone) (by simp)
  · exact absurd (h.symm.trans hnone) (by simp)

/-- A name that is no builtin resolves to what is reached for its function. -/
theorem resolve_of_found {name : String} (hbuiltin : builtins.address? name = none)
    (h : k.registry.lookup? k.loader name = some (handle, function)) :
    k.resolve name = (some (k.settled.wrapped handle function).1,
      (k.settled.wrapped handle function).2) := by
  rcases resolve_cases k name with ⟨b, hb, -⟩ | ⟨-, hnone, -⟩ | ⟨handle', function', -, hfound, heq⟩
  · exact absurd (hbuiltin.symm.trans hb) (by simp)
  · exact absurd (h.symm.trans hnone) (by simp)
  · obtain ⟨rfl, rfl⟩ := Prod.mk.inj (Option.some.inj (hfound.symm.trans h))
    exact heq

end

/-! ## Histories -/

/-- Something that is asked of a linkage. -/
inductive Operation
  | openLibrary (files : FileTree) (name : String)
  | openLibraryWith (files : FileTree) (mode : OpenMode) (name : String)
  | resolve (name : String)
  | resolveIn (handle : Address) (name : String)

/-- The linkage after it was asked for something. -/
def step (k : Linkage) : Operation → Linkage
  | .openLibrary files name => (k.openLibrary files name).2
  | .openLibraryWith files mode name => (k.openLibraryWith files mode name).2
  | .resolve name => (k.resolve name).2
  | .resolveIn handle name => (k.resolveIn handle name).2

/-- The linkage after a history of operations. -/
def after (k : Linkage) (history : List Operation) : Linkage := history.foldl step k

/-- What every step keeps is kept by every history. -/
theorem after_induction {P : Linkage → Prop} (hstep : ∀ k op, P k → P (k.step op)) {k : Linkage}
    (h : P k) (history : List Operation) : P (k.after history) := by
  induction history generalizing k with
  | nil => exact h
  | cons op history ih => exact ih (hstep k op h)

/-- An operation searches without leaving a trace, reaches an address, or tracks a library. -/
theorem step_induction {P : Linkage → Prop} {k : Linkage} (h : P k)
    (hsettled : P k.settled)
    (hwrapped : ∀ handle function, P (k.settled.wrapped handle function).2)
    (hopened : ∀ (loader : Loader) (name : String) (handle : Address),
      P { k with loader := loader, registry := k.registry.record name handle })
    (op : Operation) : P (k.step op) := by
  have hopenIn (files : FileTree) (mode : OpenMode) (name : String) :
      P (k.openIn files mode name).2 := by
    unfold openIn
    split
    · exact hsettled
    · exact hopened _ _ _
  cases op with
  | openLibrary files name => exact hopenIn files _ name
  | openLibraryWith files mode name => exact hopenIn files _ name
  | resolve name =>
    rw [step]
    rcases resolve_cases k name with ⟨a, -, heq⟩ | ⟨-, -, heq⟩ | ⟨handle, function, -, -, heq⟩
    · rwa [heq]
    · rwa [heq]
    · rw [heq]
      exact hwrapped handle function
  | resolveIn handle name =>
    rw [step]
    unfold Linkage.resolveIn
    split
    · exact h
    · split
      · exact hsettled
      · exact hwrapped _ _

/-- No operation changes the platform. -/
theorem platform_step (k : Linkage) (op : Operation) : (k.step op).platform = k.platform := by
  refine step_induction (P := fun k' => k'.platform = k.platform) rfl rfl ?_ (fun _ _ _ => rfl) op
  intro handle function
  obtain ⟨cache, emitted, code, h⟩ := wrapped_frame k.settled handle function
  rw [h]
  rfl

theorem platform_after (k : Linkage) (history : List Operation) :
    (k.after history).platform = k.platform :=
  after_induction (P := fun k' => k'.platform = k.platform)
    (fun k' op h => (k'.platform_step op).trans h) rfl history

/-! ## Sound linkages -/

/-- No trampoline that is remembered is zero or stands for itself. -/
def Sound (k : Linkage) : Prop := ∀ p ∈ k.bridge.cache, p.2 ≠ 0 ∧ p.2 ≠ p.1

namespace Sound

variable {k : Linkage}

theorem make (platform : Platform) (loader : Loader) (foreign : Convention) :
    Sound (Linkage.make platform loader foreign).1 := by
  have hcache : (Linkage.make platform loader foreign).1.bridge.cache = [] := by
    cases foreign <;> rfl
  intro p hp
  rw [hcache] at hp
  exact absurd hp (by simp)

theorem settled (h : Sound k) : Sound k.settled := h

theorem wrapped (h : Sound k) (handle function : Address) :
    Sound (k.wrapped handle function).2 := by
  cases hneeds : k.bridge.needsTrampoline (k.isCode function) handle function with
  | false => rwa [wrapped_of_direct hneeds]
  | true =>
    cases hcached : k.bridge.cached? function with
    | some trampoline => rwa [wrapped_of_cached hneeds hcached]
    | none =>
      cases hroom : k.room? with
      | none => rwa [wrapped_of_full hneeds hcached hroom]
      | some place =>
        rw [wrapped_of_room hneeds hcached hroom]
        intro p hp
        rcases mem_cache_remember hp with hp | rfl
        · exact h p hp
        · exact ⟨ne_zero_of_room? hroom, ne_of_room? hroom (isCode_of_needsTrampoline hneeds)⟩

theorem step (h : Sound k) (op : Operation) : Sound (k.step op) :=
  step_induction h h.settled (fun _ _ => h.settled.wrapped _ _) (fun _ _ _ => h) op

/-- Every history keeps a linkage sound. -/
theorem after (h : Sound k) (history : List Operation) : Sound (k.after history) :=
  after_induction (fun _ op h => h.step op) h history

/-- An address that is reached is not zero. -/
theorem wrapped_ne_zero (h : Sound k) {handle function : Address} (hf : function ≠ 0) :
    (k.wrapped handle function).1 ≠ 0 := by
  cases hneeds : k.bridge.needsTrampoline (k.isCode function) handle function with
  | false => rwa [wrapped_of_direct hneeds]
  | true =>
    cases hcached : k.bridge.cached? function with
    | some trampoline =>
      rw [wrapped_of_cached hneeds hcached]
      exact (h _ (Bridge.mem_of_cached? hcached)).1
    | none =>
      cases hroom : k.room? with
      | none => rwa [wrapped_of_full hneeds hcached hroom]
      | some place =>
        rw [wrapped_of_room hneeds hcached hroom]
        exact ne_zero_of_room? hroom

end Sound

end LiveC.Linkage
