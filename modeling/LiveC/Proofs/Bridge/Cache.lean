import LiveC.Bridge.Basic
import LiveC.Proofs.Lists
import Mathlib.Data.List.Nodup
/-!
# The trampolines that a bridge remembers

A history of a bridge is a list of operations, each with what came of it outside: whether the
wrapped function is code, and which trampoline could be made for it, if any. `made` are the
trampolines that a history makes. A bridge remembers the first of them, as many as it has room for,
in the order of their making (`cache_after`), and it never makes one for a function that it
remembers (`keys_nodup`). So what is remembered stays as it is, and is given again whenever its
function is wrapped (`trampolines_kept`).
-/

namespace LiveC.Bridge

/-- Something that is done with a bridge. -/
inductive Operation
  /-- The module of the host is noted. -/
  | host (module : Address)
  /-- A function of a module is wrapped. `fresh` is the trampoline that would be made for it; there
  is none if that fails. -/
  | wrap (module function : Address) (executable : Bool) (fresh : Option Address)

/-- The bridge after an operation. -/
def step (b : Bridge) : Operation → Bridge
  | .host module => b.setHostModule module
  | .wrap module function executable fresh => (b.wrap executable fresh module function).2

/-- The bridge after a history. -/
def after (b : Bridge) (history : List Operation) : Bridge := history.foldl step b

/-- The trampoline that an operation makes, with its function. One is made for a function that needs
one, if none is remembered and it can be made. -/
def made? (b : Bridge) : Operation → Option (Address × Address)
  | .host _ => none
  | .wrap module function executable fresh =>
    if b.needsTrampoline executable module function = true ∧ b.cached? function = none then
      fresh.map fun trampoline => (function, trampoline)
    else none

/-- The trampolines that a history makes, in order. -/
def made (b : Bridge) : List Operation → List (Address × Address)
  | [] => []
  | op :: history => (b.made? op).toList ++ (b.step op).made history

/-- Whether there is no room to remember another trampoline. -/
def isFull (b : Bridge) : Bool := trampolineCapacity ≤ b.cache.length

/-- The trampolines that a history makes while there is no room to remember them. -/
def madeWhenFull (b : Bridge) : List Operation → List (Address × Address)
  | [] => []
  | op :: history =>
    (if b.isFull then (b.made? op).toList else []) ++ (b.step op).madeWhenFull history

/-- A function gets a trampoline in a history: when it is wrapped it needs one, and the one that is
remembered or made for it is what the wrap gives. -/
def Gets (b : Bridge) (history : List Operation) (function trampoline : Address) : Prop :=
  ∃ before module executable fresh rest,
    history = before ++ .wrap module function executable fresh :: rest ∧
      (b.after before).needsTrampoline executable module function = true ∧
      ((b.after before).cached? function ≠ none ∨ fresh ≠ none) ∧
      ((b.after before).wrap executable fresh module function).1 = trampoline

variable {b : Bridge} {op : Operation} {history later : List Operation}
  {module function trampoline : Address} {executable : Bool} {fresh : Option Address}

@[simp] theorem after_nil (b : Bridge) : b.after [] = b := rfl

@[simp] theorem after_cons (b : Bridge) (op : Operation) (history : List Operation) :
    b.after (op :: history) = (b.step op).after history := rfl

@[simp] theorem after_append (b : Bridge) (history later : List Operation) :
    b.after (history ++ later) = (b.after history).after later := List.foldl_append

theorem made_append (b : Bridge) (history later : List Operation) :
    b.made (history ++ later) = b.made history ++ (b.after history).made later := by
  induction history generalizing b with
  | nil => rfl
  | cons op history ih => rw [List.cons_append, made, made, after_cons, ih, List.append_assoc]

/-! ## One wrap -/

theorem wrap_of_direct (h : b.needsTrampoline executable module function = false) :
    b.wrap executable fresh module function = (function, b) := by
  simp [wrap, h]

theorem wrap_of_cached (h : b.needsTrampoline executable module function = true)
    (hc : b.cached? function = some trampoline) :
    b.wrap executable fresh module function = (trampoline, b) := by
  simp [wrap, h, hc]

theorem wrap_of_fresh (h : b.needsTrampoline executable module function = true)
    (hc : b.cached? function = none) :
    b.wrap executable (some trampoline) module function =
      (trampoline, b.remember function trampoline) := by
  simp [wrap, h, hc]

theorem wrap_of_failed (hc : b.cached? function = none) :
    b.wrap executable none module function = (function, b) := by
  simp [wrap, hc]

/-- **What an operation does**: it makes a trampoline and remembers it, or it leaves the trampolines
as they are. -/
theorem step_cases (b : Bridge) (op : Operation) :
    (b.made? op = none ∧ (b.step op).cache = b.cache ∧ (b.step op).emitted = b.emitted ∧
      (b.step op).active = b.active) ∨
    ∃ module function executable trampoline,
      op = .wrap module function executable (some trampoline) ∧
      b.needsTrampoline executable module function = true ∧ b.cached? function = none ∧
      b.made? op = some (function, trampoline) ∧ b.step op = b.remember function trampoline := by
  cases op with
  | host module =>
    have hstep : (b.step (.host module)).cache = b.cache ∧
        (b.step (.host module)).emitted = b.emitted ∧
        (b.step (.host module)).active = b.active := by
      rw [step, setHostModule]
      split <;> exact ⟨rfl, rfl, rfl⟩
    exact .inl ⟨rfl, hstep⟩
  | wrap module function executable fresh =>
    cases hneeds : b.needsTrampoline executable module function with
    | false =>
      rw [step, wrap_of_direct hneeds]
      exact .inl ⟨by simp [made?, hneeds], rfl, rfl, rfl⟩
    | true =>
      cases hcached : b.cached? function with
      | some trampoline =>
        rw [step, wrap_of_cached hneeds hcached]
        exact .inl ⟨by simp [made?, hcached], rfl, rfl, rfl⟩
      | none =>
        cases fresh with
        | none =>
          rw [step, wrap_of_failed hcached]
          exact .inl ⟨by simp [made?], rfl, rfl, rfl⟩
        | some trampoline =>
          refine .inr ⟨module, function, executable, trampoline, rfl, hneeds, hcached, ?_, ?_⟩
          · simp [made?, hneeds, hcached]
          · rw [step, wrap_of_fresh hneeds hcached]

/-! ## The cache and the counter -/

theorem cache_step (b : Bridge) (op : Operation) : (b.step op).cache =
    b.cache ++ (b.made? op).toList.take (trampolineCapacity - b.cache.length) := by
  rcases step_cases b op with ⟨hmade, hcache, -⟩ | ⟨_, _, _, _, _, _, _, hmade, hstep⟩
  · rw [hmade, hcache]
    simp
  · rw [hmade, hstep, remember]
    dsimp only
    split
    · next hroom =>
      rw [Option.toList_some, List.take_of_length_le (by rw [List.length_singleton]; omega)]
    · next hfull =>
      have hzero : trampolineCapacity - b.cache.length = 0 := by omega
      rw [hzero, List.take_zero, List.append_nil]

/-- The trampolines that are remembered are the first ones that were made, in order. -/
theorem cache_after (b : Bridge) (history : List Operation) : (b.after history).cache =
    b.cache ++ (b.made history).take (trampolineCapacity - b.cache.length) := by
  induction history generalizing b with
  | nil => simp [made]
  | cons op history ih =>
    have hleft (n : Nat) : trampolineCapacity - (b.cache.length + min (trampolineCapacity -
        b.cache.length) n) = trampolineCapacity - b.cache.length - n := by omega
    rw [after_cons, ih, cache_step, made, List.length_append, List.length_take, hleft,
      List.take_append, List.append_assoc]

theorem emitted_step (b : Bridge) (op : Operation) :
    (b.step op).emitted = b.emitted + (b.made? op).toList.length := by
  rcases step_cases b op with ⟨hmade, -, hemitted, -⟩ | ⟨_, _, _, _, _, _, _, hmade, hstep⟩
  · rw [hmade, hemitted]
    rfl
  · rw [hmade, hstep]
    rfl

theorem emitted_after (b : Bridge) (history : List Operation) :
    (b.after history).emitted = b.emitted + (b.made history).length := by
  induction history generalizing b with
  | nil => rfl
  | cons op history ih => rw [after_cons, ih, emitted_step, made, List.length_append, Nat.add_assoc]

/-- Every trampoline that is made is remembered, or there was no room for it. -/
theorem length_cache_step (b : Bridge) (op : Operation) :
    (b.step op).cache.length + (if b.isFull then (b.made? op).toList else []).length =
      b.cache.length + (b.made? op).toList.length := by
  rcases step_cases b op with ⟨hmade, hcache, -⟩ | ⟨_, _, _, _, _, _, _, hmade, hstep⟩
  · rw [hmade, hcache]
    simp
  · rw [hmade, hstep, remember, isFull]
    by_cases hroom : b.cache.length < trampolineCapacity
    · have hfull : ¬trampolineCapacity ≤ b.cache.length := by omega
      simp [hroom, hfull]
    · have hfull : trampolineCapacity ≤ b.cache.length := by omega
      simp [hroom, hfull]

theorem length_cache_after (b : Bridge) (history : List Operation) :
    (b.after history).cache.length + (b.madeWhenFull history).length =
      b.cache.length + (b.made history).length := by
  induction history generalizing b with
  | nil => rfl
  | cons op history ih =>
    have hstep := length_cache_step b op
    have hrest := ih (b.step op)
    rw [after_cons, made, madeWhenFull, List.length_append, List.length_append]
    omega

/-! ## What is remembered -/

/-- A bridge remembers one trampoline for a function, and only for one that needs it. -/
structure Distinct (b : Bridge) : Prop where
  nodup : (b.cache.map Prod.fst).Nodup
  bridged : ∀ p ∈ b.cache, b.active = true ∧ p.1 ≠ 0

theorem mem_of_cached? (h : b.cached? function = some trampoline) :
    (function, trampoline) ∈ b.cache := mem_of_lookup_eq_some h

theorem Distinct.step (h : b.Distinct) (op : Operation) : (b.step op).Distinct := by
  rcases step_cases b op with ⟨-, hcache, -, hactive⟩ |
    ⟨module, function, executable, trampoline, -, hneeds, hcached, -, hstep⟩
  · exact ⟨by rw [hcache]; exact h.nodup, by rw [hcache, hactive]; exact h.bridged⟩
  · have hnew : function ∉ b.cache.map Prod.fst := by
      intro hmem
      obtain ⟨p, hp, rfl⟩ := List.mem_map.1 hmem
      have hnone := List.lookup_eq_none_iff.1 hcached p hp
      exact absurd hnone (by simp)
    simp only [needsTrampoline, Bool.and_eq_true, bne_iff_ne] at hneeds
    obtain ⟨⟨⟨⟨hactive, hzero⟩, -⟩, -⟩, -⟩ := hneeds
    rw [hstep]
    unfold remember
    split
    · refine ⟨?_, fun p hp => ⟨hactive, ?_⟩⟩
      · rw [List.map_append, List.nodup_append]
        refine ⟨h.nodup, List.nodup_singleton _, fun a ha c hc => ?_⟩
        obtain rfl : c = function := by simpa using hc
        rintro rfl
        exact hnew ha
      · rcases List.mem_append.1 hp with hp | hp
        · exact (h.bridged p hp).2
        · obtain rfl := List.mem_singleton.1 hp
          exact hzero
    · exact ⟨h.nodup, h.bridged⟩

theorem Distinct.after (h : b.Distinct) (history : List Operation) :
    (b.after history).Distinct := by
  induction history generalizing b with
  | nil => exact h
  | cons op history ih => exact ih (h.step op)

/-- What is remembered stays remembered. -/
theorem cached?_after (h : b.cached? function = some trampoline) (later : List Operation) :
    (b.after later).cached? function = some trampoline := by
  have hcache : b.cache.lookup function = some trampoline := h
  rw [cached?, cache_after, List.lookup_append, hcache]
  rfl

/-- A trampoline that a function gets was made for it. -/
theorem mem_made_of_gets (hcache : b.cache = []) (h : b.Gets history function trampoline) :
    (function, trampoline) ∈ b.made history := by
  obtain ⟨before, module, executable, fresh, rest, rfl, hneeds, hfound, hgiven⟩ := h
  rw [made_append]
  cases hcached : (b.after before).cached? function with
  | some remembered =>
    -- it was made earlier, and is among the first ones
    rw [wrap_of_cached hneeds hcached] at hgiven
    obtain rfl : remembered = trampoline := hgiven
    have hmem := mem_of_cached? hcached
    rw [cache_after, hcache, List.nil_append] at hmem
    exact List.mem_append_left _ (List.mem_of_mem_take hmem)
  | none =>
    obtain ⟨place, rfl⟩ := Option.ne_none_iff_exists'.1 (hfound.resolve_left fun hne => hne hcached)
    rw [wrap_of_fresh hneeds hcached] at hgiven
    obtain rfl : place = trampoline := hgiven
    have hmade : (b.after before).made? (.wrap module function executable (some place)) =
        some (function, place) := by simp [made?, hneeds, hcached]
    rw [made, hmade]
    exact List.mem_append_right _ List.mem_cons_self

/-! ## Histories of a bridge -/

/-- What holds of the trampolines of a bridge after a history. -/
structure Keeps (b : Bridge) (history : List Operation) : Prop where
  bounded : (b.after history).cache.length ≤ trampolineCapacity
  nodup : ((b.after history).cache.map Prod.fst).Nodup
  /-- No trampoline that is remembered is forgotten or replaced. -/
  stable : ∀ later, (b.after history).cache <+: (b.after (history ++ later)).cache
  /-- A function whose trampoline is remembered is exchanged for it from now on, without another one
  being made. -/
  reused : ∀ function trampoline, (b.after history).cached? function = some trampoline →
    ∀ later module fresh, module ≠ 0 → module ≠ (b.after (history ++ later)).hostModule →
      (b.after (history ++ later)).wrap true fresh module function =
        (trampoline, b.after (history ++ later))
  /-- Nothing is exchanged, remembered or counted for no function, no module or the host, for data,
  or if no trampoline can be made. -/
  untouched : ∀ module function executable fresh,
    (function = 0 ∨ module = 0 ∨ module = (b.after history).hostModule ∨ executable = false ∨
      (b.after history).cached? function = none ∧ fresh = none) →
    (b.after history).wrap executable fresh module function = (function, b.after history)
  /-- Two functions never get the same trampoline. -/
  apart : ∀ function function' trampoline, b.Gets history function trampoline →
    b.Gets history function' trampoline → function = function'
  counted : (b.after history).emitted = (b.made history).length
  remembered : (b.after history).emitted =
    (b.after history).cache.length + (b.madeWhenFull history).length

/-- **The trampolines of a bridge are kept.** After every history of a new bridge in which no
address is given to two trampolines, at most so many are remembered as there is room for, one for
each function and for good, no two functions share one, and the counter tells how many were made. -/
theorem trampolines_kept (compiled foreign : Convention) (history : List Operation)
    (hfresh : (((make compiled foreign).1.made history).map Prod.snd).Nodup) :
    (make compiled foreign).1.Keeps history := by
  have hnew : (make compiled foreign).1.cache = [] ∧ (make compiled foreign).1.emitted = 0 := by
    unfold make
    split
    · exact ⟨rfl, rfl⟩
    · split <;> exact ⟨rfl, rfl⟩
  obtain ⟨hcache, hemitted⟩ := hnew
  generalize (make compiled foreign).1 = b at *
  have hempty : b.Distinct := ⟨by simp [hcache], by simp [hcache]⟩
  have hlength := length_cache_after b history
  have hcount := emitted_after b history
  rw [hcache, List.length_nil, Nat.zero_add] at hlength
  rw [hemitted, Nat.zero_add] at hcount
  refine ⟨?_, (hempty.after history).nodup, fun later => ?_, fun function trampoline hcached later
    module fresh hmodule hhost => ?_, fun module function executable fresh h => ?_,
    fun function function' trampoline h h' => ?_, hcount, by omega⟩
  · rw [cache_after, hcache, List.nil_append, List.length_nil, Nat.sub_zero]
    exact List.length_take_le _ _
  · rw [after_append, cache_after (b.after history)]
    exact List.prefix_append _ _
  · have hlater := cached?_after hcached later
    rw [← after_append] at hlater
    obtain ⟨hactive, hzero⟩ := (hempty.after (history ++ later)).bridged _ (mem_of_cached? hlater)
    refine wrap_of_cached ?_ hlater
    simp only [needsTrampoline, Bool.and_eq_true, bne_iff_ne]
    exact ⟨⟨⟨⟨hactive, hzero⟩, hmodule⟩, hhost⟩, trivial⟩
  · by_cases hneeds : (b.after history).needsTrampoline executable module function = true
    · simp only [needsTrampoline, Bool.and_eq_true, bne_iff_ne] at hneeds
      obtain ⟨⟨⟨⟨-, hzero⟩, hmodule⟩, hhost⟩, hcode⟩ := hneeds
      obtain ⟨hcached, rfl⟩ : (b.after history).cached? function = none ∧ fresh = none := by
        simpa [hzero, hmodule, hhost, hcode] using h
      exact wrap_of_failed hcached
    · exact wrap_of_direct (by simpa using hneeds)
  · have hmem := mem_made_of_gets hcache h
    have hmem' := mem_made_of_gets hcache h'
    exact congrArg Prod.fst (List.inj_on_of_nodup_map hfresh hmem hmem' rfl)

/-- A library with two functions: the first is wrapped twice, and its second trampoline is not made.
-/
theorem trampolines_kept_twoFunctions :
    (((make .sysv64 .win64).1.made [.host 1, .wrap 2 16 true (some 64),
      .wrap 2 16 true (some 80), .wrap 2 32 true (some 96)]).map Prod.snd).Nodup ∧
    (make .sysv64 .win64).1.Keeps [.host 1, .wrap 2 16 true (some 64), .wrap 2 16 true (some 80),
      .wrap 2 32 true (some 96)] :=
  ⟨by decide, trampolines_kept .sysv64 .win64 _ (by decide)⟩

end LiveC.Bridge
