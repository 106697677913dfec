import Mathlib.Data.List.Pairwise
/-!
# Facts about lists

What the other modules use of lists besides the library: where a key of an association list leads,
searching and reading part by part, and ties. `List.mergeSort` leaves elements that are as good as
each other in their order (`filter_mergeSort`), so the ties of a sorted list stand as they stood
before (`pairwise_mergeSort_of_pairwise`).
-/

namespace LiveC

/-! ## Association lists -/

section Lookup

variable {α β : Type} [BEq α] [LawfulBEq α] {l : List (α × β)} {a : α} {b : β}

theorem mem_of_lookup_eq_some (h : l.lookup a = some b) : (a, b) ∈ l := by
  obtain ⟨before, rest, rfl, -⟩ := List.lookup_eq_some_iff.1 h
  exact List.mem_append_right before List.mem_cons_self

theorem exists_lookup_of_mem (h : a ∈ l.map Prod.fst) : ∃ b, l.lookup a = some b := by
  rw [← Option.isSome_iff_exists, List.lookup_isSome_iff]
  obtain ⟨p, hp, rfl⟩ := List.mem_map.1 h
  exact ⟨p, hp, beq_self_eq_true _⟩

end Lookup

/-! ## Part by part -/

/-- A search passes over what offers nothing. -/
theorem findSome?_filter_not {α β : Type} {f : α → Option β} {p : α → Bool} {as : List α}
    (h : ∀ a ∈ as, p a = true → f a = none) :
    (as.filter (!p ·)).findSome? f = as.findSome? f := by
  induction as with
  | nil => rfl
  | cons a as ih =>
    have htail := ih fun b hb => h b (List.mem_cons_of_mem a hb)
    cases ha : p a with
    | true =>
      rw [List.filter_cons_of_neg (by simp [ha]), htail, List.findSome?_cons, h a (by simp) ha]
    | false =>
      rw [List.filter_cons_of_pos (by simp [ha]), List.findSome?_cons, htail, List.findSome?_cons]

/-- Two ways of reading give the same list when they agree on each part, and only then if no part
is read as nothing. -/
theorem map_eq_flatMap_iff {α β : Type} {f : α → List β} {g : α → β} {as : List α}
    (h : ∀ a ∈ as, f a ≠ []) : as.map g = as.flatMap f ↔ ∀ a ∈ as, f a = [g a] := by
  have hlength : ∀ as : List α, (∀ a ∈ as, f a ≠ []) → as.length ≤ (as.flatMap f).length := by
    intro as h
    induction as with
    | nil => simp
    | cons a as ih =>
      have ha := List.length_pos_iff.2 (h a (by simp))
      have hrest := ih fun b hb => h b (List.mem_cons_of_mem a hb)
      rw [List.flatMap_cons, List.length_append, List.length_cons]
      omega
  induction as with
  | nil => simp
  | cons a as ih =>
    have hrest : ∀ b ∈ as, f b ≠ [] := fun b hb => h b (List.mem_cons_of_mem a hb)
    obtain ⟨b, bs, hb⟩ := List.exists_cons_of_ne_nil (h a (by simp))
    have htails : as.map g = as.flatMap f ↔ ∀ c ∈ as, f c = [g c] := ih hrest
    rw [List.map_cons, List.flatMap_cons, List.forall_mem_cons, ← htails, hb, List.cons_append,
      List.cons_eq_cons, List.cons_eq_cons]
    constructor
    · rintro ⟨rfl, htail⟩
      have hnone : bs = [] := by
        have hcount := congrArg List.length htail
        have hle := hlength as hrest
        rw [List.length_map, List.length_append] at hcount
        exact List.length_eq_zero_iff.1 (by omega)
      subst hnone
      exact ⟨⟨rfl, rfl⟩, htail⟩
    · rintro ⟨⟨rfl, rfl⟩, htail⟩
      exact ⟨rfl, htail⟩

/-! ## Sorting and ties -/

section Ties

variable {α : Type} {le : α → α → Bool} {r : α → α → Prop} {l : List α}

/-- Elements that are as good as a given one are left in their order by sorting. -/
theorem filter_mergeSort (htrans : ∀ a b c, le a b → le b c → le a c)
    (htotal : ∀ a b, le a b || le b a) (l : List α) (b : α) :
    (l.mergeSort le).filter (fun a => le a b && le b a) = l.filter (fun a => le a b && le b a) := by
  have htied : (l.filter fun a => le a b && le b a).Pairwise fun a c => le a c = true := by
    refine List.pairwise_of_forall_mem_list fun a ha c hc => ?_
    have hab := (List.mem_filter.1 ha).2
    have hbc := (List.mem_filter.1 hc).2
    rw [Bool.and_eq_true] at hab hbc
    exact htrans a b c hab.1 hbc.2
  have hsublist := (List.sublist_mergeSort htrans htotal htied List.filter_sublist).filter
    fun a => le a b && le b a
  rw [List.filter_filter] at hsublist
  simp only [Bool.and_self] at hsublist
  -- both sides hold the same elements, so that they have the same length
  exact (hsublist.eq_of_length ((List.mergeSort_perm l le).filter _).length_eq.symm).symm

/-- Ties of a sorted list are in the order in which they were before. -/
theorem pairwise_mergeSort_of_pairwise (htrans : ∀ a b c, le a b → le b c → le a c)
    (htotal : ∀ a b, le a b || le b a) (h : l.Pairwise r) :
    (l.mergeSort le).Pairwise fun a b => le a b = true ∧ (le b a = true → r a b) := by
  rw [List.pairwise_iff_forall_sublist]
  intro a b hab
  have hle : le a b = true :=
    List.pairwise_iff_forall_sublist.1 (List.pairwise_mergeSort htrans htotal l) hab
  refine ⟨hle, fun hge => ?_⟩
  have hself : le b b = true := by simpa using htotal b b
  have htied : [a, b].filter (fun c => le c b && le b c) = [a, b] := by simp [hle, hge, hself]
  have hfiltered := hab.filter fun c => le c b && le b c
  rw [htied, filter_mergeSort htrans htotal] at hfiltered
  exact List.pairwise_iff_forall_sublist.1 h (hfiltered.trans List.filter_sublist)

end Ties

end LiveC
