import Mathlib.Data.List.FinRange
import Mathlib.Order.Defs.LinearOrder
import LiveC.Diagnostic.Similar
import LiveC.Proofs.Lists
/-!
# The order of similar names

Under a score in a linear order, a candidate `Qualifies` as a similar name when it differs from the
target and its score is above the threshold, and one candidate is `Ahead` of another when its score
is higher, or the same and it stands earlier. Both are said of the places of candidates, as a
candidate can stand at several. `similarNames_ranked` says that the similar names are the qualifying
candidates in that order, as many of them from the start as are wanted.

The names are sorted by score alone. That equal scores keep the order of the candidates comes from
`filter_mergeSort`: sorting leaves elements that are as good as each other in their order.
-/

namespace LiveC

/-! ## Ranked candidates -/

namespace Similar

variable {κ : Type} [LinearOrder κ] (score : String → String → κ) (threshold : κ) (target : String)
  (candidates : List String)

/-- The candidate at a place differs from the target and scores above the threshold. -/
def Qualifies (i : Fin candidates.length) : Prop :=
  candidates.get i ≠ target ∧ threshold < score target (candidates.get i)

instance : DecidablePred (Qualifies score threshold target candidates) := fun _ =>
  inferInstanceAs (Decidable (_ ∧ _))

/-- The candidate at one place comes before that at another: it has the higher score, or the same
one and stands earlier. -/
def Ahead (i j : Fin candidates.length) : Prop :=
  score target (candidates.get j) < score target (candidates.get i) ∨
    score target (candidates.get i) = score target (candidates.get j) ∧ i < j

/-- The places of the candidates that qualify, from the first on. -/
def qualifyingPlaces : List (Fin candidates.length) :=
  (List.finRange candidates.length).filter (Qualifies score threshold target candidates)

/-- The places of the candidates that qualify, sorted by score. -/
def rankedPlaces : List (Fin candidates.length) :=
  (qualifyingPlaces score threshold target candidates).mergeSort fun i j =>
    score target (candidates.get i) ≥ score target (candidates.get j)

/-- The candidates that qualify, with their scores. -/
theorem scored_qualifyingPlaces :
    ((candidates.filter (· != target)).map fun c => (c, score target c)).filter
        (fun c => c.2 > threshold) =
      (qualifyingPlaces score threshold target candidates).map fun i =>
        (candidates.get i, score target (candidates.get i)) := by
  conv_lhs => rw [← List.map_get_finRange candidates]
  simp only [qualifyingPlaces, List.filter_map, List.map_map, List.filter_filter]
  refine congrArg (List.map _) (List.filter_congr fun i _ => ?_)
  rw [Bool.eq_iff_iff, decide_eq_true_iff]
  simp [Qualifies, and_comm]

/-- The similar names are read off the ranked places. -/
theorem similarNames_eq (limit : Nat) :
    similarNames score (fun s => s > threshold) (fun a b => a ≥ b) target candidates limit =
      ((rankedPlaces score threshold target candidates).take limit).map candidates.get := by
  have hsorted : (rankedPlaces score threshold target candidates).map (fun i =>
      (candidates.get i, score target (candidates.get i))) =
      ((qualifyingPlaces score threshold target candidates).map fun i =>
        (candidates.get i, score target (candidates.get i))).mergeSort fun a b => a.2 ≥ b.2 := by
    rw [rankedPlaces]
    exact List.map_mergeSort fun _ _ _ _ => rfl
  rw [similarNames, scored_qualifyingPlaces, ← hsorted, ← List.map_take, List.map_map]
  rfl

theorem perm_rankedPlaces : (rankedPlaces score threshold target candidates).Perm
    (qualifyingPlaces score threshold target candidates) :=
  List.mergeSort_perm _ _

variable {score threshold target candidates} in
theorem mem_rankedPlaces {i : Fin candidates.length} :
    i ∈ rankedPlaces score threshold target candidates ↔
      Qualifies score threshold target candidates i := by
  simp [(perm_rankedPlaces score threshold target candidates).mem_iff, qualifyingPlaces]

/-- There are as many ranked places as candidates that qualify, each counted as often as it stands
there. -/
theorem length_rankedPlaces : (rankedPlaces score threshold target candidates).length =
    candidates.countP fun c => c ≠ target ∧ threshold < score target c := by
  rw [(perm_rankedPlaces score threshold target candidates).length_eq, qualifyingPlaces,
    ← List.countP_eq_length_filter]
  conv_rhs => rw [← List.map_get_finRange candidates, List.countP_map]
  rfl

/-- Of two ranked places, the candidate at the first is ahead of the candidate at the second. -/
theorem pairwise_rankedPlaces : (rankedPlaces score threshold target candidates).Pairwise
    (Ahead score target candidates) := by
  have hplaces : (qualifyingPlaces score threshold target candidates).Pairwise (· < ·) :=
    (List.pairwise_lt_finRange _).filter _
  refine (pairwise_mergeSort_of_pairwise ?_ ?_ hplaces).imp fun {i j} h => ?_
  · intro i j k hij hjk
    rw [decide_eq_true_eq] at hij hjk ⊢
    exact hjk.trans hij
  · intro i j
    simpa using le_total (score target (candidates.get j)) (score target (candidates.get i))
  · obtain ⟨hle, hties⟩ := h
    rw [decide_eq_true_eq] at hle
    rcases hle.lt_or_eq with hlt | heq
    · exact .inl hlt
    · exact .inr ⟨heq.symm, hties (decide_eq_true heq.ge)⟩

/-- **Similar names are the best candidates, in order.** Under any score in a linear order, they
stand at some places of the list of candidates, as many as are wanted or else as many as qualify.
All these candidates qualify; of two of them the first is ahead of the second; and every one of them
is ahead of each candidate that qualifies and was left out. -/
theorem similarNames_ranked (limit : Nat) : ∃ places : List (Fin candidates.length),
    similarNames score (fun s => s > threshold) (fun a b => a ≥ b) target candidates limit =
      places.map candidates.get ∧
    places.length =
      min limit (candidates.countP fun c => c ≠ target ∧ threshold < score target c) ∧
    (∀ i ∈ places, Qualifies score threshold target candidates i) ∧
    places.Pairwise (Ahead score target candidates) ∧
    ∀ j ∉ places, Qualifies score threshold target candidates j →
      ∀ i ∈ places, Ahead score target candidates i j := by
  have hordered := pairwise_rankedPlaces score threshold target candidates
  rw [← List.take_append_drop limit (rankedPlaces score threshold target candidates),
    List.pairwise_append] at hordered
  obtain ⟨hpicked, -, hahead⟩ := hordered
  refine ⟨(rankedPlaces score threshold target candidates).take limit,
    similarNames_eq score threshold target candidates limit, ?_, ?_, hpicked, ?_⟩
  · rw [List.length_take, length_rankedPlaces]
  · exact fun i hi => mem_rankedPlaces.1 (List.mem_of_mem_take hi)
  · intro j hleft hj i hi
    have hmem := mem_rankedPlaces.2 hj
    rw [← List.take_append_drop limit (rankedPlaces score threshold target candidates),
      List.mem_append] at hmem
    exact hahead i hi j (hmem.resolve_left hleft)

/-- Of two names with one score the earlier one comes first, and the others are cut off. -/
example : similarNames (fun _ name => name.length) (fun s => s > 2) (fun a b => a ≥ b) "cat"
    ["dog", "horse", "cat", "ox", "mouse", "ant"] 3 = ["horse", "mouse", "dog"] := by
  cbv

end Similar

end LiveC
