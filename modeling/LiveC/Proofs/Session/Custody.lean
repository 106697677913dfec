import LiveC.Proofs.Session.Linking
import Mathlib.Data.Multiset.UnionInter
/-!
# States in use

The calls of the compiler can be followed with an account of its states: how many were made, and
which of them are not deleted yet. `Custody.follow` keeps that account, and it refuses calls that
ask or delete a state that is not in use. So in a log that it follows, every state that is not in
use at the end was deleted exactly once, and that was its last call (`Custody.deletedOnce`).

`World.Tends` says of two worlds that the calls between them can be followed, from some states in
use to some others. More states in use do no harm (`Tends.frame`), so that each operation of the
engine is accounted for by the states that it works on alone.
-/

namespace LiveC

variable {σ α : Type}

namespace Call

/-- Whether a call made a state of a number, or asked it for something. -/
def isAbout (n : Nat) : Call → Bool
  | refused => false
  | created m => m == n
  | asked m _ _ => m == n

/-- The state that was linked, if the call is a request to link that succeeded. -/
def linked? : Call → Option Nat
  | asked n .relocate false => some n
  | _ => none

/-- The states that were linked, in the order of the calls. -/
def linkedStates (calls : List Call) : List Nat := calls.filterMap linked?

@[simp] theorem linkedStates_nil : linkedStates [] = [] := rfl

@[simp] theorem linkedStates_append (cs cs' : List Call) :
    linkedStates (cs ++ cs') = linkedStates cs ++ linkedStates cs' := List.filterMap_append

theorem isSome_linked? (c : Call) : c.linked?.isSome = c.links := by
  cases c with
  | asked n q failed => cases q <;> cases failed <;> rfl
  | _ => rfl

end Call

/-- The states of the compiler that are in use. -/
structure Custody where
  /-- The number of states made. -/
  made : Nat
  /-- The states that are not deleted yet. -/
  live : Multiset Nat

namespace Custody

/-- The account after a call. Only a state that is in use can be asked or deleted. -/
def step (c : Custody) : Call → Option Custody
  | .refused => some c
  | .created n => if n = c.made then some ⟨n + 1, n ::ₘ c.live⟩ else none
  | .asked n .delete _ => if n ∈ c.live then some { c with live := c.live.erase n } else none
  | .asked n _ _ => if n ∈ c.live then some c else none

/-- The account after some calls. -/
def follow (c : Custody) : List Call → Option Custody
  | [] => some c
  | call :: calls => (c.step call).bind fun c => c.follow calls

@[simp] theorem follow_nil (c : Custody) : c.follow [] = some c := rfl

theorem follow_append (c : Custody) (cs cs' : List Call) :
    c.follow (cs ++ cs') = (c.follow cs).bind fun c => c.follow cs' := by
  induction cs generalizing c with
  | nil => rfl
  | cons call cs ih => simp only [List.cons_append, follow, ih, Option.bind_assoc]

theorem step_asked {c : Custody} {n : Nat} {q : Request} (h : q ≠ .delete) (failed : Bool) :
    c.step (.asked n q failed) = if n ∈ c.live then some c else none := by
  cases q <;> first | rfl | exact absurd rfl h

/-- What a call does to the account. -/
theorem step_cases {c c' : Custody} {call : Call} (h : c.step call = some c') :
    (call = .refused ∧ c' = c) ∨
    (call = .created c.made ∧ c' = ⟨c.made + 1, c.made ::ₘ c.live⟩) ∨
    (∃ n failed, call = .asked n .delete failed ∧ n ∈ c.live ∧
      c' = ⟨c.made, c.live.erase n⟩) ∨
    ∃ n q failed, call = .asked n q failed ∧ q ≠ .delete ∧ n ∈ c.live ∧ c' = c := by
  cases call with
  | refused => exact .inl ⟨rfl, (Option.some.inj h).symm⟩
  | created n =>
    rw [step] at h
    split at h
    · next hn =>
      subst hn
      exact .inr (.inl ⟨rfl, (Option.some.inj h).symm⟩)
    · exact absurd h (by simp)
  | asked n q failed =>
    by_cases hq : q = .delete
    · subst hq
      rw [step] at h
      split at h
      · next hn => exact .inr (.inr (.inl ⟨n, failed, rfl, hn, (Option.some.inj h).symm⟩))
      · exact absurd h (by simp)
    · rw [step_asked hq] at h
      split at h
      · next hn => exact .inr (.inr (.inr ⟨n, q, failed, rfl, hq, hn, (Option.some.inj h).symm⟩))
      · exact absurd h (by simp)

/-- States that are in use besides do not matter. -/
theorem step_frame {m k : Nat} {live live' : Multiset Nat} {call : Call}
    (h : step ⟨m, live⟩ call = some ⟨k, live'⟩) (others : Multiset Nat) :
    step ⟨m, others + live⟩ call = some ⟨k, others + live'⟩ := by
  rcases step_cases h with ⟨rfl, hc⟩ | ⟨rfl, hc⟩ | ⟨n, failed, rfl, hn, hc⟩ |
    ⟨n, q, failed, rfl, hq, hn, hc⟩
  · obtain ⟨rfl, rfl⟩ := Custody.mk.inj hc
    rfl
  · obtain ⟨rfl, rfl⟩ := Custody.mk.inj hc
    rw [step, if_pos rfl, Multiset.add_cons]
  · obtain ⟨rfl, rfl⟩ := Custody.mk.inj hc
    rw [step, if_pos (Multiset.mem_add.2 (.inr hn)), Multiset.erase_add_right_pos _ hn]
  · obtain ⟨rfl, rfl⟩ := Custody.mk.inj hc
    rw [step_asked hq, if_pos (Multiset.mem_add.2 (.inr hn))]

theorem follow_frame {m k : Nat} {live live' : Multiset Nat} {calls : List Call}
    (h : follow ⟨m, live⟩ calls = some ⟨k, live'⟩) (others : Multiset Nat) :
    follow ⟨m, others + live⟩ calls = some ⟨k, others + live'⟩ := by
  induction calls generalizing m live with
  | nil =>
    obtain ⟨rfl, rfl⟩ := Custody.mk.inj (Option.some.inj h)
    rfl
  | cons call calls ih =>
    obtain ⟨⟨m', live''⟩, hstep, hrest⟩ := Option.bind_eq_some_iff.1 h
    rw [follow, step_frame hstep others, Option.bind_some]
    exact ih hrest

/-! ## Logs that can be followed -/

/-- An account in which no state is counted twice or before it was made. -/
structure Sound (c : Custody) : Prop where
  nodup : c.live.Nodup
  made : ∀ n ∈ c.live, n < c.made

theorem Sound.empty (made : Nat) : Sound ⟨made, 0⟩ := ⟨Multiset.nodup_zero, by simp⟩

theorem Sound.step {c c' : Custody} (hc : c.Sound) {call : Call} (h : c.step call = some c') :
    c'.Sound := by
  rcases step_cases h with ⟨-, rfl⟩ | ⟨-, rfl⟩ | ⟨n, -, -, -, rfl⟩ | ⟨-, -, -, -, -, -, rfl⟩
  · exact hc
  · refine ⟨Multiset.nodup_cons.2 ⟨fun hmem => Nat.lt_irrefl _ (hc.made _ hmem), hc.nodup⟩, ?_⟩
    intro n hn
    rcases Multiset.mem_cons.1 hn with rfl | hn
    · exact Nat.lt_succ_self _
    · exact Nat.lt_succ_of_lt (hc.made n hn)
  · exact ⟨hc.nodup.erase n, fun m hm => hc.made m (Multiset.mem_of_mem_erase hm)⟩
  · exact hc

variable {c c' : Custody} {calls : List Call} {n : Nat}

theorem Sound.follow (hc : c.Sound) (h : c.follow calls = some c') : c'.Sound := by
  induction calls generalizing c with
  | nil =>
    obtain rfl := Option.some.inj h
    exact hc
  | cons call calls ih =>
    obtain ⟨c₁, hstep, hrest⟩ := Option.bind_eq_some_iff.1 h
    exact ih (hc.step hstep) hrest

/-- A state that is not in use any more is not called again. -/
theorem filter_isAbout_of_gone (h : c.follow calls = some c') (hmade : n < c.made)
    (hlive : n ∉ c.live) : calls.filter (Call.isAbout n) = [] := by
  induction calls generalizing c with
  | nil => rfl
  | cons call calls ih =>
    obtain ⟨c₁, hstep, hrest⟩ := Option.bind_eq_some_iff.1 h
    rcases step_cases hstep with ⟨rfl, rfl⟩ | ⟨rfl, rfl⟩ | ⟨m, failed, rfl, hm, rfl⟩ |
      ⟨m, q, failed, rfl, hq, hm, rfl⟩
    · exact ih hrest hmade hlive
    · have hne : c.made ≠ n := Nat.ne_of_gt hmade
      rw [List.filter_cons_of_neg (by simpa [Call.isAbout] using hne)]
      refine ih hrest (Nat.lt_succ_of_lt hmade) fun hmem => ?_
      exact (Multiset.mem_cons.1 hmem).elim (fun e => hne e.symm) hlive
    · have hne : m ≠ n := fun e => hlive (e ▸ hm)
      rw [List.filter_cons_of_neg (by simpa [Call.isAbout] using hne)]
      exact ih hrest hmade fun hmem => hlive (Multiset.mem_of_mem_erase hmem)
    · have hne : m ≠ n := fun e => hlive (e ▸ hm)
      rw [List.filter_cons_of_neg (by simpa [Call.isAbout] using hne)]
      exact ih hrest hmade hlive

/-- A state in use that is not in use at the end is asked for some things, and then deleted. -/
theorem filter_isAbout_of_live (hc : c.Sound) (h : c.follow calls = some c') (hlive : n ∈ c.live)
    (hgone : n ∉ c'.live) : ∃ t failed, (∀ q ∈ t, q.1 ≠ .delete) ∧
      calls.filter (Call.isAbout n) = Call.ofRequests n t ++ [.asked n .delete failed] := by
  induction calls generalizing c with
  | nil =>
    obtain rfl := Option.some.inj h
    exact absurd hlive hgone
  | cons call calls ih =>
    obtain ⟨c₁, hstep, hrest⟩ := Option.bind_eq_some_iff.1 h
    have hsound := hc.step hstep
    rcases step_cases hstep with ⟨rfl, rfl⟩ | ⟨rfl, rfl⟩ | ⟨m, failed, rfl, hm, rfl⟩ |
      ⟨m, q, failed, rfl, hq, hm, rfl⟩
    · exact ih hc hrest hlive
    · have hne : c.made ≠ n := Nat.ne_of_gt (hc.made n hlive)
      rw [List.filter_cons_of_neg (by simpa [Call.isAbout] using hne)]
      exact ih hsound hrest (Multiset.mem_cons_of_mem hlive)
    · by_cases hne : m = n
      · subst hne
        have hrest' := filter_isAbout_of_gone hrest (hc.made m hm) hc.nodup.notMem_erase
        rw [List.filter_cons_of_pos (by simp [Call.isAbout]), hrest']
        exact ⟨[], failed, by simp, rfl⟩
      · rw [List.filter_cons_of_neg (by simpa [Call.isAbout] using hne)]
        exact ih hsound hrest ((Multiset.mem_erase_of_ne (Ne.symm hne)).2 hlive)
    · obtain ⟨t, failed', ht, heq⟩ := ih hc hrest hlive
      by_cases hne : m = n
      · subst hne
        rw [List.filter_cons_of_pos (by simp [Call.isAbout]), heq]
        refine ⟨(q, failed) :: t, failed', ?_, rfl⟩
        intro q' hq'
        rcases List.mem_cons.1 hq' with rfl | hq'
        · exact hq
        · exact ht q' hq'
      · rw [List.filter_cons_of_neg (by simpa [Call.isAbout] using hne)]
        exact ⟨t, failed', ht, heq⟩

theorem made_le (h : c.follow calls = some c') : c.made ≤ c'.made := by
  induction calls generalizing c with
  | nil => exact (congrArg Custody.made (Option.some.inj h)).le
  | cons call calls ih =>
    obtain ⟨c₁, hstep, hrest⟩ := Option.bind_eq_some_iff.1 h
    have hle := ih hrest
    rcases step_cases hstep with ⟨_, hc⟩ | ⟨_, hc⟩ | ⟨_, _, _, _, hc⟩ | ⟨_, _, _, _, _, _, hc⟩
    · rwa [hc] at hle
    · rw [hc] at hle
      exact Nat.le_of_succ_le hle
    · rwa [hc] at hle
    · rwa [hc] at hle

/-- A state that is made was not made before. -/
theorem made_le_of_created (h : c.follow calls = some c') (hn : .created n ∈ calls) :
    c.made ≤ n := by
  induction calls generalizing c with
  | nil => exact absurd hn (by simp)
  | cons call calls ih =>
    obtain ⟨c₁, hstep, hrest⟩ := Option.bind_eq_some_iff.1 h
    rcases List.mem_cons.1 hn with rfl | hn
    · rcases step_cases hstep with ⟨he, -⟩ | ⟨he, -⟩ | ⟨m, failed, he, -⟩ | ⟨m, q, failed, he, -⟩
      · exact absurd he (by simp)
      · exact (Call.created.inj he).ge
      · exact absurd he (by simp)
      · exact absurd he (by simp)
    · have hle := ih hrest hn
      rcases step_cases hstep with ⟨_, hc⟩ | ⟨_, hc⟩ | ⟨_, _, _, _, hc⟩ | ⟨_, _, _, _, _, _, hc⟩
      · rwa [hc] at hle
      · rw [hc] at hle
        exact Nat.le_of_succ_le hle
      · rwa [hc] at hle
      · rwa [hc] at hle

end Custody

/-- The calls about a state, in a log in which it is made, asked for some things, and deleted: one
of them deletes it, and that is the last one. -/
def Call.DeletedOnce (calls : List Call) (n : Nat) : Prop :=
  ∃ t failed, (∀ q ∈ t, q.1 ≠ .delete) ∧
    calls.filter (Call.isAbout n) = .created n :: ofRequests n t ++ [.asked n .delete failed]

/-- **States are deleted once.** In a log that can be followed, a state that was made and is not in
use at the end was deleted once, and that was its last call. -/
theorem Custody.deletedOnce {c c' : Custody} {calls : List Call} {n : Nat} (hc : c.Sound)
    (h : c.follow calls = some c') (hn : .created n ∈ calls) (hgone : n ∉ c'.live) :
    Call.DeletedOnce calls n := by
  induction calls generalizing c with
  | nil => exact absurd hn (by simp)
  | cons call calls ih =>
    obtain ⟨c₁, hstep, hrest⟩ := Option.bind_eq_some_iff.1 h
    have hsound := hc.step hstep
    have hlater (hn : .created n ∈ calls) (habout : call.isAbout n = false) :
        Call.DeletedOnce (call :: calls) n := by
      obtain ⟨t, failed, ht, heq⟩ := ih hsound hrest hn
      exact ⟨t, failed, ht, by rw [List.filter_cons_of_neg (by simp [habout]), heq]⟩
    rcases step_cases hstep with ⟨rfl, rfl⟩ | ⟨rfl, rfl⟩ | ⟨m, failed, rfl, hm, rfl⟩ |
      ⟨m, q, failed, rfl, hq, hm, rfl⟩
    · exact hlater (by simpa using hn) rfl
    · by_cases hne : c.made = n
      · subst hne
        obtain ⟨t, failed, ht, heq⟩ :=
          filter_isAbout_of_live hsound hrest (Multiset.mem_cons_self _ _) hgone
        exact ⟨t, failed, ht, by rw [List.filter_cons_of_pos (by simp [Call.isAbout]), heq]; rfl⟩
      · exact hlater (by simpa [Ne.symm hne] using hn) (by simpa [Call.isAbout] using hne)
    · have hlt := hc.made m hm
      have hle := made_le_of_created h hn
      exact hlater (by simpa using hn) (by simpa [Call.isAbout] using Nat.ne_of_lt (by omega))
    · have hlt := hc.made m hm
      have hle := made_le_of_created h hn
      exact hlater (by simpa using hn) (by simpa [Call.isAbout] using Nat.ne_of_lt (by omega))

/-! ## Calls between two worlds -/

/-- The calls between two worlds can be followed, from some states in use to some others. -/
structure World.Tends (w : World σ) (live : Multiset Nat) (calls : List Call) (w' : World σ)
    (live' : Multiset Nat) : Prop where
  adds : w.Adds calls w'
  follows : Custody.follow ⟨w.made, live⟩ calls = some ⟨w'.made, live'⟩

namespace World.Tends

variable {w w' w'' : World σ} {live live' live'' : Multiset Nat} {cs cs' : List Call}

theorem of_calls_eq (hcalls : w'.calls = w.calls) (hmade : w'.made = w.made)
    (live : Multiset Nat) : w.Tends live [] w' live :=
  ⟨.of_calls_eq hcalls, by rw [hmade]; rfl⟩

theorem refl (w : World σ) (live : Multiset Nat) : w.Tends live [] w live :=
  .of_calls_eq rfl rfl live

theorem trans (h : w.Tends live cs w' live') (h' : w'.Tends live' cs' w'' live'') :
    w.Tends live (cs ++ cs') w'' live'' :=
  ⟨h.adds.trans h'.adds, by rw [Custody.follow_append, h.follows]; exact h'.follows⟩

theorem frame (h : w.Tends live cs w' live') (others : Multiset Nat) :
    w.Tends (others + live) cs w' (others + live') :=
  ⟨h.adds, Custody.follow_frame h.follows others⟩

/-- Work that begins with no state in use, beside others that are. -/
theorem beside (h : w.Tends 0 cs w' live') (others : Multiset Nat) :
    w.Tends others cs w' (others + live') := by
  have hframe := h.frame others
  rwa [Multiset.add_zero] at hframe

/-- Work that ends with no state in use, beside others that are. -/
theorem sparing (h : w.Tends live cs w' 0) (others : Multiset Nat) :
    w.Tends (others + live) cs w' others := by
  have hframe := h.frame others
  rwa [Multiset.add_zero] at hframe

theorem made_le (h : w.Tends live cs w' live') : w.made ≤ w'.made :=
  Custody.made_le h.follows

/-- Calls that can be followed without a state that was made before are not about it. -/
theorem isAbout_eq_false (h : w.Tends live cs w' live') {n : Nat} (hmade : n < w.made)
    (hlive : n ∉ live) : ∀ c ∈ cs, c.isAbout n = false := by
  have hnil := Custody.filter_isAbout_of_gone h.follows hmade hlive
  rw [List.filter_eq_nil_iff] at hnil
  exact fun c hc => Bool.eq_false_iff.2 (hnil c hc)

end World.Tends

/-- Requests to a state in use that do not delete it. -/
theorem Custody.follow_ofRequests {n : Nat} {t : List (Request × Bool)}
    (h : ∀ q ∈ t, q.1 ≠ .delete) {c : Custody} (hn : n ∈ c.live) :
    c.follow (Call.ofRequests n t) = some c := by
  induction t with
  | nil => rfl
  | cons q t ih =>
    have hrest := ih fun q hq => h q (by simp [hq])
    have hstep := c.step_asked (n := n) (h q (by simp)) q.2
    rw [if_pos hn] at hstep
    rw [Call.ofRequests, List.map_cons, follow, hstep, Option.bind_some]
    exact hrest

namespace Session

open InSession

/-- A computation inside a session that does not delete it. -/
theorem inside_tends {body : InSession σ α} (h : AsksOnly (· ≠ .delete) body) (s : Session)
    (w : World σ) : ∃ t, (∀ q ∈ t, q.1 ≠ .delete) ∧
      w.Tends {s.serial} (Call.ofRequests s.serial t) (s.inside body w).2 {s.serial} := by
  obtain ⟨t, ht, hP⟩ := h (s, w)
  refine ⟨t, hP, ht.calls, ?_⟩
  have hmade : (s.inside body w).2.made = w.made := ht.made
  rw [hmade, Custody.follow_ofRequests hP (Multiset.mem_singleton_self _)]

variable [Compiler σ]

theorem delete_tends (s : Session) (w : World σ) : ∃ failed,
    w.Tends {s.serial} [.asked s.serial .delete failed] (s.delete w).2 0 := by
  obtain ⟨failed, h⟩ := s.delete_adds w
  exact ⟨failed, h, by simp [Custody.follow, Custody.step, delete, Attempt.change]⟩

end Session

end LiveC
