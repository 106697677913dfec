import LiveC.Proofs.Session.Custody
/-!
# One state after the other

An operation of the engine that compiles something works on one state of the compiler at a time: it
makes a state, asks it for some things, and deletes it before it makes the next one. The last state
may stay open, for the session that the operation gives. `Visits` says so of the calls of an
operation; such calls can be followed (`Visits.follow`), and every state made is deleted before the
next one is made (`Visits.oneAtATime`).

`Leaves` says of a computation that its calls are of that kind, which state it leaves open, and that
this is the one state that was linked. It goes through sequences. A build leaves the state of its
session open, and none when it fails (`Engine.build_leaves`).
-/

namespace LiveC

variable {σ α β : Type}

/-- The calls of visits to one state after the other, from the state of a number on up to that of
another. The last state may be left open. -/
inductive Visits : Nat → Nat → Option Nat → List Call → Prop
  | nil (m : Nat) : Visits m m none []
  | refused {m k : Nat} {left : Option Nat} {cs : List Call} (h : Visits m k left cs) :
    Visits m k left (.refused :: cs)
  | closed {m k : Nat} {left : Option Nat} {cs : List Call} (t : List (Request × Bool))
    (failed : Bool) (ht : ∀ q ∈ t, q.1 ≠ .delete) (h : Visits (m + 1) k left cs) :
    Visits m k left (.created m :: (Call.ofRequests m t ++ .asked m .delete failed :: cs))
  | opened (m : Nat) (t : List (Request × Bool)) (ht : ∀ q ∈ t, q.1 ≠ .delete) :
    Visits m (m + 1) (some m) (.created m :: Call.ofRequests m t)

/-- Every state made is deleted before the next one is made. -/
def Call.OneAtATime (cs : List Call) : Prop :=
  ∀ before n after, cs = before ++ .created n :: after →
    ∀ m, .created m ∈ before → ∃ failed, .asked m .delete failed ∈ before

namespace Visits

variable {m k l : Nat} {left : Option Nat} {cs cs' : List Call}

theorem append (h : Visits m k none cs) (h' : Visits k l left cs') :
    Visits m l left (cs ++ cs') := by
  generalize hnone : (none : Option Nat) = o at h
  induction h with
  | nil => exact h'
  | refused h ih => exact .refused (ih h' hnone)
  | closed t failed ht h ih =>
    rw [List.cons_append, List.append_assoc, List.cons_append]
    exact .closed t failed ht (ih h' hnone)
  | opened => exact absurd hnone (by simp)

/-- The calls of visits can be followed; at the end the state that is left open is in use. -/
theorem follow (h : Visits m k left cs) :
    Custody.follow ⟨m, 0⟩ cs = some ⟨k, (left.toList : Multiset Nat)⟩ := by
  have hrequests {m : Nat} {t : List (Request × Bool)} (ht : ∀ q ∈ t, q.1 ≠ .delete)
      (rest : List Call) :
      Custody.follow ⟨m, 0⟩ (.created m :: (Call.ofRequests m t ++ rest)) =
        Custody.follow ⟨m + 1, {m}⟩ rest := by
    have hmade : Custody.step ⟨m, 0⟩ (.created m) = some ⟨m + 1, {m}⟩ := by
      rw [Custody.step, if_pos rfl]
      rfl
    rw [Custody.follow, hmade, Option.bind_some, Custody.follow_append,
      Custody.follow_ofRequests ht (Multiset.mem_singleton_self m), Option.bind_some]
  induction h with
  | nil => rfl
  | refused h ih => exact ih
  | closed t failed ht h ih =>
    rw [hrequests ht, Custody.follow, Custody.step, if_pos (Multiset.mem_singleton_self _),
      Option.bind_some, Multiset.erase_singleton]
    exact ih
  | opened m t ht =>
    have heq := hrequests (m := m) ht []
    rw [List.append_nil] at heq
    rw [heq]
    rfl

/-- The state that is left open was made on the way. -/
theorem le_of_left (h : Visits m k left cs) {n : Nat} (hn : left = some n) : m ≤ n := by
  induction h with
  | nil => exact absurd hn (by simp)
  | refused h ih => exact ih hn
  | closed t failed ht h ih => exact Nat.le_of_succ_le (ih hn)
  | opened m t ht => exact (Option.some.inj hn).le

/-- The calls of one state hold no other one. -/
theorem oneAtATime_of_forall {n : Nat} {cs : List Call} (h : ∀ m, .created m ∉ cs) :
    Call.OneAtATime (.created n :: cs) := by
  intro before m after heq j hj
  cases before with
  | nil => exact absurd hj (by simp)
  | cons c before =>
    have htail := (List.cons.inj heq).2
    exact absurd (htail ▸ List.mem_append_right before List.mem_cons_self) (h m)

/-- Calls after which no state is open can go before others. -/
theorem oneAtATime_append (hcs : Call.OneAtATime cs) (hcs' : Call.OneAtATime cs')
    (h : ∀ m, .created m ∈ cs → ∃ failed, .asked m .delete failed ∈ cs) :
    Call.OneAtATime (cs ++ cs') := by
  intro before n after heq m hm
  rcases List.append_eq_append_iff.1 heq with ⟨rest, hbefore, hrest⟩ | ⟨rest, hcs₁, hrest⟩
  · rw [hbefore, List.mem_append] at hm
    rcases hm with hm | hm
    · obtain ⟨failed, hdel⟩ := h m hm
      exact ⟨failed, hbefore ▸ List.mem_append_left _ hdel⟩
    · obtain ⟨failed, hdel⟩ := hcs' rest n after hrest m hm
      exact ⟨failed, hbefore ▸ List.mem_append_right _ hdel⟩
  · cases rest with
    | nil =>
      rw [List.append_nil] at hcs₁
      obtain ⟨failed, hdel⟩ := h m (hcs₁ ▸ hm)
      exact ⟨failed, hcs₁ ▸ hdel⟩
    | cons c rest =>
      obtain ⟨rfl, -⟩ := List.cons.inj hrest
      exact hcs before n rest hcs₁ m hm

theorem oneAtATime (h : Visits m k left cs) : Call.OneAtATime cs := by
  induction h with
  | nil =>
    intro before n after heq
    exact absurd heq (by simp)
  | refused h ih =>
    have hrefused : Call.OneAtATime [.refused] := by
      intro before n after heq
      have hmem : Call.created n ∈ [.refused] := heq ▸ List.mem_append_right before (by simp)
      exact absurd hmem (by simp)
    exact oneAtATime_append hrefused ih (by simp)
  | @closed m k left cs t failed ht h ih =>
    have hvisit : Call.OneAtATime
        (.created m :: (Call.ofRequests m t ++ [.asked m .delete failed])) :=
      oneAtATime_of_forall fun n hn => by simp [Call.ofRequests] at hn
    have happend : Call.created m :: (Call.ofRequests m t ++ .asked m .delete failed :: cs) =
        (.created m :: (Call.ofRequests m t ++ [.asked m .delete failed])) ++ cs := by simp
    rw [happend]
    refine oneAtATime_append hvisit ih fun n hn => ?_
    obtain rfl : n = m := by simpa [Call.ofRequests] using hn
    exact ⟨failed, by simp⟩
  | opened m t ht => exact oneAtATime_of_forall fun n hn => by simp [Call.ofRequests] at hn

end Visits

/-! ## Computations that visit states -/

/-- The calls between two worlds are visits to states, of which one may be left open. -/
structure World.Visited (w : World σ) (cs : List Call) (left : Option Nat) (w' : World σ) :
    Prop where
  adds : w.Adds cs w'
  visits : Visits w.made w'.made left cs

namespace World.Visited

variable {w w' w'' : World σ} {left : Option Nat} {cs cs' : List Call}

theorem of_calls_eq (hcalls : w'.calls = w.calls) (hmade : w'.made = w.made) :
    w.Visited [] none w' := ⟨.of_calls_eq hcalls, hmade ▸ .nil _⟩

theorem trans (h : w.Visited cs none w') (h' : w'.Visited cs' left w'') :
    w.Visited (cs ++ cs') left w'' := ⟨h.adds.trans h'.adds, h.visits.append h'.visits⟩

theorem tends (h : w.Visited cs left w') : w.Tends 0 cs w' (left.toList : Multiset Nat) :=
  ⟨h.adds, h.visits.follow⟩

end World.Visited

theorem World.Adds.unique {w w' : World σ} {cs cs' : List Call} (h : w.Adds cs w')
    (h' : w.Adds cs' w') : cs = cs' :=
  List.append_cancel_left (h.symm.trans h')

/-- A computation that visits states one after the other. `left` is the state that it leaves open
for its value, and the only one that it links; it leaves none open when it fails. -/
def Leaves (left : α → Option Nat) (x : Attempt (World σ) α) : Prop :=
  ∀ w, ∃ cs, w.Visited cs ((x w).1.toOption.bind left) (x w).2 ∧
    Call.linkedStates cs = ((x w).1.toOption.bind left).toList

/-- A computation that leaves no state open, and links none. -/
abbrev LeavesNone (x : Attempt (World σ) α) : Prop := Leaves (fun _ => none) x

namespace Leaves

variable {x : Attempt (World σ) α} {f : α → Attempt (World σ) β} {left : β → Option Nat}

theorem of_silent (h : InSession.Silent x) : LeavesNone x := fun w =>
  ⟨[], by simpa using World.Visited.of_calls_eq (h w).1 (h w).2, by simp⟩

theorem none_iff {x : Attempt (World σ) α} : LeavesNone x ↔
    ∀ w : World σ, ∃ cs, w.Visited cs none (x w).2 ∧ Call.linkedStates cs = [] := by
  refine forall_congr' fun w => ?_
  cases (x w).1 <;> rfl

theorem pure (a : α) : LeavesNone (pure a : Attempt (World σ) α) :=
  .of_silent fun _ => ⟨rfl, rfl⟩

theorem fail (e : Failure) (left : α → Option Nat) :
    Leaves left (.fail e : Attempt (World σ) α) := fun _ =>
  ⟨[], .of_calls_eq rfl rfl, rfl⟩

theorem state : LeavesNone (.state : Attempt (World σ) (World σ)) :=
  .of_silent fun _ => ⟨rfl, rfl⟩

/-- After a computation that leaves no state open comes any other one. -/
theorem bind (hx : LeavesNone x) (hf : ∀ a, Leaves left (f a)) : Leaves left (x >>= f) := by
  intro w
  obtain ⟨cs, hcs, hlinked⟩ := none_iff.1 hx w
  rcases h : x w with ⟨e | a, w'⟩
  · rw [h] at hcs
    rw [Attempt.bind_of_error h]
    exact ⟨cs, hcs, hlinked⟩
  · rw [h] at hcs
    rw [Attempt.bind_of_ok h]
    obtain ⟨cs', hcs', hlinked'⟩ := hf a w'
    exact ⟨cs ++ cs', hcs.trans hcs', by rw [Call.linkedStates_append, hlinked, hlinked']; rfl⟩

/-- The value may be changed, as long as it belongs to the same state. -/
theorem map {left' : α → Option Nat} {g : α → β} (hx : Leaves left' x)
    (hg : ∀ a, left (g a) = left' a) :
    Leaves left (do let a ← x; Pure.pure (g a)) := by
  intro w
  obtain ⟨cs, hcs, hlinked⟩ := hx w
  rcases h : x w with ⟨e | a, w'⟩
  · rw [h] at hcs hlinked
    rw [Attempt.bind_of_error h]
    exact ⟨cs, hcs, hlinked⟩
  · rw [h] at hcs hlinked
    rw [Attempt.bind_of_ok h]
    have hleft : ((Except.ok (g a) : Except Failure β).toOption.bind left) =
        ((Except.ok a : Except Failure α).toOption.bind left') := hg a
    exact ⟨cs, by rw [Attempt.pure_apply, hleft]; exact hcs,
      by rw [Attempt.pure_apply, hleft]; exact hlinked⟩

/-- A failure is followed by something else, and a value is given as it is. -/
theorem recover {left' : α → Option Nat} {g : Except Failure α → Attempt (World σ) β}
    (hx : Leaves left' x) (hok : ∀ a w, ∃ b, g (.ok a) w = (.ok b, w) ∧ left b = left' a)
    (herror : ∀ e, Leaves left (g (.error e))) : Leaves left (x.capture >>= g) := by
  intro w
  obtain ⟨cs, hcs, hlinked⟩ := hx w
  rcases h : x w with ⟨e | a, w'⟩
  · have hrun : x.capture w = (.ok (.error e), w') := by rw [Attempt.capture, h]
    rw [h] at hcs hlinked
    rw [Attempt.bind_of_ok hrun]
    obtain ⟨cs', hcs', hlinked'⟩ := herror e w'
    exact ⟨cs ++ cs', hcs.trans hcs', by rw [Call.linkedStates_append, hlinked, hlinked']; rfl⟩
  · have hrun : x.capture w = (.ok (.ok a), w') := by rw [Attempt.capture, h]
    rw [h] at hcs hlinked
    obtain ⟨b, hb, hleft⟩ := hok a w'
    have heq : ((Except.ok b : Except Failure β).toOption.bind left) =
        ((Except.ok a : Except Failure α).toOption.bind left') := hleft
    rw [Attempt.bind_of_ok hrun, hb, heq]
    exact ⟨cs, hcs, hlinked⟩

theorem capture_none (hx : LeavesNone x) : LeavesNone x.capture := by
  rw [none_iff] at hx ⊢
  exact hx

end Leaves

/-! ## Sessions -/

/-- Calls that link nothing. -/
theorem Call.linkedStates_eq_nil {cs : List Call} (h : cs.any Call.links = false) :
    linkedStates cs = [] := by
  rw [linkedStates, List.filterMap_eq_nil_iff]
  intro c hc
  have hlinks := List.any_eq_false.1 h c hc
  rwa [← isSome_linked?, Option.not_isSome_iff_eq_none] at hlinks

theorem Call.links_ofRequests {n : Nat} {t : List (Request × Bool)}
    (h : ∀ q ∈ t, q.1 ≠ .relocate) : (ofRequests n t).any Call.links = false := by
  rw [List.any_eq_false]
  intro c hc hlinks
  obtain ⟨m, rfl⟩ := Call.links_iff.1 hlinks
  exact h _ (Call.asked_mem_ofRequests.1 hc).2 rfl

namespace Session

open InSession

variable [Compiler σ] {P : Request → Prop} {body : InSession σ α}

/-- What becomes of a session that is opened for a computation: it is refused, or closed because the
computation failed, or left open. -/
theorem opened_cases (hbody : AsksOnly P body) (mode : OutputMode) (unitName : String)
    (w : World σ) :
    (∃ e w', opened mode unitName body w = (.error e, w') ∧
      (w.Adds [.refused] w' ∧ w'.made = w.made ∨
        ∃ t failed, (∀ q ∈ t, P q.1) ∧ w'.made = w.made + 1 ∧
          w.Adds (.created w.made :: (Call.ofRequests w.made t ++ [.asked w.made .delete failed]))
            w')) ∨
    ∃ a s w' t, opened mode unitName body w = (.ok (a, s), w') ∧ s.serial = w.made ∧
      (∀ q ∈ t, P q.1) ∧ w'.made = w.made + 1 ∧
      w.Adds (.created w.made :: Call.ofRequests w.made t) w' := by
  rcases create_cases mode unitName w with
    ⟨e, w', he, hw⟩ | ⟨s, w₁, hs, hw, hserial, -, -, hmade⟩
  · have hmade : w'.made = w.made := by
      unfold create at he
      split at he
      · rw [← (Prod.mk.inj he).2]
      · exact absurd (Prod.mk.inj he).1 (by simp)
    exact .inl ⟨e, w', opened_of_error he _, .inl ⟨hw, hmade⟩⟩
  obtain ⟨t, ht, hP⟩ := hbody (s, w₁)
  rw [hserial] at hw
  rcases hb : body (s, w₁) with ⟨e | a, p⟩
  · rw [hb] at ht
    have hp : p.1.serial = w.made := ht.serial.trans hserial
    obtain ⟨failed, hdel⟩ := p.1.delete_adds p.2
    have hadds := (hw.trans ht.calls).trans hdel
    refine .inl ⟨e, _, opened_of_failed hs hb, .inr ⟨t, failed, hP, ?_, ?_⟩⟩
    · exact (World.made_ask _ _ _).trans (ht.made.trans hmade)
    · simpa [hserial, hp] using hadds
  · rw [hb] at ht
    have hadds := hw.trans ht.calls
    refine .inr ⟨a, p.1, p.2, t, opened_of_ok hs hb, ht.serial.trans hserial, hP,
      ht.made.trans hmade, ?_⟩
    simpa [hserial] using hadds

/-- A session that is opened for a computation leaves no state open when it fails, and otherwise its
own. -/
theorem opened_visited (hbody : AsksOnly P body) (hdelete : ¬P .delete) (mode : OutputMode)
    (unitName : String) (w : World σ) :
    (∃ e w' cs, opened mode unitName body w = (.error e, w') ∧ w.Visited cs none w' ∧
      (¬P .relocate → cs.any Call.links = false)) ∨
    ∃ a s w' t, opened mode unitName body w = (.ok (a, s), w') ∧ s.serial = w.made ∧
      (∀ q ∈ t, P q.1) ∧ w'.made = w.made + 1 ∧
      w.Adds (.created w.made :: Call.ofRequests w.made t) w' ∧
      w.Visited (.created w.made :: Call.ofRequests w.made t) (some s.serial) w' := by
  have hne {t : List (Request × Bool)} (hP : ∀ q ∈ t, P q.1) : ∀ q ∈ t, q.1 ≠ .delete := by
    intro q hq hd
    exact hdelete (hd ▸ hP q hq)
  rcases opened_cases hbody mode unitName w with
    ⟨e, w', h, ⟨hadds, hmade⟩ | ⟨t, failed, hP, hmade, hadds⟩⟩ |
    ⟨a, s, w', t, h, hs, hP, hmade, hadds⟩
  · exact .inl ⟨e, w', _, h, ⟨hadds, hmade ▸ .refused (.nil _)⟩, fun _ => rfl⟩
  · refine .inl ⟨e, w', _, h, ⟨hadds, hmade ▸ .closed t failed (hne hP) (.nil _)⟩, fun hr => ?_⟩
    have hlinks := Call.links_ofRequests (n := w.made) (t := t) fun q hq he => hr (he ▸ hP q hq)
    simp [Call.links, hlinks]
  · refine .inr ⟨a, s, w', t, h, hs, hP, hmade, hadds, hadds, ?_⟩
    rw [hmade, hs]
    exact .opened _ t (hne hP)

/-- A session that is opened is given up then. -/
theorem visited_delete {s : Session} {t : List (Request × Bool)} {w w' : World σ}
    (hs : s.serial = w.made) (ht : ∀ q ∈ t, q.1 ≠ .delete) (hmade : w'.made = w.made + 1)
    (hadds : w.Adds (.created w.made :: Call.ofRequests w.made t) w') : ∃ failed,
    w.Visited (.created w.made :: (Call.ofRequests w.made t ++ [.asked w.made .delete failed])) none
      (s.delete w').2 := by
  obtain ⟨failed, hdel⟩ := s.delete_adds w'
  have hmade' : (s.delete w').2.made = w.made + 1 := hmade
  refine ⟨failed, ?_, hmade' ▸ .closed t failed ht (.nil _)⟩
  rw [hs] at hdel
  have hall := hadds.trans hdel
  rwa [List.cons_append] at hall

end Session

/-- A session that is opened for a computation that does not link, and given up then. -/
theorem Session.opened_delete_leaves [Compiler σ] {P : Request → Prop} {body : InSession σ α}
    (hbody : InSession.AsksOnly P body) (hlink : ¬P .relocate) (hdelete : ¬P .delete)
    (mode : OutputMode) (unitName : String) :
    LeavesNone (opened mode unitName body >>= fun r => r.2.delete) := by
  rw [Leaves.none_iff]
  intro w
  rcases opened_visited hbody hdelete mode unitName w with
    ⟨e, w', cs, hrun, hcs, hlinks⟩ | ⟨a, s, w', t, hrun, hs, hP, hmade, hadds, -⟩
  · rw [Attempt.bind_of_error hrun]
    exact ⟨cs, hcs, Call.linkedStates_eq_nil (hlinks hlink)⟩
  · obtain ⟨failed, hclosed⟩ :=
      visited_delete hs (fun q hq he => hdelete (he ▸ hP q hq)) hmade hadds
    have hlinks := Call.links_ofRequests (n := w.made) (t := t) fun q hq he => hlink (he ▸ hP q hq)
    rw [Attempt.bind_of_ok hrun]
    exact ⟨_, hclosed, Call.linkedStates_eq_nil (by simp [Call.links, hlinks])⟩

namespace BuildCalls

variable {P : Request → Prop} {k n : Nat} {cs : List Call}

/-- A build that links a state links no other one. -/
theorem linkedStates_eq (h : BuildCalls P k true cs) (hn : .asked n .relocate false ∈ cs) :
    Call.linkedStates cs = [n] := by
  obtain ⟨c, hc, hcs⟩ := h.exists_eq_append
  have hlast : c = .asked n .relocate false := by
    rw [hcs, List.mem_append, List.mem_singleton] at hn
    exact hn.elim (fun hn => absurd rfl (List.any_eq_false.1 h.last _ hn)) Eq.symm
  rw [hcs, Call.linkedStates_append, Call.linkedStates_eq_nil h.last, hlast]
  rfl

end BuildCalls

namespace Engine

open InSession

variable [Compiler σ] {P : Request → Prop} {load : InSession σ Unit}

/-- Linking asks for nothing else. -/
theorem relocate_asksOnly : AsksOnly (· = .relocate) (relocate : InSession σ Unit) := by
  rintro ⟨s, w⟩
  by_cases hm : s.mode = .memory
  · cases hr : s.relocated with
    | false =>
      obtain ⟨failed, hasked, -⟩ := relocate_asks hm hr w
      exact ⟨_, hasked, by simp⟩
    | true =>
      have hrun : relocate (s, w) = (.ok (), (s, w)) := by
        rw [relocate, Attempt.bind_of_ok (x := session) rfl]
        simp [hm, hr]
      exact ⟨[], by rw [hrun]; exact .refl _, by simp⟩
  · have hrun : relocate (s, w) = (.error (.invalidArgument .notInMemory), (s, w)) := by
      rw [relocate, Attempt.bind_of_ok (x := session) rfl, if_pos (by simpa using hm)]
      rfl
    exact ⟨[], by rw [hrun]; exact .refl _, by simp⟩

/-- What a unit in a session of its own is asked for. -/
def Links (P : Request → Prop) (q : Request) : Prop := (Prepares q ∨ P q) ∨ q = .relocate

theorem not_links_delete (hdelete : ¬P .delete) : ¬Links P .delete := by
  rintro ((h | h) | h)
  · exact h
  · exact hdelete h
  · exact absurd h (by simp)

theorem ne_delete_of_links (hdelete : ¬P .delete) {t : List (Request × Bool)}
    (h : ∀ q ∈ t, Links P q.1) : ∀ q ∈ t, q.1 ≠ .delete := fun q hq he =>
  not_links_delete hdelete (he ▸ h q hq)

theorem linkOnce_asksOnly (hload : AsksOnly P load) : AsksOnly (Links P) (linkOnce load) :=
  ((populate_asksOnly hload []).mono fun _ => .inl).bind fun _ =>
    (relocate_asksOnly.mono fun _ => .inr).capture

theorem linkWith_asksOnly (hload : AsksOnly P load) (names : List (String × Address)) :
    AsksOnly (Links P) (linkWith names load) :=
  ((populate_asksOnly hload names).mono fun _ => .inl).bind fun _ =>
    relocate_asksOnly.mono fun _ => .inr

/-- What follows a failure to link opens a state at most, and leaves it open only for the session
that it gives. -/
theorem retry_visited (hload : AsksOnly P load) (hdelete : ¬P .delete) (unitName : String)
    (e : Failure) (w : World σ) : ∃ cs, w.Visited cs
      ((retry unitName load e w).1.toOption.map Session.serial) (retry unitName load e w).2 := by
  unfold retry
  cases e.missingNames with
  | nil => exact ⟨[], .of_calls_eq rfl rfl⟩
  | cons name names =>
    have hsilent := silent_resolveAll (name :: names) w
    dsimp only
    rcases h : resolveAll (name :: names) w with ⟨_ | found, w₁⟩
    · rw [h] at hsilent
      rw [Attempt.bind_of_error h]
      exact ⟨[], .of_calls_eq hsilent.1 hsilent.2⟩
    rw [h] at hsilent
    have hbefore : w.Visited [] none w₁ := .of_calls_eq hsilent.1 hsilent.2
    rw [Attempt.bind_of_ok h]
    cases found with
    | none => exact ⟨[], hbefore⟩
    | some late =>
      rcases Session.opened_visited (linkWith_asksOnly hload late)
        (not_links_delete hdelete) .memory
        unitName w₁ with ⟨e, w', cs, hrun, hcs, -⟩ | ⟨u, s, w', t, hrun, -, -, -, -, hcs⟩
      · dsimp only
        rw [Attempt.bind_of_error hrun]
        exact ⟨_, hbefore.trans hcs⟩
      · dsimp only
        rw [Attempt.bind_of_ok hrun]
        exact ⟨_, hbefore.trans hcs⟩

/-- A build opens one state after the other, and leaves the last one open only for the session that
it gives. -/
theorem build_visited (hload : AsksOnly P load) (hdelete : ¬P .delete) (unitName : String)
    (w : World σ) : ∃ cs, w.Visited cs
      ((build unitName load w).1.toOption.map Session.serial) (build unitName load w).2 := by
  rcases Session.opened_visited (linkOnce_asksOnly hload)
    (not_links_delete hdelete) .memory unitName
    w with ⟨e, w', cs, hrun, hcs, -⟩ | ⟨r, s, w', t, hrun, hs, hP, hmade, hadds, hcs⟩
  · rw [build, Attempt.bind_of_error hrun]
    exact ⟨cs, hcs⟩
  rw [build, Attempt.bind_of_ok hrun]
  cases r with
  | ok u => exact ⟨_, hcs⟩
  | error e =>
    obtain ⟨failed, hclosed⟩ :=
      Session.visited_delete hs (ne_delete_of_links hdelete hP) hmade hadds
    obtain ⟨cs', hcs'⟩ := retry_visited hload hdelete unitName e (s.delete w').2
    dsimp only
    rw [Attempt.bind_of_ok (s.delete_apply w')]
    exact ⟨_, hclosed.trans hcs'⟩

/-- **A build leaves the state of its session open**, which is the only one that it links, and no
state when it fails. -/
theorem build_leaves (hload : AsksOnly P load) (hlink : ¬P .relocate) (hdelete : ¬P .delete)
    (unitName : String) : Leaves (fun s : Session => some s.serial) (build unitName load) := by
  intro w
  obtain ⟨cs, hcs⟩ := build_visited hload hdelete unitName w
  obtain ⟨cs', linked, hadds, hcalls, hlinked, hok⟩ := build_calls hload hlink unitName w
  obtain rfl : cs = cs' := hcs.adds.unique hadds
  rcases h : build unitName load w with ⟨e | s, w'⟩
  · rw [h] at hcs hlinked
    have hfalse : linked = false := by simpa using hlinked
    exact ⟨cs, hcs, Call.linkedStates_eq_nil (hcalls.links.trans hfalse)⟩
  · rw [h] at hcs hlinked
    obtain ⟨hrel, hmem, -⟩ := hok s (by rw [h])
    rw [hrel] at hmem
    obtain rfl : linked = true := hlinked.1 ⟨s, rfl⟩
    exact ⟨cs, hcs, hcalls.linkedStates_eq hmem⟩

end Engine

end LiveC
