import LiveC.Symbol.Linkage
import Mathlib.Data.List.Nodup
/-!
# What a registry tracks

Handles come into a registry in three ways: the host image is tracked, a handle is recorded under
some name, or a library is opened. `Linkage.Tracking` names these, and `Linkage.tracked` is what is
known after a history of them. Every one of them records at most one handle (`track_cases`), so what
a single record keeps is kept by every history: the registry is `Tidy`, that is, bounded and without
a zero or a second copy of a handle, and it is only ever appended to (`entries_tracked`).
`registry_kept` puts this together with what a further record and a further opening do.
-/

namespace LiveC

namespace Registry

variable {r : Registry} {name : String} {handle : Address}

/-- The tracked handles, in the order of their tracking. -/
def handles (r : Registry) : List Address := r.entries.map (·.handle)

/-- There is a bound to what is tracked, no handle is zero, and none is tracked twice. -/
structure Tidy (r : Registry) : Prop where
  size_le : r.size ≤ libraryCapacity
  ne_zero : ∀ handle ∈ r.handles, handle ≠ 0
  nodup : r.handles.Nodup

theorem contains_iff : r.contains handle = true ↔ handle ∈ r.handles := by
  simp [contains, handles]

theorem accepts_iff : r.accepts handle = true ↔
    handle ≠ 0 ∧ handle ∉ r.handles ∧ r.size < libraryCapacity := by
  simp only [accepts, Bool.and_eq_true, bne_iff_ne, ne_eq, Bool.not_eq_true', decide_eq_true_eq,
    ← contains_iff, Bool.not_eq_true, and_assoc]

theorem record_of_accepts (h : r.accepts handle = true) (name : String) :
    r.record name handle = ⟨r.entries ++ [⟨name, handle⟩]⟩ := if_pos h

theorem record_of_not_accepts (h : r.accepts handle = false) (name : String) :
    r.record name handle = r := if_neg (by simp [h])

/-- A record appends one entry, or none. -/
theorem entries_record (r : Registry) (name : String) (handle : Address) :
    (r.record name handle).entries =
      r.entries ++ if r.accepts handle then [⟨name, handle⟩] else [] := by
  cases h : r.accepts handle with
  | true => simp [record_of_accepts h]
  | false => simp [record_of_not_accepts h]

theorem Tidy.empty : Tidy .empty := ⟨Nat.zero_le _, by simp [handles, Registry.empty], .nil⟩

theorem Tidy.record (h : r.Tidy) (name : String) (handle : Address) :
    (r.record name handle).Tidy := by
  cases haccepts : r.accepts handle with
  | false => rwa [record_of_not_accepts haccepts]
  | true =>
    obtain ⟨hzero, hnew, hroom⟩ := accepts_iff.1 haccepts
    have hhandles : (r.record name handle).handles = r.handles ++ [handle] := by
      simp [record_of_accepts haccepts, handles]
    constructor
    · rw [record_of_accepts haccepts, size, List.length_append, List.length_singleton]
      exact hroom
    · rw [hhandles, List.forall_mem_append, List.forall_mem_singleton]
      exact ⟨h.ne_zero, hzero⟩
    · rw [hhandles, List.nodup_append_comm, List.singleton_append, List.nodup_cons]
      exact ⟨hnew, h.nodup⟩

end Registry

namespace Linkage

/-! ## Histories of tracking -/

/-- A way in which a handle comes into the registry. -/
inductive Tracking
  /-- The host image is tracked. -/
  | host
  /-- A handle is recorded under a name. -/
  | record (name : String) (handle : Address)
  /-- A library is opened in the usual mode. -/
  | openLibrary (files : FileTree) (name : String)
  /-- A library is opened in a mode of the caller's choice. -/
  | openIn (files : FileTree) (mode : OpenMode) (name : String)

/-- What is known after a handle came in, or was refused. -/
def track (k : Linkage) : Tracking → Linkage
  | .host => { k with registry := k.registry.record hostLibrary Loader.hostHandle }
  | .record name handle => { k with registry := k.registry.record name handle }
  | .openLibrary files name => (k.openLibrary files name).2
  | .openIn files mode name => (k.openIn files mode name).2

/-- What is known after a history of tracking. -/
def tracked (k : Linkage) (history : List Tracking) : Linkage := history.foldl track k

/-- With nothing tracked. -/
def untracked (k : Linkage) : Linkage := { k with registry := .empty }

variable {k : Linkage}

/-- An opening fails and tracks nothing, or it gives the loader's handle, which is recorded under
the name that was asked for. -/
theorem openIn_cases (k : Linkage) (files : FileTree) (mode : OpenMode) (name : String) :
    (openFirst? k.loader files mode (libraryCandidates k.platform name) = none ∧
      (∃ e, (k.openIn files mode name).1 = .error e) ∧
      (k.openIn files mode name).2 = k.settled) ∨
    ∃ handle loader warnings,
      openFirst? k.loader files mode (libraryCandidates k.platform name) = some (handle, loader) ∧
      (k.openIn files mode name).1 = .ok (handle, warnings) ∧
      (k.openIn files mode name).2.registry = k.registry.record name handle := by
  cases h : openFirst? k.loader files mode (libraryCandidates k.platform name) with
  | none =>
    have hopen : openProbing k.platform k.loader files mode name =
        .error (.platform (.cannotOpenLibrary name
          ((libraryCandidates k.platform name).getLast?.map
            (k.loader.texts.notOpened files mode)))) := by rw [openProbing, h]
    exact .inl ⟨rfl, by simp [openIn, hopen]⟩
  | some opened =>
    obtain ⟨handle, loader⟩ := opened
    have hopen : openProbing k.platform k.loader files mode name = .ok (handle, loader) := by
      rw [openProbing, h]
    exact .inr ⟨handle, loader, k.registry.recordWarnings name handle, rfl, by simp [openIn, hopen]⟩

/-- However a handle comes in, at most one is recorded. -/
theorem track_cases (k : Linkage) (t : Tracking) :
    (k.track t).registry = k.registry ∨
      ∃ name handle, (k.track t).registry = k.registry.record name handle := by
  have hopenIn (files : FileTree) (mode : OpenMode) (name : String) :
      (k.openIn files mode name).2.registry = k.registry ∨
        ∃ name' handle, (k.openIn files mode name).2.registry = k.registry.record name' handle := by
    rcases openIn_cases k files mode name with ⟨-, -, h⟩ | ⟨handle, -, -, -, -, h⟩
    · exact .inl (by rw [h]; rfl)
    · exact .inr ⟨name, handle, h⟩
  cases t with
  | host => exact .inr ⟨hostLibrary, Loader.hostHandle, rfl⟩
  | record name handle => exact .inr ⟨name, handle, rfl⟩
  | openLibrary files name => exact hopenIn files .default name
  | openIn files mode name => exact hopenIn files mode name

/-- What a record keeps is kept by every history. -/
theorem tracked_induction {P : Registry → Prop}
    (hrecord : ∀ r name handle, P r → P (r.record name handle)) (h : P k.registry)
    (history : List Tracking) : P (k.tracked history).registry := by
  induction history generalizing k with
  | nil => exact h
  | cons t history ih =>
    refine ih ?_
    rcases track_cases k t with hsame | ⟨name, handle, hrecorded⟩
    · rwa [hsame]
    · rw [hrecorded]
      exact hrecord _ name handle h

/-- The registry is tidy after every history that began with nothing tracked. -/
theorem tidy_tracked (k : Linkage) (history : List Tracking) :
    (k.untracked.tracked history).registry.Tidy :=
  tracked_induction (fun _ name handle h => h.record name handle) .empty history

/-- What is tracked stays where it is. -/
theorem entries_tracked (k : Linkage) (history : List Tracking) :
    k.registry.entries <+: (k.tracked history).registry.entries := by
  refine tracked_induction (P := fun r => k.registry.entries <+: r.entries)
    (fun r name handle h => ?_) List.prefix_rfl history
  rw [Registry.entries_record]
  exact h.trans (List.prefix_append _ _)

/-- **What a registry tracks.** After every history of tracking, failed openings among them, the
registry is within its bound and holds no zero and no handle twice, and it is only appended to from
then on. A record is accepted exactly when its handle is not zero, is not tracked yet and there is
room, and then exactly its entry is appended. An opening that fails changes nothing; any other gives
the handle that the loader gave, and records it, whether or not it is accepted. -/
theorem registry_kept (k : Linkage) (history : List Tracking) :
    let k' := k.untracked.tracked history
    k'.registry.Tidy ∧
    (∀ further, k'.registry.entries <+: (k'.tracked further).registry.entries) ∧
    (∀ name handle,
      (k'.registry.accepts handle = true ↔
        handle ≠ 0 ∧ handle ∉ k'.registry.handles ∧ k'.registry.size < libraryCapacity) ∧
      (k'.track (.record name handle)).registry.entries =
        k'.registry.entries ++ if k'.registry.accepts handle then [⟨name, handle⟩] else []) ∧
    ∀ files mode name,
      (openFirst? k'.loader files mode (libraryCandidates k'.platform name) = none ∧
        (∃ e, (k'.openIn files mode name).1 = .error e) ∧
        (k'.openIn files mode name).2 = k'.settled) ∨
      ∃ handle loader warnings,
        openFirst? k'.loader files mode (libraryCandidates k'.platform name) =
          some (handle, loader) ∧
        (k'.openIn files mode name).1 = .ok (handle, warnings) ∧
        (k'.openIn files mode name).2.registry = k'.registry.record name handle :=
  ⟨tidy_tracked k history, entries_tracked _,
    fun name handle => ⟨Registry.accepts_iff, Registry.entries_record _ name handle⟩,
    fun files mode name => openIn_cases _ files mode name⟩

end Linkage

end LiveC
