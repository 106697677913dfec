import LiveC.Proofs.Library.Registry
import LiveC.Proofs.Lists
/-!
# The order of search

A registry is searched for a name library by library. The order that is meant is that of tracking,
with the host image first, which it is if it was tracked first: `Registry.earliest?` is what that
order finds. `Registry.lookup?` puts in front whatever was tracked under the name of the host image,
and a library can be opened under that name too. Both find a library or both find none
(`lookup?_eq_none_iff`), and `lookup?_eq_earliest?_iff` says exactly when they find the same: a
library under the name of the host image comes before one that was tracked earlier.
-/

namespace LiveC

namespace Registry

variable {r : Registry} {l : Loader} {name : String}

/-- What is found in a tracked library: its handle, and the address. -/
def offer? (l : Loader) (name : String) (e : LibraryEntry) : Option (Address × Address) :=
  (l.found? e.handle name).map fun a => (e.handle, a)

/-- What is found when the tracked libraries are searched in the order of their tracking. -/
def earliest? (r : Registry) (l : Loader) (name : String) : Option (Address × Address) :=
  r.entries.findSome? (offer? l name)

/-- What was tracked under the name of the host image, in the order of tracking. -/
def underHostName (r : Registry) : List LibraryEntry := r.entries.filter (·.name == hostLibrary)

theorem offer?_eq_none_iff {e : LibraryEntry} :
    offer? l name e = none ↔ l.found? e.handle name = none := Option.map_eq_none_iff

theorem offer?_eq_some {e : LibraryEntry} {found : Address × Address}
    (h : offer? l name e = some found) : found.1 = e.handle := by
  obtain ⟨a, -, rfl⟩ := Option.map_eq_some_iff.1 h
  rfl

theorem mem_underHostName {e : LibraryEntry} :
    e ∈ r.underHostName ↔ e ∈ r.entries ∧ e.name = hostLibrary := by
  simp [underHostName]

/-- What was tracked under the name of the host image is searched first, everything in the order of
its tracking. -/
theorem lookup?_eq (r : Registry) (l : Loader) (name : String) : r.lookup? l name =
    (r.underHostName.findSome? (offer? l name)).or (r.earliest? l name) := by
  have horder : r.lookup? l name = (r.underHostName.findSome? (offer? l name)).or
      ((r.entries.filter fun e => !(e.name == hostLibrary)).findSome? (offer? l name)) := by
    rw [lookup?, searchOrder, List.partition_eq_filter_filter, List.findSome?_map,
      List.findSome?_append]
    rfl
  rw [horder]
  cases h : r.underHostName.findSome? (offer? l name) with
  | some found => rfl
  | none =>
    rw [Option.none_or, Option.none_or]
    refine findSome?_filter_not fun e he hname => ?_
    exact List.findSome?_eq_none_iff.1 h e (List.mem_filter.2 ⟨he, hname⟩)

/-- Nothing is found exactly when no tracked library exports the name. -/
theorem lookup?_eq_none_iff : r.lookup? l name = none ↔
    ∀ e ∈ r.entries, l.found? e.handle name = none := by
  simp only [lookup?_eq, Option.or_eq_none_iff, earliest?, List.findSome?_eq_none_iff,
    offer?_eq_none_iff]
  exact ⟨fun h => h.2, fun h => ⟨fun e he => h e (mem_underHostName.1 he).1, h⟩⟩

/-- The first library that exports a name, and what is found in it. -/
theorem earliest?_eq (r : Registry) (l : Loader) (name : String) : r.earliest? l name =
    (r.entries.find? fun e => (l.found? e.handle name).isSome).bind (offer? l name) := by
  rw [earliest?]
  induction r.entries with
  | nil => rfl
  | cons e es ih =>
    rw [List.findSome?_cons, List.find?_cons]
    cases h : l.found? e.handle name with
    | none => simp [offer?, h, ih]
    | some a => simp [offer?, h]

/-- The search follows the order of tracking exactly when the first library that exports the name is
under the name of the host image, or none under that name exports it. -/
theorem lookup?_eq_earliest?_iff (h : r.handles.Nodup) : r.lookup? l name = r.earliest? l name ↔
    ∀ first ∈ r.entries.find? (fun e => (l.found? e.handle name).isSome),
      first.name = hostLibrary ∨ ∀ e ∈ r.underHostName, l.found? e.handle name = none := by
  rw [lookup?_eq]
  cases hhost : r.underHostName.findSome? (offer? l name) with
  | none =>
    simp only [Option.none_or, true_iff]
    exact fun _ _ => .inr fun e he => offer?_eq_none_iff.1 (List.findSome?_eq_none_iff.1 hhost e he)
  | some found =>
    obtain ⟨e, he, hfound⟩ := List.exists_of_findSome?_eq_some hhost
    obtain ⟨hmem, hname⟩ := mem_underHostName.1 he
    have hexports : l.found? e.handle name ≠ none := fun hnone => by
      rw [offer?_eq_none_iff.2 hnone] at hfound
      exact absurd hfound (by simp)
    rw [Option.some_or, earliest?_eq]
    cases hfirst : r.entries.find? fun e => (l.found? e.handle name).isSome with
    | none => exact absurd (List.find?_eq_none.1 hfirst e hmem) (by simpa using hexports)
    | some first =>
      have hor : (∀ d ∈ r.underHostName, l.found? d.handle name = none) ↔ False :=
        iff_false_intro fun hnone => hexports (hnone e he)
      simp only [Option.bind_some, Option.mem_def, Option.some.injEq, forall_eq', hor, or_false]
      constructor
      · -- both handles are the same, so both libraries are
        intro hsame
        have hhandle : e.handle = first.handle := by
          rw [← offer?_eq_some hfound, offer?_eq_some hsame.symm]
        rw [← List.inj_on_of_nodup_map h hmem (List.mem_of_find?_eq_some hfirst) hhandle]
        exact hname
      · intro hfirstName
        obtain ⟨hoffers, before, after, hentries, hbefore⟩ := List.find?_eq_some_iff_append.1 hfirst
        have hnone : ∀ d ∈ before, offer? l name d = none := fun d hd => by
          simpa [offer?_eq_none_iff] using hbefore d hd
        have hunder : r.underHostName = before.filter (·.name == hostLibrary) ++
            first :: after.filter (·.name == hostLibrary) := by
          rw [underHostName, hentries, List.filter_append, List.filter_cons_of_pos (by simpa)]
        have hpassed : (before.filter (·.name == hostLibrary)).findSome? (offer? l name) = none :=
          List.findSome?_eq_none_iff.2 fun d hd => hnone d (List.mem_filter.1 hd).1
        obtain ⟨a, ha⟩ := Option.isSome_iff_exists.1 hoffers
        have hoffer : offer? l name first = some (first.handle, a) := by rw [offer?, ha]; rfl
        rw [← hhost, hunder, List.findSome?_append, hpassed, Option.none_or, List.findSome?_cons,
          hoffer]

/-- What is tracked first under the name of the host image is searched first. -/
theorem lookup?_of_first {e : LibraryEntry} {rest : List LibraryEntry} {a : Address}
    (hentries : r.entries = e :: rest) (hname : e.name = hostLibrary)
    (h : l.found? e.handle name = some a) : r.lookup? l name = some (e.handle, a) := by
  have hunder : r.underHostName = e :: rest.filter (·.name == hostLibrary) := by
    rw [underHostName, hentries, List.filter_cons_of_pos (by simpa)]
  rw [lookup?_eq, hunder, List.findSome?_cons, offer?, h]
  rfl

end Registry

namespace Linkage

/-- **The order of search**, in every state of the loader and after every history of tracking that
began with the host image. The host image is searched before everything else, and nothing is found
exactly when no tracked library exports the name. What is found is what the libraries tracked under
the name of the host image offer, or else what the first library offers that exports the name. So it
is the first library that exports the name, exactly unless that one is not under the name of the
host image and another one under that name exports the name too. -/
theorem lookup?_tracked (k : Linkage) (history : List Tracking) (l : Loader) (name : String) :
    let r := ((k.untracked.track .host).tracked history).registry
    (∀ a ∈ l.found? Loader.hostHandle name, r.lookup? l name = some (Loader.hostHandle, a)) ∧
    (r.lookup? l name = none ↔ ∀ e ∈ r.entries, l.found? e.handle name = none) ∧
    r.lookup? l name =
      (r.underHostName.findSome? (Registry.offer? l name)).or (r.earliest? l name) ∧
    (r.lookup? l name = r.earliest? l name ↔
      ∀ first ∈ r.entries.find? (fun e => (l.found? e.handle name).isSome),
        first.name = hostLibrary ∨ ∀ e ∈ r.underHostName, l.found? e.handle name = none) := by
  have hhistory : (k.untracked.track .host).tracked history =
      k.untracked.tracked (.host :: history) := rfl
  have htidy := tidy_tracked k (.host :: history)
  obtain ⟨rest, hentries⟩ := entries_tracked (k.untracked.track .host) history
  have hfirst : (k.untracked.track .host).registry.entries = [⟨hostLibrary, Loader.hostHandle⟩] :=
    rfl
  rw [hfirst, List.singleton_append] at hentries
  refine ⟨fun a ha => Registry.lookup?_of_first hentries.symm rfl ha,
    Registry.lookup?_eq_none_iff, Registry.lookup?_eq _ l name,
    Registry.lookup?_eq_earliest?_iff ?_⟩
  rw [hhistory]
  exact htidy.nodup

/-- Two libraries that export the same name. -/
def sharingLibraries : Loader :=
  .start ⟨[]⟩ ⟨[]⟩
    [⟨"one.so", ⟨[.function "shared"]⟩, none⟩, ⟨"self.so", ⟨[.function "shared"]⟩, none⟩]

/-- The first one is opened by its name, and the second one by the name of the host image. -/
def hostNameTaken : Linkage :=
  ((make .host sharingLibraries .native).1.untracked.track .host).tracked
    [.openLibrary (.empty 0) "one.so", .openLibrary (.empty 0) "self"]

/-- A library that was opened under the name of the host image is searched before one that was
opened earlier. -/
theorem lookup?_overtakes :
    let r := hostNameTaken.registry
    r.handles = [Loader.hostHandle, 0x20000000, 0x20001000] ∧
    hostNameTaken.loader.found? Loader.hostHandle "shared" = none ∧
    r.earliest? hostNameTaken.loader "shared" = some (0x20000000, 0x40000000) ∧
    r.lookup? hostNameTaken.loader "shared" = some (0x20001000, 0x40100000) := by
  decide +kernel

end Linkage

end LiveC
