import LiveC.Library.Registry
/-!
# What opening and closing leave open

A loader `Keeps` the library of a handle when it stays where it lies and is in use at least as often
as before. Opening any library keeps all that are loaded (`Loader.Keeps.of_open?`), and closing one
keeps the others (`Loader.Keeps.of_close`). What is found through the handle of a library that is
kept does not change (`Loader.Keeps.found?_eq`).
-/

namespace LiveC

namespace Loader

variable {l l' l'' : Loader} {handle : Address} {lib : LoadedLibrary}

/-- The library of a handle stays where it lies, and is in use at least as often as before. -/
structure Keeps (handle : Address) (l l' : Loader) : Prop where
  texts : l'.texts = l.texts
  libc : l'.libc = l.libc
  library : ∀ lib, l.library? handle = some lib → ∃ lib', l'.library? handle = some lib' ∧
    lib'.base = lib.base ∧ lib'.image = lib.image ∧ lib.uses ≤ lib'.uses

namespace Keeps

/-- Nothing that matters here was changed. -/
theorem of_eq (htexts : l'.texts = l.texts) (hlibc : l'.libc = l.libc)
    (hlibraries : l'.libraries = l.libraries) : Keeps handle l l' where
  texts := htexts
  libc := hlibc
  library lib hlib := ⟨lib, by rwa [library?, hlibraries], rfl, rfl, Nat.le_refl _⟩

theorem refl (handle : Address) (l : Loader) : Keeps handle l l := .of_eq rfl rfl rfl

theorem trans (h : Keeps handle l l') (h' : Keeps handle l' l'') : Keeps handle l l'' where
  texts := h'.texts.trans h.texts
  libc := h'.libc.trans h.libc
  library lib hlib := by
    obtain ⟨lib', hlib', hbase, himage, huses⟩ := h.library lib hlib
    obtain ⟨lib'', hlib'', hbase', himage', huses'⟩ := h'.library lib' hlib'
    exact ⟨lib'', hlib'', hbase'.trans hbase, himage'.trans himage, Nat.le_trans huses huses'⟩

/-- The libraries were changed one by one, that of the handle in its uses alone. -/
theorem of_map {f : LoadedLibrary → LoadedLibrary} (htexts : l'.texts = l.texts)
    (hlibc : l'.libc = l.libc) (hlibraries : l'.libraries = l.libraries.map f)
    (hhandle : ∀ lib, (f lib).handle = lib.handle)
    (hf : ∀ lib, lib.handle = handle →
      (f lib).base = lib.base ∧ (f lib).image = lib.image ∧ lib.uses ≤ (f lib).uses) :
    Keeps handle l l' where
  texts := htexts
  libc := hlibc
  library lib hlib := by
    have hfound : l'.library? handle = (l.library? handle).map f := by
      rw [library?, hlibraries, List.find?_map]
      simp only [Function.comp_def, hhandle]
      rfl
    have hname : lib.handle = handle := by simpa using List.find?_some (p := _) hlib
    exact ⟨f lib, by rw [hfound, hlib, Option.map_some], hf lib hname⟩

theorem of_reuse (l : Loader) (key : LibraryKey) (name : String) :
    Keeps handle l (l.reuse key name) := by
  refine of_map (f := LoadedLibrary.openedAgain key name) rfl rfl rfl
    (fun lib => ?_) (fun lib _ => ?_)
  · unfold LoadedLibrary.openedAgain
    split <;> rfl
  · unfold LoadedLibrary.openedAgain
    split
    · exact ⟨rfl, rfl, Nat.le_succ _⟩
    · exact ⟨rfl, rfl, Nat.le_refl _⟩

theorem of_load (l : Loader) (key : LibraryKey) (image : Image) (base : Option Address)
    (name : String) : Keeps handle l (l.load key image base name).2 where
  texts := rfl
  libc := rfl
  library lib hlib := by
    refine ⟨lib, ?_, rfl, rfl, Nat.le_refl _⟩
    rw [library?] at hlib ⊢
    rw [load, List.find?_append, hlib, Option.some_or]

theorem of_publish (l : Loader) (handle' : Address) : Keeps handle l (l.publish handle') := by
  unfold publish
  split
  · exact .refl handle l
  · exact .of_eq rfl rfl rfl

theorem of_obtain? {files : FileTree} {name : String} {opened : Address}
    (h : l.obtain? files name = some (opened, l')) : Keeps handle l l' := by
  rw [obtain?] at h
  split at h
  · obtain ⟨-, rfl⟩ := Prod.mk.inj (Option.some.inj h)
    exact of_reuse l _ name
  · obtain ⟨⟨key, image, base⟩, -, hopened⟩ := Option.map_eq_some_iff.1 h
    dsimp only at hopened
    split at hopened
    · obtain ⟨-, rfl⟩ := Prod.mk.inj hopened
      exact of_reuse l key name
    · have hload : Keeps handle l (l.load key image base name).2 := of_load l key image base name
      rwa [hopened] at hload

/-- Opening a library keeps all that are loaded. -/
theorem of_open? {files : FileTree} {mode : OpenMode} {name : String} {opened : Address}
    (h : l.open? files mode name = some (opened, l')) : Keeps handle l l' := by
  obtain ⟨text, -, htext⟩ := Option.bind_eq_some_iff.1 h
  split at htext
  · simp at htext
  split at htext
  · obtain ⟨-, rfl⟩ := Prod.mk.inj (Option.some.inj htext)
    exact .refl handle l
  obtain ⟨⟨obtained, l₁⟩, hobtained, hpublished⟩ := Option.bind_eq_some_iff.1 htext
  obtain ⟨-, rfl⟩ := Prod.mk.inj (Option.some.inj hpublished)
  have hkept : Keeps handle l l₁ := of_obtain? hobtained
  split
  · exact hkept.trans (of_publish l₁ obtained)
  · exact hkept

theorem of_openProbing {p : Platform} {files : FileTree} {mode : OpenMode} {name : String}
    {opened : Address} (h : openProbing p l files mode name = .ok (opened, l')) :
    Keeps handle l l' := by
  rw [openProbing] at h
  split at h
  · next hfirst =>
    obtain rfl := Except.ok.inj h
    obtain ⟨candidate, -, hcandidate⟩ := List.exists_of_findSome?_eq_some hfirst
    exact of_open? hcandidate
  · simp at h

/-- Closing a library keeps the others. -/
theorem of_close {handle' : Address} (hne : handle' ≠ handle) (l : Loader) :
    Keeps handle l (l.close handle').2 := by
  unfold close
  split
  · exact .of_eq rfl rfl rfl
  split
  · split
    · exact .of_eq rfl rfl rfl
    · refine of_map (f := LoadedLibrary.closedOnce handle') rfl rfl rfl (fun lib => ?_)
        (fun lib hlib => ?_)
      · unfold LoadedLibrary.closedOnce
        split <;> rfl
      · have hother : ¬lib.handle = handle' := fun heq => hne (heq.symm.trans hlib)
        rw [LoadedLibrary.closedOnce, if_neg hother]
        exact ⟨rfl, rfl, Nat.le_refl _⟩
  · exact .of_eq rfl rfl rfl

/-- What is found through a handle lies in its library or in the C library. -/
theorem found?_eq (h : Keeps handle l l') (hhost : handle ≠ hostHandle)
    (hlib : l.library? handle = some lib) (name : String) :
    l'.found? handle name = l.found? handle name := by
  obtain ⟨lib', hlib', hbase, himage, -⟩ := h.library lib hlib
  have hnot : (handle == hostHandle) = false := beq_eq_false_iff_ne.2 hhost
  simp only [found?, symbol?, hnot, hlib, hlib', h.libc, ownAddress?, hbase, himage,
    Bool.false_eq_true, if_false, Option.bind_some]

end Keeps

/-- Closing a library changes nothing that the loader says. -/
theorem texts_close (l : Loader) (handle : Address) : (l.close handle).2.texts = l.texts := by
  unfold close
  split
  · rfl
  split
  · split
    · rfl
    · rfl
  · rfl

end Loader

end LiveC
