import LiveC.Proofs.Symbol.Trampolines
/-!
# Whose code an address is

While calls are bridged, a function of a library is called through a trampoline and one of the host
image is not, so it matters which module an address is taken to belong to. `Bridging` is what holds
of a linkage whose calls are bridged, whatever was opened and resolved before (`Bridging.after`):
the host image comes first in the registry, and it is the module that the bridge leaves alone. So a
name that the host image exports resolves to the host's own address (`resolve_of_host`). A name
that is looked up through a library's handle is taken to belong to that library, even if the library
only passed it on from the host: `host_direct_iff` says exactly when it still stays unbridged.
-/

namespace LiveC.Linkage

/-! ## What is known while calls are bridged -/

/-- What holds of a linkage whose calls are bridged: the host image is searched first and left
alone. -/
structure Bridging (k : Linkage) : Prop where
  active : k.bridge.active = true
  hostModule : k.bridge.hostModule = Loader.hostHandle
  registry : ∃ rest, k.registry.entries = ⟨hostLibrary, Loader.hostHandle⟩ :: rest
  sound : k.Sound

namespace Bridging

variable {k : Linkage}

theorem make (platform : Platform) (loader : Loader) {foreign : Convention}
    (h : (Bridge.make .native foreign).1.active = true) :
    Bridging (Linkage.make platform loader foreign).1 := by
  cases foreign with
  | win64 => exact ⟨rfl, rfl, ⟨[], rfl⟩, .make platform loader .win64⟩
  | sysv64 => exact absurd h (by decide)
  | aapcs64 => exact absurd h (by decide)
  | other => exact absurd h (by decide)

theorem settled (h : Bridging k) : Bridging k.settled :=
  ⟨h.active, h.hostModule, h.registry, h.sound⟩

theorem wrapped (h : Bridging k) (handle function : Address) :
    Bridging (k.wrapped handle function).2 := by
  have hsound := h.sound.wrapped handle function
  obtain ⟨cache, emitted, code, heq⟩ := wrapped_frame k handle function
  rw [heq] at hsound ⊢
  exact ⟨h.active, h.hostModule, h.registry, hsound⟩

theorem opened (h : Bridging k) (loader : Loader) (name : String) (handle : Address) :
    Bridging { k with loader := loader, registry := k.registry.record name handle } := by
  obtain ⟨rest, hrest⟩ := h.registry
  refine ⟨h.active, h.hostModule, ?_, h.sound⟩
  simp only [Registry.record]
  split
  · exact ⟨rest ++ [⟨name, handle⟩], by rw [hrest, List.cons_append]⟩
  · exact ⟨rest, hrest⟩

theorem step (h : Bridging k) (op : Operation) : Bridging (k.step op) :=
  step_induction h h.settled (fun _ _ => h.settled.wrapped _ _) h.opened op

/-- What holds while calls are bridged holds after every history. -/
theorem after (h : Bridging k) (history : List Operation) : Bridging (k.after history) :=
  after_induction (fun _ op h => h.step op) h history

end Bridging

/-! ## The code of the host image -/

variable {k : Linkage} {name : String} {address : Address}

/-- The host image is searched first. -/
theorem lookup?_host (h : Bridging k)
    (ha : k.loader.found? Loader.hostHandle name = some address) :
    k.registry.lookup? k.loader name = some (Loader.hostHandle, address) := by
  obtain ⟨rest, hrest⟩ := h.registry
  have horder : ∃ others, k.registry.searchOrder = Loader.hostHandle :: others := by
    simp only [Registry.searchOrder, hrest, List.partition_eq_filter_filter]
    exact ⟨_, rfl⟩
  obtain ⟨others, horder⟩ := horder
  rw [Registry.lookup?, horder, List.findSome?_cons, ha]
  rfl

/-- A name that the host image exports leads to the host's own address, and nothing is emitted. -/
theorem resolve_of_host (h : Bridging k) (hname : builtins.address? name = none)
    (ha : k.loader.found? Loader.hostHandle name = some address) :
    k.resolve name = (some address, k.settled) := by
  have hdirect : k.settled.bridge.needsTrampoline (k.settled.isCode address) Loader.hostHandle
      address = false := by
    simp [Bridge.needsTrampoline, h.settled.hostModule]
  rw [resolve_of_found hname (lookup?_host h ha), wrapped_of_direct hdirect]

/-- An address found through a handle stays what it is exactly when the handle is that of the host
image, or it is no code, or no trampoline stands for it and none can be written. -/
theorem resolveIn_direct_iff (h : Bridging k) {handle : Address} (hh : handle ≠ 0)
    (ha : k.loader.found? handle name = some address) :
    k.resolveIn handle name = (some address, k.settled) ↔
      handle = Loader.hostHandle ∨ k.isCode address = false ∨
        (k.bridge.cached? address = none ∧ k.room? = none) := by
  have hne : (address != 0) = true := by
    rw [Loader.found?, Option.filter_eq_some_iff] at ha
    exact ha.2
  have hh' : (handle != 0) = true := by simpa using hh
  have hresolve : k.resolveIn handle name =
      (some (k.settled.wrapped handle address).1, (k.settled.wrapped handle address).2) := by
    rw [resolveIn, if_neg hh, ha]
  have hneeds : k.settled.bridge.needsTrampoline (k.settled.isCode address) handle address =
      (handle != Loader.hostHandle && k.isCode address) := by
    have hcode : k.settled.isCode address = k.isCode address := rfl
    simp [Bridge.needsTrampoline, h.settled.active, h.settled.hostModule, hcode, hne, hh']
  have hroom : k.settled.room? = k.room? := rfl
  have hcache : k.settled.bridge.cached? address = k.bridge.cached? address := rfl
  cases hb : (handle != Loader.hostHandle && k.isCode address) with
  | false =>
    rw [hresolve, wrapped_of_direct (hneeds.trans hb)]
    simp only [true_iff]
    rcases Bool.and_eq_false_iff.1 hb with hb | hb
    · exact .inl (by simpa using hb)
    · exact .inr (.inl hb)
  | true =>
    obtain ⟨hhost, hcode⟩ := Bool.and_eq_true_iff.1 hb
    have hhost' : handle ≠ Loader.hostHandle := by simpa using hhost
    cases hcached : k.bridge.cached? address with
    | some trampoline =>
      have htrampoline : trampoline ≠ address := (h.sound _ (Bridge.mem_of_cached? hcached)).2
      rw [hresolve, wrapped_of_cached (hneeds.trans hb) (hcache.trans hcached)]
      simp [hhost', hcode, htrampoline]
    | none =>
      cases hr : k.room? with
      | none =>
        rw [hresolve, wrapped_of_full (hneeds.trans hb) (hcache.trans hcached) (hroom.trans hr)]
        simp
      | some place =>
        have hplace := ne_of_room? hr hcode
        rw [hresolve, wrapped_of_room (hneeds.trans hb) (hcache.trans hcached) (hroom.trans hr)]
        simp [hhost', hcode, hplace]

/-- **Whose code an address is.** After any history of a linkage whose calls are bridged, a name
that the host image exports leads to the host's own address and nothing is emitted for it. When the
same address is found through a handle it stays unbridged exactly when the handle is that of the
host image, or the address is no code, or no trampoline stands for it and none can be written. -/
theorem host_direct_iff (platform : Platform) (loader : Loader) {foreign : Convention}
    (hforeign : (Bridge.make .native foreign).1.active = true) (history : List Operation)
    {k : Linkage} (hk : k = (make platform loader foreign).1.after history) {name : String}
    {address : Address} (ha : k.loader.found? Loader.hostHandle name = some address) :
    (builtins.address? name = none → k.resolve name = (some address, k.settled)) ∧
    ∀ handle, handle ≠ 0 → k.loader.found? handle name = some address →
      (k.resolveIn handle name = (some address, k.settled) ↔
        handle = Loader.hostHandle ∨ k.isCode address = false ∨
          (k.bridge.cached? address = none ∧ k.room? = none)) := by
  have h : Bridging k := by
    rw [hk]
    exact (Bridging.make platform loader hforeign).after history
  exact ⟨fun hname => resolve_of_host h hname ha,
    fun handle hh hfound => resolveIn_direct_iff h hh hfound⟩

/-- A host that exports a function, and a library that exports another one. -/
def twoImages : Loader :=
  .start ⟨[.function "getpid"]⟩ ⟨[]⟩ [⟨"liba.so", ⟨[.function "liba_sum"]⟩, none⟩]

/-- What is known once the library is opened while calls are bridged. -/
def libraryOpened : Linkage :=
  (make .host twoImages .win64).1.after [.openLibrary (.empty 0) "liba.so"]

/-- A library passes the host's function on under the host's address. Looked up through the
library's handle, it is called through a trampoline all the same. -/
theorem host_bridged_through_library :
    libraryOpened.registry.contains 0x20000000 = true ∧
    libraryOpened.loader.found? Loader.hostHandle "getpid" = some Loader.libcBase ∧
    libraryOpened.loader.found? 0x20000000 "getpid" = some Loader.libcBase ∧
    (libraryOpened.resolve "getpid").1 = some Loader.libcBase ∧
    (libraryOpened.resolveIn 0x20000000 "getpid").1 = some CodeArea.base ∧
    (libraryOpened.resolveIn 0x20000000 "getpid").2.bridge.emitted = 1 := by
  decide +kernel

/-- The host's own handle leads to the host's own address. -/
theorem host_direct_iff_libraryOpened :
    libraryOpened.resolve "getpid" = (some Loader.libcBase, libraryOpened.settled) ∧
    libraryOpened.resolveIn Loader.hostHandle "getpid" =
      (some Loader.libcBase, libraryOpened.settled) := by
  have ha : libraryOpened.loader.found? Loader.hostHandle "getpid" = some Loader.libcBase := by
    decide +kernel
  have hforeign : (Bridge.make .native .win64).1.active = true := by decide
  have h := host_direct_iff .host twoImages hforeign
    [.openLibrary (.empty 0) "liba.so"] (k := libraryOpened) rfl ha
  exact ⟨h.1 (by decide +kernel), (h.2 Loader.hostHandle (by decide) ha).2 (.inl rfl)⟩

end LiveC.Linkage
