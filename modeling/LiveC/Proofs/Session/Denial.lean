import LiveC.Proofs.Compiler.Texts
import LiveC.Proofs.Diagnostic.Advice
import LiveC.Proofs.Library.Search
import LiveC.Proofs.Session.Building
import LiveC.Proofs.Session.Course
/-!
# Names that a failed build denies

A build fails, with a compiler that only misses names, when one of the missing names does not
resolve (`Linker.unresolved_of_build`). Its failure is about all of them, those that were found
included, and so is the report that is made of it. The advice on that report denies every missing
name that is like no builtin. None of them is a builtin, but a library may export some of them: what
is denied is true exactly when no library exports a name that is denied (`Linker.denies_of_build`),
and `Linker.denies_exported` is a build that denies a function which the host image exports.
-/

namespace LiveC

open InSession Engine Report

namespace Linkage

/-- A name that is no builtin does not resolve exactly when no tracked library exports it. -/
theorem resolve_eq_none_iff {k : Linkage} {name : String} (h : builtins.address? name = none) :
    (k.resolve name).1 = none ↔
      ∀ lib ∈ k.registry.entries, k.loader.found? lib.handle name = none := by
  rw [← Registry.lookup?_eq_none_iff, ← Option.not_isSome_iff_eq_none,
    ← Option.not_isSome_iff_eq_none, isSome_resolve, h]
  simp

end Linkage

namespace Linker

variable {σ : Type} [Compiler σ] {L : Linker σ} {e : Surroundings} {load : InSession σ Unit}
  {u : LinkState} {w w' : World σ} {unitName name : String} {f : Failure}

/-- A missing name that can be passed on is no builtin, as every session offers those. -/
theorem address?_of_missing (h : name ∈ u.missingWith e []) (hnul : hasNul name = false) :
    builtins.address? name = none := by
  rw [Option.eq_none_iff_forall_ne_some]
  intro a ha
  obtain ⟨b, hb, rfl, rfl⟩ := BuiltinTable.exists_offered ha
  have haccepted : (b.name, b.address) ∈ accepted (b.name, b.address) := by
    rw [accepted, if_neg (by simp [hnul, BuiltinTable.address?_ne_zero ha])]
    exact List.mem_singleton.2 rfl
  have hoffered : (b.name, b.address) ∈ offered e :=
    List.mem_append_left _ (List.mem_flatMap.2 ⟨_, List.mem_map_of_mem hb, haccepted⟩)
  obtain ⟨-, -, hregistered⟩ := LinkState.mem_missing.1 h
  refine hregistered (List.mem_map.2 ⟨(b.name, b.address), ?_, rfl⟩)
  simp [hoffered]

/-- A build fails because of a missing name that does not resolve, and the failure is about all that
are missing. -/
theorem unresolved_of_build (hload : L.Loads e load u)
    (hnames : ∀ n ∈ u.missingWith e [], Readable n ∧ hasNul n = false) (hclean : e.Clean)
    (hw : L.Steady e w) (h : build unitName load w = (.error f, w')) :
    f = .compilation unitName ((u.missingWith e []).map missingMessage) ∧
      ∃ n ∈ u.missingWith e [], (w'.linkage.resolve n).1 = none := by
  have hreadable := fun n hn => (hnames n hn).1
  have hnone : ¬∃ s, (build unitName load w).1 = .ok s := by
    rw [h]
    simp
  by_cases hmissing : u.missingWith e [] = []
  · obtain ⟨k, cs, hbinds⟩ := binds_of_nil hload hclean hw hmissing unitName
    exact absurd (hbinds.succeeds.2 (by simp [hmissing])) hnone
  obtain ⟨w₁, cs, deleted, hround, hadds, hsteady, hbuild⟩ :=
    build_of_missing hload hreadable hclean hw hmissing unitName
  have hresolves := w₁.linkage.isSome_addresses? (u.missingWith e [])
  cases hlate : w₁.linkage.addresses? (u.missingWith e []) with
  | some late =>
    rw [hlate] at hresolves
    have hbinds :=
      binds_of_resolved hload hclean hround hadds hsteady hmissing hnames hbuild hlate
    exact absurd (hbinds.succeeds.2 (hresolves.1 rfl)) hnone
  | none =>
    obtain ⟨hretry, -⟩ :=
      retry_of_none unitName load (@missingNames_failure unitName _ hreadable) hlate
    rw [h, hretry] at hbuild
    obtain ⟨hfailure, rfl⟩ := Prod.mk.inj hbuild
    refine ⟨Except.error.inj hfailure, ?_⟩
    rw [hlate] at hresolves
    have hunresolved := mt hresolves.2 (by simp)
    push Not at hunresolved
    obtain ⟨n, hn, hunresolved⟩ := hunresolved
    refine ⟨n, hn, ?_⟩
    -- looking names up has no influence on which names resolve
    have hleads : w₁.Leads (resolveAll (u.missingWith e []) w₁).2 := (resolveAll_plain _).leads w₁
    rwa [← Option.not_isSome_iff_eq_none, hleads.isSome_resolve]

/-- **What is denied when a build fails**, with the spans as they are or taken back through a line
map: every missing name that is like no builtin. One of the missing names does not resolve, but a
library may export others. So all that is denied is true exactly when no tracked library exports a
missing name that is like no builtin. -/
theorem denies_of_build (hload : L.Loads e load u)
    (hnames : ∀ n ∈ u.needed, Readable n ∧ hasNul n = false) (hclean : e.Clean)
    (hw : L.Steady e w) (h : build unitName load w = (.error f, w')) :
    ∃ r, f.report? = some r ∧ (∃ n ∈ u.missingWith e [], (w'.linkage.resolve n).1 = none) ∧
      ∀ map : Option LineMap, let advised := (map.elim r r.remap).suggest builtins.names
        (∀ n, advised.Denies n ↔ n ∈ u.missingWith e [] ∧ Unlike builtins.names n) ∧
        ((∀ n, advised.Denies n → (w'.linkage.resolve n).1 = none) ↔
          ∀ n ∈ u.missingWith e [], Unlike builtins.names n →
            ∀ lib ∈ w'.linkage.registry.entries, w'.linkage.loader.found? lib.handle n = none) := by
  have hmissed : ∀ n ∈ u.missingWith e [], Readable n ∧ hasNul n = false := fun n hn =>
    hnames n (LinkState.mem_missing.1 hn).1
  obtain ⟨rfl, hunresolved⟩ := unresolved_of_build hload hmissed hclean hw h
  obtain ⟨r, hr, hunadvised, hmisses⟩ : ∃ r, (Failure.compilation unitName
      ((u.missingWith e []).map missingMessage)).report? = some r ∧ r.Unadvised ∧
        ∀ n, r.Misses n ↔ n ∈ u.missingWith e [] :=
    ⟨_, rfl, unadvised_addMessages _, fun n => misses_missing_iff fun n hn => (hmissed n hn).1⟩
  refine ⟨r, hr, hunresolved, fun map => ?_⟩
  have hdenies : ∀ n, ((map.elim r r.remap).suggest builtins.names).Denies n ↔
      n ∈ u.missingWith e [] ∧ Unlike builtins.names n := fun n => by
    rw [denies_advised_iff hunadvised map, hmisses]
  refine ⟨hdenies, ?_⟩
  simp only [hdenies, and_imp]
  refine forall₂_congr fun n hn => imp_congr_right fun _ => ?_
  exact Linkage.resolve_eq_none_iff (address?_of_missing hn (hmissed n hn).2)

/-- What comes of a source text in `libraryWorld`. -/
def builtText (text : String) : Except Failure Session × World Scripted.Library :=
  build "(inline)" (compile text) libraryWorld

/-- Neither name is offered to a session of the world. -/
theorem notMem_of_mem_offered : ∀ n ∈ (offered libraryWorld.surroundings).map Prod.fst,
    n ∉ ["getpid", "zlib_inflate"] := by decide +kernel

/-- No library of the world exports the name. -/
theorem resolve_zlib_inflate : (libraryWorld.linkage.resolve "zlib_inflate").1 = none := by
  decide +kernel

/-- A text that only needs names, none of which is offered, is not built if it needs one that no
library exports. -/
theorem builtText_eq_error {text : String} {names : List String} (hpassed : hasNul text = false)
    (htranslate : Scripted.translate text = ⟨[], false, names, []⟩)
    (hids : ∀ n ∈ names, IsIdentifier n)
    (hoffered : ∀ n ∈ names, n ∉ (offered libraryWorld.surroundings).map Prod.fst)
    (hname : "zlib_inflate" ∈ names) :
    (builtText text).1 = .error (.compilation "(inline)" (names.map missingMessage)) := by
  have hmissing : (Scripted.translator.translate text).missing libraryWorld.surroundings =
      names := by
    have htranslate' : Scripted.translator.translate text = ⟨[], false, names, []⟩ := htranslate
    rw [htranslate']
    exact LinkState.missingWith_eq_needed rfl rfl hoffered
  have hbuilt := Translator.build_of_unresolved (T := Scripted.translator) (w := libraryWorld)
    (.start rfl rfl _ _ _) (.start _ _ _ _) hpassed (congrArg Translation.failed htranslate)
    (congrArg Translation.messages htranslate)
    (hmissing.symm ▸ fun n hn => (hids n hn).readable) (hmissing.symm ▸ hname)
    resolve_zlib_inflate "(inline)"
  rwa [hmissing] at hbuilt

/-- A unit that misses a single name: what is denied is true. -/
theorem denies_of_build_builtText :
    ∃ f r, (builtText (Scripted.needing "zlib_inflate")).1 = .error f ∧ f.report? = some r ∧
      ∀ n, (r.suggest builtins.names).Denies n →
        ((builtText (Scripted.needing "zlib_inflate")).2.linkage.resolve n).1 = none := by
  have hid : IsIdentifier "zlib_inflate" := by decide
  have hload := Scripted.needing_loads hid libraryWorld.surroundings
  have hclean : libraryWorld.surroundings.Clean := .start _ _ _ _
  have hsteady : Scripted.linker.Steady libraryWorld.surroundings libraryWorld :=
    .start rfl rfl _ _ _
  have hoffered : ∀ n ∈ ["zlib_inflate"], n ∉ (offered libraryWorld.surroundings).map Prod.fst :=
    fun n hn hmem => notMem_of_mem_offered n hmem (List.mem_cons_of_mem _ hn)
  have hmissing : LinkState.missingWith ⟨["zlib_inflate"], [], []⟩ libraryWorld.surroundings [] =
      ["zlib_inflate"] := LinkState.missingWith_eq_needed rfl rfl hoffered
  have hfailed : (builtText (Scripted.needing "zlib_inflate")).1 =
      .error (.compilation "(inline)" [missingMessage "zlib_inflate"]) :=
    builtText_eq_error (Scripted.hasNul_needing hid)
      (by rw [Scripted.translate, Translation.mk.injEq]; decide +kernel)
      (by simpa using hid) hoffered
      (List.mem_singleton.2 rfl)
  generalize hbuilt : builtText (Scripted.needing "zlib_inflate") = built at hfailed ⊢
  obtain ⟨result, w'⟩ := built
  obtain rfl := hfailed
  obtain ⟨r, hr, ⟨n, hn, hnone⟩, hall⟩ := denies_of_build hload
    (by simpa using ⟨hid.readable, hid.hasNul⟩) hclean hsteady hbuilt
  refine ⟨_, r, rfl, hr, fun m hm => ?_⟩
  have hmissed := (((hall none).1 m).1 hm).1
  rw [hmissing] at hn hmissed
  rwa [List.mem_singleton.1 hmissed, ← List.mem_singleton.1 hn]

/-- A function of the host image is denied when another name is missing as well. -/
theorem denies_exported :
    ∃ f r, (builtText "@[need getpid]@[need zlib_inflate]").1 = .error f ∧ f.report? = some r ∧
      (r.suggest builtins.names).Denies "getpid" ∧
      ((builtText "@[need getpid]@[need zlib_inflate]").2.linkage.resolve "getpid").1.isSome =
        true := by
  have hids : ∀ n ∈ ["getpid", "zlib_inflate"], IsIdentifier n := by decide
  have hreadable : ∀ n ∈ ["getpid", "zlib_inflate"], Readable n := fun n hn => (hids n hn).readable
  have hfailed : (builtText "@[need getpid]@[need zlib_inflate]").1 =
      .error (.compilation "(inline)" (["getpid", "zlib_inflate"].map missingMessage)) :=
    builtText_eq_error ((hasNul_ofList _).trans rfl)
      (by rw [Scripted.translate, Translation.mk.injEq]; decide +kernel) hids
      (fun n hn hmem => notMem_of_mem_offered n hmem hn) (by simp)
  have hunlike : likeNames "getpid" builtins.names suggestionThreshold suggestionLimit = [] := by
    decide +kernel
  refine ⟨_, _, hfailed, rfl, ?_, ?_⟩
  · exact (denies_suggest_iff (unadvised_addMessages _)).2
      ⟨(misses_missing_iff hreadable).2 (by simp), hunlike⟩
  · -- the build opens no library and closes none
    have hleads : libraryWorld.Leads (builtText "@[need getpid]@[need zlib_inflate]").2 :=
      (build_plain (.demandWith _ _) "(inline)").leads libraryWorld
    rw [hleads.isSome_resolve]
    decide +kernel

end Linker

end LiveC
