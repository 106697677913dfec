import Mathlib.Data.List.Infix
import Mathlib.Data.List.Nodup
import Mathlib.Data.List.TakeWhile
import LiveC.Library.Registry
/-!
# The names that a library is looked for under

A logical name is a directory, up to its last separator, and a base behind it, of which the stem is
what is left without the extension of a library (`LibraryParts`). The file names to try are the name
itself and then its `completions`: the stem with every extension of the platform, bare and with
`lib` in front, except that no name is listed twice. No extension ends in another one, so the stem
is settled by the base, and no two completions are the same. Names that differ in their extensions
only have the same file names, in another order (`perm_libraryCandidates`).

A library is opened by trying its file names in order up to the first that opens; `probe` is that
search with a record of the names that it tries. `libraryCandidates_probed` puts everything
together.
-/

namespace LiveC

open Text

namespace Platform

variable {p : Platform} {e e' : String}

theorem mem_libraryExtensions :
    e ∈ p.libraryExtensions ↔ e = ".so" ∨ e = ".dylib" ∨ e = ".dll" := by
  rw [libraryExtensions]
  cases p.os <;> simp only [List.mem_cons, List.not_mem_nil, or_false] <;> tauto

theorem nodup_libraryExtensions (p : Platform) : p.libraryExtensions.Nodup := by
  rw [libraryExtensions]
  cases p.os <;> decide

/-- An extension starts with a period and holds no separator. -/
theorem extension_shape (he : e ∈ p.libraryExtensions) :
    e.toList.head? = some '.' ∧ ∀ c ∈ e.toList, isSeparator c = false := by
  simp only [← Bool.not_eq_true', ← List.all_eq_true]
  rcases mem_libraryExtensions.1 he with rfl | rfl | rfl <;> decide

/-- No extension ends in another one. -/
theorem eq_of_extension_suffix (he : e ∈ p.libraryExtensions) (he' : e' ∈ p.libraryExtensions)
    (h : e.toList <:+ e'.toList) : e = e' := by
  rcases mem_libraryExtensions.1 he with rfl | rfl | rfl <;>
    rcases mem_libraryExtensions.1 he' with rfl | rfl | rfl <;> revert h <;> decide

/-- Two extensions that a text can be written with are the same, and so is what they are put to. -/
theorem extension_append_inj {s s' : List Char} (he : e ∈ p.libraryExtensions)
    (he' : e' ∈ p.libraryExtensions) (h : s ++ e.toList = s' ++ e'.toList) : s = s' ∧ e = e' := by
  have hsame : e = e' := by
    have hsuffix : e.toList <:+ s' ++ e'.toList := h ▸ List.suffix_append s e.toList
    rcases List.suffix_or_suffix_of_suffix hsuffix (List.suffix_append s' e'.toList) with h | h
    · exact eq_of_extension_suffix he he' h
    · exact (eq_of_extension_suffix he' he h).symm
  subst hsame
  exact ⟨List.append_cancel_right h, rfl⟩

end Platform

/-! ## The parts of a name -/

/-- The parts of a logical name: the directory up to the last separator, the base behind it, and the
stem of the base. -/
structure LibraryParts (p : Platform) (name : String) (directory base stem : List Char) : Prop where
  whole : name.toList = directory ++ base
  closed : directory = [] ∨ ∃ front c, directory = front ++ [c] ∧ (c = '/' ∨ c = '\\')
  unbroken : ∀ c ∈ base, c ≠ '/' ∧ c ≠ '\\'
  stemmed : (∃ e ∈ p.libraryExtensions, base = stem ++ e.toList) ∨
    stem = base ∧ ∀ e ∈ p.libraryExtensions, ¬e.toList <:+ base

/-- A base starts with `lib`, in letters of either case. -/
def StartsWithLib (base : List Char) : Prop :=
  ∃ start rest, base = start ++ rest ∧ start.map Char.toLower = ['l', 'i', 'b']

theorem startsWithLib_iff {base : List Char} :
    StartsWithLib base ↔ ['l', 'i', 'b'].isPrefixOf (base.map Char.toLower) = true := by
  rw [List.isPrefixOf_iff_prefix]
  constructor
  · rintro ⟨start, rest, rfl, h⟩
    rw [List.map_append, h]
    exact List.prefix_append _ _
  · rintro ⟨lowered, h⟩
    obtain ⟨start, rest, rfl, hstart, -⟩ := List.append_eq_map_iff.1 h
    exact ⟨start, rest, rfl, hstart⟩

instance (base : List Char) : Decidable (StartsWithLib base) :=
  decidable_of_iff _ startsWithLib_iff.symm

/-- The stem with every extension of the platform, bare and with `lib` in front, unless the base
starts so already. -/
def completions (p : Platform) (directory base stem : List Char) : List String :=
  (if StartsWithLib base then [""] else ["", "lib"]).flatMap fun start =>
    p.libraryExtensions.map fun e => String.ofList directory ++ start ++ String.ofList stem ++ e

variable {p : Platform} {name : String} {directory base stem : List Char} {e : String}

theorem isSeparator_iff {c : Char} : isSeparator c = true ↔ c = '/' ∨ c = '\\' := by
  simp [isSeparator]

/-- A name split at its last separator, from behind. -/
theorem splitDirectory_eq (name : List Char) : splitDirectory name =
    ((name.reverse.dropWhile (!isSeparator ·)).reverse,
      (name.reverse.takeWhile (!isSeparator ·)).reverse) := by
  have hname : name = (name.reverse.dropWhile (!isSeparator ·)).reverse ++
      (name.reverse.takeWhile (!isSeparator ·)).reverse := by
    rw [← List.reverse_append, List.takeWhile_append_dropWhile, List.reverse_reverse]
  rw [splitDirectory, Prod.mk.injEq]
  refine ⟨?_, rfl⟩
  conv_lhs => rw [hname]
  refine List.take_left' ?_
  have hlength := congrArg List.length hname
  rw [List.length_append] at hlength
  rw [← hname]
  omega

/-- The directory of a name does not depend on an ending without separators. -/
theorem splitDirectory_append {s ending : List Char} (h : ∀ c ∈ ending, isSeparator c = false) :
    splitDirectory (s ++ ending) = ((splitDirectory s).1, (splitDirectory s).2 ++ ending) := by
  have hpassed : ∀ c ∈ ending.reverse, (!isSeparator c) = true := fun c hc => by
    rw [h c (List.mem_reverse.1 hc), Bool.not_false]
  simp only [splitDirectory_eq, List.reverse_append, List.takeWhile_append_of_pos hpassed,
    List.dropWhile_append_of_pos hpassed, List.reverse_reverse]

theorem stripEnd?_eq_some_iff {ending s r : List Char} :
    stripEnd? ending s = some r ↔ s = r ++ ending := by
  rw [stripEnd?]
  constructor
  · intro h
    split at h
    · next hsuffix =>
      obtain ⟨front, rfl⟩ := List.isSuffixOf_iff_suffix.1 hsuffix
      obtain rfl := Option.some.inj h
      rw [List.length_append, Nat.add_sub_cancel, List.take_left]
    · exact absurd h (by simp)
  · rintro rfl
    rw [if_pos (List.isSuffixOf_iff_suffix.2 (List.suffix_append r ending)), List.length_append,
      Nat.add_sub_cancel, List.take_left]

theorem stripEnd?_eq_none_iff {ending s : List Char} :
    stripEnd? ending s = none ↔ ¬ending <:+ s := by
  rw [stripEnd?, ← List.isSuffixOf_iff_suffix]
  simp

/-- A base with an extension is a stem and that extension. -/
theorem withoutExtension_append (he : e ∈ p.libraryExtensions) (stem : List Char) :
    withoutExtension p.libraryExtensions (stem ++ e.toList) = stem := by
  rw [withoutExtension]
  cases h : p.libraryExtensions.findSome? fun e' => stripEnd? e'.toList (stem ++ e.toList) with
  | none =>
    exact absurd (List.suffix_append stem e.toList)
      (stripEnd?_eq_none_iff.1 (List.findSome?_eq_none_iff.1 h e he))
  | some stem' =>
    obtain ⟨e', he', hstrip⟩ := List.exists_of_findSome?_eq_some h
    exact (Platform.extension_append_inj he he' (stripEnd?_eq_some_iff.1 hstrip)).1.symm

/-- A base without extension is its own stem. -/
theorem withoutExtension_cases (p : Platform) (base : List Char) :
    (∃ e ∈ p.libraryExtensions, base = withoutExtension p.libraryExtensions base ++ e.toList) ∨
      withoutExtension p.libraryExtensions base = base ∧
        ∀ e ∈ p.libraryExtensions, ¬e.toList <:+ base := by
  rw [withoutExtension]
  cases h : p.libraryExtensions.findSome? fun e => stripEnd? e.toList base with
  | none =>
    exact .inr ⟨rfl, fun e he => stripEnd?_eq_none_iff.1 (List.findSome?_eq_none_iff.1 h e he)⟩
  | some stem =>
    obtain ⟨e, he, hstrip⟩ := List.exists_of_findSome?_eq_some h
    exact .inl ⟨e, he, stripEnd?_eq_some_iff.1 hstrip⟩

/-- Every name has its parts. -/
theorem libraryParts_split (p : Platform) (name : String) :
    LibraryParts p name (splitDirectory name.toList).1 (splitDirectory name.toList).2
      (withoutExtension p.libraryExtensions (splitDirectory name.toList).2) where
  whole := by
    rw [splitDirectory_eq, ← List.reverse_append, List.takeWhile_append_dropWhile,
      List.reverse_reverse]
  closed := by
    rw [splitDirectory_eq]
    cases h : name.toList.reverse.dropWhile (!isSeparator ·) with
    | nil => exact .inl rfl
    | cons c front =>
      have hc : isSeparator c = true := by
        have hstop := List.head_dropWhile_not (!isSeparator ·) (h ▸ List.cons_ne_nil c front)
        simpa [h] using hstop
      exact .inr ⟨front.reverse, c, List.reverse_cons, isSeparator_iff.1 hc⟩
  unbroken c hc := by
    rw [splitDirectory_eq, List.mem_reverse] at hc
    have hpassed : (!isSeparator c) = true := List.mem_takeWhile_imp (p := (!isSeparator ·)) hc
    rw [Bool.not_eq_true', ← Bool.not_eq_true, isSeparator_iff, not_or] at hpassed
    exact hpassed
  stemmed := withoutExtension_cases p (splitDirectory name.toList).2

/-! ## The names to try -/

theorem variants_eq (p : Platform) (directory base : List Char) :
    variants p.libraryExtensions directory base =
      completions p directory base (withoutExtension p.libraryExtensions base) := by
  have hstarts : libraryPrefixes base =
      (if StartsWithLib base then [""] else ["", "lib"]).map String.toList := by
    rw [libraryPrefixes]
    simp only [← startsWithLib_iff]
    split <;> rfl
  rw [variants, hstarts, List.flatMap_map, completions]
  simp only [String.ofList_toList, String.ofList_append]

/-- No two completions are the same. -/
theorem nodup_completions (p : Platform) (directory base stem : List Char) :
    (completions p directory base stem).Nodup := by
  have hinj : ∀ start start' : String, ∀ e ∈ p.libraryExtensions, ∀ e' ∈ p.libraryExtensions,
      String.ofList directory ++ start ++ String.ofList stem ++ e =
        String.ofList directory ++ start' ++ String.ofList stem ++ e' →
      start = start' ∧ e = e' := by
    intro start start' e he e' he' h
    have hlists := congrArg String.toList h
    simp only [String.toList_append, String.toList_ofList] at hlists
    obtain ⟨hfront, rfl⟩ := Platform.extension_append_inj he he' hlists
    exact ⟨String.toList_inj.1 (List.append_cancel_left (List.append_cancel_right hfront)), rfl⟩
  rw [completions, List.nodup_flatMap]
  constructor
  · intro start _
    exact List.Nodup.map_on (fun e he e' he' h => (hinj start start e he e' he' h).2)
      p.nodup_libraryExtensions
  · have hstarts : (if StartsWithLib base then [""] else ["", "lib"]).Nodup := by split <;> decide
    refine hstarts.imp fun {start start'} hne => ?_
    intro n hn hn'
    obtain ⟨e, he, rfl⟩ := List.mem_map.1 hn
    obtain ⟨e', he', h⟩ := List.mem_map.1 hn'
    exact hne (hinj start start' e he e' he' h.symm).1

theorem addNew_eq {names news : List String} (h : news.Nodup) :
    addNew names news = names ++ news.filter (· ∉ names) := by
  induction news generalizing names with
  | nil => rw [addNew, List.filter_nil, List.append_nil]
  | cons n news ih =>
    obtain ⟨hn, hnews⟩ := List.nodup_cons.1 h
    rw [addNew, ih hnews]
    by_cases hmem : n ∈ names
    · rw [if_pos (List.contains_iff_mem.2 hmem), List.filter_cons_of_neg (by simpa using hmem)]
    · rw [if_neg (by rwa [List.contains_iff_mem]), List.filter_cons_of_pos (by simpa using hmem),
        List.append_assoc, List.singleton_append]
      -- the rest does not hold the new name
      have hrest : news.filter (· ∉ names ++ [n]) = news.filter (· ∉ names) :=
        List.filter_congr fun m hm => by
          have hne : m ≠ n := fun heq => hn (heq ▸ hm)
          simp [hne]
      rw [hrest]

theorem libraryCandidates_of_base_nil (h : (splitDirectory name.toList).2 = []) :
    libraryCandidates p name = [name] := by
  simp only [libraryCandidates, h, List.isEmpty_nil, if_true]

theorem libraryCandidates_of_base_ne_nil (h : (splitDirectory name.toList).2 ≠ []) :
    libraryCandidates p name = name :: (completions p (splitDirectory name.toList).1
      (splitDirectory name.toList).2
      (withoutExtension p.libraryExtensions (splitDirectory name.toList).2)).filter (· ≠ name) := by
  have hbase : (splitDirectory name.toList).2.isEmpty = false := by
    rwa [← Bool.not_eq_true, List.isEmpty_iff]
  simp only [libraryCandidates, hbase, Bool.false_eq_true, if_false, variants_eq,
    addNew_eq (nodup_completions _ _ _ _), List.singleton_append, List.mem_singleton, ne_eq]

/-- A name means a file of that name at least, so there is a last file that it may mean. -/
theorem getLast?_libraryCandidates (p : Platform) (name : String) :
    (libraryCandidates p name).getLast? = some ((libraryCandidates p name).getLastD name) := by
  have hne : libraryCandidates p name ≠ [] := by
    by_cases h : (splitDirectory name.toList).2 = []
    · rw [libraryCandidates_of_base_nil h]
      exact List.cons_ne_nil _ _
    · rw [libraryCandidates_of_base_ne_nil h]
      exact List.cons_ne_nil _ _
  rw [List.getLastD_eq_getLast?, List.getLast?_eq_some_getLast hne, Option.getD_some]

theorem nodup_libraryCandidates (p : Platform) (name : String) :
    (libraryCandidates p name).Nodup := by
  by_cases h : (splitDirectory name.toList).2 = []
  · rw [libraryCandidates_of_base_nil h]
    exact List.nodup_singleton name
  · rw [libraryCandidates_of_base_ne_nil h, List.nodup_cons]
    exact ⟨by simp, (nodup_completions _ _ _ _).filter _⟩

/-- An extension does not matter to whether a base starts with `lib`. -/
theorem startsWithLib_append (he : e ∈ p.libraryExtensions) :
    StartsWithLib (base ++ e.toList) ↔ StartsWithLib base := by
  obtain ⟨tail, htail⟩ := List.head?_eq_some_iff.1 (Platform.extension_shape he).1
  have hperiod : '.'.toLower = '.' := by decide
  rw [startsWithLib_iff, startsWithLib_iff, htail]
  match base with
  | [] | [_] | [_, _] => simp [hperiod]
  | _ :: _ :: _ :: _ => simp

/-- A name of a list put in front of the others. -/
theorem perm_cons_others {names : List String} (h : names.Nodup) (hmem : name ∈ names) :
    (name :: names.filter (· ≠ name)).Perm names := by
  have hothers : names.filter (· ≠ name) = names.erase name := by
    rw [h.erase_eq_filter]
    exact List.filter_congr fun n _ => Bool.eq_iff_iff.2 (by simp)
  rw [hothers]
  exact (List.perm_cons_erase hmem).symm

/-- The names to try for a name with an extension are its completions, in some order. -/
theorem perm_completions (he : e ∈ p.libraryExtensions) (front : String) :
    (libraryCandidates p (front ++ e)).Perm (completions p (splitDirectory front.toList).1
      (splitDirectory front.toList).2 (splitDirectory front.toList).2) := by
  obtain ⟨hperiod, hseparators⟩ := Platform.extension_shape he
  have hsplit := splitDirectory_append (s := front.toList) hseparators
  have hbase : (splitDirectory (front ++ e).toList).2 ≠ [] := by
    rw [String.toList_append, hsplit]
    intro hnil
    rw [(List.append_eq_nil_iff.1 hnil).2] at hperiod
    exact absurd hperiod (by simp)
  have hcompletions : completions p (splitDirectory front.toList).1
      ((splitDirectory front.toList).2 ++ e.toList) (splitDirectory front.toList).2 =
      completions p (splitDirectory front.toList).1 (splitDirectory front.toList).2
        (splitDirectory front.toList).2 := by
    rw [completions, completions]
    simp only [startsWithLib_append he]
  have hmem : front ++ e ∈ completions p (splitDirectory front.toList).1
      (splitDirectory front.toList).2 (splitDirectory front.toList).2 := by
    rw [completions, List.mem_flatMap]
    refine ⟨"", by split <;> simp, List.mem_map.2 ⟨e, he, ?_⟩⟩
    have hwhole := (libraryParts_split p front).whole
    rw [String.append_empty, ← String.ofList_append, ← hwhole, String.ofList_toList]
  rw [libraryCandidates_of_base_ne_nil hbase, String.toList_append, hsplit,
    withoutExtension_append he, hcompletions]
  exact perm_cons_others (nodup_completions _ _ _ _) hmem

/-- Names that differ in their extensions only are looked for under the same file names. -/
theorem perm_libraryCandidates {e₁ e₂ : String} (he₁ : e₁ ∈ p.libraryExtensions)
    (he₂ : e₂ ∈ p.libraryExtensions) (front : String) :
    (libraryCandidates p (front ++ e₁)).Perm (libraryCandidates p (front ++ e₂)) :=
  (perm_completions he₁ front).trans (perm_completions he₂ front).symm

/-! ## Probing -/

section Probe

variable {β : Type} {opens : String → Option β} {names : List String}

/-- A search for the first name that opens: what opens, and the names that were tried, in order. -/
def probe (opens : String → Option β) : List String → Option β × List String
  | [] => (none, [])
  | n :: names =>
    match opens n with
    | some opened => (some opened, [n])
    | none => ((probe opens names).1, n :: (probe opens names).2)

theorem probe_fst (opens : String → Option β) (names : List String) :
    (probe opens names).1 = names.findSome? opens := by
  induction names with
  | nil => rfl
  | cons n names ih =>
    rw [probe, List.findSome?_cons]
    cases opens n with
    | none => exact ih
    | some opened => rfl

/-- A search that fails tries every name, and one that succeeds stops at the first that opens. -/
theorem probe_cases (opens : String → Option β) (names : List String) :
    ((∀ n ∈ names, opens n = none) ∧ probe opens names = (none, names)) ∨
    ∃ before first after opened, names = before ++ first :: after ∧
      (∀ n ∈ before, opens n = none) ∧ opens first = some opened ∧
      probe opens names = (some opened, before ++ [first]) := by
  induction names with
  | nil => exact .inl ⟨by simp, rfl⟩
  | cons n names ih =>
    cases hn : opens n with
    | some opened => exact .inr ⟨[], n, names, opened, rfl, by simp, hn, by simp [probe, hn]⟩
    | none =>
      rcases ih with ⟨hnone, hprobe⟩ | ⟨before, first, after, opened, rfl, hbefore, hfirst, hprobe⟩
      · exact .inl ⟨List.forall_mem_cons.2 ⟨hn, hnone⟩, by simp [probe, hn, hprobe]⟩
      · exact .inr ⟨n :: before, first, after, opened, rfl, List.forall_mem_cons.2 ⟨hn, hbefore⟩,
          hfirst, by simp [probe, hn, hprobe]⟩

end Probe

/-- Opening a library is the search among its file names. -/
theorem openProbing_eq (p : Platform) (l : Loader) (files : FileTree) (mode : OpenMode)
    (name : String) : openProbing p l files mode name =
      match (probe (l.open? files mode) (libraryCandidates p name)).1 with
      | some opened => .ok opened
      | none => .error (.platform (.cannotOpenLibrary name
        ((libraryCandidates p name).getLast?.map (l.texts.notOpened files mode)))) := by
  have hfirst : (probe (l.open? files mode) (libraryCandidates p name)).1 =
      openFirst? l files mode (libraryCandidates p name) := probe_fst _ _
  rw [hfirst]
  rfl

/-- **A library is looked for** under its name and the other completions of it, each listed once, in
order; names that differ in their extensions only have the same file names. They are tried in order,
none twice, up to the first that opens, and the search fails only when none does. -/
theorem libraryCandidates_probed (p : Platform) (name : String) :
    (∃ directory base stem, LibraryParts p name directory base stem ∧
      (base = [] → libraryCandidates p name = [name]) ∧
      (base ≠ [] → libraryCandidates p name =
        name :: (completions p directory base stem).filter (· ≠ name))) ∧
    (libraryCandidates p name).Nodup ∧
    (∀ directory stem e₁ e₂ : String, e₁ ∈ p.libraryExtensions → e₂ ∈ p.libraryExtensions →
      (libraryCandidates p (directory ++ stem ++ e₁)).Perm
        (libraryCandidates p (directory ++ stem ++ e₂))) ∧
    ∀ (l : Loader) (files : FileTree) (mode : OpenMode),
      openFirst? l files mode (libraryCandidates p name) =
        (probe (l.open? files mode) (libraryCandidates p name)).1 ∧
      (probe (l.open? files mode) (libraryCandidates p name)).2.Nodup ∧
      (((∀ n ∈ libraryCandidates p name, l.open? files mode n = none) ∧
          (probe (l.open? files mode) (libraryCandidates p name)).2 = libraryCandidates p name ∧
          openProbing p l files mode name = .error (.platform (.cannotOpenLibrary name
            ((libraryCandidates p name).getLast?.map (l.texts.notOpened files mode))))) ∨
        ∃ before first after opened, libraryCandidates p name = before ++ first :: after ∧
          (∀ n ∈ before, l.open? files mode n = none) ∧ l.open? files mode first = some opened ∧
          (probe (l.open? files mode) (libraryCandidates p name)).2 = before ++ [first] ∧
          openProbing p l files mode name = .ok opened) := by
  refine ⟨⟨_, _, _, libraryParts_split p name, libraryCandidates_of_base_nil,
    libraryCandidates_of_base_ne_nil⟩, nodup_libraryCandidates p name,
    fun directory stem e₁ e₂ he₁ he₂ => perm_libraryCandidates he₁ he₂ _,
    fun l files mode => ⟨(probe_fst _ _).symm, ?_⟩⟩
  have hnodup := nodup_libraryCandidates p name
  rcases probe_cases (l.open? files mode) (libraryCandidates p name) with
    ⟨hnone, hprobe⟩ | ⟨before, first, after, opened, hnames, hbefore, hfirst, hprobe⟩
  · rw [openProbing_eq, hprobe]
    exact ⟨hnodup, .inl ⟨hnone, rfl, rfl⟩⟩
  · have htried : before ++ [first] <+: libraryCandidates p name :=
      ⟨after, by rw [hnames, List.append_assoc, List.singleton_append]⟩
    rw [openProbing_eq, hprobe]
    exact ⟨hnodup.sublist htried.sublist,
      .inr ⟨before, first, after, opened, hnames, hbefore, hfirst, rfl, rfl⟩⟩

end LiveC
