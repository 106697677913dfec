import LiveC.Files.Tree
import LiveC.Proofs.Lists
/-!
# Writing files

Writing a file leads no path elsewhere. `write?_cases` is the one look at how a file is written: the
file that a path leads to is changed under all its names, or a new file is put at a free place. From
it, the file reads back what was written (`bytes?_write`), and every file that the path does not
lead to keeps its bytes (`bytes?_write_of_ne`).
-/

namespace LiveC.FileTree

variable {t t' : FileTree} {path other : String} {bytes b : ByteArray}

/-- Replacing the file of a number leaves those of other numbers alone. -/
theorem lookup_setFile (t : FileTree) (id other : Nat) (f : File) :
    (t.setFile id f).files.lookup other = if other = id then some f else t.files.lookup other := by
  rw [setFile, List.lookup_cons]
  by_cases h : other = id
  · simp [h]
  · have hfilter (l : List (Nat × File)) :
        (l.filter (·.1 != id)).lookup other = l.lookup other := by
      induction l with
      | nil => rfl
      | cons x l ih =>
        obtain ⟨n, g⟩ := x
        by_cases hn : n = id
        · rw [List.filter_cons_of_neg (by simp [hn]), ih, List.lookup_cons, hn,
            beq_eq_false_iff_ne.2 h]
        · rw [List.filter_cons_of_pos (by simpa using hn), List.lookup_cons, List.lookup_cons, ih]
    rw [beq_eq_false_iff_ne.2 h, if_neg h]
    exact hfilter t.files

theorem ne_freshId {id : Nat} {f : File} (h : t.files.lookup id = some f) : id ≠ t.freshId := by
  have hlt (l : List (Nat × File)) (n : Nat) :
      n ≤ l.foldl (fun n f => max n (f.1 + 1)) n ∧
        ∀ x ∈ l, x.1 < l.foldl (fun n f => max n (f.1 + 1)) n := by
    induction l generalizing n with
    | nil => exact ⟨Nat.le_refl n, by simp⟩
    | cons x l ih =>
      obtain ⟨hle, hall⟩ := ih (max n (x.1 + 1))
      rw [List.foldl_cons]
      refine ⟨by omega, fun y hy => ?_⟩
      rcases List.mem_cons.1 hy with rfl | hy
      · omega
      · exact hall y hy
  have hmem : (id, f) ∈ t.files := mem_of_lookup_eq_some h
  exact Nat.ne_of_lt ((hlt t.files 0).2 _ hmem)

/-! ## Places -/

/-- Paths lead to the same places in trees with the same directories. -/
theorem placeOf?_of_directories (hhere : t'.here = t.here)
    (h : ∀ place, t'.entryAt? place = some .directory ↔ t.entryAt? place = some .directory)
    (path : String) : t'.placeOf? path = t.placeOf? path := by
  have hstep (place : Place) (name : List Char) : t'.stepTo? place name = t.stepTo? place name := by
    have hdirectory : (t'.entryAt? place != some .directory) =
        (t.entryAt? place != some .directory) := by
      rw [Bool.eq_iff_iff]
      simp only [bne_iff_ne, ne_eq, h]
    rw [stepTo?, stepTo?, hdirectory]
  have hwalk (names : List (List Char)) (place : Place) :
      t'.walk? place names = t.walk? place names := by
    induction names generalizing place with
    | nil => rfl
    | cons name names ih => simp only [walk?, hstep, ih]
  rw [placeOf?, placeOf?, hhere]
  simp only [hwalk]

/-- A path leads to what its place holds. -/
theorem eq_entryAt? (t : FileTree) (path : String) :
    t.entry? path = (t.placeOf? path).bind t.entryAt? := rfl

/-- What writing a file does. -/
theorem write?_cases (h : t.write? path bytes = some t') :
    (∃ id, t.entry? path = some (.file id) ∧ t'.entries = t.entries ∧ t'.here = t.here ∧
      t'.files = (t.setFile id ⟨bytes, none, t.now⟩).files) ∨
    ∃ place, t.placeOf? path = some place ∧ t.entryAt? place = none ∧
      t'.entries = t.entries ++ [(place, .file t.freshId)] ∧ t'.here = t.here ∧
      t'.files = (t.setFile t.freshId ⟨bytes, none, t.now⟩).files := by
  rw [write?, writeImage?] at h
  cases hentry : t.entry? path with
  | none =>
    rw [hentry] at h
    obtain ⟨place, hplace, hrest⟩ := Option.bind_eq_some_iff.1 h
    refine .inr ⟨place, hplace, ?_⟩
    split at hrest
    · exact absurd hrest (by simp)
    · next hhold =>
      obtain rfl := Option.some.inj hrest
      refine ⟨?_, rfl, rfl, rfl⟩
      rwa [eq_entryAt?, hplace] at hentry
  | some e =>
    rw [hentry] at h
    cases e with
    | directory => exact absurd h (by simp)
    | file id =>
      obtain rfl := Option.some.inj h
      exact .inl ⟨id, rfl, rfl, rfl, rfl⟩

theorem entryAt?_append {place : Place} {e : Entry}
    (hentries : t'.entries = t.entries ++ [(place, e)]) (hfree : t.entryAt? place = none)
    (at' : Place) : t'.entryAt? at' = if at' = place then some e else t.entryAt? at' := by
  have hne : place ≠ [] := by
    rintro rfl
    exact absurd hfree (by simp [entryAt?])
  by_cases hp : at' = place
  · subst hp
    have hlookup : t.entries.lookup at' = none := by simpa [entryAt?, hne] using hfree
    simp [entryAt?, hne, hentries, List.lookup_append, hlookup]
  · have hone : List.lookup at' [(place, e)] = none := by
      rw [List.lookup_cons, beq_eq_false_iff_ne.2 hp]
      rfl
    rw [if_neg hp, entryAt?, entryAt?, hentries, List.lookup_append, hone, Option.or_none]

theorem entryAt?_of_entries (h : t'.entries = t.entries) : t'.entryAt? = t.entryAt? := by
  funext place
  rw [entryAt?, entryAt?, h]

/-- Writing a file leads no path elsewhere. -/
theorem placeOf?_write (h : t.write? path bytes = some t') (other : String) :
    t'.placeOf? other = t.placeOf? other := by
  rcases write?_cases h with ⟨id, -, hentries, hhere, -⟩ | ⟨place, -, hfree, hentries, hhere, -⟩
  · exact placeOf?_of_directories hhere (fun at' => by rw [entryAt?_of_entries hentries]) other
  · refine placeOf?_of_directories hhere (fun at' => ?_) other
    rw [entryAt?_append hentries hfree]
    split
    · next hp => simp [hp, hfree]
    · rfl

/-! ## Entries and bytes -/

/-- A path leads to the same entry as before, unless it leads to the place that was written. -/
theorem entry?_write_of_ne (h : t.write? path bytes = some t')
    (hne : t.placeOf? other ≠ t.placeOf? path) : t'.entry? other = t.entry? other := by
  rw [eq_entryAt?, eq_entryAt?, placeOf?_write h]
  rcases write?_cases h with ⟨id, -, hentries, -, -⟩ | ⟨place, hplace, hfree, hentries, -, -⟩
  · rw [entryAt?_of_entries hentries]
  · cases hother : t.placeOf? other with
    | none => rfl
    | some at' =>
      have hp : at' ≠ place := by
        rintro rfl
        exact hne (hother.trans hplace.symm)
      rw [Option.bind_some, Option.bind_some, entryAt?_append hentries hfree, if_neg hp]

/-- Writing a file makes no directory and takes none away. -/
theorem isDirectory_write (h : t.write? path bytes = some t') : t'.isDirectory = t.isDirectory := by
  funext other
  rw [isDirectory, isDirectory, eq_entryAt?, eq_entryAt?, placeOf?_write h]
  rcases write?_cases h with ⟨id, -, hentries, -, -⟩ | ⟨place, -, hfree, hentries, -, -⟩
  · rw [entryAt?_of_entries hentries]
  · cases t.placeOf? other with
    | none => rfl
    | some at' =>
      rw [Option.bind_some, Option.bind_some, entryAt?_append hentries hfree]
      split
      · next hp =>
        rw [hp, hfree]
        rfl
      · rfl

theorem entry?_write_of_some (h : t.write? path bytes = some t') {e : Entry}
    (he : t.entry? other = some e) : t'.entry? other = some e := by
  rw [eq_entryAt?, placeOf?_write h]
  rcases write?_cases h with ⟨id, -, hentries, -, -⟩ | ⟨place, -, hfree, hentries, -, -⟩
  · rw [← he, eq_entryAt?, entryAt?_of_entries hentries]
  · obtain ⟨at', hplace, hat⟩ := Option.bind_eq_some_iff.1 he
    have hp : at' ≠ place := by
      rintro rfl
      exact absurd (hat.symm.trans hfree) (by simp)
    rw [hplace, Option.bind_some, entryAt?_append hentries hfree, if_neg hp, hat]

/-- The file that a path leads to after writing. -/
theorem exists_file_write (h : t.write? path bytes = some t') :
    ∃ id, t'.entry? path = some (.file id) ∧ (t.entry? path = some (.file id) ∨ id = t.freshId) ∧
      t'.files = (t.setFile id ⟨bytes, none, t.now⟩).files := by
  rcases write?_cases h with ⟨id, hid, -, -, hfiles⟩ | ⟨place, hplace, hfree, hentries, -, hfiles⟩
  · exact ⟨id, entry?_write_of_some h hid, .inl hid, hfiles⟩
  · refine ⟨t.freshId, ?_, .inr rfl, hfiles⟩
    rw [eq_entryAt?, placeOf?_write h, hplace, Option.bind_some, entryAt?_append hentries hfree,
      if_pos rfl]

theorem bytes?_eq_some {b : ByteArray} : t.bytes? path = some b ↔
    ∃ id f, t.entry? path = some (.file id) ∧ t.files.lookup id = some f ∧ f.bytes = b := by
  rw [bytes?, fileAt?]
  cases t.entry? path with
  | none => simp
  | some e => cases e <;> simp

/-- A file reads back what was written. -/
theorem bytes?_write (h : t.write? path bytes = some t') : t'.bytes? path = some bytes := by
  obtain ⟨id, hid, -, hfiles⟩ := exists_file_write h
  exact bytes?_eq_some.2 ⟨id, _, hid, by rw [hfiles, lookup_setFile, if_pos rfl], rfl⟩

/-- What is there keeps its bytes when a file is written, or they are those written. -/
theorem bytes?_write_cases (h : t.write? path bytes = some t') (hexists : t.exists? other = true) :
    t'.bytes? other = t.bytes? other ∨ t'.bytes? other = some bytes := by
  obtain ⟨e, he⟩ := Option.isSome_iff_exists.1 hexists
  have he' := entry?_write_of_some h he
  obtain ⟨id, -, -, hfiles⟩ := exists_file_write h
  rw [bytes?, bytes?, fileAt?, fileAt?, he, he']
  cases e with
  | directory => exact .inl rfl
  | file other =>
    dsimp only
    rw [hfiles, lookup_setFile]
    split
    · exact .inr rfl
    · exact .inl rfl

/-- A file that was not written keeps its bytes. -/
theorem bytes?_write_of_ne (h : t.write? path bytes = some t') (hb : t.bytes? other = some b)
    (hne : t.entry? other ≠ t.entry? path) : t'.bytes? other = some b := by
  obtain ⟨id', f, hid', hf, hbytes⟩ := bytes?_eq_some.1 hb
  obtain ⟨id, -, hid, hfiles⟩ := exists_file_write h
  refine bytes?_eq_some.2 ⟨id', f, entry?_write_of_some h hid', ?_, hbytes⟩
  have hother : id' ≠ id := by
    rintro rfl
    rcases hid with hid | rfl
    · exact hne (hid'.trans hid.symm)
    · exact ne_freshId hf rfl
  rw [hfiles, lookup_setFile, if_neg hother, hf]

/-! ## Texts -/

theorem exists?_iff : t.exists? path = true ↔ ∃ e, t.entry? path = some e :=
  Option.isSome_iff_exists

theorem exists?_of_bytes? (h : t.bytes? path = some b) : t.exists? path = true := by
  obtain ⟨id, -, hid, -⟩ := bytes?_eq_some.1 h
  exact exists?_iff.2 ⟨_, hid⟩

theorem exists_bytes?_of_readText {text : String} (h : t.readText path = .ok text) :
    ∃ b, t.bytes? path = some b ∧ Text.textOf? b = some text := by
  unfold readText at h
  split at h
  · exact absurd h (by simp)
  · exact absurd h (by simp)
  · split at h
    · next text' htext =>
      obtain rfl := Except.ok.inj h
      exact Option.bind_eq_some_iff.1 htext
    · exact absurd h (by simp)

theorem readText_of_bytes? {text : String} (hb : t.bytes? path = some b)
    (htext : Text.textOf? b = some text) : t.readText path = .ok text := by
  obtain ⟨id, -, hid, -⟩ := bytes?_eq_some.1 hb
  rw [readText, hid]
  dsimp only
  rw [hb, Option.bind_some, htext]

theorem modified?_of_not_exists (h : t.exists? path = false) : t.modified? path = none := by
  rw [exists?, Option.isSome_eq_false_iff, Option.isNone_iff_eq_none, eq_entryAt?] at h
  rw [modified?]
  cases hplace : t.placeOf? path with
  | none => rfl
  | some place =>
    rw [hplace, Option.bind_some] at h
    simp [h]

theorem isSome_modified? (h : t.bytes? path = some b) : ∃ time, t.modified? path = some time := by
  obtain ⟨id, f, hid, hf, -⟩ := bytes?_eq_some.1 h
  obtain ⟨place, hplace, hat⟩ := Option.bind_eq_some_iff.1 hid
  refine ⟨f.modified, ?_⟩
  simp [modified?, hplace, hat, hf]

/-- A path that leads to something can be passed to the system. -/
theorem isPath_of_exists? (h : t.exists? path = true) : isPath path.toList = true := by
  cases hpath : isPath path.toList with
  | true => rfl
  | false => simp [exists?, entry?, placeOf?, hpath] at h

end LiveC.FileTree
