import LiveC.Proofs.Files.Path
import LiveC.Proofs.Files.Tree
/-!
# Objects beside their sources

A path that leads to a place and ends in a name leads to that name (`getLast?_walk`). The object
that is kept for a source is another file for that reason (`placeOf?_tagged_ne`): its name ends in
`.o`, which a source's does not. When a file is removed, the other paths lead where they did
(`placeOf?_remove`), and the other files stay what they were (`readText_remove`). A file that has
one name among some paths keeps to it when files are written (`Single.write`).
-/

namespace LiveC.FileTree

open LiveC.Path

variable {t t' : FileTree} {path other : String} {p q : Place} {ns : List (List Char)}
  {name file : List Char}

/-! ## Walks -/

theorem walk?_append (t : FileTree) (p : Place) (ns ms : List (List Char)) :
    t.walk? p (ns ++ ms) = (t.walk? p ns).bind fun q => t.walk? q ms := by
  induction ns generalizing p with
  | nil => rfl
  | cons n ns ih =>
    simp only [List.cons_append, walk?]
    cases t.stepTo? p n with
    | none => rfl
    | some p' => exact ih p'

/-- A walk goes on from directories only. -/
theorem directory_of_stepTo? (h : t.stepTo? p name = some q) : t.entryAt? p = some .directory := by
  unfold stepTo? at h
  split at h
  · exact absurd h (by simp)
  · next hp => simpa using hp

theorem directory_of_walk? (h : t.walk? p ns = some q) (hne : ns ≠ []) :
    t.entryAt? p = some .directory := by
  cases ns with
  | nil => exact absurd rfl hne
  | cons n ns =>
    obtain ⟨p', hstep, -⟩ := Option.bind_eq_some_iff.1 h
    exact directory_of_stepTo? hstep

/-- A step along a name that leads somewhere goes below the place. -/
theorem stepTo?_of_leads (h : t.stepTo? p name = some q) (hleads : leads name = true)
    (hup : name ≠ ['.', '.']) : q = p ++ [name] := by
  have hidle : isIdle name = false := by simpa [leads] using hleads
  have hup' : (name == ['.', '.']) = false := beq_eq_false_iff_ne.2 hup
  unfold stepTo? at h
  rw [hidle, hup'] at h
  split at h
  · exact absurd h (by simp)
  · exact (Option.some.inj h).symm

/-- A walk along idle names stays where it is. -/
theorem walk?_of_idle (h : t.walk? p ns = some q) (hidle : ns.filter leads = []) : q = p := by
  induction ns generalizing p with
  | nil => exact (Option.some.inj h).symm
  | cons n ns ih =>
    obtain ⟨p', hstep, hrest⟩ := Option.bind_eq_some_iff.1 h
    have hn : isIdle n = true := by
      by_contra hn
      rw [List.filter_cons_of_pos (by simpa [leads] using hn)] at hidle
      exact absurd hidle (by simp)
    have hp : p' = p := by
      unfold stepTo? at hstep
      rw [hn] at hstep
      split at hstep
      · exact absurd hstep (by simp)
      · exact (Option.some.inj hstep).symm
    rw [List.filter_cons_of_neg (by simp [leads, hn])] at hidle
    exact (ih hrest hidle).trans hp

/-- A walk leads to the last name that leads somewhere. -/
theorem getLast?_walk (h : t.walk? p ns = some q) (hlast : (ns.filter leads).getLast? = some name)
    (hup : name ≠ ['.', '.']) : q.getLast? = some name := by
  induction ns generalizing p with
  | nil => exact absurd hlast (by simp)
  | cons n ns ih =>
    obtain ⟨p', hstep, hrest⟩ := Option.bind_eq_some_iff.1 h
    by_cases hnil : ns.filter leads = []
    · obtain rfl := walk?_of_idle hrest hnil
      have hn : leads n = true := by
        by_contra hn
        rw [List.filter_cons_of_neg hn, hnil] at hlast
        exact absurd hlast (by simp)
      rw [List.filter_cons_of_pos hn, hnil] at hlast
      obtain rfl : n = name := by simpa using hlast
      rw [stepTo?_of_leads hstep hn hup, List.getLast?_concat]
    · refine ih hrest ?_
      rw [← hlast, List.filter_cons]
      split
      · rw [List.getLast?_cons_of_ne_nil hnil]
      · rfl

/-! ## Places -/

/-- The place that the walk along a path starts from. -/
def start (t : FileTree) (path : List Char) : Place := if isRooted path then [] else t.here

theorem placeOf?_eq_some (h : t.placeOf? path = some p) : path.toList ≠ [] ∧
    t.walk? (t.start path.toList) (Text.splitAll '/' path.toList) = some p := by
  have hpath : (if isPath path.toList then
      t.walk? (t.start path.toList) (Text.splitAll '/' path.toList) else none) = some p := h
  split at hpath
  · next hvalid =>
    refine ⟨fun hnil => ?_, hpath⟩
    rw [hnil] at hvalid
    exact absurd hvalid (by decide)
  · exact absurd hpath (by simp)

/-- A path that ends in a name leads to that name. -/
theorem getLast?_placeOf? (h : t.placeOf? path = some p)
    (hfile : fileName? path.toList = some file) : p.getLast? = some file := by
  obtain ⟨rest, hback, hleads⟩ := namesBack_of_fileName? hfile
  refine getLast?_walk (placeOf?_eq_some h).2 ?_ ?_
  · have hnames := names_eq_namesBack path.toList
    rw [hback, List.filter_cons_of_pos hleads, List.reverse_cons] at hnames
    rw [← names, hnames, List.getLast?_concat]
  · rintro rfl
    rw [fileName?, hback] at hfile
    exact absurd hfile (by simp)

/-- A path below another leads below a directory. -/
theorem directory_of_join {path below : String} (hjoin : below.toList = join path.toList name)
    (hpath : t.placeOf? path = some p) (hbelow : t.placeOf? below = some q) :
    t.entryAt? p = some .directory := by
  obtain ⟨hne, hwalk⟩ := placeOf?_eq_some hpath
  obtain ⟨-, hwalk'⟩ := placeOf?_eq_some hbelow
  by_cases hslash : path.toList.getLast? = some '/'
  · -- the walk along the path itself ends with an idle name
    obtain ⟨r, hr⟩ := List.getLast?_eq_some_iff.1 hslash
    rw [hr, Text.splitAll_append_cons (beq_self_eq_true '/'), walk?_append] at hwalk
    obtain ⟨p', -, hlast⟩ := Option.bind_eq_some_iff.1 hwalk
    have hp : p = p' := walk?_of_idle hlast rfl
    rw [hp]
    exact directory_of_walk? hlast (by simp [Text.splitAll])
  · obtain ⟨r, hr, hrest⟩ := join_eq hne name
    obtain ⟨s, rfl⟩ := hrest.resolve_left hslash
    have hrooted : isRooted (path.toList ++ '/' :: s) = isRooted path.toList := by
      obtain ⟨c, l, hcons⟩ := List.exists_cons_of_ne_nil hne
      rw [hcons]
      rfl
    rw [hjoin, hr, start, hrooted, ← start, Text.splitAll_append_cons (beq_self_eq_true '/'),
      walk?_append, hwalk] at hwalk'
    exact directory_of_walk? hwalk' (Text.splitAll_ne_nil '/' s)

/-! ## The object of a source -/

theorem splitName_objectName (stem : List Char) (arch : String) :
    splitName (objectName stem arch) = (stem ++ '.' :: arch.toList, some ['o']) := by
  have hsplit : Text.splitLast? '.' (objectName stem arch) =
      some (stem ++ '.' :: arch.toList, ['o']) := by
    simp [objectName, Text.splitLast?, List.span_eq_takeWhile_dropWhile]
  rw [splitName, hsplit]
  simp

/-- The last name of the object of a source. -/
theorem fileName?_tagged {arch : String} {stem : List Char} (hstem : stem? path.toList = some stem)
    (harch : '/' ∉ arch.toList) (hplace : t.placeOf? (tagged path arch) = some p) :
    p.getLast? = some (objectName stem arch) := by
  obtain ⟨-, hne, hslash⟩ := stem?_spec hstem
  have hnames : names (objectName stem arch) = [objectName stem arch] := by
    rw [names, Text.splitAll_of_notMem (by simp [objectName, hslash, harch])]
    obtain ⟨c, s, rfl⟩ := List.exists_cons_of_ne_nil hne
    exact List.filter_cons_of_pos (by simp [leads, isIdle, objectName])
  have hboth : components (tagged path arch).toList = _ := components_tagged hstem
  have hcomponents := (Prod.mk.inj hboth).2
  refine getLast?_walk (placeOf?_eq_some hplace).2 ?_ ?_
  · rw [← names, hcomponents, hnames, List.getLast?_concat]
  · intro h
    have hlength := congrArg List.length h
    have hpos := List.length_pos_iff.2 hne
    simp only [objectName, List.length_append, List.length_cons, List.length_nil] at hlength
    omega

/-- No source leads to the place of an object: it would end in `.o`. -/
theorem placeOf?_source_ne {arch source : String} {stem : List Char}
    (hstem : stem? path.toList = some stem) (harch : '/' ∉ arch.toList)
    (hplace : t.placeOf? (tagged path arch) = some p) (hsource : isObject source = false)
    (hname : fileName? source.toList = some file) : t.placeOf? source ≠ some p := by
  intro hpath
  have hlast := getLast?_placeOf? hpath hname
  rw [fileName?_tagged hstem harch hplace] at hlast
  have hextension : extension? source.toList = some ['o'] := by
    rw [extension?, hname, Option.bind_some, ← Option.some.inj hlast, splitName_objectName]
  rw [isObject, hextension] at hsource
  exact absurd hsource (by decide)

/-- **An object is another file than its source.** -/
theorem placeOf?_tagged_ne {arch : String} {id : Nat} (hsource : isObject path = false)
    (harch : '/' ∉ arch.toList) (hplace : t.placeOf? (tagged path arch) = some p)
    (hfile : t.entryAt? p = some (.file id)) : t.placeOf? path ≠ some p := by
  cases hname : fileName? path.toList with
  | none =>
    intro hpath
    have hjoin : (tagged path arch).toList =
        join path.toList (objectName ((stem? path.toList).getD []) arch) := by
      rw [tagged, String.toList_ofList, withFileName, hname]
      rfl
    have hdirectory := directory_of_join hjoin hpath hplace
    exact absurd (hfile.symm.trans hdirectory) (by simp)
  | some file =>
    have hstem : stem? path.toList = some (splitName file).1 := by rw [stem?, hname]; rfl
    exact placeOf?_source_ne hstem harch hplace hsource hname

/-- The objects of sources with different stems lie at different places. -/
theorem placeOf?_tagged_ne_of_stem {arch : String} {stem stem' : List Char}
    (hstem : stem? path.toList = some stem) (hstem' : stem? other.toList = some stem')
    (hne : stem ≠ stem') (harch : '/' ∉ arch.toList)
    (hplace : t.placeOf? (tagged path arch) = some p) :
    t.placeOf? (tagged other arch) ≠ some p := by
  intro hplace'
  have hlast := fileName?_tagged hstem harch hplace
  rw [fileName?_tagged hstem' harch hplace', objectName, objectName, List.append_assoc,
    List.append_assoc] at hlast
  exact hne (List.append_cancel_right (Option.some.inj hlast)).symm

/-! ## Removing a file -/

/-- What removing a file does. -/
theorem remove?_cases (h : t.remove? path = some t') : ∃ p id, t.placeOf? path = some p ∧
    t.entryAt? p = some (.file id) ∧ t' = t.dropEntry p := by
  obtain ⟨p, hplace, hrest⟩ := Option.bind_eq_some_iff.1 h
  split at hrest
  · next id hfile => exact ⟨p, id, hplace, hfile, (Option.some.inj hrest).symm⟩
  · exact absurd hrest (by simp)

theorem entryAt?_dropEntry (t : FileTree) (hp : p ≠ []) (q : Place) :
    (t.dropEntry p).entryAt? q = if q = p then none else t.entryAt? q := by
  have hfilter (l : List (Place × Entry)) : (l.filter (·.1 != p)).lookup q =
      if q = p then none else l.lookup q := by
    induction l with
    | nil => simp
    | cons x l ih =>
      obtain ⟨r, e⟩ := x
      by_cases hr : r = p
      · rw [List.filter_cons_of_neg (by simp [hr]), ih, List.lookup_cons, hr]
        by_cases hq : q = p
        · simp [hq]
        · rw [if_neg hq, if_neg hq, beq_eq_false_iff_ne.2 hq]
      · rw [List.filter_cons_of_pos (by simpa using hr), List.lookup_cons, List.lookup_cons, ih]
        by_cases hq : q = p
        · subst hq
          simp [beq_eq_false_iff_ne.2 (Ne.symm hr)]
        · simp [hq]
  have hentries : (t.dropEntry p).entries = t.entries.filter (·.1 != p) := rfl
  rw [entryAt?, entryAt?, hentries, hfilter]
  by_cases hq : q = []
  · subst hq
    simp [Ne.symm hp]
  · simp [hq]

/-- Removing a file leads no path elsewhere. -/
theorem placeOf?_remove (h : t.remove? path = some t') (other : String) :
    t'.placeOf? other = t.placeOf? other := by
  obtain ⟨p, id, -, hfile, rfl⟩ := remove?_cases h
  have hp : p ≠ [] := by
    rintro rfl
    exact absurd hfile (by simp [entryAt?])
  have hhere : (t.dropEntry p).here = t.here := rfl
  refine placeOf?_of_directories hhere (fun q => ?_) other
  rw [entryAt?_dropEntry t hp]
  split
  · next hq => simp [hq, hfile]
  · rfl

/-- A path leads to what it led to, unless that was removed. -/
theorem entry?_remove (h : t.remove? path = some t') (other : String) :
    t'.entry? other = if t.placeOf? other = t.placeOf? path then none else t.entry? other := by
  have hplace' := placeOf?_remove h other
  obtain ⟨p, id, hplace, hfile, rfl⟩ := remove?_cases h
  have hp : p ≠ [] := by
    rintro rfl
    exact absurd hfile (by simp [entryAt?])
  rw [eq_entryAt?, eq_entryAt?, hplace', hplace]
  cases hother : t.placeOf? other with
  | none => simp
  | some q => simp [entryAt?_dropEntry t hp]

theorem exists?_remove (h : t.remove? path = some t') : t'.exists? path = false := by
  rw [exists?, entry?_remove h, if_pos rfl]
  rfl

/-- A file that was not removed is what it was. -/
theorem readText_remove (h : t.remove? path = some t') (hne : t.placeOf? other ≠ t.placeOf? path) :
    t'.exists? other = t.exists? other ∧ t'.readText other = t.readText other := by
  have hentry := entry?_remove h other
  rw [if_neg hne] at hentry
  have hfiles : t'.files = t.files := by
    obtain ⟨p, id, -, -, rfl⟩ := remove?_cases h
    rfl
  constructor
  · rw [exists?, exists?, hentry]
  · simp only [readText, bytes?, fileAt?, hentry, hfiles]

/-! ## Files with one name -/

/-- No file goes by two of some paths: those that lead to one file lead to one place. -/
def Single (t : FileTree) (paths : List String) : Prop :=
  ∀ x ∈ paths, ∀ y ∈ paths, ∀ id, t.entry? x = some (.file id) → t.entry? y = some (.file id) →
    t.placeOf? x = t.placeOf? y

/-- What a path leads to after writing: a new file, if it leads to where that was put. -/
theorem entry?_write {bytes : ByteArray} (h : t.write? path bytes = some t') (other : String) :
    t'.entry? other = t.entry? other ∨
      t.placeOf? other = t.placeOf? path ∧ t'.entry? other = some (.file t.freshId) := by
  by_cases hplace : t.placeOf? other = t.placeOf? path
  · have hsame : ∀ t : FileTree, t.placeOf? other = t.placeOf? path →
        t.entry? other = t.entry? path :=
      fun t h => by rw [eq_entryAt?, eq_entryAt?, h]
    obtain ⟨id, hid, hold, -⟩ := exists_file_write h
    have hid' : t'.entry? other = some (.file id) :=
      (hsame t' (by rw [placeOf?_write h, placeOf?_write h, hplace])).trans hid
    rcases hold with hold | rfl
    · exact .inl (hid'.trans (hold.symm.trans (hsame t hplace).symm))
    · exact .inr ⟨hplace, hid'⟩
  · exact .inl (entry?_write_of_ne h hplace)

/-- Writing a file gives no file a second name. -/
theorem Single.write {paths : List String} {bytes : ByteArray} (h : t.Single paths)
    (hbytes : ∀ x ∈ paths, t.exists? x = true → ∃ b, t.bytes? x = some b)
    (hwrite : t.write? path bytes = some t') : t'.Single paths := by
  -- a file that was there before is not the new one
  have hold {x : String} (hx : x ∈ paths) (hnew : t.entry? x = some (.file t.freshId)) : False := by
    obtain ⟨b, hb⟩ := hbytes x hx (exists?_iff.2 ⟨_, hnew⟩)
    obtain ⟨id, f, hid, hf, -⟩ := bytes?_eq_some.1 hb
    obtain rfl := Entry.file.inj (Option.some.inj (hnew.symm.trans hid))
    exact ne_freshId hf rfl
  intro x hx y hy id hxid hyid
  rw [placeOf?_write hwrite, placeOf?_write hwrite]
  rcases entry?_write hwrite x with hxsame | ⟨hxplace, hxnew⟩
  · rw [hxsame] at hxid
    rcases entry?_write hwrite y with hysame | ⟨hyplace, hynew⟩
    · exact h x hx y hy id hxid (hysame ▸ hyid)
    · obtain rfl := Entry.file.inj (Option.some.inj (hyid.symm.trans hynew))
      exact (hold hx hxid).elim
  · obtain rfl := Entry.file.inj (Option.some.inj (hxid.symm.trans hxnew))
    rcases entry?_write hwrite y with hysame | ⟨hyplace, hynew⟩
    · exact (hold hy (hysame ▸ hyid)).elim
    · exact hxplace.trans hyplace.symm

end LiveC.FileTree
