import LiveC.Files.Path
import LiveC.Proofs.Text.Lines
import LiveC.Proofs.Text.Search
import Mathlib.Data.List.TakeDrop
/-!
# The names of a path

Two texts are the same path when they have the same `components`: the anchor, and the names that
lead somewhere. Joining two paths puts their names behind each other (`names_join`), so that a path
with another last name has the directory of the old one (`components_withFileName`). The object that
stands beside a path is therefore that of another path exactly when both lie in the same directory
and have the same stem (`components_tagged_eq_iff`).
-/

namespace LiveC

namespace Text

variable {mark : Char} {s p : List Char} {ps : List (List Char)}

/-- The first piece is the text up to the first mark. -/
theorem eq_of_splitAll_eq_cons (h : splitAll mark s = p :: ps) :
    s = p ∨ ∃ r, s = p ++ mark :: r := by
  induction s generalizing p ps with
  | nil => exact .inl (List.cons.inj h).1
  | cons d s ih =>
    obtain ⟨q, qs, hs⟩ := List.exists_cons_of_ne_nil (splitAll_ne_nil mark s)
    cases hd : d == mark with
    | true =>
      rw [splitAll_cons_of_eq hd] at h
      obtain rfl := (List.cons.inj h).1
      obtain rfl := beq_iff_eq.1 hd
      exact .inr ⟨s, rfl⟩
    | false =>
      rw [splitAll_cons_of_ne hd hs] at h
      obtain ⟨rfl, -⟩ := List.cons.inj h
      rcases ih hs with rfl | ⟨r, rfl⟩
      · exact .inl rfl
      · exact .inr ⟨r, rfl⟩

/-- Pieces that are put together with marks between them are split again. -/
theorem splitAll_intercalate (h : ∀ p ∈ ps, mark ∉ p) (hne : ps ≠ []) :
    splitAll mark ([mark].intercalate ps) = ps := by
  induction ps with
  | nil => exact absurd rfl hne
  | cons p ps ih =>
    cases ps with
    | nil => simpa using splitAll_of_notMem (h p (by simp))
    | cons q qs =>
      have hrest := ih (fun r hr => h r (by simp [hr])) (by simp)
      have hjoin : [mark].intercalate (p :: q :: qs) =
          p ++ mark :: [mark].intercalate (q :: qs) := by
        simp [List.intercalate]
      rw [hjoin, splitAll_append_cons (beq_self_eq_true mark), hrest,
        splitAll_of_notMem (h p (by simp))]
      rfl

end Text

namespace Path

open Text

/-- Whether a name leads somewhere. -/
def leads (name : List Char) : Bool := !isIdle name

/-- The names of a path that lead somewhere. -/
def names (path : List Char) : List (List Char) := (splitAll '/' path).filter leads

/-- What a path is made of: its anchor and its names. -/
def components (path : List Char) : List Char × List (List Char) := (anchor path, names path)

/-- What the directory of a path is made of. -/
def directory (path : List Char) : List Char × List (List Char) :=
  (anchor path, (names path).dropLast)

variable {path p q name file : List Char}

/-! ## Names -/

@[simp] theorem names_nil : names [] = [] := rfl

theorem names_append_slash (p q : List Char) : names (p ++ '/' :: q) = names p ++ names q := by
  rw [names, splitAll_append_cons (by decide), List.filter_append]
  rfl

@[simp] theorem names_slash (q : List Char) : names ('/' :: q) = names q := names_append_slash [] q

theorem names_intercalate {ps : List (List Char)} (h : ∀ p ∈ ps, '/' ∉ p) :
    names (['/'].intercalate ps) = ps.filter leads := by
  cases ps with
  | nil => rfl
  | cons p ps => rw [names, splitAll_intercalate h (by simp)]

theorem filter_leads_dropWhile (l : List (List Char)) :
    (l.dropWhile isIdle).filter leads = l.filter leads := by
  induction l with
  | nil => rfl
  | cons n l ih =>
    cases hn : isIdle n with
    | true => rw [List.dropWhile_cons_of_pos hn, ih, List.filter_cons_of_neg (by simp [leads, hn])]
    | false => rw [List.dropWhile_cons_of_neg (by simp [hn])]

/-! ## Anchors -/

theorem anchor_cases (path : List Char) :
    (∃ r, path = '/' :: r ∧ anchor path = ['/']) ∨ (path = ['.'] ∧ anchor path = ['.']) ∨
    (∃ r, path = '.' :: '/' :: r ∧ anchor path = ['.']) ∨
    isRooted path = false ∧ startsHere path = false ∧ anchor path = [] := by
  cases path with
  | nil => exact .inr (.inr (.inr ⟨rfl, rfl, rfl⟩))
  | cons c r =>
    by_cases hslash : c = '/'
    · subst hslash
      exact .inl ⟨r, rfl, rfl⟩
    have hrooted : isRooted (c :: r) = false := by simpa [isRooted] using hslash
    by_cases hdot : c = '.'
    · subst hdot
      cases r with
      | nil => exact .inr (.inl ⟨rfl, rfl⟩)
      | cons d r =>
        by_cases hd : d = '/'
        · subst hd
          exact .inr (.inr (.inl ⟨r, rfl, rfl⟩))
        · have hhere : startsHere ('.' :: d :: r) = false := by
            unfold startsHere
            split
            · simp_all
            · simp_all
            · rfl
          exact .inr (.inr (.inr ⟨hrooted, hhere, by rw [anchor, hrooted, hhere]; rfl⟩))
    · have hhere : startsHere (c :: r) = false := by
        unfold startsHere
        split
        · simp_all
        · simp_all
        · rfl
      exact .inr (.inr (.inr ⟨hrooted, hhere, by rw [anchor, hrooted, hhere]; rfl⟩))

/-- The names of a path stand behind its anchor. -/
theorem names_eq (path : List Char) :
    names path = (splitAll '/' (path.drop (anchor path).length)).filter leads := by
  rcases anchor_cases path with ⟨r, rfl, ha⟩ | ⟨rfl, ha⟩ | ⟨r, rfl, ha⟩ | ⟨-, -, ha⟩
  · rw [ha]
    exact names_slash r
  · rw [ha]
    rfl
  · rw [ha]
    exact (names_append_slash ['.'] r).trans (names_slash r).symm
  · rw [ha]
    rfl

theorem names_eq_namesBack (path : List Char) :
    names path = ((namesBack path).filter leads).reverse := by
  rw [namesBack, filter_leads_dropWhile, List.filter_reverse, List.reverse_reverse, names_eq]

theorem namesBack_of_fileName? (h : fileName? path = some file) :
    ∃ rest, namesBack path = file :: rest ∧ leads file = true := by
  unfold fileName? at h
  split at h
  · exact absurd h (by simp)
  · next name rest heq =>
    split at h
    · exact absurd h (by simp)
    · obtain rfl := Option.some.inj h
      refine ⟨rest, heq, ?_⟩
      have hhead := List.head?_dropWhile_not isIdle
        (splitAll '/' (path.drop (anchor path).length)).reverse
      rw [← namesBack, heq] at hhead
      simpa [leads] using hhead

/-! ## The directory of a path -/

/-- The names before the last one, without idle ones at their end. -/
def above (path : List Char) : List (List Char) := ((namesBack path).tail.dropWhile isIdle).reverse

theorem filter_above (h : fileName? path = some file) :
    (above path).filter leads = (names path).dropLast := by
  obtain ⟨rest, hback, hleads⟩ := namesBack_of_fileName? h
  rw [above, names_eq_namesBack, hback, List.filter_reverse, List.tail_cons,
    filter_leads_dropWhile, List.filter_cons_of_pos hleads, List.reverse_cons,
    List.dropLast_concat]

/-- What is above starts as the path does. -/
theorem above_isStart (path : List Char) :
    above path <+: splitAll '/' (path.drop (anchor path).length) := by
  rw [above, ← List.reverse_suffix, List.reverse_reverse]
  have hback : namesBack path <:+ (splitAll '/' (path.drop (anchor path).length)).reverse :=
    List.dropWhile_suffix _
  exact ((List.dropWhile_suffix _).trans (List.tail_suffix _)).trans hback

theorem notMem_of_mem_above {n : List Char} (hn : n ∈ above path) : '/' ∉ n :=
  not_mem_of_mem_splitAll ((above_isStart path).subset hn)

theorem eq_of_above_eq_cons {n : List Char} {rest : List (List Char)} (h : above path = n :: rest) :
    path.drop (anchor path).length = n ∨ ∃ r, path.drop (anchor path).length = n ++ '/' :: r := by
  obtain ⟨more, hmore⟩ := above_isStart path
  rw [h] at hmore
  exact eq_of_splitAll_eq_cons hmore.symm

theorem intercalate_cons (n : List Char) (rest : List (List Char)) :
    ['/'].intercalate (n :: rest) = n ∨ ∃ r, ['/'].intercalate (n :: rest) = n ++ '/' :: r := by
  cases rest with
  | nil => exact .inl (by simp [List.intercalate])
  | cons m rest => exact .inr ⟨['/'].intercalate (m :: rest), by simp [List.intercalate]⟩

/-- A path whose first name is neither empty nor a single dot has no anchor. -/
theorem anchor_of_first {n : List Char} (hne : n ≠ []) (hdot : n ≠ ['.']) (hslash : '/' ∉ n)
    (hp : p = n ∨ ∃ r, p = n ++ '/' :: r) : anchor p = [] := by
  obtain ⟨c, m, rfl⟩ := List.exists_cons_of_ne_nil hne
  have hc : c ≠ '/' := fun e => hslash (by simp [e])
  rcases anchor_cases p with ⟨r, hr, -⟩ | ⟨hr, -⟩ | ⟨r, hr, -⟩ | ⟨-, -, ha⟩
  · rcases hp with rfl | ⟨s, rfl⟩
    · exact absurd (List.cons.inj hr).1 hc
    · exact absurd (List.cons.inj hr).1 hc
  · rcases hp with rfl | ⟨s, rfl⟩
    · exact absurd hr hdot
    · exact absurd hr (by simp)
  · rcases hp with rfl | ⟨s, rfl⟩
    · exact absurd (by simp [hr]) hslash
    · cases m with
      | nil => exact absurd (congrArg (fun l => [l.headD 'x']) hr) (by simpa using hdot)
      | cons d m =>
        have hd := (List.cons.inj (List.cons.inj hr).2).1
        exact absurd (by simp [hd]) hslash
  · exact ha

/-- In a path that starts with a single dot, the first name above the last one is empty. -/
theorem nil_of_above_here {r n : List Char} {rest : List (List Char)}
    (h : above ('.' :: '/' :: r) = n :: rest) : n = [] := by
  have hslash : '/' ∉ n := notMem_of_mem_above (by rw [h]; simp)
  have hfirst : '/' :: r = n ∨ ∃ s, '/' :: r = n ++ '/' :: s := eq_of_above_eq_cons h
  cases n with
  | nil => rfl
  | cons c n =>
    rcases hfirst with he | ⟨s, he⟩
    · exact absurd (by simp [← (List.cons.inj he).1]) hslash
    · exact absurd (by simp [← (List.cons.inj he).1]) hslash

/-- In a path without an anchor, the first name above the last one is a proper one. -/
theorem ne_of_above_plain (h : fileName? path = some file) (hrooted : isRooted path = false)
    (hhere : startsHere path = false) (ha : anchor path = []) {n : List Char}
    {rest : List (List Char)} (habove : above path = n :: rest) : n ≠ [] ∧ n ≠ ['.'] := by
  have hfirst := eq_of_above_eq_cons habove
  rw [ha, List.length_nil, List.drop_zero] at hfirst
  constructor
  · rintro rfl
    rcases hfirst with rfl | ⟨s, rfl⟩
    · exact absurd h (by simp [fileName?, namesBack, anchor, isRooted, startsHere, isIdle])
    · exact absurd hrooted (by simp [isRooted])
  · rintro rfl
    rcases hfirst with rfl | ⟨s, rfl⟩
    · exact absurd hhere (by simp [startsHere])
    · exact absurd hhere (by simp [startsHere])

/-- The text before the last name. -/
theorem parent_eq (path : List Char) :
    parent path = anchor path ++ ['/'].intercalate (above path) := rfl

theorem names_parent (h : fileName? path = some file) :
    names (parent path) = (names path).dropLast := by
  have hnames : names (['/'].intercalate (above path)) = (names path).dropLast :=
    (names_intercalate fun n hn => notMem_of_mem_above hn).trans (filter_above h)
  rw [← hnames, parent_eq]
  rcases anchor_cases path with ⟨r, -, ha⟩ | ⟨rfl, -⟩ | ⟨r, rfl, ha⟩ | ⟨-, -, ha⟩
  · rw [ha]
    exact names_slash _
  · rfl
  · rw [ha]
    cases habove : above ('.' :: '/' :: r) with
    | nil => rfl
    | cons n rest =>
      obtain rfl := nil_of_above_here habove
      rcases intercalate_cons [] rest with he | ⟨s, he⟩
      · rw [he]
        rfl
      · rw [he]
        exact (names_append_slash ['.'] s).trans (names_slash s).symm
  · rw [ha]
    rfl

/-- The text before the last name has the anchor of the path, unless it is empty. -/
theorem anchor_parent (h : fileName? path = some file) (hne : parent path ≠ []) :
    anchor (parent path) = anchor path := by
  rw [parent_eq] at hne ⊢
  rcases anchor_cases path with ⟨r, -, ha⟩ | ⟨rfl, -⟩ | ⟨r, rfl, ha⟩ | ⟨hrooted, hhere, ha⟩
  · rw [ha]
    rfl
  · rfl
  · rw [ha]
    cases habove : above ('.' :: '/' :: r) with
    | nil => rfl
    | cons n rest =>
      obtain rfl := nil_of_above_here habove
      rcases intercalate_cons [] rest with he | ⟨s, he⟩
      · rw [he]
        rfl
      · rw [he]
        rfl
  · rw [ha, List.nil_append] at hne ⊢
    cases habove : above path with
    | nil => exact absurd (by rw [habove]; rfl) hne
    | cons n rest =>
      obtain ⟨hn, hdot⟩ := ne_of_above_plain h hrooted hhere ha habove
      exact anchor_of_first hn hdot (notMem_of_mem_above (by rw [habove]; simp))
        (intercalate_cons n rest)

theorem anchor_of_parent_nil (h : parent path = []) : anchor path = [] :=
  (List.append_eq_nil_iff.1 h).1

/-! ## Joining -/

/-- A path that is joined has the names of its parts. -/
theorem names_join (p q : List Char) : names (join p q) = names p ++ names q := by
  rw [join]
  split
  · next h =>
    obtain rfl := List.isEmpty_iff.1 h
    rfl
  · split
    · next h =>
      obtain ⟨r, rfl⟩ := List.getLast?_eq_some_iff.1 (beq_iff_eq.1 h)
      rw [List.append_assoc, List.singleton_append, names_append_slash, names_append_slash,
        names_nil, List.append_nil]
    · exact names_append_slash p q

/-- A path that is joined goes on with a slash behind its first part, or in it. -/
theorem join_eq (hp : p ≠ []) (q : List Char) :
    ∃ r, join p q = p ++ r ∧ (p.getLast? = some '/' ∨ ∃ s, r = '/' :: s) := by
  rw [join, if_neg (by simpa using hp)]
  split
  · next h => exact ⟨q, rfl, .inl (beq_iff_eq.1 h)⟩
  · exact ⟨'/' :: q, rfl, .inr ⟨q, rfl⟩⟩

/-- A path that is joined has the anchor of its first part, unless that is empty. -/
theorem anchor_join (hp : p ≠ []) (q : List Char) : anchor (join p q) = anchor p := by
  rcases anchor_cases p with ⟨r, rfl, -⟩ | ⟨rfl, -⟩ | ⟨r, rfl, -⟩ | ⟨hrooted, hhere, ha⟩
  · obtain ⟨s, hs, -⟩ := join_eq hp q
    rw [hs]
    rfl
  · rfl
  · obtain ⟨s, hs, -⟩ := join_eq hp q
    rw [hs]
    rfl
  · obtain ⟨n, ns, hsplit⟩ := List.exists_cons_of_ne_nil (splitAll_ne_nil '/' p)
    have hslash : '/' ∉ n := not_mem_of_mem_splitAll (hsplit ▸ List.mem_cons_self)
    obtain ⟨r, hr, hbreak⟩ := join_eq hp q
    rw [ha, hr]
    rcases eq_of_splitAll_eq_cons hsplit with rfl | ⟨s, rfl⟩
    · have hdot : p ≠ ['.'] := by
        rintro rfl
        exact absurd hhere (by simp [startsHere])
      refine anchor_of_first hp hdot hslash (.inr ?_)
      rcases hbreak with hlast | ⟨s, rfl⟩
      · exact absurd (List.mem_of_getLast? hlast) hslash
      · exact ⟨s, rfl⟩
    · have hn : n ≠ [] := by
        rintro rfl
        exact absurd hrooted (by simp [isRooted])
      have hdot : n ≠ ['.'] := by
        rintro rfl
        exact absurd hhere (by simp [startsHere])
      exact anchor_of_first hn hdot hslash (.inr ⟨s ++ r, by simp⟩)

/-- A path with another last name lies in the same directory. -/
theorem components_withFileName (h : fileName? path = some file) (hname : anchor name = []) :
    components (withFileName path name) =
      ((directory path).1, (directory path).2 ++ names name) := by
  have hisSome : (fileName? path).isSome = true := by rw [h]; rfl
  rw [withFileName, if_pos hisSome, components, names_join, names_parent h, directory]
  by_cases hp : parent path = []
  · rw [hp, anchor_of_parent_nil hp]
    simpa [join] using hname
  · rw [anchor_join hp, anchor_parent h hp]

/-! ## Objects beside sources -/

/-- The name of the object for a stem and an architecture. -/
def objectName (stem : List Char) (arch : String) : List Char :=
  stem ++ '.' :: arch.toList ++ ['.', 'o']

theorem notMem_of_fileName? (h : fileName? path = some file) : '/' ∉ file := by
  obtain ⟨rest, hback, -⟩ := namesBack_of_fileName? h
  have hsuffix : namesBack path <:+ (splitAll '/' (path.drop (anchor path).length)).reverse :=
    List.dropWhile_suffix _
  have hmem := hsuffix.subset (hback ▸ List.mem_cons_self : file ∈ namesBack path)
  exact not_mem_of_mem_splitAll (List.mem_reverse.1 hmem)

theorem splitLast?_isStart {mark : Char} {s before after : List Char}
    (h : splitLast? mark s = some (before, after)) : before <+: s := by
  obtain ⟨rfl, -⟩ := eq_of_splitLast? h
  exact List.prefix_append before (mark :: after)

/-- A stem is the start of a name, and not empty. -/
theorem stem_spec (name : List Char) (hne : name ≠ []) :
    (splitName name).1 <+: name ∧ (splitName name).1 ≠ [] := by
  unfold splitName
  split
  · next before after h =>
    split
    · exact ⟨List.prefix_rfl, hne⟩
    · next hbefore => exact ⟨splitLast?_isStart h, by simpa using hbefore⟩
  · exact ⟨List.prefix_rfl, hne⟩

theorem stem?_spec {stem : List Char} (h : stem? path = some stem) :
    (∃ file, fileName? path = some file) ∧ stem ≠ [] ∧ '/' ∉ stem := by
  obtain ⟨file, hfile, rfl⟩ := Option.map_eq_some_iff.1 h
  obtain ⟨rest, -, hleads⟩ := namesBack_of_fileName? hfile
  have hne : file ≠ [] := by
    rintro rfl
    exact absurd hleads (by decide)
  obtain ⟨hstart, hstem⟩ := stem_spec file hne
  exact ⟨⟨file, hfile⟩, hstem, fun hmem => notMem_of_fileName? hfile (hstart.subset hmem)⟩

/-- The names of an object: the first one starts with the stem, and there are more if the
architecture holds slashes. -/
theorem splitAll_objectName (arch : String) : ∃ n ns, ∀ stem : List Char, '/' ∉ stem →
    splitAll '/' (objectName stem arch) = (stem ++ '.' :: n) :: ns := by
  obtain ⟨m, ns, hsplit⟩ :=
    List.exists_cons_of_ne_nil (splitAll_ne_nil '/' (arch.toList ++ ['.', 'o']))
  refine ⟨m, ns, fun stem hslash => ?_⟩
  rw [objectName, List.append_assoc]
  exact splitAll_append (fun c hc => beq_eq_false_iff_ne.2 fun e => hslash (by rwa [← e]))
    (splitAll_cons_of_ne (by decide) hsplit)

theorem names_objectName (arch : String) : ∃ n ns, ∀ stem : List Char, stem ≠ [] → '/' ∉ stem →
    names (objectName stem arch) = (stem ++ n) :: ns := by
  obtain ⟨n, ns, hsplit⟩ := splitAll_objectName arch
  refine ⟨'.' :: n, ns.filter leads, fun stem hne hslash => ?_⟩
  obtain ⟨c, stem, rfl⟩ := List.exists_cons_of_ne_nil hne
  have hleads : leads (c :: stem ++ '.' :: n) = true := by simp [leads, isIdle]
  rw [names, hsplit _ hslash, List.filter_cons_of_pos hleads]

theorem anchor_objectName {stem : List Char} (hne : stem ≠ []) (hslash : '/' ∉ stem)
    (arch : String) : anchor (objectName stem arch) = [] := by
  obtain ⟨n, ns, hsplit⟩ := splitAll_objectName arch
  have hfirst := hsplit stem hslash
  refine anchor_of_first (by simp) ?_ (not_mem_of_mem_splitAll (hfirst ▸ List.mem_cons_self))
    (eq_of_splitAll_eq_cons hfirst)
  obtain ⟨c, stem, rfl⟩ := List.exists_cons_of_ne_nil hne
  simp

theorem components_tagged {p arch : String} {stem : List Char} (h : stem? p.toList = some stem) :
    components (tagged p arch).toList =
      ((directory p.toList).1, (directory p.toList).2 ++ names (objectName stem arch)) := by
  obtain ⟨⟨file, hfile⟩, hne, hslash⟩ := stem?_spec h
  have htagged : (tagged p arch).toList = withFileName p.toList (objectName stem arch) := by
    rw [tagged, h, String.toList_ofList, objectName, Option.getD_some]
  rw [htagged, components_withFileName hfile (anchor_objectName hne hslash arch)]

/-- **Two sources share an object** exactly when they lie in the same directory and have the same
stem. -/
theorem components_tagged_eq_iff {p q arch : String} {stem stem' : List Char}
    (hp : stem? p.toList = some stem) (hq : stem? q.toList = some stem') :
    components (tagged p arch).toList = components (tagged q arch).toList ↔
      directory p.toList = directory q.toList ∧ stem = stem' := by
  rw [components_tagged hp, components_tagged hq]
  constructor
  · intro h
    obtain ⟨hanchor, hnames⟩ := Prod.mk.inj h
    obtain ⟨n, ns, hobject⟩ := names_objectName arch
    obtain ⟨-, hne, hslash⟩ := stem?_spec hp
    obtain ⟨-, hne', hslash'⟩ := stem?_spec hq
    rw [hobject _ hne hslash, hobject _ hne' hslash'] at hnames
    obtain ⟨hdirectory, hlast⟩ := List.append_inj' hnames rfl
    exact ⟨Prod.ext hanchor hdirectory, List.append_cancel_right (List.cons.inj hlast).1⟩
  · rintro ⟨hdirectory, rfl⟩
    rw [hdirectory]

end Path

end LiveC
