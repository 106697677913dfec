import Mathlib.Data.List.Induction
import Mathlib.Data.List.Nodup
import LiveC.Symbol.Builtin
/-!
# Tables of builtins

A table that is made of some entries has the names of these entries, each once, in the order in
which they first appear (`BuiltinTable.names_ofList`, `BuiltinTable.nodup_names_ofList`), and under
each name the first entry of that name (`BuiltinTable.get?_ofList`). So a name has an address in the
table exactly when its first entry has one (`BuiltinTable.address?_ofList_eq_some_iff`). The entries
that are offered to compiled code say the same (`BuiltinTable.address?_eq_some_iff_offered`).
-/

namespace LiveC

namespace BuiltinTable

variable {t : BuiltinTable} {b : Builtin} {name : String} {a : Address}

theorem isSome_get? : (t.get? name).isSome ↔ name ∈ t.names := by
  simp [get?, names]

/-- What is found under a name is an entry of that name. -/
theorem of_get? (h : t.get? name = some b) : b ∈ t.entries ∧ b.name = name := by
  rw [get?] at h
  exact ⟨List.mem_of_find?_eq_some h, by simpa using List.find?_some h⟩

/-- Every entry is found under its name, if no name is there twice. -/
theorem get?_eq_some_iff (hnames : t.names.Nodup) :
    t.get? name = some b ↔ b ∈ t.entries ∧ b.name = name := by
  constructor
  · exact of_get?
  · rintro ⟨hb, rfl⟩
    obtain ⟨c, hc⟩ := Option.isSome_iff_exists.1 (isSome_get?.2 (List.mem_map_of_mem hb))
    obtain ⟨hmem, hname⟩ := of_get? hc
    rw [hc, List.inj_on_of_nodup_map hnames hmem hb hname]

/-! ## Adding entries -/

theorem names_add (t : BuiltinTable) (b : Builtin) :
    (t.add b).names = if b.name ∈ t.names then t.names else t.names ++ [b.name] := by
  rw [add]
  by_cases h : b.name ∈ t.names
  · rw [if_pos (isSome_get?.2 h), if_pos h]
  · rw [if_neg (mt isSome_get?.1 h), if_neg h]
    simp [names]

/-- An entry is added unless there is one of its name. -/
theorem get?_add (t : BuiltinTable) (b : Builtin) (name : String) : (t.add b).get? name =
    (t.get? name).or (if b.name = name then some { b with convention := .native } else none) := by
  rw [add]
  split
  · next h =>
    obtain ⟨c, hc⟩ := Option.isSome_iff_exists.1 h
    by_cases hname : b.name = name
    · rw [← hname, hc, Option.some_or]
    · rw [if_neg hname, Option.or_none]
  · by_cases hname : b.name = name
    · simp [get?, List.find?_append, hname]
    · simp [get?, List.find?_append, hname]

theorem ofList_concat (entries : List Builtin) (b : Builtin) :
    ofList (entries ++ [b]) = (ofList entries).add b := by
  simp [ofList]

/-- The names in a table are those of its entries, in the order in which they first appear. -/
theorem names_ofList (entries : List Builtin) :
    (ofList entries).names = (entries.map (·.name)).eraseDups := by
  induction entries using List.reverseRecOn with
  | nil => rfl
  | append_singleton entries b ih =>
    rw [ofList_concat, names_add, ih, List.map_append, List.eraseDups_append, List.map_singleton]
    by_cases h : b.name ∈ entries.map (·.name)
    · have hgone : [b.name].removeAll (entries.map (·.name)) = [] :=
        List.filter_eq_nil_iff.2 (by simpa using h)
      rw [if_pos (List.mem_eraseDups.2 h), hgone, List.eraseDups_nil, List.append_nil]
    · have hkept : [b.name].removeAll (entries.map (·.name)) = [b.name] :=
        List.filter_eq_self.2 (by simpa using h)
      rw [if_neg (mt List.mem_eraseDups.1 h), hkept]
      rfl

/-- No name is in a table twice. -/
theorem nodup_names_ofList (entries : List Builtin) : (ofList entries).names.Nodup := by
  induction entries using List.reverseRecOn with
  | nil => exact List.nodup_nil
  | append_singleton entries b ih =>
    rw [ofList_concat, names_add]
    split
    · exact ih
    · next h => exact List.nodup_append.2 ⟨ih, List.nodup_singleton _, by grind⟩

/-- Under a name is its first entry. -/
theorem get?_ofList (entries : List Builtin) (name : String) : (ofList entries).get? name =
    (entries.find? (·.name == name)).map fun b => { b with convention := .native } := by
  induction entries using List.reverseRecOn with
  | nil => rfl
  | append_singleton entries b ih =>
    rw [ofList_concat, get?_add, ih, List.find?_append]
    by_cases h : b.name = name
    · cases entries.find? (·.name == name) <;> simp [h]
    · cases entries.find? (·.name == name) <;> simp [h]

/-! ## Addresses -/

theorem address?_eq_some_iff :
    t.address? name = some a ↔ ∃ b, t.get? name = some b ∧ b.address = a ∧ a ≠ 0 := by
  simp only [address?, Option.map_eq_some_iff, Option.filter_eq_some_iff, Builtin.isPlaceholder]
  constructor
  · rintro ⟨b, ⟨hget, hplaceholder⟩, rfl⟩
    exact ⟨b, hget, rfl, by simpa using hplaceholder⟩
  · rintro ⟨b, hget, rfl, hne⟩
    exact ⟨b, ⟨hget, by simpa using hne⟩, rfl⟩

theorem address?_ne_zero (h : t.address? name = some a) : a ≠ 0 := by
  obtain ⟨-, -, -, hne⟩ := address?_eq_some_iff.1 h
  exact hne

/-- A name has an address when its first entry has one. -/
theorem address?_ofList_eq_some_iff (entries : List Builtin) :
    (ofList entries).address? name = some a ↔
      ∃ b, entries.find? (·.name == name) = some b ∧ b.address = a ∧ a ≠ 0 := by
  simp only [address?_eq_some_iff, get?_ofList, Option.map_eq_some_iff]
  constructor
  · rintro ⟨_, ⟨b, hb, rfl⟩, ha⟩
    exact ⟨b, hb, ha⟩
  · rintro ⟨b, hb, ha⟩
    exact ⟨_, ⟨b, hb, rfl⟩, ha⟩

/-- A placeholder that comes first hides what comes later under its name. -/
example : (ofList [.make "a" "int a(void)" 0x10, .make "hole" "void hole(void)" 0,
      .make "a" "int a(void)" 0x20, .make "hole" "void hole(void)" 0x30]).address? "a" = some 0x10 ∧
    (ofList [.make "hole" "void hole(void)" 0,
      .make "hole" "void hole(void)" 0x30]).address? "hole" = none := by
  decide

theorem mem_offered : b ∈ t.offered ↔ b ∈ t.entries ∧ b.address ≠ 0 := by
  simp [offered, Builtin.isPlaceholder]

/-- A builtin with an address is offered. -/
theorem exists_offered (h : t.address? name = some a) :
    ∃ b ∈ t.offered, b.name = name ∧ b.address = a := by
  obtain ⟨b, hget, rfl, hne⟩ := address?_eq_some_iff.1 h
  obtain ⟨hmem, hname⟩ := of_get? hget
  exact ⟨b, mem_offered.2 ⟨hmem, hne⟩, hname, rfl⟩

/-- The names that have an address are those that are offered, with the same address. -/
theorem address?_eq_some_iff_offered (hnames : t.names.Nodup) :
    t.address? name = some a ↔ ∃ b ∈ t.offered, b.name = name ∧ b.address = a := by
  refine ⟨exists_offered, ?_⟩
  rintro ⟨b, hb, hname, rfl⟩
  obtain ⟨hmem, hne⟩ := mem_offered.1 hb
  exact address?_eq_some_iff.2 ⟨b, (get?_eq_some_iff hnames).2 ⟨hmem, hname⟩, rfl, hne⟩

/-- Nothing is offered under the same name as something else. -/
theorem nodup_offered (hnames : t.names.Nodup) : (t.offered.map (·.name)).Nodup :=
  hnames.sublist (List.filter_sublist.map _)

end BuiltinTable

end LiveC
