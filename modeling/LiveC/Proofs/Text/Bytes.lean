/-!
# Bytes and characters

A character takes one to four bytes of a string. So a string has at least as many bytes as
characters (`length_toList_le`), and as many exactly if each of its characters takes one byte
(`utf8ByteSize_ofList_eq_length_iff`).
-/

namespace LiveC.Text

theorem utf8ByteSize_ofList_append (s t : List Char) :
    (String.ofList (s ++ t)).utf8ByteSize =
      (String.ofList s).utf8ByteSize + (String.ofList t).utf8ByteSize := by
  rw [String.ofList_append, String.utf8ByteSize_append]

theorem utf8ByteSize_ofList_cons (c : Char) (s : List Char) :
    (String.ofList (c :: s)).utf8ByteSize = c.utf8Size + (String.ofList s).utf8ByteSize := by
  have hc : (String.ofList [c]).utf8ByteSize = c.utf8Size := String.utf8ByteSize_singleton
  have happend := utf8ByteSize_ofList_append [c] s
  rwa [hc] at happend

theorem length_le_utf8ByteSize_ofList (s : List Char) :
    s.length ≤ (String.ofList s).utf8ByteSize := by
  induction s with
  | nil => exact Nat.zero_le _
  | cons c s ih =>
    have hc := c.utf8Size_pos
    rw [utf8ByteSize_ofList_cons, List.length_cons]
    omega

/-- A string has at most as many characters as bytes. -/
theorem length_toList_le (s : String) : s.toList.length ≤ s.utf8ByteSize := by
  have hle := length_le_utf8ByteSize_ofList s.toList
  rwa [String.ofList_toList] at hle

theorem utf8Size_eq_one_iff {c : Char} : c.utf8Size = 1 ↔ c.toNat < 128 := by
  have hval : c.toNat = c.val.toNat := rfl
  rw [Char.utf8Size_eq_one_iff, UInt32.le_iff_toNat_le, hval]
  exact Nat.lt_succ_iff.symm

/-- A text has as many bytes as characters exactly if each character takes one byte. -/
theorem utf8ByteSize_ofList_eq_length_iff {s : List Char} :
    (String.ofList s).utf8ByteSize = s.length ↔ ∀ c ∈ s, c.toNat < 128 := by
  induction s with
  | nil => simp
  | cons c s ih =>
    have hc := c.utf8Size_pos
    have hs := length_le_utf8ByteSize_ofList s
    rw [utf8ByteSize_ofList_cons, List.forall_mem_cons, ← ih, ← utf8Size_eq_one_iff,
      List.length_cons]
    omega

/-- As many marks as bytes, but one at least, are as many as characters exactly if each character
takes one byte. -/
theorem max_utf8ByteSize_eq_iff {s : List Char} :
    max 1 (String.ofList s).utf8ByteSize = max 1 s.length ↔ ∀ c ∈ s, c.toNat < 128 := by
  rw [← utf8ByteSize_ofList_eq_length_iff]
  cases s with
  | nil => simp
  | cons c s =>
    have hlength := length_le_utf8ByteSize_ofList (c :: s)
    rw [List.length_cons] at hlength ⊢
    omega

end LiveC.Text
