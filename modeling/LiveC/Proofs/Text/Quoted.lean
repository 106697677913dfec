import LiveC.Text.Quoted
/-!
# A quoted name is read back

A literal stands on one line, between two double quotes (`feed_notMem_encode`, `encode_eq`), and is
read back as the text that it was made of, whatever that holds (`decode_encode`).
-/

namespace LiveC.Text.Quoted

theorem decodeBody_cons_of_ne {c : Char} (h : c ≠ '\\') (r : List Char) :
    decodeBody (c :: r) = c :: decodeBody r := by
  rw [decodeBody]
  intro d r' hslash
  exact absurd hslash h

/-- What stands for a character is read as that character. -/
theorem decodeBody_encodeChar_append (c : Char) (r : List Char) :
    decodeBody (encodeChar c ++ r) = c :: decodeBody r := by
  unfold encodeChar
  split
  · next h =>
    obtain rfl := eq_of_beq h
    rfl
  next hslash =>
  split
  · next h =>
    obtain rfl := eq_of_beq h
    rfl
  split
  · next h =>
    obtain rfl := eq_of_beq h
    rfl
  · exact decodeBody_cons_of_ne (by simpa using hslash) r

theorem decodeBody_flatMap (s : List Char) : decodeBody (s.flatMap encodeChar) = s := by
  induction s with
  | nil => rfl
  | cons c s ih => rw [List.flatMap_cons, decodeBody_encodeChar_append, ih]

/-- A literal stands between double quotes. -/
theorem encode_eq (s : List Char) : encode s = '"' :: s.flatMap encodeChar ++ ['"'] := rfl

/-- The quotes are taken off a literal. -/
theorem unquoted_encode (s : List Char) : unquoted (encode s) = s.flatMap encodeChar := by
  simp [encode, unquoted]

/-- **A literal is read back as its text.** -/
theorem decode_encode (s : List Char) : decode (encode s) = s := by
  rw [decode, unquoted_encode, decodeBody_flatMap]

theorem feed_notMem_encodeChar (c : Char) : '\n' ∉ encodeChar c := by
  unfold encodeChar
  split
  · decide
  split
  · decide
  split
  · decide
  · next hfeed =>
    intro hmem
    exact hfeed (beq_iff_eq.2 (List.mem_singleton.1 hmem).symm)

/-- **A literal holds no line feed**, so it stands on one line. -/
theorem feed_notMem_encode (s : List Char) : '\n' ∉ encode s := by
  intro hmem
  rw [encode_eq, List.mem_append, List.mem_cons, List.mem_flatMap] at hmem
  rcases hmem with (hquote | ⟨c, -, hc⟩) | hquote
  · exact absurd hquote (by decide)
  · exact feed_notMem_encodeChar c hc
  · exact absurd hquote (by decide)

end LiveC.Text.Quoted
