import LiveC.Proofs.Text.Bytes
import LiveC.Text.Utf8
/-!
# The first bytes of a text

A character is spelled by a first byte and some more (`Spelled`): with all of them it is read, and
with fewer they are the beginning of a sequence that does not go on. So a text is read from its
bytes as it was written, and from the first bytes of it what `firstBytes` says: the characters that
lie in them, and a replacement for one of which only a part does (`cutToBytes_eq`).
-/

namespace LiveC.Text

/-- The characters that lie in the first `n` bytes of a text, and a replacement for one of which
only a part does. -/
def firstBytes (n : Nat) : List Char → List Char
  | [] => []
  | c :: s =>
    if n = 0 then []
    else if c.utf8Size ≤ n then c :: firstBytes (n - c.utf8Size) s
    else [replacement]

/-! ## One character -/

/-- A first byte and the bytes behind it spell a character. -/
structure Spelled (first : UInt8) (rest : List UInt8) (c : Char) : Prop where
  /-- It is read when all bytes are there, whatever comes behind them. -/
  whole : ∀ bytes, leadingCode first (rest ++ bytes) = (some c.toNat, rest.length)
  /-- Nothing is read when some are missing. -/
  cut : ∀ n < rest.length, leadingCode first (rest.take n) = (none, n)

theorem continueSequence_cons {b : UInt8} (h : 0x80 ≤ b.toNat ∧ b.toNat ≤ 0xBF)
    (value used missing : Nat) (bytes : List UInt8) :
    continueSequence value used (missing + 1) (b :: bytes) =
      continueSequence (value * 64 + (b.toNat - 0x80)) (used + 1) missing bytes := by
  rw [continueSequence, if_pos (by simp [h.1, h.2])]

theorem leadingCode_one {first : UInt8} (h : first.toNat < 0x80) (bytes : List UInt8) :
    leadingCode first bytes = (some first.toNat, 0) := by
  simp only [leadingCode, sequenceLength, if_pos h]

theorem leadingCode_nil {first : UInt8} (h : 2 ≤ sequenceLength first.toNat) :
    leadingCode first [] = (none, 0) := by
  rw [leadingCode]
  split
  · rfl
  · next h' => omega
  · rfl

/-- The second byte is read when it may follow the first one. -/
theorem leadingCode_cons {first second : UInt8} (missing : Nat) {payload : Nat}
    (hlength : sequenceLength first.toNat = missing + 2)
    (hpayload : payload = if missing = 0 then first.toNat - 0xC0
      else if missing = 1 then first.toNat - 0xE0 else first.toNat - 0xF0)
    (hsecond : (secondRange first.toNat).1 ≤ second.toNat ∧
      second.toNat ≤ (secondRange first.toNat).2) (bytes : List UInt8) :
    leadingCode first (second :: bytes) =
      continueSequence (payload * 64 + (second.toNat - 0x80)) 1 missing bytes := by
  rw [leadingCode, hlength, hpayload]
  simp [hsecond.1, hsecond.2]

/-- The byte of a number that is small enough. -/
theorem toNat_ofNat_of_lt {n : Nat} (h : n < 256) : (UInt8.ofNat n).toNat = n := by
  rw [UInt8.toNat_ofNat', Nat.mod_eq_of_lt h]

/-- A continuation byte holds six bits. -/
theorem toNat_continuation (n : Nat) :
    (UInt8.ofNat (n % 0x40 + 0x80)).toNat = n % 0x40 + 0x80 :=
  toNat_ofNat_of_lt (by omega)

theorem sequenceLength_eq_two {first : Nat} (h : 0xC2 ≤ first ∧ first ≤ 0xDF) :
    sequenceLength first = 2 := by
  grind [sequenceLength]

theorem sequenceLength_eq_three {first : Nat} (h : 0xE0 ≤ first ∧ first ≤ 0xEF) :
    sequenceLength first = 3 := by
  grind [sequenceLength]

theorem sequenceLength_eq_four {first : Nat} (h : 0xF0 ≤ first ∧ first ≤ 0xF4) :
    sequenceLength first = 4 := by
  grind [sequenceLength]

theorem spelled_one {n : Nat} {c : Char} (hn : n = c.toNat) (h : n < 0x80) :
    Spelled (UInt8.ofNat n) [] c where
  whole bytes := by
    have hfirst : (UInt8.ofNat n).toNat = n := toNat_ofNat_of_lt (by omega)
    rw [leadingCode_one (by omega), hfirst, hn]
    rfl
  cut m hm := absurd hm (Nat.not_lt_zero m)

theorem spelled_two {c : Char} (h : 0x80 ≤ c.toNat ∧ c.toNat < 0x800) :
    Spelled (UInt8.ofNat (c.toNat / 64 % 0x20 + 0xC0)) [UInt8.ofNat (c.toNat % 0x40 + 0x80)] c := by
  have hfirst : (UInt8.ofNat (c.toNat / 64 % 0x20 + 0xC0)).toNat = c.toNat / 64 + 0xC0 := by
    rw [toNat_ofNat_of_lt (by omega)]
    omega
  have hsecond := toNat_continuation c.toNat
  have hlength : sequenceLength (UInt8.ofNat (c.toNat / 64 % 0x20 + 0xC0)).toNat = 2 := by
    rw [hfirst]
    exact sequenceLength_eq_two (by omega)
  refine ⟨fun bytes => ?_, fun m hm => ?_⟩
  · rw [List.singleton_append, leadingCode_cons 0 hlength rfl,
      continueSequence]
    · have hcode : (c.toNat / 64 + 0xC0 - 0xC0) * 64 + (c.toNat % 0x40 + 0x80 - 0x80) =
          c.toNat := by
        omega
      rw [if_pos rfl, hfirst, hsecond, hcode]
      rfl
    · grind [secondRange]
  · obtain rfl : m = 0 := by simpa using hm
    exact leadingCode_nil (by omega)

theorem spelled_three {c : Char} (h : 0x800 ≤ c.toNat ∧ c.toNat < 0x10000)
    (hvalid : c.toNat < 0xD800 ∨ 0xDFFF < c.toNat) :
    Spelled (UInt8.ofNat (c.toNat / 4096 % 0x10 + 0xE0))
      [UInt8.ofNat (c.toNat / 64 % 0x40 + 0x80), UInt8.ofNat (c.toNat % 0x40 + 0x80)] c := by
  have hfirst : (UInt8.ofNat (c.toNat / 4096 % 0x10 + 0xE0)).toNat = c.toNat / 4096 + 0xE0 := by
    rw [toNat_ofNat_of_lt (by omega)]
    omega
  have hsecond := toNat_continuation (c.toNat / 64)
  have hthird := toNat_continuation c.toNat
  have hlength : sequenceLength (UInt8.ofNat (c.toNat / 4096 % 0x10 + 0xE0)).toNat = 3 := by
    rw [hfirst]
    exact sequenceLength_eq_three (by omega)
  have hread (bytes : List UInt8) : leadingCode (UInt8.ofNat (c.toNat / 4096 % 0x10 + 0xE0))
      (UInt8.ofNat (c.toNat / 64 % 0x40 + 0x80) :: bytes) =
        continueSequence (c.toNat / 64) 1 1 bytes := by
    rw [leadingCode_cons 1 hlength rfl]
    · have hcode : (c.toNat / 4096 + 0xE0 - 0xE0) * 64 + (c.toNat / 64 % 0x40 + 0x80 - 0x80) =
          c.toNat / 64 := by omega
      rw [if_neg (by decide), if_pos rfl, hfirst, hsecond, hcode]
    · grind [secondRange]
  refine ⟨fun bytes => ?_, fun m hm => ?_⟩
  · rw [List.cons_append, List.singleton_append, hread, continueSequence_cons (by omega),
      continueSequence, hthird]
    have hcode : c.toNat / 64 * 64 + (c.toNat % 0x40 + 0x80 - 0x80) = c.toNat := by omega
    rw [hcode]
    rfl
  · have hm : m = 0 ∨ m = 1 := by
      simp only [List.length_cons, List.length_nil] at hm
      omega
    rcases hm with rfl | rfl
    · exact leadingCode_nil (by omega)
    · exact hread []

theorem spelled_four {c : Char} (h : 0x10000 ≤ c.toNat ∧ c.toNat < 0x110000) :
    Spelled (UInt8.ofNat (c.toNat / 262144 % 0x08 + 0xF0))
      [UInt8.ofNat (c.toNat / 4096 % 0x40 + 0x80), UInt8.ofNat (c.toNat / 64 % 0x40 + 0x80),
        UInt8.ofNat (c.toNat % 0x40 + 0x80)] c := by
  have hfirst : (UInt8.ofNat (c.toNat / 262144 % 0x08 + 0xF0)).toNat = c.toNat / 262144 + 0xF0 := by
    rw [toNat_ofNat_of_lt (by omega)]
    omega
  have hsecond := toNat_continuation (c.toNat / 4096)
  have hthird := toNat_continuation (c.toNat / 64)
  have hfourth := toNat_continuation c.toNat
  have hlength : sequenceLength (UInt8.ofNat (c.toNat / 262144 % 0x08 + 0xF0)).toNat = 4 := by
    rw [hfirst]
    exact sequenceLength_eq_four (by omega)
  have hread (bytes : List UInt8) : leadingCode (UInt8.ofNat (c.toNat / 262144 % 0x08 + 0xF0))
      (UInt8.ofNat (c.toNat / 4096 % 0x40 + 0x80) :: bytes) =
        continueSequence (c.toNat / 4096) 1 2 bytes := by
    rw [leadingCode_cons 2 hlength rfl]
    · have hcode : (c.toNat / 262144 + 0xF0 - 0xF0) * 64 +
          (c.toNat / 4096 % 0x40 + 0x80 - 0x80) = c.toNat / 4096 := by omega
      rw [if_neg (by decide), if_neg (by decide), hfirst, hsecond, hcode]
    · grind [secondRange]
  refine ⟨fun bytes => ?_, fun m hm => ?_⟩
  · rw [List.cons_append, List.cons_append, List.singleton_append, hread,
      continueSequence_cons (by omega), continueSequence_cons (by omega), continueSequence, hthird,
      hfourth]
    have hcode : (c.toNat / 4096 * 64 + (c.toNat / 64 % 0x40 + 0x80 - 0x80)) * 64 +
        (c.toNat % 0x40 + 0x80 - 0x80) = c.toNat := by omega
    rw [hcode]
    rfl
  · have hm : m = 0 ∨ m = 1 ∨ m = 2 := by
      simp only [List.length_cons, List.length_nil] at hm
      omega
    rcases hm with rfl | rfl | rfl
    · exact leadingCode_nil (by omega)
    · exact hread []
    · exact (hread _).trans (continueSequence_cons (by omega) _ _ _ _)

/-- Every character is spelled by its bytes. -/
theorem exists_spelled (c : Char) :
    ∃ first rest, String.utf8EncodeChar c = first :: rest ∧ Spelled first rest c := by
  have hvalid : c.toNat < 0xD800 ∨ 0xDFFF < c.toNat ∧ c.toNat < 0x110000 := c.valid
  fun_cases String.utf8EncodeChar c with
  | case1 v h => exact ⟨_, _, rfl, spelled_one rfl (Nat.lt_succ_of_le h)⟩
  | case2 v h h' =>
    exact ⟨_, _, rfl, spelled_two ⟨Nat.lt_of_not_le h, Nat.lt_succ_of_le h'⟩⟩
  | case3 v h h' h'' =>
    exact ⟨_, _, rfl, spelled_three ⟨Nat.lt_of_not_le h', Nat.lt_succ_of_le h''⟩
      (hvalid.imp_right And.left)⟩
  | case4 v h h' h'' =>
    have hlt : 0xFFFF < c.toNat := Nat.lt_of_not_le h''
    exact ⟨_, _, rfl, spelled_four (by omega)⟩

/-! ## Texts -/

/-- A character is read from its bytes. -/
theorem decodeLossy_utf8EncodeChar (c : Char) (bytes : List UInt8) :
    decodeLossy (String.utf8EncodeChar c ++ bytes) = c :: decodeLossy bytes := by
  obtain ⟨first, rest, hspelled, hwhole, -⟩ := exists_spelled c
  rw [hspelled, List.cons_append, decodeLossy, hwhole, Option.map_some, Option.getD_some,
    Char.ofNat_toNat, List.drop_left]

/-- Some of the bytes of a character, but not all, are read as one replacement. -/
theorem decodeLossy_take_utf8EncodeChar {c : Char} {n : Nat} (hpos : n ≠ 0) (hn : n < c.utf8Size) :
    decodeLossy ((String.utf8EncodeChar c).take n) = [replacement] := by
  obtain ⟨first, rest, hspelled, -, hcut⟩ := exists_spelled c
  have hlength := String.length_utf8EncodeChar c
  rw [hspelled, List.length_cons] at hlength
  obtain ⟨m, rfl⟩ := Nat.exists_eq_succ_of_ne_zero hpos
  rw [hspelled, List.take_succ_cons, decodeLossy, hcut m (by omega), Option.map_none,
    Option.getD_none, List.drop_of_length_le (List.length_take_le m rest), decodeLossy]

/-- A text is read from its bytes. -/
theorem decodeLossy_utf8Encode (s : List Char) :
    decodeLossy (s.flatMap String.utf8EncodeChar) = s := by
  induction s with
  | nil => rw [List.flatMap_nil, decodeLossy]
  | cons c s ih => rw [List.flatMap_cons, decodeLossy_utf8EncodeChar, ih]

/-- What is read from the first bytes of a text. -/
theorem decodeLossy_take_utf8Encode (n : Nat) (s : List Char) :
    decodeLossy ((s.flatMap String.utf8EncodeChar).take n) = firstBytes n s := by
  induction s generalizing n with
  | nil => rw [List.flatMap_nil, List.take_nil, decodeLossy, firstBytes]
  | cons c s ih =>
    have hlength := String.length_utf8EncodeChar c
    rw [firstBytes, List.flatMap_cons, List.take_append, hlength]
    split
    · next hzero =>
      rw [hzero, List.take_zero, Nat.zero_sub, List.take_zero, List.nil_append, decodeLossy]
    split
    · next hle =>
      rw [List.take_of_length_le (hlength ▸ hle), decodeLossy_utf8EncodeChar, ih]
    · next hpos hlt =>
      rw [Nat.sub_eq_zero_of_le (by omega), List.take_zero, List.append_nil,
        decodeLossy_take_utf8EncodeChar hpos (by omega)]

theorem toList_data_utf8Encode (s : List Char) :
    s.utf8Encode.data.toList = s.flatMap String.utf8EncodeChar := by
  rw [List.utf8Encode, List.toList_data_toByteArray]

/-- Well-formed bytes are read as any others are. -/
theorem textOf_eq (bytes : ByteArray) :
    textOf bytes = String.ofList (decodeLossy bytes.data.toList) := by
  rw [textOf, textOf?, String.fromUTF8?]
  split
  · next h =>
    obtain ⟨s, rfl⟩ := h
    rw [Option.getD_some, toList_data_utf8Encode, decodeLossy_utf8Encode]
    rfl
  · rw [Option.getD_none]

/-- All of a text lies in enough bytes. -/
theorem firstBytes_of_size_le {n : Nat} {s : List Char} (h : (String.ofList s).utf8ByteSize ≤ n) :
    firstBytes n s = s := by
  induction s generalizing n with
  | nil => rfl
  | cons c s ih =>
    have hpos := c.utf8Size_pos
    rw [utf8ByteSize_ofList_cons] at h
    rw [firstBytes, if_neg (by omega), if_pos (by omega), ih (by omega)]

/-- **The text of the first bytes of a text** holds the characters that lie in them, and a
replacement for one of which only a part does. -/
theorem cutToBytes_eq (n : Nat) (s : String) :
    cutToBytes n s = String.ofList (firstBytes n s.toList) := by
  rw [cutToBytes]
  split
  · next h => rw [firstBytes_of_size_le (by rwa [String.ofList_toList]), String.ofList_toList]
  · have hbytes : (s.toUTF8.extract 0 n).data.toList =
        (s.toList.flatMap String.utf8EncodeChar).take n := by
      rw [ByteArray.data_extract, Array.toList_extract, List.extract_eq_take_drop, List.drop_zero,
        Nat.sub_zero, String.toUTF8_eq_toByteArray, ← toList_data_utf8Encode,
        String.utf8Encode_toList]
    rw [textOf_eq, hbytes, decodeLossy_take_utf8Encode]

end LiveC.Text
