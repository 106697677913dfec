import LiveC.Text.DigitWriter
import Mathlib.Algebra.Order.Group.Nat
import Mathlib.Data.List.Basic
/-!
# The writers put out whole numerals

A writer that takes values apart by the digits of a base keeps, from round to round, that the digits
of what is left and the part written so far are together the numeral of the value it began with, and
that there is room before the floor for the digits that are left (`DigitWriter.Holds`). A round
keeps this (`DigitWriter.Holds.next`) or completes the numeral (`DigitWriter.Holds.last`), so the
loop ends with nothing left over and without having passed the floor (`DigitWriter.Holds.fill?`):
where it stops is decided by the value alone. The decimal and the hexadecimal writer have just room
enough for the words (`DigitWriter.decimal_inBase`, `DigitWriter.hexadecimal_inBase`), and
`numerals_written` states what they put out.
-/

namespace LiveC.Text

/-- A numeral begins with a zero only if it is the numeral of zero. -/
theorem head?_toDigits_eq_zero_iff {base : Nat} (h : 1 < base) (n : Nat) :
    (base.toDigits n).head? = some '0' ↔ n = 0 := by
  induction n using Nat.strongRecOn with
  | ind n ih =>
    by_cases hn : n < base
    · rw [Nat.toDigits_of_lt_base hn, List.head?_singleton, Option.some_inj,
        Nat.digitChar_eq_zero]
    · have hpos : 0 < n / base := Nat.div_pos (Nat.le_of_not_lt hn) (by omega)
      rw [Nat.toDigits_of_base_le h (Nat.le_of_not_lt hn),
        List.head?_append_of_ne_nil _ Nat.toDigits_ne_nil,
        ih (n / base) (Nat.div_lt_self (by omega) h)]
      omega

namespace Filling

@[simp] theorem textFrom_start (size : Nat) (value : UInt64) :
    (start size value).textFrom size = [] := by
  simp [textFrom, start]

theorem length_textFrom {size : Nat} (s : Filling size) (place : Nat) :
    (s.textFrom place).length = size - place := by
  simp [textFrom]

end Filling

namespace DigitWriter

variable {w : DigitWriter} {base n : Nat}

/-- The digit of a round stands in front of what was written before. -/
theorem textFrom_put {place : Nat} (h : place < w.size) (s : Filling w.size) :
    (w.put place s).textFrom place = Char.ofUInt8 (w.digit s.value) :: s.textFrom (place + 1) := by
  have hlen : place < (s.places.toList.set place (w.digit s.value)).length := by simpa using h
  rw [Filling.textFrom, put, Vector.toList_setIfInBounds, List.drop_eq_getElem_cons hlen,
    List.getElem_set_self, List.map_cons, List.drop_set_of_lt (Nat.lt_succ_self place)]
  rfl

/-- A writer takes values apart by the digits of a base, and has room for those of every word. -/
structure InBase (w : DigitWriter) (base : Nat) : Prop where
  one_lt : 1 < base
  digit : ∀ value, Char.ofUInt8 (w.digit value) = (value.toNat % base).digitChar
  rest : ∀ value, (w.rest value).toNat = value.toNat / base
  room : UInt64.size ≤ base ^ (w.size - w.floor)

/-- What holds before a round that writes the numeral of `n`: there is a place before the position
and after the floor, the digits of what is left complete the numeral, and there is room for them. -/
structure Holds (w : DigitWriter) (base n position : Nat) (s : Filling w.size) : Prop where
  floor_lt : w.floor < position
  position_le : position ≤ w.size
  numeral : base.toDigits n = base.toDigits s.value.toNat ++ s.textFrom position
  room : s.value.toNat < base ^ (position - w.floor)

theorem InBase.floor_lt (hw : w.InBase base) : w.floor < w.size := by
  by_contra h
  have hroom := hw.room
  rw [Nat.sub_eq_zero_of_le (Nat.le_of_not_lt h), Nat.pow_zero] at hroom
  exact absurd hroom (by decide)

theorem InBase.toNat_value_put (hw : w.InBase base) (place : Nat) (s : Filling w.size) :
    (w.put place s).value.toNat = s.value.toNat / base := hw.rest s.value

theorem InBase.textFrom_put (hw : w.InBase base) {place : Nat} (h : place < w.size)
    (s : Filling w.size) :
    (w.put place s).textFrom place =
      (s.value.toNat % base).digitChar :: s.textFrom (place + 1) := by
  rw [DigitWriter.textFrom_put h, hw.digit]

theorem InBase.holds_start (hw : w.InBase base) (value : UInt64) :
    w.Holds base value.toNat w.size (.start w.size value) where
  floor_lt := hw.floor_lt
  position_le := Nat.le_refl _
  numeral := by rw [Filling.textFrom_start, List.append_nil]; rfl
  room := Nat.lt_of_lt_of_le value.toNat_lt hw.room

/-- A round after which nothing is left has written the first digit. -/
theorem Holds.last (hw : w.InBase base) {place : Nat} {s : Filling w.size}
    (h : w.Holds base n (place + 1) s) (hz : (w.put place s).value = 0) :
    (w.put place s).textFrom place = base.toDigits n := by
  have hdiv : s.value.toNat / base = 0 := by rw [← hw.toNat_value_put place, hz]; rfl
  have hlt : s.value.toNat < base :=
    (Nat.div_eq_zero_iff_lt (Nat.zero_lt_of_lt hw.one_lt)).1 hdiv
  rw [h.numeral, hw.textFrom_put h.position_le, Nat.toDigits_of_lt_base hlt,
    Nat.mod_eq_of_lt hlt, List.singleton_append]

/-- Any other round leaves the other digits, and room for them. -/
theorem Holds.next (hw : w.InBase base) {place : Nat} {s : Filling w.size}
    (h : w.Holds base n (place + 1) s) (hz : (w.put place s).value ≠ 0) :
    w.Holds base n place (w.put place s) := by
  have hvalue := hw.toNat_value_put place s
  have hdiv : s.value.toNat / base ≠ 0 := fun h0 => hz (UInt64.toNat_inj.1 (hvalue.trans h0))
  have hle : base ≤ s.value.toNat := Nat.le_of_not_lt (mt Nat.div_eq_of_lt hdiv)
  have hroom : s.value.toNat / base < base ^ (place - w.floor) := by
    rw [Nat.div_lt_iff_lt_mul (Nat.zero_lt_of_lt hw.one_lt), ← Nat.pow_succ,
      ← Nat.succ_sub (Nat.le_of_lt_succ h.floor_lt)]
    exact h.room
  refine ⟨?_, Nat.le_of_succ_le h.position_le, ?_, hvalue ▸ hroom⟩
  · -- with no room left, nothing would be left of the value
    by_contra hfloor
    rw [Nat.sub_eq_zero_of_le (Nat.le_of_not_lt hfloor), Nat.pow_zero] at hroom
    exact hdiv (Nat.lt_one_iff.1 hroom)
  · rw [h.numeral, hw.textFrom_put h.position_le, hvalue, Nat.toDigits_of_base_le hw.one_lt hle,
      List.append_assoc, List.singleton_append]

/-- The loop ends with the whole numeral, before the floor is passed. -/
theorem Holds.fill? (hw : w.InBase base) {position : Nat} {s : Filling w.size}
    (h : w.Holds base n position s) :
    ∃ place t, w.fill? position s = some (place, t) ∧ t.value = 0 ∧ w.floor ≤ place ∧
      place ≤ w.size ∧ t.textFrom place = base.toDigits n := by
  induction position generalizing s with
  | zero => exact absurd h.floor_lt (Nat.not_lt_zero _)
  | succ place ih =>
    simp only [DigitWriter.fill?]
    by_cases hz : (w.put place s).value = 0
    · exact ⟨place, _, if_pos (.inl hz), hz, Nat.le_of_lt_succ h.floor_lt,
        Nat.le_of_succ_le h.position_le, h.last hw hz⟩
    · -- the floor is still ahead, so the loop goes on
      have hnext := h.next hw hz
      rw [if_neg (not_or.2 ⟨hz, Nat.not_le.2 hnext.floor_lt⟩)]
      exact ih hnext

/-- The loop of a writer on a value goes through: no round lacks a place, the floor is not passed,
nothing is left of the value, and the filled part of the buffer is the numeral in a base, which has
a zero in front only for zero. -/
def Completes (w : DigitWriter) (base : Nat) (value : UInt64) : Prop :=
  ∃ place t, w.fill? w.size (.start w.size value) = some (place, t) ∧ w.floor ≤ place ∧
    t.value = 0 ∧ t.textFrom place = base.toDigits value.toNat ∧
    place + (base.toDigits value.toNat).length = w.size ∧
    ((t.textFrom place).head? = some '0' ↔ value = 0)

theorem InBase.completes (hw : w.InBase base) (value : UInt64) : w.Completes base value := by
  obtain ⟨place, t, hfill, hz, hfloor, hle, htext⟩ := (hw.holds_start value).fill? hw
  refine ⟨place, t, hfill, hfloor, hz, htext, ?_, ?_⟩
  · rw [← htext, Filling.length_textFrom, Nat.add_sub_cancel' hle]
  · rw [htext, head?_toDigits_eq_zero_iff hw.one_lt, ← UInt64.toNat_inj]
    rfl

/-- What is put out by a loop that goes through. -/
theorem Completes.write {value : UInt64} (h : w.Completes base value) :
    w.write value = String.ofList (base.toDigits value.toNat) := by
  obtain ⟨place, t, hfill, -, -, htext, -, -⟩ := h
  rw [DigitWriter.write, hfill, ← htext]

theorem decimal_inBase : decimal.InBase 10 where
  one_lt := by decide
  digit value := by
    have h : ∀ d < 10, Char.ofUInt8 ('0'.toUInt8 + UInt8.ofNat d) = d.digitChar := by decide
    rw [← h _ (Nat.mod_lt _ (by decide))]
    rfl
  rest value := UInt64.toNat_div value 10
  room := by decide

theorem hexadecimal_inBase : hexadecimal.InBase 16 where
  one_lt := by decide
  digit value := by
    have h : ∀ d : Fin 16, Char.ofUInt8 (hexDigits.get d).toUInt8 = d.val.digitChar := by decide
    rw [← toNat_and_fifteen]
    exact h _
  rest value := by
    rw [show hexadecimal.rest value = value >>> 4 from rfl, UInt64.toNat_shiftRight]
    exact Nat.shiftRight_eq_div_pow value.toNat 4
  room := by decide

end DigitWriter

theorem writeDecimal_eq (value : UInt64) : writeDecimal value = toString value.toNat := by
  rw [writeDecimal, (DigitWriter.decimal_inBase.completes value).write,
    Nat.toString_eq_ofList_toDigits]

theorem writeHex_eq (value : UInt64) :
    writeHex value = "0x" ++ String.ofList (Nat.toDigits 16 value.toNat) := by
  rw [writeHex, (DigitWriter.hexadecimal_inBase.completes value).write]

/-- **Numerals of words.** Every word is written as its decimal numeral and as its hexadecimal one
behind the mark, and both loops go through. -/
theorem numerals_written (value : UInt64) :
    writeDecimal value = toString value.toNat ∧
      writeHex value = "0x" ++ String.ofList (Nat.toDigits 16 value.toNat) ∧
      DigitWriter.decimal.Completes 10 value ∧ DigitWriter.hexadecimal.Completes 16 value :=
  ⟨writeDecimal_eq value, writeHex_eq value, DigitWriter.decimal_inBase.completes value,
    DigitWriter.hexadecimal_inBase.completes value⟩

/-- The largest word fills the buffer up to the floor. -/
example : writeDecimal 0xffffffffffffffff = "18446744073709551615" ∧
    writeHex 0xffffffffffffffff = "0xffffffffffffffff" := by decide

end LiveC.Text
