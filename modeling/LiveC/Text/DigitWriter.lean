/-!
# Writing numerals into a buffer

Where nothing may be allocated, a number is written into a buffer of a fixed number of places, from
its last digit back to its first, and the part of the buffer that was filled is put out. A
`DigitWriter` says how a value is taken apart and how far back the loop may go; `DigitWriter.fill?`
is the loop and `DigitWriter.write` what is put out. `writeDecimal` and `writeHex` write a word:
twenty places hold every decimal and sixteen every hexadecimal numeral of 64 bits.
-/

namespace LiveC.Text

/-- How a value is written into a buffer. -/
structure DigitWriter where
  /-- How many places the buffer has. -/
  size : Nat
  /-- The place at which the loop stops, whatever is left of the value. -/
  floor : Nat
  /-- The byte of a value's last digit. -/
  digit : UInt64 → UInt8
  /-- A value without its last digit. -/
  rest : UInt64 → UInt64

/-- A buffer that is being filled. -/
structure Filling (size : Nat) where
  /-- What the places hold. -/
  places : Vector UInt8 size
  /-- What is left of the value. -/
  value : UInt64

namespace Filling

/-- An empty buffer for a value. -/
def start (size : Nat) (value : UInt64) : Filling size := ⟨Vector.replicate size 0, value⟩

/-- The characters from a place on; the bytes of digits are characters. -/
def textFrom {size : Nat} (s : Filling size) (place : Nat) : List Char :=
  (s.places.toList.drop place).map Char.ofUInt8

end Filling

namespace DigitWriter

/-- One round: the last digit goes to a place, if the buffer has it, and the rest is left. -/
def put (w : DigitWriter) (place : Nat) (s : Filling w.size) : Filling w.size :=
  ⟨s.places.setIfInBounds place (w.digit s.value), w.rest s.value⟩

/-- Rounds from a position back, until nothing is left of the value or the floor is reached: the
place of the last digit written, and the buffer. A round that has no place to go back to has no
result. -/
def fill? (w : DigitWriter) : Nat → Filling w.size → Option (Nat × Filling w.size)
  | 0, _ => none
  | place + 1, s =>
    let t := w.put place s
    if t.value = 0 ∨ place ≤ w.floor then some (place, t) else w.fill? place t

/-- What is put out for a value. -/
def write (w : DigitWriter) (value : UInt64) : String :=
  match w.fill? w.size (.start w.size value) with
  | some (place, s) => String.ofList (s.textFrom place)
  | none => ""

/-- Decimal digits in twenty places. -/
def decimal : DigitWriter where
  size := 20
  floor := 0
  digit value := '0'.toUInt8 + (value % 10).toUInt8
  rest value := value / 10

/-- The hexadecimal digits. -/
def hexDigits : Vector Char 16 :=
  #v['0', '1', '2', '3', '4', '5', '6', '7', '8', '9', 'a', 'b', 'c', 'd', 'e', 'f']

/-- The low four bits of a word are one of the sixteen digits. -/
theorem toNat_and_fifteen (value : UInt64) : (value &&& 15).toNat = value.toNat % 16 := by
  rw [UInt64.toNat_and]
  exact Nat.and_two_pow_sub_one_eq_mod value.toNat 4

theorem toNat_and_fifteen_lt (value : UInt64) : (value &&& 15).toNat < 16 := by
  rw [toNat_and_fifteen]
  exact Nat.mod_lt _ (by decide)

/-- Hexadecimal digits in eighteen places, of which the first two are spared. -/
def hexadecimal : DigitWriter where
  size := 18
  floor := 2
  digit value := (hexDigits.get ⟨(value &&& 15).toNat, toNat_and_fifteen_lt value⟩).toUInt8
  rest value := value >>> 4

end DigitWriter

/-- The decimal numeral of a word. -/
def writeDecimal (value : UInt64) : String := DigitWriter.decimal.write value

/-- The hexadecimal numeral of a word, with its mark. -/
def writeHex (value : UInt64) : String := "0x" ++ DigitWriter.hexadecimal.write value

end LiveC.Text
