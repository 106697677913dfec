/-!
# Numerals

Reading and writing whole numbers. `natOf?` and `intOf?` read decimal numerals of a bounded range,
with an optional sign. `fillDigits` writes the digits of a number into a bounded number of places,
last digit first.
-/

namespace LiveC.Text

/-- The value of a decimal digit. -/
def digitOf? (c : Char) : Option Nat := if c.isDigit then some (c.toNat - '0'.toNat) else none

/-- The value of a non-empty text of decimal digits. -/
def digitsValue? (s : List Char) : Option Nat :=
  if s.isEmpty then none
  else s.foldl (fun v c => v.bind fun v => (digitOf? c).map fun d => 10 * v + d) (some 0)

/-- A decimal numeral below `bound`; a plus sign may stand in front. -/
def natOf? (bound : Nat) (s : List Char) : Option Nat :=
  let digits := match s with
    | '+' :: r => r
    | s => s
  (digitsValue? digits).filter (· < bound)

/-- A decimal numeral from `-bound` to `bound - 1`; a sign may stand in front. -/
def intOf? (bound : Nat) (s : List Char) : Option Int :=
  match s with
  | '-' :: r => ((digitsValue? r).filter (· ≤ bound)).map fun n => -(n : Int)
  | s => (natOf? bound s).map fun n => (n : Int)

/-- A line or column number: an unsigned numeral of 64 bits. -/
def wordOf? (s : List Char) : Option Nat := natOf? UInt64.size s

/-- The character of a digit below sixteen. -/
def digitChar (d : Nat) : Char := if d < 10 then Char.ofNat (48 + d) else Char.ofNat (87 + d)

/-- Write the digits of `value` in a base in front of `written`, last digit first, until the value
is used up or no place is left. -/
def fillDigits (base : Nat) : Nat → Nat → List Char → List Char
  | 0, _, written => written
  | places + 1, value, written =>
    let written := digitChar (value % base) :: written
    if value / base = 0 then written else fillDigits base places (value / base) written

/-- `value` right-aligned in at least `width` columns. -/
def alignRight (width : Nat) (value : Nat) : String :=
  let digits := toString value
  String.ofList (List.replicate (width - digits.length) ' ') ++ digits

end LiveC.Text
