import LiveC.Text.Numeral
import Mathlib.Data.Nat.Digits.Defs
/-!
# Reading a numeral back

The numeral that `toString` writes for a number is read back as that number: by `digitsValue?` for
every number, and by `wordOf?` for those of 64 bits.
-/

namespace LiveC.Text

theorem digitOf?_of_isDigit {c : Char} (h : c.isDigit = true) :
    digitOf? c = some (c.toNat - '0'.toNat) := if_pos h

/-- The value of some digits is what they add up to. -/
theorem foldl_digitOf? {s : List Char} (h : ∀ c ∈ s, c.isDigit = true) (v : Nat) :
    s.foldl (fun v c => v.bind fun v => (digitOf? c).map fun d => 10 * v + d) (some v) =
      some (Nat.ofDigitChars 10 s v) := by
  induction s generalizing v with
  | nil => rfl
  | cons c s ih =>
    rw [List.foldl_cons, digitOf?_of_isDigit (h c (by simp)), Nat.ofDigitChars_cons]
    exact ih (fun d hd => h d (by simp [hd])) _

theorem isDigit_of_mem_toString {n : Nat} {c : Char} (h : c ∈ (toString n).toList) :
    c.isDigit = true := by
  rw [Nat.toString_eq_ofList_toDigits, String.toList_ofList] at h
  exact Nat.isDigit_of_mem_toDigits (by decide) (by decide) h

/-- A numeral has no line feed. -/
theorem feed_notMem_toString (n : Nat) : '\n' ∉ (toString n).toList := fun h =>
  absurd (isDigit_of_mem_toString h) (by decide)

theorem toList_toString_ne_nil (n : Nat) : (toString n).toList ≠ [] := by
  rw [Nat.toString_eq_ofList_toDigits, String.toList_ofList]
  exact Nat.toDigits_ne_nil

/-- A numeral is read back as its number. -/
theorem digitsValue?_toString (n : Nat) : digitsValue? (toString n).toList = some n := by
  rw [digitsValue?, List.isEmpty_eq_false_iff.2 (toList_toString_ne_nil n), if_neg (by simp),
    foldl_digitOf? fun c hc => isDigit_of_mem_toString hc, Nat.toString_eq_ofList_toDigits,
    String.toList_ofList, Nat.ofDigitChars_ten_toDigits]

/-- The numeral of a number of 64 bits is read back as that number. -/
theorem wordOf?_toString {n : Nat} (h : n < UInt64.size) :
    wordOf? (toString n).toList = some n := by
  have hplus : ∀ r, (toString n).toList ≠ '+' :: r := by
    intro r hr
    have hdigit := isDigit_of_mem_toString (n := n) (c := '+') (by rw [hr]; simp)
    exact absurd hdigit (by decide)
  rw [wordOf?, natOf?, digitsValue?_toString]
  · simpa using h
  · exact hplus

end LiveC.Text
