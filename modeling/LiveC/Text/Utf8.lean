/-!
# Texts from bytes

`decodeLossy` reads any bytes as UTF-8: each longest beginning of a sequence that does not go on to
a character becomes one replacement character. `textOf?` reads well-formed bytes only.
-/

namespace LiveC.Text

/-- The character that stands for bytes that are none. -/
def replacement : Char := '\uFFFD'

/-- The second bytes that may follow a first byte of a longer sequence. -/
def secondRange (first : Nat) : Nat × Nat :=
  if first == 0xE0 then (0xA0, 0xBF)
  else if first == 0xED then (0x80, 0x9F)
  else if first == 0xF0 then (0x90, 0xBF)
  else if first == 0xF4 then (0x80, 0x8F)
  else (0x80, 0xBF)

/-- The number of bytes that a first byte asks for; zero if it cannot start a sequence. -/
def sequenceLength (first : Nat) : Nat :=
  if first < 0x80 then 1
  else if 0xC2 ≤ first && first ≤ 0xDF then 2
  else if 0xE0 ≤ first && first ≤ 0xEF then 3
  else if 0xF0 ≤ first && first ≤ 0xF4 then 4
  else 0

/-- Read the continuation bytes of a sequence: the value so far, and the bytes still missing. The
result is the character's code point, if the sequence is complete, and the bytes used. -/
def continueSequence (value : Nat) (used : Nat) : Nat → List UInt8 → Option Nat × Nat
  | 0, _ => (some value, used)
  | _ + 1, [] => (none, used)
  | missing + 1, b :: r =>
    if 0x80 ≤ b.toNat && b.toNat ≤ 0xBF then
      continueSequence (value * 64 + (b.toNat - 0x80)) (used + 1) missing r
    else (none, used)

/-- The code point at the start of some bytes, and how many bytes after the first belong to it. -/
def leadingCode (first : UInt8) (rest : List UInt8) : Option Nat × Nat :=
  let f := first.toNat
  match sequenceLength f with
  | 0 => (none, 0)
  | 1 => (some f, 0)
  | n =>
    let payload := if n == 2 then f - 0xC0 else if n == 3 then f - 0xE0 else f - 0xF0
    match rest with
    | [] => (none, 0)
    | b :: r =>
      let range := secondRange f
      if range.1 ≤ b.toNat && b.toNat ≤ range.2 then
        continueSequence (payload * 64 + (b.toNat - 0x80)) 1 (n - 2) r
      else (none, 0)

/-- The text that some bytes spell. -/
def decodeLossy : List UInt8 → List Char
  | [] => []
  | b :: r =>
    let code := leadingCode b r
    ((code.1.map Char.ofNat).getD replacement) :: decodeLossy (r.drop code.2)
termination_by bytes => bytes.length
decreasing_by simp only [List.length_drop, List.length_cons]; omega

/-- The text of well-formed bytes. -/
def textOf? (bytes : ByteArray) : Option String := String.fromUTF8? bytes

/-- The text of any bytes. -/
def textOf (bytes : ByteArray) : String :=
  (textOf? bytes).getD (String.ofList (decodeLossy bytes.data.toList))

/-- The text of the first `n` bytes of a text. -/
def cutToBytes (n : Nat) (s : String) : String :=
  if s.utf8ByteSize ≤ n then s else textOf (s.toUTF8.extract 0 n)

end LiveC.Text
