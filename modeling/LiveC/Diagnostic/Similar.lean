/-!
# Similar names

`similarNames` picks the candidates most like a target under any score; `jaroWinkler` is the score
in use. It counts the characters that two names share at nearly the same place, less half of those
that stand in another order, and adds a bonus for a common beginning.
-/

namespace LiveC

/-- Up to `limit` candidates that differ from the target and pass the threshold, best first; equal
scores keep the order of the candidates. -/
def similarNames {κ : Type} (score : String → String → κ) (passes : κ → Bool)
    (atLeast : κ → κ → Bool) (target : String) (candidates : List String) (limit : Nat) :
    List String :=
  let scored := (candidates.filter (· != target)).map fun c => (c, score target c)
  let passing := scored.filter fun c => passes c.2
  ((passing.mergeSort fun a b => atLeast a.2 b.2).take limit).map (·.1)

namespace JaroWinkler

/-- How far apart two equal characters may stand and still match. -/
def reach (a b : List Char) : Nat := max a.length b.length / 2 - 1

/-- The first place from `lo` on, below `hi`, where `b` has the character and is not yet used. -/
def firstFree (c : Char) (b : Array Char) (used : Array Bool) (lo : Nat) : Nat → Option Nat
  | 0 => none
  | room + 1 =>
    if b[lo]? == some c && used[lo]? == some false then some lo
    else firstFree c b used (lo + 1) room

/-- Match the characters of a name from left to right, each with the first free one in reach: the
matched characters of the first name, and which places of the second are used. -/
def matchFrom (reach : Nat) (b : Array Char) :
    Nat → List Char → Array Bool → List Char → List Char × Array Bool
  | _, [], used, found => (found.reverse, used)
  | i, c :: r, used, found =>
    let lo := i - reach
    let hi := min b.size (i + reach + 1)
    match firstFree c b used lo (hi - lo) with
    | some j => matchFrom reach b (i + 1) r (used.setIfInBounds j true) (c :: found)
    | none => matchFrom reach b (i + 1) r used found

/-- The matched characters of both names, each in its own order. -/
def matching (a b : List Char) : List Char × List Char :=
  let (inFirst, used) := matchFrom (reach a b) b.toArray 0 a (Array.replicate b.length false) []
  (inFirst, ((b.zip used.toList).filter (·.2)).map (·.1))

/-- How alike two names are, from zero to one: the mean of the matched shares of both names and of
the matched characters that stand in order. -/
def jaro (a b : List Char) : Float :=
  if a.isEmpty && b.isEmpty then 1.0
  else
    let (xs, ys) := matching a b
    if xs.isEmpty then 0.0
    else
      let m := Float.ofNat xs.length
      let crossed := ((xs.zip ys).filter fun p => p.1 != p.2).length / 2
      (m / Float.ofNat a.length + m / Float.ofNat b.length + (m - Float.ofNat crossed) / m) / 3.0

/-- The length of the common beginning of two names. -/
def commonStart : List Char → List Char → Nat
  | x :: xs, y :: ys => if x == y then commonStart xs ys + 1 else 0
  | _, _ => 0

end JaroWinkler

/-- How alike two names are, with a bonus of up to four characters of common beginning for those
that are alike already. -/
def jaroWinkler (a b : String) : Float :=
  let s := JaroWinkler.jaro a.toList b.toList
  if s > 0.7 then
    s + 0.1 * Float.ofNat (min 4 (JaroWinkler.commonStart a.toList b.toList)) * (1.0 - s)
  else s

/-- Up to `limit` candidates whose likeness to the target exceeds the threshold. -/
def likeNames (target : String) (candidates : List String) (threshold : Float) (limit : Nat) :
    List String :=
  similarNames jaroWinkler (fun s => s > threshold) (fun a b => a ≥ b) target candidates limit

end LiveC
