/-!
# Punycode

A domain label with characters beyond ASCII is written in ASCII: its ASCII characters, a hyphen,
and a number system that tells which other characters stand where.
-/

namespace Licensing.Punycode

/-- The digit base. -/
def base : Nat := 36

/-- The bias adapted to the size of the last step. -/
def adapt (delta points : Nat) (first : Bool) : Nat :=
  let delta := if first then delta / 700 else delta / 2
  let rec reduce : Nat → Nat → Nat → Nat
    | 0, delta, k => k + 36 * delta / (delta + 38)
    | fuel + 1, delta, k =>
      if 455 < delta then reduce fuel (delta / 35) (k + base) else k + 36 * delta / (delta + 38)
  reduce 64 (delta + delta / points) 0

/-- The character of a digit. -/
def digit (n : Nat) : Char :=
  if n < 26 then Char.ofNat (97 + n) else Char.ofNat (22 + n)

/-- The value of a digit. -/
def digitValue? (c : Char) : Option Nat :=
  if 'a' ≤ c ∧ c ≤ 'z' then some (c.toNat - 97)
  else if '0' ≤ c ∧ c ≤ '9' then some (c.toNat - 22)
  else none

/-- The threshold of a digit's place. -/
def threshold (k bias : Nat) : Nat :=
  if k ≤ bias then 1 else if bias + 26 ≤ k then 26 else k - bias

/-- The digits of a number. -/
def number (bias : Nat) : Nat → Nat → Nat → List Char
  | 0, _, _ => []
  | fuel + 1, k, q =>
    let t := threshold k bias
    if q < t then [digit q]
    else digit (t + (q - t) % (base - t)) :: number bias fuel (k + base) ((q - t) / (base - t))

/-- The state of encoding. -/
structure Encoder where
  /-- The step so far. -/
  delta : Nat
  /-- The bias. -/
  bias : Nat
  /-- How many characters are written. -/
  handled : Nat
  /-- The digits, in reverse. -/
  output : List Char

/-- Writes the places of one character. -/
def encodePoint (label : List Nat) (basic n : Nat) (e : Encoder) : Encoder :=
  label.foldl (fun e c ↦
    if c < n then { e with delta := e.delta + 1 }
    else if c = n then
      { delta := 0
        bias := adapt e.delta (e.handled + 1) (e.handled = basic)
        handled := e.handled + 1
        output := (number e.bias 64 base e.delta).reverse ++ e.output }
    else e) e

/-- Writes the characters from `n` on, in ascending order. -/
def encodeFrom (label : List Nat) (basic : Nat) : Nat → Nat → Encoder → Encoder
  | 0, _, e => e
  | fuel + 1, n, e =>
    match (label.filter (n ≤ ·)).min? with
    | none => e
    | some m =>
      let e := { e with delta := e.delta + (m - n) * (e.handled + 1) }
      let e := encodePoint label basic m e
      encodeFrom label basic fuel (m + 1) { e with delta := e.delta + 1 }

/-- A label in ASCII, without the mark that it is encoded. -/
def encode (label : List Char) : List Char :=
  let points := label.map Char.toNat
  let basic := label.filter (·.toNat < 128)
  let start : Encoder := ⟨0, 72, basic.length, []⟩
  let e := encodeFrom points basic.length (label.length + 1) 128 start
  basic ++ (if basic.isEmpty then [] else ['-']) ++ e.output.reverse

/-- The state of decoding. -/
structure Decoder where
  /-- The characters. -/
  output : List Nat
  /-- The last character. -/
  n : Nat
  /-- Its place. -/
  i : Nat
  /-- The bias. -/
  bias : Nat

/-- The number that digits start with, with the digits behind it. -/
def readNumber (bias : Nat) : Nat → Nat → Nat → List Char → Option (Nat × List Char)
  | _, _, _, [] => none
  | k, weight, value, c :: cs => match digitValue? c with
    | none => none
    | some d =>
      let value := value + d * weight
      let t := threshold k bias
      if d < t then some (value, cs) else readNumber bias (k + base) (weight * (base - t)) value cs

/-- Puts the characters of digits to their places. -/
def decodeDigits : Nat → Decoder → List Char → Option Decoder
  | _, d, [] => some d
  | 0, _, _ => none
  | fuel + 1, d, cs => match readNumber d.bias base 1 0 cs with
    | none => none
    | some (step, rest) =>
      let count := d.output.length + 1
      let i := d.i + step
      let n := d.n + i / count
      if !n.isValidChar then none
      else
        let place := i % count
        decodeDigits fuel ⟨d.output.take place ++ n :: d.output.drop place, n, place + 1,
          adapt step count (d.i = 0)⟩ rest

/-- The label that is written in ASCII, without the mark. -/
def decode? (cs : List Char) : Option (List Char) :=
  let reversed := cs.reverse
  let digits := (reversed.takeWhile (· ≠ '-')).reverse
  let basic := (reversed.drop (digits.length + 1)).reverse
  if basic.any (128 ≤ ·.toNat) then none
  else (decodeDigits (cs.length + 1) ⟨basic.map Char.toNat, 128, 0, 72⟩ digits).map fun d ↦
    d.output.map Char.ofNat

end Licensing.Punycode
