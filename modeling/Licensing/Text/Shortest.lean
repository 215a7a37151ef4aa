/-!
# The shortest decimal of a binary fraction

A 64-bit floating-point number stands for every real number that rounds to it. Among the
decimals in that interval, those with the fewest digits are the shortest, and of these the
nearest to the number is its shortest decimal. The search tries one digit, then two, and so
on up to seventeen, which always suffice; for each count only the two neighbours of the
number on the grid of that many digits need to be tried. All arithmetic is exact.
-/

namespace Licensing.Shortest

/-- A positive decimal: digits, and the power of ten that they count. -/
structure Decimal where
  /-- The digits as a number. -/
  digits : Nat
  /-- The power of ten of the last digit. -/
  power : Int
deriving DecidableEq, Repr

/-- A positive number with the interval of the reals that round to it, as fractions of one
denominator. -/
structure Interval where
  /-- The numerator of the number. -/
  value : Nat
  /-- The numerator of the lower end. -/
  low : Nat
  /-- The numerator of the upper end. -/
  high : Nat
  /-- The denominator. -/
  unit : Nat
  /-- Whether the ends round to the number too. -/
  closed : Bool

/-- The first number of 64 bits with the bit for the sign. -/
def signBit : Nat := 0x8000000000000000

/-- The first number with more bits than a fraction has. -/
def fractionEnd : Nat := 0x10000000000000

/-- The interval of a finite positive number with the given bits. -/
def Interval.ofBits (bits : Nat) : Interval :=
  let biased := bits / fractionEnd % 0x800
  let fraction := bits % fractionEnd
  let m := if biased = 0 then fraction else fractionEnd + fraction
  let scale := Nat.pow 2 (max biased 1 - 1)
  let below := if fraction = 0 ∧ 1 < biased then 1 else 2
  { value := 4 * m * scale
    low := (4 * m - below) * scale
    high := (4 * m + 2) * scale
    unit := 4 * Nat.pow 2 1074
    closed := m % 2 = 0 }

/-- The power of ten of the first digit of a positive fraction, searched upwards from `k` in
`fuel` steps: the first one whose next power exceeds it. -/
def leadingPower (num den : Nat) : Nat → Int → Int
  | 0, k => k
  | fuel + 1, k =>
    let next := k + 1
    let exceeds := if 0 ≤ next then num < Nat.pow 10 next.toNat * den
      else num * Nat.pow 10 (-next).toNat < den
    if exceeds then k else leadingPower num den fuel next

/-- A decimal as a numerator over the denominator of an interval, times a common factor; the
factor comes second. -/
def Decimal.over (d : Decimal) (i : Interval) : Nat × Nat :=
  if 0 ≤ d.power then (d.digits * Nat.pow 10 d.power.toNat * i.unit, 1)
  else (d.digits * i.unit, Nat.pow 10 (-d.power).toNat)

/-- Whether a decimal lies in the interval. -/
def Interval.holds (i : Interval) (d : Decimal) : Bool :=
  let (n, f) := d.over i
  if i.closed then i.low * f ≤ n && n ≤ i.high * f else i.low * f < n && n < i.high * f

/-- How far a decimal is from the number, times the common factor. -/
def Interval.distance (i : Interval) (d : Decimal) : Nat :=
  let (n, f) := d.over i
  (n - i.value * f) + (i.value * f - n)

/-- The better of the number's two neighbours on a grid, when one of them is in the interval. -/
def Interval.onGrid (i : Interval) (power : Int) : Option Decimal :=
  let floor := if 0 ≤ power then i.value / (Nat.pow 10 power.toNat * i.unit)
    else i.value * Nat.pow 10 (-power).toNat / i.unit
  let down : Decimal := ⟨floor, power⟩
  let up : Decimal := ⟨floor + 1, power⟩
  match i.holds down && floor != 0, i.holds up with
  | true, true => some (if i.distance up < i.distance down then up else down)
  | true, false => some down
  | false, true => some up
  | false, false => none

/-- Tries grids of more and more digits, the first of them at `power`. -/
def Interval.search (i : Interval) : Nat → Int → Decimal
  | 0, power => ⟨0, power⟩
  | fuel + 1, power => match i.onGrid power with
    | some d => d
    | none => i.search fuel (power - 1)

/-- Drops the zeros that the digits end with. -/
def Decimal.reduced (d : Decimal) : Nat → Decimal
  | 0 => d
  | fuel + 1 => if d.digits ≠ 0 ∧ d.digits % 10 = 0
    then Decimal.reduced ⟨d.digits / 10, d.power + 1⟩ fuel else d

/-- The shortest decimal of a finite positive number with the given bits. -/
def ofBits (bits : Nat) : Decimal :=
  let i := Interval.ofBits bits
  let first := leadingPower i.value i.unit 640 (-325)
  (i.search 18 first).reduced 20

/-- Digits with a point before the power of ten zero, and with zeros where none are known:
`0.25`, `1`, `1200`. -/
def Decimal.positional (d : Decimal) : String :=
  let ds := Nat.toDigits 10 d.digits
  if 0 ≤ d.power then String.ofList (ds ++ List.replicate d.power.toNat '0')
  else
    let places := (-d.power).toNat
    let padded := List.replicate (places + 1 - ds.length) '0' ++ ds
    let whole := padded.length - places
    String.ofList (padded.take whole ++ '.' :: padded.drop whole)

end Licensing.Shortest
