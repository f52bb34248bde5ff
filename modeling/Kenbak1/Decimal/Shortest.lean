/-
  Kenbak1.Decimal.Shortest

  The shortest decimal text of a binary floating-point number: the fewest digits that still
  round to the number, and of those the nearest to it. All arithmetic is exact, on natural
  numbers.
-/

namespace Kenbak1.Decimal

/-! ## A number and its neighbours -/

/-- A finite positive number `significand * 2 ^ exponent` with the ends of the interval of
    reals that round to it, all in quarters of a unit in the last place. -/
structure Rounding where
  low : Nat
  value : Nat
  high : Nat
  /-- The ends belong to the interval. -/
  closed : Bool
  /-- The binary exponent of a quarter unit. -/
  exponent : Int

/-- The rounding interval of the number with the given bits, the sign bit left out. -/
def Rounding.ofBits (bits : UInt64) : Rounding :=
  let field := (bits.toNat / 0x10000000000000) % 0x800
  let fraction := bits.toNat % 0x10000000000000
  let significand := if field = 0 then fraction else fraction + 0x10000000000000
  let exponent : Int := (max field 1 : Nat) - 1075
  -- Below a power of two the neighbour is only half as far away.
  let low := if fraction = 0 ∧ field > 1 then 4 * significand - 1 else 4 * significand - 2
  { low
    value := 4 * significand
    high := 4 * significand + 2
    closed := significand % 2 = 0
    exponent := exponent - 2 }

/-- Numerator and denominator of `digits * 10 ^ power` in units of `2 ^ exponent`. -/
def asFraction (digits : Nat) (power exponent : Int) : Nat × Nat :=
  (digits * Nat.pow 10 power.toNat * Nat.pow 2 (-exponent).toNat,
    Nat.pow 10 (-power).toNat * Nat.pow 2 exponent.toNat)

/-- The decimal number rounds to the number of the interval. -/
def Rounding.contains (r : Rounding) (digits : Nat) (power : Int) : Bool :=
  let (n, d) := asFraction digits power r.exponent
  if r.closed then r.low * d ≤ n && n ≤ r.high * d else r.low * d < n && n < r.high * d

/-- The greatest multiple of `10 ^ power` that is not above the number. -/
def Rounding.floor (r : Rounding) (power : Int) : Nat :=
  let (n, d) := asFraction 1 power r.exponent
  r.value * d / n

/-- The lower neighbour on the grid of `10 ^ power` is at least as near as the upper one. -/
def Rounding.prefersLower (r : Rounding) (lower : Nat) (power : Int) : Bool :=
  let (n, d) := asFraction (2 * lower + 1) power r.exponent
  let twice := 2 * r.value * d
  if twice = n then lower % 2 = 0 else twice < n

/-- The decimal exponent of the first digit, searched downward from `power`. -/
def Rounding.firstPower (r : Rounding) : (steps : Nat) → (power : Int) → Int
  | 0, power => power
  | steps + 1, power =>
    if r.floor power = 0 then r.firstPower steps (power - 1) else power

/-- The nearest point of the grid of `10 ^ power` that rounds to the number, if one does. -/
def Rounding.onGrid (r : Rounding) (power : Int) : Option Nat :=
  let lower := r.floor power
  match r.contains lower power, r.contains (lower + 1) power with
  | true, true => some (if r.prefersLower lower power then lower else lower + 1)
  | true, false => some lower
  | false, true => some (lower + 1)
  | false, false => none

/-- The first grid, from `power` downward, with a point that rounds to the number. -/
def Rounding.search (r : Rounding) : (steps : Nat) → (power : Int) → Nat × Int
  | 0, power => (r.floor power, power)
  | steps + 1, power =>
    match r.onGrid power with
    | some digits => (digits, power)
    | none => r.search steps (power - 1)

/-- The shortest digits of a finite positive number and the power of ten of the last one. -/
def shortestDigits (bits : UInt64) : List Char × Int :=
  let r := Rounding.ofBits bits
  let (digits, power) := r.search 17 (r.firstPower 640 309)
  let written := Nat.toDigits 10 digits
  let kept := (written.reverse.dropWhile (· = '0')).reverse
  (kept, power + (written.length - kept.length : Nat))

/-! ## Layout -/

/-- The decimal exponents of a first digit for which a number is written positionally. -/
structure Layout where
  least : Int
  greatest : Int

/-- Numbers from 0.00001 up to sixteen digits before the point are written positionally. -/
def plainLayout : Layout := { least := -5, greatest := 15 }

/-- Digits with the power of ten of the last one, as text. A whole number keeps one zero
    behind the point, an exponent always has a sign. -/
def place (layout : Layout) (digits : List Char) (power : Int) : List Char :=
  let first := power + digits.length - 1
  if layout.least ≤ first ∧ first ≤ layout.greatest then
    if first < 0 then '0' :: '.' :: List.replicate (-first - 1).toNat '0' ++ digits
    else
      let whole := first.toNat + 1
      let tail := digits.drop whole
      digits.take whole ++ List.replicate (whole - digits.length) '0' ++ '.'
        :: (if tail = [] then ['0'] else tail)
  else
    let tail := digits.drop 1
    digits.take 1 ++ (if tail = [] then [] else '.' :: tail) ++ 'e'
      :: (if first < 0 then '-' else '+') :: Nat.toDigits 10 first.natAbs

/-- The shortest text of a finite number. -/
def shortest (x : Float) : String :=
  let bits := x.toBits
  let magnitude := bits &&& 0x7FFFFFFFFFFFFFFF
  let sign := if bits = magnitude then [] else ['-']
  let text :=
    if magnitude = 0 then ['0', '.', '0']
    else
      let (digits, power) := shortestDigits magnitude
      place plainLayout digits power
  String.ofList (sign ++ text)

end Kenbak1.Decimal
