/-! Doubles in decimal. Reading multiplies or divides an integer by a power of ten in double
arithmetic; writing takes the fewest decimal digits that only this double is nearest to. -/

namespace FormatGraph.Double

def maxPower : Nat := 308

def powerOfTen (n : Nat) : Float := Float.ofScientific 1 false n

def shrink (f : Float) (n : Nat) : Float :=
  if n ≤ maxPower then f / powerOfTen n
  else if f == 0 then f
  else shrink (f / powerOfTen maxPower) (n - maxPower)
termination_by n
decreasing_by simp only [maxPower] at *; omega

def grow? (f : Float) (n : Nat) : Option Float :=
  if n ≤ maxPower then
    let g := f * powerOfTen n
    if g.isInf then none else some g
  else if f == 0 then some f
  else none

def ofDecimal? (negative : Bool) (significand : Nat) (exponent : Int) : Option UInt64 :=
  let f := (UInt64.ofNat significand).toFloat
  let scaled? := if 0 ≤ exponent then grow? f exponent.toNat else some (shrink f (-exponent).toNat)
  scaled?.map fun g => (if negative then -g else g).toBits

/-- A positive double taken apart: it is `mantissa * 2 ^ exponent`, and `narrow` says that the
double below it is only half as far away as the one above. -/
structure Parts where
  mantissa : Nat
  exponent : Int
  narrow : Bool
  deriving Repr

def fractionSize : Nat := Nat.pow 2 52

def exponentSize : Nat := Nat.pow 2 11

def parts (bits : UInt64) : Parts :=
  let field : Nat := bits.toNat / fractionSize % exponentSize
  let fraction : Nat := bits.toNat % fractionSize
  if field = 0 then ⟨fraction, -1074, false⟩
  else ⟨fractionSize + fraction, (field : Int) - 1075, fraction = 0 && 1 < field⟩

def leadingPower (num den : Nat) : Int :=
  if den ≤ num then ((Nat.toDigits 10 (num / den)).length : Int) - 1
  else
    let reaches (t : Nat) : Bool := den ≤ num * Nat.pow 10 (t + 1)
    let shift : Nat := ((List.range 400).find? reaches).getD 0
    Int.negSucc shift

/-- The decimal with `count` digits nearest to the double among those that read back as it: the
number made of the digits. The double is `4 * mantissa` units of `unitNum / unitDen`. -/
def digitsOf? (p : Parts) (power : Int) (count : Nat) : Option Nat :=
  let unit := p.exponent - 2
  let step := power - count + 1
  -- Multiples of the step and of the unit, brought to one denominator.
  let stepScale := Nat.pow 10 step.toNat * Nat.pow 2 (-unit).toNat
  let unitScale := Nat.pow 2 unit.toNat * Nat.pow 10 (-step).toNat
  let value := 4 * p.mantissa * unitScale
  let low := (4 * p.mantissa - (if p.narrow then 1 else 2)) * unitScale
  let high := (4 * p.mantissa + 2) * unitScale
  let fits (n : Nat) : Bool :=
    let x := n * stepScale
    if p.mantissa % 2 = 0 then low ≤ x && x ≤ high else low < x && x < high
  let below := value / stepScale
  let above := below + 1
  match fits below, fits above with
  | true, true =>
    let down := value - below * stepScale
    let up := above * stepScale - value
    if down < up ∨ (down = up ∧ below % 2 = 0) then some below else some above
  | true, false => some below
  | false, true => some above
  | false, false => none

def shortest (p : Parts) : List Char × Int :=
  let power :=
    leadingPower (p.mantissa * Nat.pow 2 p.exponent.toNat) (Nat.pow 2 (-p.exponent).toNat)
  let withDigits? (k : Nat) : Option (Nat × Nat) := (digitsOf? p power (k + 1)).map (·, k + 1)
  let (n, count) := ((List.range 17).findSome? withDigits?).getD (0, 1)
  let power := if Nat.pow 10 count ≤ n then power + 1 else power
  let digits := ((Nat.toDigits 10 n).reverse.dropWhile (· = '0')).reverse
  (digits, power)

def isPositional (power : Int) : Bool := -5 ≤ power && power ≤ 15

def exponentChars (power : Int) : List Char :=
  let digits := Nat.toDigits 10 power.natAbs
  (if power < 0 then '-' else '+') :: (if digits.length < 2 then '0' :: digits else digits)

def layout (digits : List Char) (power : Int) : List Char :=
  if isPositional power then
    if power < 0 then "0.".toList ++ List.replicate (-power - 1).toNat '0' ++ digits
    else
      let whole := power.toNat + 1
      if digits.length ≤ whole then
        digits ++ List.replicate (whole - digits.length) '0' ++ ".0".toList
      else digits.take whole ++ '.' :: digits.drop whole
  else
    digits.take 1 ++ (if digits.length ≤ 1 then [] else '.' :: digits.drop 1) ++
      'e' :: exponentChars power

def chars (bits : UInt64) : List Char :=
  let sign := if bits.toNat < UInt64.size / 2 then [] else ['-']
  let p := parts bits
  if p.mantissa = 0 then sign ++ "0.0".toList
  else
    let (digits, power) := shortest p
    sign ++ layout digits power

end FormatGraph.Double
