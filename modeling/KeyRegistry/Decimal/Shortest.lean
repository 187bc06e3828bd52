/-!
# Shortest decimals

A double stands for an interval of reals, those that round to it. Its shortest decimal has the
fewest digits that still lie in the interval, and of two of that length the nearer one. Decimals
of moderate size are written by position with at least one place, the others with an exponent of
at least two digits.

Main definitions:

* `Binary.ofFloat` — a finite double as a whole number times a power of two
* `shortest` — the digits and the exponent of the shortest decimal
* `text` — the decimal as it is written
-/

namespace KeyRegistry.Decimal

/-- A finite number `mantissa * 2 ^ exponent` with its sign. The step down to the next smaller
number is half as wide if `narrow`. -/
structure Binary where
  negative : Bool
  mantissa : Nat
  exponent : Int
  narrow : Bool

/-- A finite double taken apart. -/
def Binary.ofFloat (x : Float) : Binary :=
  let bits := x.toBits.toNat
  let fraction := bits % (1 <<< 52)
  let scale := (bits >>> 52) % (1 <<< 11)
  let negative := bits >>> 63 == 1
  if scale = 0 then ⟨negative, fraction, -1074, false⟩
  else ⟨negative, (1 <<< 52) + fraction, Int.ofNat scale - 1075, fraction = 0 ∧ 1 < scale⟩

/-- A whole number of digits times a power of ten. -/
structure Scaled where
  digits : Nat
  exponent : Int

/-- The number of decimal digits of a whole number. -/
def width (n : Nat) : Nat :=
  if n < 10 then 1 else width (n / 10) + 1

/-- Drops zeros at the end of the digits. -/
def Scaled.trim (d : Scaled) : Scaled :=
  if 0 < d.digits ∧ d.digits % 10 = 0 then trim ⟨d.digits / 10, d.exponent + 1⟩ else d
termination_by d.digits

/-- A positive number as a quotient, together with half the distances to its neighbours, in the
same unit: a quarter of the last place of the binary number. -/
structure Interval where
  value : Nat
  below : Nat
  above : Nat
  unit : Nat
  closed : Bool

/-- The interval of the reals that round to a number. -/
def Binary.interval (b : Binary) : Interval :=
  let up := 1 <<< (b.exponent - 2).toNat
  { value := 4 * b.mantissa * up
    below := (if b.narrow then 1 else 2) * up
    above := 2 * up
    unit := 1 <<< (2 - b.exponent).toNat
    closed := b.mantissa % 2 = 0 }

/-- A power of ten. -/
def tenTo (exponent : Nat) : Nat :=
  Nat.pow 10 exponent

/-- Whether a decimal lies in an interval. -/
def Interval.holds (i : Interval) (d : Scaled) : Bool :=
  let point := d.digits * tenTo d.exponent.toNat * i.unit
  let scale := tenTo (-d.exponent).toNat
  if i.closed then (i.value - i.below) * scale ≤ point && point ≤ (i.value + i.above) * scale
  else (i.value - i.below) * scale < point && point < (i.value + i.above) * scale

/-- Twice the distance of a decimal to the value of an interval, in a unit of its own. -/
def Interval.distance (i : Interval) (d : Scaled) : Nat :=
  let point := d.digits * tenTo d.exponent.toNat * i.unit
  let value := i.value * tenTo (-d.exponent).toNat
  if point ≤ value then value - point else point - value

/-- The largest decimal with the given exponent that is not above the value of an interval. -/
def Interval.floor (i : Interval) (exponent : Int) : Nat :=
  i.value * tenTo (-exponent).toNat / (i.unit * tenTo exponent.toNat)

/-- The best decimal with the given exponent, if one lies in the interval. An exact tie goes to
the even neighbour. -/
def Interval.best? (i : Interval) (exponent : Int) : Option Scaled :=
  let low : Scaled := ⟨i.floor exponent, exponent⟩
  let high : Scaled := ⟨i.floor exponent + 1, exponent⟩
  match i.holds low, i.holds high with
  | true, true =>
    if i.distance low < i.distance high then some low
    else if i.distance high < i.distance low then some high
    else if low.digits % 2 = 0 then some low else some high
  | true, false => some low
  | false, true => some high
  | false, false => none

/-- The exponent of the first digit of a positive quotient. -/
def Interval.magnitude (i : Interval) : Int :=
  if i.unit ≤ i.value then (width (i.value / i.unit) : Int) - 1
  else -(width ((i.unit - 1) / i.value) : Int)

/-- The shortest decimal of a positive number; seventeen digits always suffice. -/
def shortest (b : Binary) : Scaled :=
  let i := b.interval
  let exponents := (List.range 17).map fun count => i.magnitude - Int.ofNat count
  ((exponents.findSome? i.best?).getD ⟨0, 0⟩).trim

/-- Digits and at least one place behind the point, or an exponent of at least two digits. -/
def Scaled.text (d : Scaled) : String :=
  let digits := toString d.digits
  let size := digits.length
  let magnitude := d.exponent + size - 1
  if magnitude < -4 ∨ 15 < magnitude then
    let lead := (digits.take 1).toString
    let places := if size = 1 then "" else "." ++ (digits.drop 1).toString
    let power := toString magnitude.natAbs
    let sign := if magnitude < 0 then "-" else "+"
    lead ++ places ++ "e" ++ sign ++ (if power.length < 2 then "0" else "") ++ power
  else if magnitude < 0 then
    "0." ++ String.ofList (List.replicate (-magnitude - 1).toNat '0') ++ digits
  else if 0 ≤ d.exponent then
    digits ++ String.ofList (List.replicate d.exponent.toNat '0') ++ ".0"
  else
    let whole := magnitude.toNat + 1
    (digits.take whole).toString ++ "." ++ (digits.drop whole).toString

/-- A finite double as it is written. -/
def text (x : Float) : String :=
  let b := Binary.ofFloat x
  (if b.negative then "-" else "") ++ (if b.mantissa = 0 then "0.0" else (shortest b).text)

end KeyRegistry.Decimal
