import Flatsheet.Text.Basic

/-!
The shortest decimal that reads back as a given binary floating-point number. Of the decimals with
the fewest digits among those nearer to the number than to any other, it is the nearest.
-/

namespace Flatsheet

/-- The decimal `digits · 10 ^ exponent`. -/
structure Decimal where
  digits : Nat
  exponent : Int
deriving DecidableEq, Repr

namespace Decimal

/-- A finite number `mantissa · 2 ^ exponent`. The flag says that the number below it is only half
as far away as the one above. -/
structure Binary where
  mantissa : Nat
  exponent : Int
  isLowest : Bool
deriving DecidableEq, Repr

/-- The magnitude of a finite number. -/
def Binary.ofFloat (x : Float) : Binary :=
  let bits := x.toBits.toNat
  let field : Nat := (bits >>> 52) % 0x800
  let fraction : Nat := bits % 0x10000000000000
  if field = 0 then ⟨fraction, -1074, false⟩
  else ⟨0x10000000000000 + fraction, (field : Int) - 1075, fraction == 0 && 1 < field⟩

/-- The decimals that read back as a number: those between two bounds, of which the bounds count if
`closed`. All are in units of `1 / unit`. -/
structure Interval where
  low : Nat
  value : Nat
  high : Nat
  unit : Nat
  closed : Bool

def Interval.ofBinary (x : Binary) : Interval :=
  let scale := Nat.pow 2 (x.exponent - 2).toNat
  let value := 4 * x.mantissa
  ⟨(if x.isLowest then value - 1 else value - 2) * scale, value * scale, (value + 2) * scale,
    Nat.pow 2 (2 - x.exponent).toNat, x.mantissa % 2 == 0⟩

/-- The interval in units of `10 ^ exponent`, as a fraction. -/
def Interval.scaled (interval : Interval) (exponent : Int) : Interval :=
  let up := Nat.pow 10 (-exponent).toNat
  ⟨interval.low * up, interval.value * up, interval.high * up,
    interval.unit * Nat.pow 10 exponent.toNat, interval.closed⟩

/-- Whether a whole number lies in the interval. -/
def Interval.holds (interval : Interval) (digits : Nat) : Bool :=
  let scaled := digits * interval.unit
  if interval.closed then interval.low ≤ scaled && scaled ≤ interval.high
  else interval.low < scaled && scaled < interval.high

/-- The whole number in the interval that is nearest to its value, if one of the two neighbours of
the value lies in it. -/
def Interval.nearest? (interval : Interval) : Option Nat :=
  let below := interval.value / interval.unit
  let remainder := interval.value % interval.unit
  match interval.holds below, interval.holds (below + 1) with
  | true, true =>
      let isBelow := 2 * remainder < interval.unit ∨
        (2 * remainder = interval.unit ∧ below % 2 = 0)
      some (if isBelow then below else below + 1)
  | true, false => some below
  | false, true => some (below + 1)
  | false, false => none

/-- The exponent of the first digit of `value / unit`, which is not zero. -/
def Interval.magnitude (interval : Interval) : Int :=
  let guess : Int := (Text.ofNat interval.value).length - (Text.ofNat interval.unit).length
  let atLeast := fun (exponent : Int) =>
    interval.unit * Nat.pow 10 exponent.toNat ≤ interval.value * Nat.pow 10 (-exponent).toNat
  if atLeast guess then guess else guess - 1

/-- The first hit when looking for decimals of one digit, of two, and so on; seventeen always do. -/
def shortest (x : Binary) : Decimal :=
  let interval := Interval.ofBinary x
  let magnitude := interval.magnitude
  let tries := (List.range 17).findSome? fun (places : Nat) =>
    let exponent := magnitude - places
    ((interval.scaled exponent).nearest?).map fun digits => (⟨digits, exponent⟩ : Decimal)
  tries.getD ⟨0, 0⟩

end Decimal

end Flatsheet
