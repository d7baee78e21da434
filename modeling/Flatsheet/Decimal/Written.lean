import Flatsheet.Decimal.Shortest

/-!
Binary floating-point numbers as they are written: with the fewest digits that read back.
-/

namespace Flatsheet.Decimal

/-- A positive number with digits `digits` and the point after `point` of them: positional from
0.0001 up to seventeen places before the point, and with an exponent of at least two digits beyond.
-/
def showDigits (digits : Text) (point : Int) : Text :=
  if -4 < point ∧ point ≤ 16 then
    if point ≤ 0 then '0' :: '.' :: List.replicate (-point).toNat '0' ++ digits
    else
      let whole := digits.take point.toNat
      let places := digits.drop point.toNat
      whole ++ List.replicate (point.toNat - whole.length) '0' ++ '.' ::
        (if places = [] then ['0'] else places)
  else
    let exponent := point - 1
    let power := Text.ofNat exponent.natAbs
    let places := digits.drop 1
    digits.take 1 ++ (if places = [] then [] else '.' :: places) ++ 'e' ::
      (if exponent < 0 then '-' else '+') :: List.replicate (2 - power.length) '0' ++ power

def withoutTrailingZeros (digits : Text) : Text := (digits.reverse.dropWhile (· == '0')).reverse

def showMagnitude (x : Float) : Text :=
  if x == 0.0 then "0.0"
  else
    let decimal := shortest (Binary.ofFloat x)
    let digits := Text.ofNat decimal.digits
    showDigits (withoutTrailingZeros digits) (digits.length + decimal.exponent)

def showFloat (x : Float) : Text :=
  if x.isNaN then "nan"
  else
    let magnitude : Text := if x.isInf then "inf" else showMagnitude x
    if x.toBits < 0x8000000000000000 then magnitude else '-' :: magnitude

end Flatsheet.Decimal
