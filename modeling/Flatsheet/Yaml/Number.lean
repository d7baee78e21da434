import Flatsheet.Decimal.Nearest
import Flatsheet.Text.Digit
import Flatsheet.Yaml.Error

/-!
The numbers that scalars write. A scalar may be tagged as a number whatever it looks like, so there
is more to read here than the look of plain numbers allows: blanks around a number, digits of any
script, a second sign.
-/

namespace Flatsheet.Yaml.Number

def withoutUnderscores (content : Content) : Content := content.filter (· != .char '_')

/-- The blanks that may stand around a number. -/
def isMargin (c : Char) : Bool :=
  (0x09 ≤ c.toNat && c.toNat ≤ 0x0d) || c == ' ' || (0x80 ≤ c.toNat && isBlank c)

/-- A digit of any script as an ASCII digit. -/
def plainDigit (c : Char) : Char :=
  match digitValue? c with
  | some value => Char.ofNat (48 + value)
  | none => c

/-- What is left to read as a number: the text without the blanks around it and with plain digits.
-/
def numeral? (content : Content) : Option Text := do
  let text ← content.text?
  let start := text.dropWhile isMargin
  return ((start.reverse.dropWhile isMargin).reverse).map plainDigit

/-- Takes a sign away, and says whether it is a minus. -/
def sign : Text → Bool × Text
  | '-' :: text => (true, text)
  | '+' :: text => (false, text)
  | text => (false, text)

def negateIf (negative : Bool) (value : Nat) : Int := if negative then -value else value

/-- The value of a letter or digit as a digit. -/
def digit? (c : Char) : Option Nat :=
  if c.isDigit then some (c.toNat - 48)
  else if 'a' ≤ c ∧ c ≤ 'z' then some (c.toNat - 87)
  else if 'A' ≤ c ∧ c ≤ 'Z' then some (c.toNat - 55)
  else none

def isDigitIn (base : Nat) (c : Char) : Bool := (digit? c).any (· < base)

def digitsValue (base : Nat) (digits : Text) : Nat :=
  digits.foldl (fun value c => base * value + (digit? c).getD 0) 0

/-- The letter after a zero that may tell a base. -/
def baseLetters : List (Nat × Text) := [(2, "bB"), (8, "oO"), (16, "xX")]

def dropBaseMark (base : Nat) : Text → Text
  | '0' :: letter :: digits =>
      if ((baseLetters.lookup base).getD []).contains letter then digits
      else '0' :: letter :: digits
  | digits => digits

/-- A whole number in a base. In base ten the number of digits is limited. -/
def whole (base : Nat) (content : Content) : Except Error Int :=
  match numeral? content with
  | none => .error (.integer base content)
  | some text =>
      let (negative, unsigned) := sign text
      let numeral := dropBaseMark base unsigned
      let digits := numeral.takeWhile (isDigitIn base)
      if base = 10 ∧ digitLimit < digits.length then .error (.integerSize digits.length)
      else if digits = [] ∨ digits.length < numeral.length then .error (.integer base content)
      else .ok (negateIf negative (digitsValue base digits))

/-- A whole number without its sign: binary, hexadecimal or octal if a zero comes first, in base
sixty if there are colons, and otherwise decimal. -/
def unsignedInt (content : Content) : Except Error Int :=
  match content with
  | [] => .error .emptyNumber
  | [.char '0'] => .ok 0
  | .char '0' :: .char 'b' :: digits => whole 2 digits
  | .char '0' :: .char 'x' :: digits => whole 16 digits
  | .char '0' :: _ => whole 8 content
  | _ => do
      let groups ← content.splitAtColons.mapM (whole 10)
      return groups.foldl (fun value group => 60 * value + group) 0

/-- Takes the sign of a scalar away, which must have something. -/
def takeSign : Content → Except Error (Bool × Content)
  | [] => .error .emptyNumber
  | .char '-' :: content => .ok (true, content)
  | .char '+' :: content => .ok (false, content)
  | content => .ok (false, content)

def int (content : Content) : Except Error Int := do
  let (negative, digits) ← takeSign (withoutUnderscores content)
  let value ← unsignedInt digits
  return if negative then -value else value

def infinity : Float := 1.0 / 0.0

def notANumber : Float := 0.0 / 0.0

def negateFloatIf (negative : Bool) (value : Float) : Float := if negative then -value else value

/-- The exponent that ends a number; zero if there is none. -/
def exponent? : Text → Option Int
  | [] => some 0
  | mark :: text =>
      let (negative, digits) := sign text
      if mark = 'e' ∧ digits ≠ [] ∧ digits.all Char.isDigit then
        some (negateIf negative (digitsValue 10 digits))
      else none

/-- The number that digits with a point and an exponent write. -/
def decimal? (text : Text) : Option Float := do
  let (digits, rest) := (text.takeWhile Char.isDigit, text.dropWhile Char.isDigit)
  let (places, rest) :=
    match rest with
    | '.' :: rest => (rest.takeWhile Char.isDigit, rest.dropWhile Char.isDigit)
    | _ => ([], rest)
  if digits = [] ∧ places = [] then none
  let exponent ← exponent? rest
  return Decimal.toFloat ⟨digitsValue 10 (digits ++ places), exponent - places.length⟩

/-- The words for numbers that no digits write. -/
def floatWords : List (Text × Float) :=
  [("inf", infinity), ("infinity", infinity), ("nan", notANumber)]

def pointed (content : Content) : Except Error Float :=
  let value := do
    let (negative, text) := sign (← numeral? content)
    let magnitude ← (floatWords.lookup text).or (decimal? text)
    return negateFloatIf negative magnitude
  match value with
  | some value => .ok value
  | none => .error (.float content)

/-- The value of groups in base sixty, the last of which counts ones. Each power of sixty must be a
number with a point itself. -/
def sixtieths (groups : List Float) : Except Error Float := do
  let (sum, _) ← groups.reverse.foldlM (fun (sum, power) group =>
    let weight := Decimal.toFloat ⟨power, 0⟩
    if weight.isInf then .error Error.floatSize else .ok (sum + group * weight, power * 60))
    ((0.0, 1) : Float × Nat)
  return sum

def float (content : Content) : Except Error Float := do
  let (negative, digits) ← takeSign (withoutUnderscores content).lower
  if digits = .ofText ".nan" then return notANumber
  let value ←
    if digits = .ofText ".inf" then pure infinity
    else if digits.contains (.char ':') then do sixtieths (← digits.splitAtColons.mapM pointed)
    else pointed digits
  return negateFloatIf negative value

end Flatsheet.Yaml.Number
