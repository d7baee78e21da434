import Flatsheet.Text.Basic

/-!
Bytes written in base 64.
-/

namespace Flatsheet.Yaml.Binary

/-- The value of a character of the base-64 alphabet. -/
def sextet? (c : Char) : Option Nat :=
  if 'A' ≤ c ∧ c ≤ 'Z' then some (c.toNat - 65)
  else if 'a' ≤ c ∧ c ≤ 'z' then some (c.toNat - 71)
  else if '0' ≤ c ∧ c ≤ '9' then some (c.toNat + 4)
  else if c = '+' then some 62
  else if c = '/' then some 63
  else none

/-- Decodes base 64. `filled` sextets of a group have been read, of which `bits` holds what is not
yet in a byte, and `pads` padding characters after them. Characters outside the alphabet are
skipped. -/
def decodeFrom : (filled pads bits : Nat) → Text → Option (List UInt8)
  | filled, _, _, [] => if filled = 0 then some [] else none
  | filled, pads, bits, c :: text =>
      if c = '=' then
        if 2 ≤ filled then
          if 4 ≤ filled + pads + 1 then some [] else decodeFrom filled (pads + 1) bits text
        else decodeFrom filled pads bits text
      else match sextet? c with
        | none => decodeFrom filled pads bits text
        | some sextet =>
            match filled with
            | 0 => decodeFrom 1 0 sextet text
            | 1 => do
                let rest ← decodeFrom 2 0 (sextet % 16) text
                return UInt8.ofNat (bits * 4 + sextet / 16) :: rest
            | 2 => do
                let rest ← decodeFrom 3 0 (sextet % 4) text
                return UInt8.ofNat (bits * 16 + sextet / 4) :: rest
            | _ => do
                let rest ← decodeFrom 0 0 0 text
                return UInt8.ofNat (bits * 64 + sextet) :: rest

def decode? (text : Text) : Option (List UInt8) :=
  if text.all (·.toNat < 0x80) then decodeFrom 0 0 0 text else none

end Flatsheet.Yaml.Binary
