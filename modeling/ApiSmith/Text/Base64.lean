import ApiSmith.Text.Word

/-!
# Base64

Three octets are written as four characters, padded with `=`. Reading is strict (only the alphabet
and padding at the end) or passes over other characters and over what follows the padding. Bits left
over in the last character are dropped, and padding after a complete group is accepted.
-/

namespace ApiSmith.Text.Base64

def digit (n : Nat) : Char :=
  if n < 26 then Char.ofNat (65 + n)
  else if n < 52 then Char.ofNat (71 + n)
  else if n < 62 then Char.ofNat (n - 4)
  else if n = 62 then '+'
  else '/'

def value? (c : Char) : Option Nat :=
  if isAsciiUpper c then some (c.toNat - 65)
  else if isAsciiLower c then some (c.toNat - 71)
  else if isAsciiDigit c then some (c.toNat + 4)
  else if c = '+' then some 62
  else if c = '/' then some 63
  else none

def encode : List UInt8 → List Char
  | [] => []
  | [a] => [digit (a.toNat / 4), digit (a.toNat % 4 * 16), '=', '=']
  | [a, b] =>
    [digit (a.toNat / 4), digit (a.toNat % 4 * 16 + b.toNat / 16), digit (b.toNat % 16 * 4), '=']
  | a :: b :: c :: rest =>
    digit (a.toNat / 4) :: digit (a.toNat % 4 * 16 + b.toNat / 16) ::
      digit (b.toNat % 16 * 4 + c.toNat / 64) :: digit (c.toNat % 64) :: encode rest

/-- Where reading stands: inside a group of four characters, with the bits not yet used. -/
structure Progress where
  /-- Characters of the group that are read. -/
  place : Nat
  /-- Bits of the last character that belong to the next octet. -/
  bits : Nat
  /-- Padding characters since the last character. -/
  pads : Nat
  padded : Bool

def readFrom (strict : Bool) (p : Progress) : List Char → Option (List UInt8)
  | [] => if p.place = 0 then some [] else none
  | c :: rest =>
    if c = '=' then
      if 2 ≤ p.place then
        if 4 ≤ p.place + p.pads + 1 then
          if strict && !rest.isEmpty then none else some []
        else readFrom strict ⟨p.place, p.bits, p.pads + 1, true⟩ rest
      else readFrom strict ⟨p.place, p.bits, p.pads, true⟩ rest
    else match value? c with
      | none => if strict then none else readFrom strict p rest
      | some v =>
        if strict && p.padded then none
        else match p.place with
          | 0 => readFrom strict ⟨1, v, 0, p.padded⟩ rest
          | 1 =>
            (readFrom strict ⟨2, v % 16, 0, p.padded⟩ rest).map (UInt8.ofNat (p.bits * 4 + v / 16) :: ·)
          | 2 =>
            (readFrom strict ⟨3, v % 4, 0, p.padded⟩ rest).map (UInt8.ofNat (p.bits * 16 + v / 4) :: ·)
          | _ =>
            (readFrom strict ⟨0, 0, 0, p.padded⟩ rest).map (UInt8.ofNat (p.bits * 64 + v) :: ·)

/-- The octets of a Base64 text. A strict text does not start with padding. -/
def decode? (strict : Bool) (cs : List Char) : Option (List UInt8) :=
  if strict && cs.head? == some '=' then none else readFrom strict ⟨0, 0, 0, false⟩ cs

end ApiSmith.Text.Base64
