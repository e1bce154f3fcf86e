import ApiSmith.Number.Integer
import ApiSmith.Text.Cut
import ApiSmith.Text.Encoding

/-!
# Percent encoding and forms

The octets of a text that are not safe are written as a percent sign and two hexadecimal digits. In
forms a blank is a plus sign.

A form is a row of pairs of texts with ampersands between them. In a pair the value stands behind
the first equals sign. On both sides a plus sign is a blank, and the octets that the escapes stand
for are UTF-8. Parts with nothing in them are no pairs.
-/

namespace ApiSmith.Text

namespace Percent

open Number

def escape (b : UInt8) : List Char := '%' :: (hexText 2 b.toNat).map Char.toUpper

/-- Octets with all but the safe ones escaped. Only ASCII octets can be safe. -/
def encode (safe : Char → Bool) (octets : List UInt8) : List Char :=
  octets.flatMap fun b =>
    let c := Char.ofNat b.toNat
    if b.toNat < 128 && safe c then [c] else escape b

def isUnreserved (c : Char) : Bool :=
  c.isAlphanum || c == '-' || c == '.' || c == '_' || c == '~'

/-- The octets that a text of ASCII characters and escapes stands for. A percent sign without two
digits stands for itself. -/
def decode : List Char → List UInt8
  | [] => []
  | '%' :: a :: b :: rest =>
    match hexValue? a, hexValue? b with
    | some x, some y => UInt8.ofNat (16 * x + y) :: decode rest
    | _, _ => UInt8.ofNat '%'.toNat :: decode (a :: b :: rest)
  | c :: rest => UInt8.ofNat c.toNat :: decode rest

def form (s : String) : List Char :=
  (encode (fun c => isUnreserved c || c == ' ') (utf8Octets s)).map fun c =>
    if c == ' ' then '+' else c

def formPairs (pairs : List (String × String)) : List Char :=
  (pairs.map fun p => form p.1 ++ '=' :: form p.2).intersperse ['&'] |>.flatten

end Percent

namespace Form

def side? (cs : List Char) : Option String :=
  (utf8Text? (Percent.decode (cs.map fun c => if c == '+' then ' ' else c))).map String.ofList

/-- The name and the value of a pair; a pair without an equals sign has an empty value. -/
def pair? (cs : List Char) : Option (String × String) := do
  let (name, value) := cutAtChar '=' cs
  let name ← side? name
  let value ← side? (value.getD [])
  pure (name, value)

def read? (cs : List Char) : Option (List (String × String)) :=
  ((fields '&' cs).filter fun part => !part.isEmpty).mapM pair?

end Form

end ApiSmith.Text
