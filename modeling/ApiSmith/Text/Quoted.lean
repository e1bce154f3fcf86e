import ApiSmith.Number.Integer
import ApiSmith.Text.Printable

/-!
# Quoted literals

A text in diagnostics stands between quotes: single quotes, unless it holds single quotes and no
double ones. Backslashes and the quote are escaped, line feed, return and tab have short escapes,
and every other character that is not printable is written by its number in two, four or eight
hexadecimal digits. Octets are quoted the same way after the letter b.
-/

namespace ApiSmith.Text.Quoted

open ApiSmith.Number

def quoteFor (cs : List Char) : Char :=
  if cs.contains (Char.ofNat 39) && !cs.contains '"' then '"' else Char.ofNat 39

def numbered (n : Nat) : List Char :=
  if n < 0x100 then ['\\', 'x'] ++ hexText 2 n
  else if n < 0x10000 then ['\\', 'u'] ++ hexText 4 n
  else ['\\', 'U'] ++ hexText 8 n

/-- A character as it stands inside a literal with the given quote. -/
def escapeChar (quote c : Char) : List Char :=
  if c = quote || c = '\\' then ['\\', c]
  else if c = '\n' then ['\\', 'n']
  else if c = '\r' then ['\\', 'r']
  else if c = '\t' then ['\\', 't']
  else if isPrintable c then [c]
  else numbered c.toNat

def encode (cs : List Char) : List Char :=
  let quote := quoteFor cs
  quote :: cs.flatMap (escapeChar quote) ++ [quote]

def ofString (s : String) : String := String.ofList (encode s.toList)

/-- The literal of octets: those outside printable ASCII are written by number. -/
def ofBytes (bytes : List UInt8) : String :=
  let cs := bytes.map fun b => Char.ofNat b.toNat
  let quote := quoteFor cs
  let body := cs.flatMap fun c =>
    if 127 ≤ c.toNat then numbered c.toNat else escapeChar quote c
  String.ofList ('b' :: quote :: body ++ [quote])

end ApiSmith.Text.Quoted
