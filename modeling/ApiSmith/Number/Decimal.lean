import ApiSmith.Number.Double

/-!
# Decimal numbers

A decimal keeps its coefficient and exponent apart, so `1.0` and `1.00` are different values of one
number. Besides finite numbers there are infinities and two kinds of NaN, which may carry digits.
Reading is exact, and refuses exponents beyond the limits of the format.
-/

namespace ApiSmith.Number

open ApiSmith.Text

inductive Decimal where
  /-- The number `coefficient * 10 ^ exponent` with a sign. -/
  | finite (negative : Bool) (coefficient : Nat) (exponent : Int)
  | infinite (negative : Bool)
  /-- Not a number, quiet or signaling, with the digits it carries. -/
  | nan (negative signaling : Bool) (payload : Nat)
  deriving Repr, DecidableEq

namespace Decimal

/-- The greatest exponent of a number in scientific notation. -/
def maxExponent : Int := 999999999999999999

def minExponent : Int := -1999999999999999997

def finite? (negative : Bool) (coefficient : Nat) (exponent : Int) : Option Decimal :=
  let top := if coefficient == 0 then exponent else exponent + (natText coefficient).length - 1
  if minExponent ≤ exponent && top ≤ maxExponent then some (.finite negative coefficient exponent)
  else none

/-- The value of a text of ASCII digits; the empty text has none. -/
def digits? (cs : List Char) : Option Nat :=
  if !cs.isEmpty && cs.all isAsciiDigit then some (asciiNat cs) else none

def exponent? : List Char → Option Int
  | '-' :: cs => (digits? cs).map fun n => -(n : Int)
  | '+' :: cs => (digits? cs).map Int.ofNat
  | cs => (digits? cs).map Int.ofNat

def readFinite? (negative : Bool) (cs : List Char) : Option Decimal := do
  let mantissa := cs.takeWhile fun c => c != 'e'
  let exponent ← match cs.drop mantissa.length with
    | [] => some 0
    | _ :: rest => exponent? rest
  let (whole, fraction) := match cutAtChar '.' mantissa with
    | (whole, some fraction) => (whole, fraction)
    | (whole, none) => (whole, [])
  let coefficient ← digits? (whole ++ fraction)
  finite? negative coefficient (exponent - fraction.length)

def readUnsigned? (negative : Bool) (cs : List Char) : Option Decimal :=
  match cs with
  | ['i', 'n', 'f'] => some (.infinite negative)
  | ['i', 'n', 'f', 'i', 'n', 'i', 't', 'y'] => some (.infinite negative)
  | 'n' :: 'a' :: 'n' :: rest => payload? rest |>.map (.nan negative false)
  | 's' :: 'n' :: 'a' :: 'n' :: rest => payload? rest |>.map (.nan negative true)
  | _ => readFinite? negative cs
where
  /-- The digits that a NaN carries; none is zero. -/
  payload? (rest : List Char) : Option Nat := if rest.isEmpty then some 0 else digits? rest

/-- A character of the text as the grammar sees it: digits of any script are ASCII digits, letters
are lower case, other blanks are spaces. -/
def plainChar? (c : Char) : Option Char :=
  if c.toNat == 0 then none
  else if c.toNat < 128 then some (lowerAscii c)
  else if isBlank c then some ' '
  else (decimalValue? c).map fun d => Char.ofNat (48 + d)
where
  /-- The lower-case form of an ASCII letter. -/
  lowerAscii (c : Char) : Char := if isAsciiUpper c then Char.ofNat (c.toNat + 32) else c

/-- The decimal that a text writes. Blanks around it and underscores inside it do not count. -/
def read? (cs : List Char) : Option Decimal := do
  let plain ← ((trim cs).filter (· != '_')).mapM plainChar?
  match plain with
  | '-' :: rest => readUnsigned? true rest
  | '+' :: rest => readUnsigned? false rest
  | rest => readUnsigned? false rest

def signText (negative : Bool) : List Char := if negative then ['-'] else []

/-- The text of a decimal: positional while the exponent is not positive and the point is at most
six places before the digits, scientific otherwise. -/
def text : Decimal → List Char
  | .infinite negative => signText negative ++ "Infinity".toList
  | .nan negative signaling payload =>
    signText negative ++ (if signaling then ['s'] else []) ++ "NaN".toList ++
      (if payload == 0 then [] else natText payload)
  | .finite negative coefficient exponent =>
    let digits := natText coefficient
    let left := exponent + digits.length
    let point := if exponent ≤ 0 && -6 < left then left else 1
    let body :=
      if point ≤ 0 then ['0', '.'] ++ List.replicate (-point).toNat '0' ++ digits
      else if (digits.length : Int) ≤ point then
        digits ++ List.replicate (point - digits.length).toNat '0'
      else digits.take point.toNat ++ ['.'] ++ digits.drop point.toNat
    let power := left - point
    let tail :=
      if power == 0 then [] else 'E' :: (if power < 0 then '-' else '+') :: natText power.natAbs
    signText negative ++ body ++ tail

def string (d : Decimal) : String := String.ofList d.text

/-- Whether a finite decimal is a whole number. A coefficient other than zero does not end with more
zeros than it has digits. -/
def isIntegral (coefficient : Nat) (exponent : Int) : Bool :=
  0 ≤ exponent || coefficient == 0 ||
    (-exponent ≤ (natText coefficient).length && coefficient % Nat.pow 10 (-exponent).toNat == 0)

def wholeNumber (negative : Bool) (coefficient : Nat) (exponent : Int) : Int :=
  let n : Nat :=
    if coefficient == 0 then 0
    else if 0 ≤ exponent then coefficient * Nat.pow 10 exponent.toNat
    else coefficient / Nat.pow 10 (-exponent).toNat
  if negative then -(n : Int) else n

def toDouble : Decimal → Float
  | .finite negative coefficient exponent => signedDouble negative coefficient exponent
  | .infinite negative => if negative then negateDouble infDouble else infDouble
  | .nan negative _ _ => if negative then negateDouble nanDouble else nanDouble

end Decimal

end ApiSmith.Number
