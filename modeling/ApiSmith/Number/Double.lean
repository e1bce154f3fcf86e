import ApiSmith.Number.Shortest

/-!
# Doubles as text

The text of a double is its shortest decimal: positional while the point falls near the digits,
with an exponent otherwise. Reading rounds a decimal to the nearest double.
-/

namespace ApiSmith.Number

/-- Where positional notation ends: the point may stand at most `zeros` places before the first
digit and at most `digits` places after it. -/
structure PointRange where
  /-- Zeros between the point and the first digit. -/
  zeros : Int
  digits : Int
  deriving Repr

def pointRange : PointRange := ⟨3, 16⟩

def placePoint (digits : List Char) (point : Int) : List Char :=
  if point ≤ 0 then ['0', '.'] ++ List.replicate (-point).toNat '0' ++ digits
  else if (digits.length : Int) ≤ point then
    digits ++ List.replicate (point - digits.length).toNat '0' ++ ['.', '0']
  else digits.take point.toNat ++ ['.'] ++ digits.drop point.toNat

/-- An exponent with its sign and at least two digits. -/
def exponentText (e : Int) : List Char :=
  'e' :: (if e < 0 then '-' else '+') :: padded 2 e.natAbs

def digitsText (digits : List Char) (point : Int) : List Char :=
  if -pointRange.zeros ≤ point && point ≤ pointRange.digits then placePoint digits point
  else match digits with
    | [] => []
    | [d] => d :: exponentText (point - 1)
    | d :: ds => d :: '.' :: ds ++ exponentText (point - 1)

def floatText (x : Float) : List Char :=
  match DoubleParts.ofFloat x with
  | .nan => ['n', 'a', 'n']
  | .infinite negative => (if negative then ['-'] else []) ++ ['i', 'n', 'f']
  | .finite negative m q wide =>
    (if negative then ['-'] else []) ++
      if m == 0 then ['0', '.', '0']
      else
        let (n, e) := shortestDecimal m q wide
        let all := natText n
        let digits := (all.reverse.dropWhile (· == '0')).reverse
        digitsText digits (e + all.length)

def floatString (x : Float) : String := String.ofList (floatText x)

def nanDouble : Float := Float.ofBits 0x7FF8000000000000

def infDouble : Float := Float.ofBits 0x7FF0000000000000

def negateDouble (x : Float) : Float := Float.ofBits (x.toBits ^^^ 0x8000000000000000)

/-- The double nearest to `n * 10 ^ e`. -/
def nearestDouble (n : Nat) (e : Int) : Float :=
  let size := (natText n).length + e
  if n == 0 || size < -330 then 0.0
  else if 320 < size then infDouble
  else if e < 0 then Float.ofScientific n true (-e).toNat
  else Float.ofScientific n false e.toNat

def signedDouble (negative : Bool) (n : Nat) (e : Int) : Float :=
  if negative then negateDouble (nearestDouble n e) else nearestDouble n e

/-- The double nearest to an integer, if it is finite. -/
def intDouble? (n : Int) : Option Float :=
  let x := signedDouble (n < 0) n.natAbs 0
  if x.isInf then none else some x

end ApiSmith.Number
