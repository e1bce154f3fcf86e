import ApiSmith.Number.Integer

/-!
# Shortest decimal text of a double

A finite double is `m * 2 ^ q`. The reals that round to it form an interval, closed when `m` is
even. The shortest decimal is the first grid of 1, 2, … 17 significant digits on which the value or
a neighbour of it falls into that interval, and there the point nearest to the value; of two equally
near points the one with the even last digit.
-/

namespace ApiSmith.Number

inductive DoubleParts where
  | nan
  | infinite (negative : Bool)
  /-- The number `significand * 2 ^ exponent` with a sign; `wide` says that the gap below is as wide
  as the gap above. -/
  | finite (negative : Bool) (significand : Nat) (exponent : Int) (wide : Bool)
  deriving Repr, DecidableEq

def DoubleParts.ofFloat (x : Float) : DoubleParts :=
  let bits := x.toBits.toNat
  let negative := bits / Nat.pow 2 63 == 1
  let exponent : Nat := bits / Nat.pow 2 52 % 2048
  let fraction : Nat := bits % Nat.pow 2 52
  if exponent == 2047 then (if fraction == 0 then .infinite negative else .nan)
  else if exponent == 0 then .finite negative fraction (-1074) true
  else .finite negative (Nat.pow 2 52 + fraction) ((exponent : Int) - 1075) (fraction != 0 || exponent == 1)

structure Ratio where
  num : Nat
  den : Nat
  deriving Repr

/-- `n * base ^ e`. -/
def Ratio.scaled (n base : Nat) (e : Int) : Ratio :=
  if 0 ≤ e then ⟨n * Nat.pow base e.toNat, 1⟩ else ⟨n, Nat.pow base (-e).toNat⟩

def Ratio.le (a b : Ratio) : Bool := a.num * b.den ≤ b.num * a.den

def Ratio.lt (a b : Ratio) : Bool := a.num * b.den < b.num * a.den

def Ratio.dist (a b : Ratio) : Ratio :=
  ⟨(a.num * b.den - b.num * a.den) + (b.num * a.den - a.num * b.den), a.den * b.den⟩

/-- How many times ten must be multiplied to a number below one to reach one. -/
def leadingZeros (fuel : Nat) (num den : Nat) : Nat :=
  match fuel with
  | 0 => 0
  | fuel + 1 => if den ≤ num * 10 then 0 else 1 + leadingZeros fuel (num * 10) den

/-- The `e` with `10 ^ (e - 1) ≤ r < 10 ^ e`, for a positive `r`. -/
def decimalExponent (r : Ratio) : Int :=
  let whole := r.num / r.den
  if whole == 0 then -(leadingZeros 400 r.num r.den : Int) else (natText whole).length

/-- Of the neighbours `n` and `n + 1` of a value on a grid the nearer one, of two equally near the
even one. -/
def nearerOf (n : Nat) (toLower toUpper : Ratio) : Nat :=
  if toLower.lt toUpper || (toLower.le toUpper && n % 2 == 0) then n else n + 1

/-- The point of the grid `10 ^ s` in the interval that is nearest to the value, if one of the two
around the value is inside. -/
def nearestOnGrid (value low high : Ratio) (closed : Bool) (s : Int) : Option Nat :=
  let unit := Ratio.scaled 1 10 s
  let below := value.num * unit.den / (value.den * unit.num)
  let point (n : Nat) : Ratio := ⟨n * unit.num, unit.den⟩
  let inside (n : Nat) : Bool :=
    if closed then low.le (point n) && (point n).le high else low.lt (point n) && (point n).lt high
  match inside below, inside (below + 1) with
  | true, true =>
    some (nearerOf below (value.dist (point below)) (value.dist (point (below + 1))))
  | true, false => some below
  | false, true => some (below + 1)
  | false, false => none

/-- The first grid of at most `17 - k` further digits with a hit: the point and its exponent. -/
def firstHit (value low high : Ratio) (closed : Bool) (top : Int) : Nat → Nat → Nat × Int
  | 0, _ => (0, 0)
  | fuel + 1, k =>
    match nearestOnGrid value low high closed (top - k) with
    | some n => (n, top - k)
    | none => firstHit value low high closed top fuel (k + 1)

/-- The shortest decimal `n * 10 ^ e` that rounds to the positive double `m * 2 ^ q`. -/
def shortestDecimal (m : Nat) (q : Int) (wide : Bool) : Nat × Int :=
  let value := Ratio.scaled m 2 q
  let low := Ratio.scaled (4 * m - (if wide then 2 else 1)) 2 (q - 2)
  let high := Ratio.scaled (4 * m + 2) 2 (q - 2)
  firstHit value low high (m % 2 == 0) (decimalExponent value) 17 1

end ApiSmith.Number
