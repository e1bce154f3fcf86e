/-!
# Tables of code points

A character property beyond ASCII is a list of closed intervals of code points in ascending order,
and a case mapping is a list of runs in ascending order. A run names its first and last code point,
the step between its members (1, or 2 where upper and lower case alternate), and the code point that
its first member maps to; the others keep the same distance.

The blank characters are those that trimming removes: the ASCII blanks and information separators,
and the Unicode spaces.
-/

namespace ApiSmith.Text

/-! ## Intervals -/

def inRanges (n : Nat) : List (Nat × Nat) → Bool
  | [] => false
  | (lo, hi) :: rest => if n < lo then false else if n ≤ hi then true else inRanges n rest

def rangeStart? (n : Nat) : List (Nat × Nat) → Option Nat
  | [] => none
  | (lo, hi) :: rest => if n < lo then none else if n ≤ hi then some lo else rangeStart? n rest

theorem rangeStart?_isSome (n : Nat) (t : List (Nat × Nat)) :
    (rangeStart? n t).isSome = inRanges n t := by
  induction t with
  | nil => rfl
  | cons r rest ih =>
    unfold rangeStart? inRanges
    by_cases h₁ : n < r.1
    · simp [h₁]
    · by_cases h₂ : n ≤ r.2 <;> simp [h₁, h₂, ih]

/-! ## Runs of a case mapping -/

structure CaseRun where
  first : Nat
  last : Nat
  step : Nat
  image : Nat
  deriving Repr, DecidableEq

def CaseRun.ofTuple (t : Nat × Nat × Nat × Nat) : CaseRun := ⟨t.1, t.2.1, t.2.2.1, t.2.2.2⟩

/-- The image of `n` under an ascending list of runs, and `n` itself where no run holds it. -/
def applyRuns (n : Nat) : List CaseRun → Nat
  | [] => n
  | r :: rest =>
    if n < r.first then n
    else if n ≤ r.last && (n - r.first) % r.step == 0 then r.image + (n - r.first)
    else applyRuns n rest

/-! ## Blank characters -/

def blankRanges : List (Nat × Nat) := [
  (133, 133), (160, 160), (5760, 5760), (8192, 8202), (8232, 8233), (8239, 8239), (8287, 8287),
  (12288, 12288)]

/-- Tab to carriage return, the four information separators, the space, and the Unicode spaces. -/
def isBlank (c : Char) : Bool :=
  if c.toNat < 128 then
    (9 ≤ c.toNat && c.toNat ≤ 13) || (28 ≤ c.toNat && c.toNat ≤ 32)
  else inRanges c.toNat blankRanges

end ApiSmith.Text
