import ApiSmith.Text.Cut

/-!
# Likeness of texts

How much two texts have in common: the longest run of characters that both hold, and then the same
to the left and to the right of it. Used to find what a misspelt word may stand for.
-/

namespace ApiSmith.Text

def commonStart : List Char → List Char → Nat
  | a :: as, b :: bs => if a = b then commonStart as bs + 1 else 0
  | _, _ => 0

/-- The place in each text and the length of the longest common run, the first one of several. -/
def longestRun (a b : List Char) : Nat × Nat × Nat :=
  let places := (List.range a.length).flatMap fun i => (List.range b.length).map fun j => (i, j)
  places.foldl (fun best place =>
    let length := commonStart (a.drop place.1) (b.drop place.2)
    if best.2.2 < length then (place.1, place.2, length) else best) (0, 0, 0)

/-- The number of characters in common runs. The first argument bounds the depth of the search. -/
def sharedFrom : Nat → List Char → List Char → Nat
  | 0, _, _ => 0
  | depth + 1, a, b =>
    let (i, j, length) := longestRun a b
    if length = 0 then 0
    else
      sharedFrom depth (a.take i) (b.take j) + length +
        sharedFrom depth (a.drop (i + length)) (b.drop (j + length))

def shared (a b : List Char) : Nat := sharedFrom a.length a b

/-- Whether at least six tenths of two texts are common. -/
def isLike (a b : List Char) : Bool := 3 * (a.length + b.length) ≤ 10 * shared a b

/-- The words that are like a text, at most three, in order. -/
def likeWords (words : List String) (text : String) : List String :=
  let score (w : String) : Nat × Nat := (shared w.toList text.toList, w.length + text.length)
  let better (a b : String) : Bool :=
    let (m, n) := score a
    let (m', n') := score b
    m' * n < m * n' || (m * n' == m' * n && b ≤ a)
  let best := ((words.filter fun w => isLike w.toList text.toList).mergeSort better).take 3
  best.mergeSort fun a b => a ≤ b

end ApiSmith.Text
