import Mathlib.Data.List.Basic

/-!
# Lines of source code

A line of source code ends at a line feed, at a return, or at a return with a line feed behind it. A
text is one line exactly if it holds neither (`isOneLine_iff`).
-/

namespace ApiSmith.Text

def endsLine (c : Char) : Bool := c == '\n' || c == '\r'

def sourceLines : List Char → List (List Char)
  | [] => [[]]
  | '\r' :: '\n' :: rest => [] :: sourceLines rest
  | c :: rest =>
    if endsLine c then [] :: sourceLines rest
    else match sourceLines rest with
      | [] => [[c]]
      | line :: more => (c :: line) :: more

def IsOneLine (s : String) : Prop := sourceLines s.toList = [s.toList]

instance (s : String) : Decidable (IsOneLine s) :=
  inferInstanceAs (Decidable (sourceLines s.toList = [s.toList]))

def HoldsBreak (cs : List Char) : Prop := ∃ c ∈ cs, endsLine c = true

instance (cs : List Char) : Decidable (HoldsBreak cs) :=
  decidable_of_iff (cs.any endsLine = true) List.any_eq_true

@[simp] theorem not_holdsBreak_nil : ¬ HoldsBreak [] := by
  simp [HoldsBreak]

@[simp] theorem holdsBreak_cons {c : Char} {cs : List Char} :
    HoldsBreak (c :: cs) ↔ endsLine c = true ∨ HoldsBreak cs := by
  simp [HoldsBreak]

@[simp] theorem holdsBreak_append {as bs : List Char} :
    HoldsBreak (as ++ bs) ↔ HoldsBreak as ∨ HoldsBreak bs := by
  simp [HoldsBreak, or_and_right, exists_or]

theorem endsLine_iff {c : Char} : endsLine c = true ↔ c = '\n' ∨ c = '\r' := by
  simp [endsLine]

theorem sourceLines_ne_nil (cs : List Char) : sourceLines cs ≠ [] := by
  fun_cases sourceLines cs <;> simp

theorem sourceLines_eq_singleton_iff {cs : List Char} :
    sourceLines cs = [cs] ↔ ¬ HoldsBreak cs := by
  fun_induction sourceLines cs with
  | case1 => simp
  | case2 rest => simp [endsLine]
  | case3 c rest _ ends => simp [ends]
  | case4 c rest _ _ none => exact absurd none (sourceLines_ne_nil rest)
  | case5 c rest _ inside line more split ih =>
    rw [split] at ih
    rw [holdsBreak_cons, or_iff_right inside, ← ih, List.cons.injEq, List.cons.injEq,
      and_iff_right rfl, List.cons.injEq]

theorem isOneLine_iff {s : String} : IsOneLine s ↔ ¬ HoldsBreak s.toList :=
  sourceLines_eq_singleton_iff

end ApiSmith.Text
