import ApiSmith.Text.TripleQuoted

/-!
# Literals between plain quotes

A literal opens with one quote and ends at the next quote in the same line; what stands after a
backslash does not close it. A backslash at the end of a line takes the line end away. Other escapes
are those of literals between triple quotes. An escape by number stands for the number that it
writes, and so a literal is a list of code points and not always a text: one half of a UTF-16 pair is
kept as it is, and two halves after each other are not put together.
-/

namespace ApiSmith.Text.PlainQuoted

open ApiSmith.Number TripleQuoted

/-- What stands before the closing quote, and what stands after it. The first argument says whether a
backslash comes before. A literal holds no NUL, and a return with a line feed after it is one line
end. -/
def spelling : Bool → List Char → Option (List Char × List Char)
  | _, [] => none
  | escaped, c :: rest =>
    if c.toNat = 0 then none
    else if c = '\r' then
      if rest.head? = some '\n' then spelling escaped rest
      else if escaped then (spelling false rest).map fun r => ('\n' :: r.1, r.2)
      else none
    else if !escaped && c == '\n' then none
    else if !escaped && c == '"' then some ([], rest)
    else (spelling (!escaped && c == '\\') rest).map fun r => (c :: r.1, r.2)

def hexNumber? (n : Nat) (cs : List Char) : Option Nat :=
  if cs.length < n then none else ((cs.take n).mapM hexValue?).map (ofDigits 16)

def lastCode : Nat := 0x10FFFF

/-- The code points that an escape stands for, given the text after its backslash, and how many
characters of the text belong to it. -/
def escape? (named : List Char → Option Char) : List Char → Option (List Nat × Nat)
  | [] => none
  | c :: rest =>
    match letter? c with
    | some d => some ([d.toNat], 1)
    | none =>
      if c = '\n' then some ([], 1)
      else if c = 'x' then (hexNumber? 2 rest).map fun n => ([n], 3)
      else if c = 'u' then (hexNumber? 4 rest).map fun n => ([n], 5)
      else if c = 'U' then ((hexNumber? 8 rest).filter (· ≤ lastCode)).map fun n => ([n], 9)
      else if c = 'N' then (namedChar? named rest).map fun r => ([r.1.toNat], r.2 + 3)
      else
        let digits := ((c :: rest).take 3).takeWhile isOctalDigit
        if digits.isEmpty then some (['\\'.toNat, c.toNat], 1)
        else some ([octalNat digits], digits.length)

/-- The code points that a spelling stands for. The first argument counts the characters that belong
to an escape which was read already. -/
def meaning (named : List Char → Option Char) : Nat → List Char → Option (List Nat)
  | _, [] => some []
  | k + 1, _ :: rest => meaning named k rest
  | 0, c :: rest =>
    if c = '\\' then
      (escape? named rest).bind fun e => (meaning named e.2 rest).map (e.1 ++ ·)
    else (meaning named 0 rest).map (c.toNat :: ·)

/-- The code points of a literal whose opening quote was read, and what stands after it. -/
def inside (named : List Char → Option Char) (cs : List Char) : Option (List Nat × List Char) :=
  (spelling false cs).bind fun s => (meaning named 0 s.1).map fun codes => (codes, s.2)

/-- The code points of the literal at the start of some characters, and what stands after it. Three
quotes open a literal of the other kind. -/
def read? (named : List Char → Option Char) (cs : List Char) : Option (List Nat × List Char) :=
  match cs with
  | '"' :: rest => if quotes.isPrefixOf cs then none else inside named rest
  | _ => none

/-! ## What stands inside -/

def isPlain (c : Char) : Bool :=
  c.toNat != 0 && c != '\r' && c != '\n' && c != '"' && c != '\\'

theorem isPlain_iff {c : Char} :
    isPlain c = true ↔ c.toNat ≠ 0 ∧ c ≠ '\r' ∧ c ≠ '\n' ∧ c ≠ '"' ∧ c ≠ '\\' := by
  simp [isPlain, and_assoc]

theorem spelling_plain {c : Char} (h : isPlain c = true) (cs : List Char) :
    spelling false (c :: cs) = (spelling false cs).map fun r => (c :: r.1, r.2) := by
  obtain ⟨hnul, hreturn, hfeed, hquote, hslash⟩ := isPlain_iff.mp h
  have hback : (c == '\\') = false := beq_eq_false_iff_ne.mpr hslash
  simp [spelling, hnul, hreturn, hfeed, hquote, hback]

theorem spelling_plains {ds : List Char} (h : ∀ d ∈ ds, isPlain d = true) (cs : List Char) :
    spelling false (ds ++ cs) = (spelling false cs).map fun r => (ds ++ r.1, r.2) := by
  induction ds with
  | nil => simp
  | cons d ds ih =>
    rw [List.cons_append, spelling_plain (h d List.mem_cons_self),
      ih fun e he => h e (List.mem_cons_of_mem _ he), Option.map_map]
    rfl

theorem spelling_backslash {c : Char} (hnul : c.toNat ≠ 0) (hreturn : c ≠ '\r') (cs : List Char) :
    spelling false ('\\' :: c :: cs) =
      (spelling false cs).map fun r => ('\\' :: c :: r.1, r.2) := by
  have hstart : spelling false ('\\' :: c :: cs) =
      (spelling true (c :: cs)).map fun r => ('\\' :: r.1, r.2) := by
    rw [spelling]
    rfl
  rw [hstart, spelling, if_neg hnul, if_neg hreturn]
  simp only [Bool.not_true, Bool.false_and, Bool.false_eq_true, if_false, Option.map_map]
  rfl

variable (named : List Char → Option Char)

theorem meaning_skip (ds cs : List Char) :
    meaning named ds.length (ds ++ cs) = meaning named 0 cs := by
  induction ds with
  | nil => rfl
  | cons d ds ih => exact ih

theorem inside_quote (cs : List Char) : inside named ('"' :: cs) = some ([], cs) := rfl

theorem inside_plain {c : Char} (h : isPlain c = true) (cs : List Char) :
    inside named (c :: cs) = (inside named cs).map fun r => (c.toNat :: r.1, r.2) := by
  have hslash := (isPlain_iff.mp h).2.2.2.2
  rw [inside, spelling_plain h, inside]
  cases spelling false cs with
  | none => rfl
  | some s =>
    simp only [Option.map_some, Option.bind_some, meaning, hslash, if_false, Option.map_map]
    rfl

theorem inside_plains {ds : List Char} (h : ∀ d ∈ ds, isPlain d = true) (cs : List Char) :
    inside named (ds ++ '"' :: cs) = some (ds.map Char.toNat, cs) := by
  induction ds with
  | nil => exact inside_quote named cs
  | cons d ds ih =>
    rw [List.cons_append, inside_plain named (h d List.mem_cons_self),
      ih fun e he => h e (List.mem_cons_of_mem _ he)]
    rfl

/-- An escape that stands for some code points, with the plain characters that belong to it. -/
theorem inside_escape {c : Char} (hnul : c.toNat ≠ 0) (hreturn : c ≠ '\r') (ds : List Char)
    (plain : ∀ d ∈ ds, isPlain d = true) (codes : List Nat)
    (h : ∀ cs, escape? named (c :: (ds ++ cs)) = some (codes, ds.length + 1)) (cs : List Char) :
    inside named ('\\' :: c :: (ds ++ cs)) =
      (inside named cs).map fun r => (codes ++ r.1, r.2) := by
  rw [inside, spelling_backslash hnul hreturn, spelling_plains plain, inside]
  cases spelling false cs with
  | none => rfl
  | some s =>
    have hskip : meaning named (ds.length + 1) (c :: (ds ++ s.1)) = meaning named 0 s.1 :=
      meaning_skip named (c :: ds) s.1
    simp only [Option.map_some, Option.bind_some]
    rw [meaning, if_pos rfl, h, Option.bind_some, hskip]
    simp only [Option.map_map]
    rfl

theorem inside_letter {c d : Char} (h : letter? c = some d) (cs : List Char) :
    inside named ('\\' :: c :: cs) = (inside named cs).map fun r => (d.toNat :: r.1, r.2) := by
  have hnul : c.toNat ≠ 0 := by
    intro hc
    have hc : c = Char.ofNat 0 := by rw [← hc, Char.ofNat_toNat]
    subst hc
    cases h
  have hreturn : c ≠ '\r' := by
    rintro rfl
    cases h
  refine inside_escape named hnul hreturn [] nofun [d.toNat] (fun rest => ?_) cs
  simp only [escape?, h]
  rfl

end ApiSmith.Text.PlainQuoted
