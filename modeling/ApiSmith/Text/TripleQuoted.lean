import ApiSmith.Number.Integer
import ApiSmith.Text.Encoding

/-!
# Literals between triple quotes

A literal opens with three quotes and ends at the next three quotes in a row; what stands after a
backslash closes nothing. Line ends in it are line feeds, and a backslash at the end of a line takes
the line end away. Other escapes stand for a character: by a letter, by its number in octal or
hexadecimal digits, or by its name, of which names there are being known elsewhere. An escape of any
other character stands for itself.
-/

namespace ApiSmith.Text.TripleQuoted

open ApiSmith.Number

def quotes : List Char := ['"', '"', '"']

/-- What stands before the closing quotes, and what stands after them. The first argument says
whether a backslash comes before. A literal holds no NUL, and a return with a line feed after it is
one line end. -/
def spelling : Bool → List Char → Option (List Char × List Char)
  | _, [] => none
  | escaped, c :: rest =>
    if c.toNat = 0 then none
    else if c = '\r' then
      if rest.head? = some '\n' then spelling escaped rest
      else (spelling false rest).map fun r => ('\n' :: r.1, r.2)
    else if !escaped && quotes.isPrefixOf (c :: rest) then some ([], rest.drop 2)
    else (spelling (!escaped && c == '\\') rest).map fun r => (c :: r.1, r.2)

/-- The character that a letter stands for after a backslash. -/
def letter? (c : Char) : Option Char :=
  if c = '\\' || c = '"' || c.toNat == 39 then some c
  else if c = 'a' then some (Char.ofNat 7)
  else if c = 'b' then some (Char.ofNat 8)
  else if c = 't' then some '\t'
  else if c = 'n' then some '\n'
  else if c = 'v' then some (Char.ofNat 11)
  else if c = 'f' then some (Char.ofNat 12)
  else if c = 'r' then some '\r'
  else none

def hexChar? (n : Nat) (cs : List Char) : Option Char :=
  if cs.length < n then none
  else ((cs.take n).mapM hexValue?).bind fun ds => char? (ofDigits 16 ds)

/-- The character whose name stands between braces, and the length of the name. -/
def namedChar? (named : List Char → Option Char) : List Char → Option (Char × Nat)
  | '\x7b' :: rest =>
    let name := rest.takeWhile (· != '\x7d')
    if name.length < rest.length then (named name).map fun c => (c, name.length) else none
  | _ => none

/-- What an escape stands for, given the text after its backslash, and how many characters of the
text belong to it. -/
def escape? (named : List Char → Option Char) : List Char → Option (List Char × Nat)
  | [] => none
  | c :: rest =>
    match letter? c with
    | some d => some ([d], 1)
    | none =>
      if c = '\n' then some ([], 1)
      else if c = 'x' then (hexChar? 2 rest).map fun d => ([d], 3)
      else if c = 'u' then (hexChar? 4 rest).map fun d => ([d], 5)
      else if c = 'U' then (hexChar? 8 rest).map fun d => ([d], 9)
      else if c = 'N' then (namedChar? named rest).map fun r => ([r.1], r.2 + 3)
      else
        let digits := ((c :: rest).take 3).takeWhile isOctalDigit
        if digits.isEmpty then some (['\\', c], 1)
        else some ([Char.ofNat (octalNat digits)], digits.length)

/-- The text that a spelling stands for. The first argument counts the characters that belong to an
escape which was read already. -/
def meaning (named : List Char → Option Char) : Nat → List Char → Option (List Char)
  | _, [] => some []
  | k + 1, _ :: rest => meaning named k rest
  | 0, c :: rest =>
    if c = '\\' then
      (escape? named rest).bind fun e => (meaning named e.2 rest).map (e.1 ++ ·)
    else (meaning named 0 rest).map (c :: ·)

/-- The text that a literal stands for whose opening quotes were read, and what stands after it. -/
def inside (named : List Char → Option Char) (cs : List Char) : Option (List Char × List Char) :=
  (spelling false cs).bind fun s => (meaning named 0 s.1).map fun text => (text, s.2)

/-- The text that the literal at the start of some characters stands for, and what stands after it. -/
def read? (named : List Char → Option Char) (cs : List Char) : Option (List Char × List Char) :=
  if quotes.isPrefixOf cs then inside named (cs.drop 3) else none

/-! ## What stands inside -/

variable (named : List Char → Option Char)

theorem read?_quotes (cs : List Char) : read? named (quotes ++ cs) = inside named cs := rfl

theorem inside_quotes (cs : List Char) : inside named (quotes ++ cs) = some ([], cs) := rfl

theorem inside_plain {c : Char} {cs : List Char} (hnul : c.toNat ≠ 0) (hreturn : c ≠ '\r')
    (hc : c ≠ '\\') (opens : quotes.isPrefixOf (c :: cs) = false) :
    inside named (c :: cs) = (inside named cs).map fun r => (c :: r.1, r.2) := by
  have hslash : (c == '\\') = false := beq_eq_false_iff_ne.mpr hc
  simp only [inside, spelling, hnul, hreturn, opens, hslash, if_false, Bool.and_false,
    Bool.false_eq_true]
  cases spelling false cs with
  | none => rfl
  | some s =>
    simp only [Option.map_some, Option.bind_some, meaning, hc, if_false, Option.map_map]
    rfl

theorem inside_letter {c d : Char} (h : letter? c = some d) (cs : List Char) :
    inside named ('\\' :: c :: cs) = (inside named cs).map fun r => (d :: r.1, r.2) := by
  have hnul : c.toNat ≠ 0 := by
    intro hc
    have hc : c = Char.ofNat 0 := by rw [← hc, Char.ofNat_toNat]
    subst hc
    cases h
  have hreturn : c ≠ '\r' := by
    rintro rfl
    cases h
  have hslash : quotes.isPrefixOf ('\\' :: c :: cs) = false := rfl
  have hspelling : spelling false ('\\' :: c :: cs) =
      (spelling false cs).map fun r => ('\\' :: c :: r.1, r.2) := by
    rw [spelling, if_neg (by decide), if_neg (by decide), hslash]
    simp only [spelling, hnul, hreturn, if_false, Bool.and_false, Bool.not_false, Bool.not_true,
      Bool.false_and, Bool.false_eq_true, Bool.true_and, beq_self_eq_true, Option.map_map]
    rfl
  rw [inside, hspelling, inside]
  cases spelling false cs with
  | none => rfl
  | some s =>
    simp only [Option.map_some, Option.bind_some, meaning, escape?, h, if_true, Option.map_map]
    rfl

end ApiSmith.Text.TripleQuoted
