import ApiSmith.Text.Cut
import ApiSmith.Text.Word

/-!
# Integers as text

Writing is plain decimal. Reading takes a sign, digits of any script and single underscores between
digits, and gives up beyond `digitLimit` digits.
-/

namespace ApiSmith.Number

open ApiSmith.Text

def natText (n : Nat) : List Char := Nat.toDigits 10 n

def intText : Int → List Char
  | .ofNat n => natText n
  | .negSucc n => '-' :: natText (n + 1)

def intString (n : Int) : String := String.ofList (intText n)

/-- A decimal text filled with zeros on the left up to a width. -/
def padded (width n : Nat) : List Char :=
  let digits := natText n
  List.replicate (width - digits.length) '0' ++ digits

def hexDigit (n : Nat) : Char := if n < 10 then Char.ofNat (48 + n) else Char.ofNat (87 + n)

/-- The last `width` hexadecimal digits of a number, lower case. -/
def hexText : Nat → Nat → List Char
  | 0, _ => []
  | width + 1, n => hexText width (n / 16) ++ [hexDigit (n % 16)]

def hexValue? (c : Char) : Option Nat :=
  if isAsciiDigit c then some (c.toNat - 48)
  else if 97 ≤ c.toNat && c.toNat ≤ 102 then some (c.toNat - 87)
  else if 65 ≤ c.toNat && c.toNat ≤ 70 then some (c.toNat - 55)
  else none

/-- The number with the given digits in a base, most significant first. -/
def ofDigits (base : Nat) (ds : List Nat) : Nat := ds.foldl (fun n d => n * base + d) 0

def asciiNat (cs : List Char) : Nat := ofDigits 10 (cs.map fun c => c.toNat - 48)

def isOctalDigit (c : Char) : Bool := '0' ≤ c && c ≤ '7'

def octalNat (cs : List Char) : Nat := ofDigits 8 (cs.map fun c => c.toNat - 48)

/-- The most digits an integer text may have. -/
def digitLimit : Nat := 4300

/-- The digits of a text in which single underscores may stand between digits. -/
def groupedDigits? : List Char → Option (List Nat)
  | [] => none
  | [c] => (decimalValue? c).map ([·])
  | c :: '_' :: rest => do
    let d ← decimalValue? c
    let ds ← groupedDigits? rest
    pure (d :: ds)
  | c :: rest => do
    let d ← decimalValue? c
    let ds ← groupedDigits? rest
    pure (d :: ds)

def readNat? (cs : List Char) : Option Nat := do
  let ds ← groupedDigits? cs
  if ds.length ≤ digitLimit then some (ofDigits 10 ds) else none

/-- The integer that a text writes: blanks around it are passed over, a sign may come first. -/
def readInt? (cs : List Char) : Option Int :=
  match trim cs with
  | '-' :: rest => (readNat? rest).map fun n => -(n : Int)
  | '+' :: rest => (readNat? rest).map Int.ofNat
  | rest => (readNat? rest).map Int.ofNat

end ApiSmith.Number
