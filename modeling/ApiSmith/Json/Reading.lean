import ApiSmith.Data.Value.Same
import ApiSmith.Text.Encoding

/-!
# Reading JSON

JSON texts with the numbers `NaN`, `Infinity` and `-Infinity` besides the standard ones. A key that
occurs twice keeps its first place and its last value. An integer of more than `digitLimit` digits
is refused. Each reading consumes characters, so the length of the text bounds the recursion.
-/

namespace ApiSmith.Json

open ApiSmith.Text ApiSmith.Number

inductive Fault where
  /-- It is not JSON. -/
  | syntaxError
  | tooManyDigits
  deriving DecidableEq, Repr

def isSpace (c : Char) : Bool := c == ' ' || c == '\t' || c == '\n' || c == '\r'

def skip (cs : List Char) : List Char := cs.dropWhile isSpace

def hexUnit? : List Char → Option (Nat × List Char)
  | a :: b :: c :: d :: rest => do
    let n ← [a, b, c, d].mapM hexValue?
    pure (ofDigits 16 n, rest)
  | _ => none

/-- The character of an escape that starts with the given unit. A surrogate without its partner
stands for no character and is replaced. -/
def joinUnits (u : Nat) (cs : List Char) : Char × List Char :=
  if 0xD800 ≤ u && u < 0xDC00 then
    match cs with
    | '\\' :: 'u' :: rest =>
      match hexUnit? rest with
      | some (v, rest) =>
        if 0xDC00 ≤ v && v < 0xE000 then
          (Char.ofNat (0x10000 + (u - 0xD800) * 0x400 + (v - 0xDC00)), rest)
        else (Char.ofNat 0xFFFD, cs)
      | none => (Char.ofNat 0xFFFD, cs)
    | _ => (Char.ofNat 0xFFFD, cs)
  else ((char? u).getD (Char.ofNat 0xFFFD), cs)

def shortEscape? : Char → Option Char
  | '"' => some '"'
  | '\\' => some '\\'
  | '/' => some '/'
  | 'b' => some (Char.ofNat 8)
  | 'f' => some (Char.ofNat 12)
  | 'n' => some '\n'
  | 'r' => some '\r'
  | 't' => some '\t'
  | _ => none

/-- The rest of a string after its opening quote, given its characters so far in reverse. -/
def string : Nat → List Char → List Char → Except Fault (String × List Char)
  | 0, _, _ => .error .syntaxError
  | fuel + 1, acc, cs =>
    match cs with
    | [] => .error .syntaxError
    | '"' :: rest => .ok (String.ofList acc.reverse, rest)
    | '\\' :: 'u' :: rest =>
      match hexUnit? rest with
      | some (u, rest) =>
        let (c, rest) := joinUnits u rest
        string fuel (c :: acc) rest
      | none => .error .syntaxError
    | '\\' :: c :: rest =>
      match shortEscape? c with
      | some c => string fuel (c :: acc) rest
      | none => .error .syntaxError
    | c :: rest => if c.toNat < 32 || c == '\\' then .error .syntaxError else string fuel (c :: acc) rest

def dropWord? (word : String) (cs : List Char) : Option (List Char) :=
  if word.toList.isPrefixOf cs then some (cs.drop word.length) else none

def fraction (cs : List Char) : List Char × List Char :=
  match cs with
  | '.' :: rest =>
    let digits := rest.takeWhile isAsciiDigit
    if digits.isEmpty then ([], cs) else (digits, rest.drop digits.length)
  | _ => ([], cs)

def exponent? (cs : List Char) : Option (Int × List Char) :=
  match cs with
  | e :: rest =>
    if e == 'e' || e == 'E' then
      let (negative, rest) := match rest with
        | '-' :: rest => (true, rest)
        | '+' :: rest => (false, rest)
        | rest => (false, rest)
      let digits := rest.takeWhile isAsciiDigit
      if digits.isEmpty then none
      else
        let n : Int := asciiNat digits
        some (if negative then -n else n, rest.drop digits.length)
    else none
  | [] => none

def number (cs : List Char) : Except Fault (Value × List Char) :=
  let (negative, cs) := match cs with
    | '-' :: rest => (true, rest)
    | rest => (false, rest)
  let whole := match cs with
    | '0' :: _ => ['0']
    | cs => cs.takeWhile isAsciiDigit
  if whole.isEmpty then .error .syntaxError
  else
    let (digits, rest) := fraction (cs.drop whole.length)
    let power := exponent? rest
    if digits.isEmpty && power.isNone then
      if digitLimit < whole.length then .error .tooManyDigits
      else
        let n : Int := asciiNat whole
        .ok (.int (if negative then -n else n), rest)
    else
      let (e, rest) := power.getD (0, rest)
      .ok (.float (signedDouble negative (asciiNat (whole ++ digits)) (e - digits.length)), rest)

def atom (cs : List Char) : Except Fault (Value × List Char) :=
  let words : List (String × Value) :=
    [("null", .null), ("true", .bool true), ("false", .bool false), ("NaN", .float nanDouble),
      ("Infinity", .float infDouble), ("-Infinity", .float (negateDouble infDouble))]
  match words.findSome? fun w => (dropWord? w.1 cs).map fun rest => (w.2, rest) with
  | some r => .ok r
  | none => number cs

mutual

def value : Nat → List Char → Except Fault (Value × List Char)
  | 0, _ => .error .syntaxError
  | fuel + 1, cs =>
    match cs with
    | '"' :: rest => do
      let (s, rest) ← string rest.length.succ [] rest
      pure (.text s, rest)
    | '[' :: rest =>
      match skip rest with
      | ']' :: rest => .ok (.list [], rest)
      | rest => do
        let (items, rest) ← items fuel rest
        pure (.list items, rest)
    | '\x7b' :: rest =>
      match skip rest with
      | '\x7d' :: rest => .ok (.map [], rest)
      | rest => do
        let (entries, rest) ← entries fuel rest
        pure (.map (overlay [] entries), rest)
    | cs => atom cs

def items : Nat → List Char → Except Fault (List Value × List Char)
  | 0, _ => .error .syntaxError
  | fuel + 1, cs => do
    let (v, rest) ← value fuel cs
    match skip rest with
    | ']' :: rest => pure ([v], rest)
    | ',' :: rest => do
      let (vs, rest) ← items fuel (skip rest)
      pure (v :: vs, rest)
    | _ => .error .syntaxError

def entries : Nat → List Char → Except Fault (List (Value × Value) × List Char)
  | 0, _ => .error .syntaxError
  | fuel + 1, cs =>
    match cs with
    | '"' :: rest => do
      let (key, rest) ← string rest.length.succ [] rest
      match skip rest with
      | ':' :: rest => do
        let (v, rest) ← value fuel (skip rest)
        match skip rest with
        | '\x7d' :: rest => pure ([(.text key, v)], rest)
        | ',' :: rest => do
          let (es, rest) ← entries fuel (skip rest)
          pure ((.text key, v) :: es, rest)
        | _ => .error .syntaxError
      | _ => .error .syntaxError
    | _ => .error .syntaxError

end

def read (cs : List Char) : Except Fault Value := do
  let (v, rest) ← value (cs.length + 1) (skip cs)
  if (skip rest).isEmpty then pure v else .error .syntaxError

end ApiSmith.Json
