import ApiSmith.Data.Value
import ApiSmith.Text.Quoted

/-!
# Values in diagnostics

`literal` writes a value as a literal: texts are quoted, containers are written with their elements.
`display` writes it as running text: a text is itself, and all else is its literal, apart from
decimals, dates and enum members, which have a plain text of their own.
-/

namespace ApiSmith

open Number Time Text

/-- The literal of an amount of time in microseconds: whole days, then the seconds and microseconds
of the rest, zero parts left out. -/
def spanLiteral (micros : Int) : String :=
  let days := Int.fdiv micros dayMicros
  let rest := (micros - days * dayMicros).toNat
  let part (name : String) (n : Int) : List String :=
    if n == 0 then [] else [name ++ "=" ++ intString n]
  let parts := part "days" days ++ part "seconds" (rest / 1000000 : Nat) ++
    part "microseconds" (rest % 1000000 : Nat)
  "datetime.timedelta(" ++ (if parts.isEmpty then "0" else joinStrings ", " parts) ++ ")"

def offsetLiteral (o : Int) : String :=
  if o == 0 then "datetime.timezone.utc" else "datetime.timezone(" ++ spanLiteral o ++ ")"

/-- The literal of a moment: seconds and microseconds only where they are not zero. -/
def momentLiteral (m : Moment) : String :=
  let clock := [m.year, m.month, m.day, m.hour, m.minute] ++
    (if m.micro != 0 then [m.second, m.micro] else if m.second != 0 then [m.second] else [])
  let zone := match m.offset with
    | none => []
    | some o => ["tzinfo=" ++ offsetLiteral o]
  "datetime.datetime(" ++ joinStrings ", " (clock.map (fun (n : Nat) => intString n) ++ zone) ++ ")"

def boolLiteral (b : Bool) : String := if b then "True" else "False"

namespace Scalar

def literal : Scalar → String
  | .text s => Quoted.ofString s
  | .bool b => boolLiteral b
  | .int n => intString n
  | .float x => floatString x

end Scalar

def bracketed (opening closing : String) (parts : List String) : String :=
  opening ++ joinStrings ", " parts ++ closing

namespace Value

mutual

def literal : Value → String
  | .null => "None"
  | .bool b => boolLiteral b
  | .int n => intString n
  | .float x => floatString x
  | .text s => Quoted.ofString s
  | .bytes octets => Quoted.ofBytes octets
  | .decimal d => "Decimal(" ++ Quoted.ofString d.string ++ ")"
  | .date d => bracketed "datetime.date(" ")" ([d.year, d.month, d.day].map (fun (n : Nat) => intString n))
  | .moment m => momentLiteral m
  | .list items => bracketed "[" "]" (literalAll items)
  | .tuple [x] => "(" ++ x.literal ++ ",)"
  | .tuple items => bracketed "(" ")" (literalAll items)
  | .map entries => bracketed "\x7b" "\x7d" (literalEntries entries)
  | .object fields => "ApiObject(" ++ bracketed "\x7b" "\x7d" (literalFields fields) ++ ")"
  | .member type name value _ => "<" ++ type ++ "." ++ name ++ ": " ++ value.literal ++ ">"
  | .model type fields => bracketed (type ++ "(") ")" (literalModelFields fields)
  | .foreign => "<opaque>"

def literalAll : List Value → List String
  | [] => []
  | v :: rest => v.literal :: literalAll rest

def literalEntries : List (Value × Value) → List String
  | [] => []
  | (k, v) :: rest => (k.literal ++ ": " ++ v.literal) :: literalEntries rest

def literalFields : List (Value × Tagged Value) → List String
  | [] => []
  | (k, t) :: rest => (k.literal ++ ": " ++ literalTagged t) :: literalFields rest

def literalTagged : Tagged Value → String
  | .scalar s => s.literal
  | .scalars items => bracketed "[" "]" (items.map Scalar.literal)
  | .object fields => bracketed "\x7b" "\x7d" (literalFields fields)
  | .objects items => bracketed "[" "]" (literalObjects items)

def literalObjects : List (List (Value × Tagged Value)) → List String
  | [] => []
  | o :: rest => bracketed "\x7b" "\x7d" (literalFields o) :: literalObjects rest

def literalModelFields : List (String × String × Value) → List String
  | [] => []
  | (name, _, v) :: rest => (name ++ "=" ++ v.literal) :: literalModelFields rest

end

mutual

/-- Whether every integer in a value is short enough to be written out. Objects and models do not stand
in descriptions. -/
def hasLiteral : Value → Bool
  | .int n => (natText n.natAbs).length ≤ digitLimit
  | .list items | .tuple items => haveLiterals items
  | .map entries => entriesHaveLiterals entries
  | .member _ _ value _ => value.hasLiteral
  | _ => true

def haveLiterals : List Value → Bool
  | [] => true
  | v :: rest => v.hasLiteral && haveLiterals rest

def entriesHaveLiterals : List (Value × Value) → Bool
  | [] => true
  | (k, v) :: rest => k.hasLiteral && v.hasLiteral && entriesHaveLiterals rest

end

def display : Value → String
  | .text s => s
  | .decimal d => d.string
  | .date d => String.ofList d.isoText
  | .moment m =>
    let iso := m.isoText
    String.ofList (iso.take 10 ++ ' ' :: iso.drop 11)
  | .member type name value integral => if integral then value.literal else type ++ "." ++ name
  | v => v.literal

@[simp] theorem display_text (s : String) : (Value.text s).display = s := rfl

end Value

def literalOf (s : String) : String := (Value.text s).literal

end ApiSmith
