import ApiSmith.Number.Decimal
import ApiSmith.Text.Lowercase
import ApiSmith.Yaml.Node

/-!
# Plain data from a document

Each standard tag has its rule for making a value from a node. A mapping may take over the entries
of other mappings through the merge key; its own entries win. A key that occurs twice keeps its
first place and its last value. Keys must not be lists or maps.
-/

namespace ApiSmith.Yaml

open ApiSmith.Text ApiSmith.Number ApiSmith.Time

def baseNumber (base : Nat) (cs : List Char) : Except Fault Nat :=
  match cs.mapM fun c => (hexValue? c).filter (· < base) with
  | some ds => if ds.isEmpty then .error .badScalar else .ok (ofDigits base ds)
  | none => .error .badScalar

/-- A decimal number of at most `digitLimit` digits. -/
def decimalNumber (cs : List Char) : Except Fault Nat :=
  if digitLimit < cs.length then .error .badScalar else baseNumber 10 cs

def sixtyNumber (parts : List (List Char)) : Except Fault Nat := do
  let ns ← parts.mapM decimalNumber
  pure (ofDigits 60 ns)

/-- The integer that a text writes: binary, octal, decimal, hexadecimal or to the base sixty. -/
def intValue (text : String) : Except Fault Value := do
  let cs := text.toList.filter (· != '_')
  let negative := cs.head? == some '-'
  let body := unsigned cs
  let n ← match body with
    | ['0'] => pure 0
    | '0' :: 'b' :: rest => baseNumber 2 rest
    | '0' :: 'x' :: rest => baseNumber 16 rest
    | '0' :: _ => baseNumber 8 body
    | _ => if body.contains ':' then sixtyNumber (fields ':' body) else decimalNumber body
  pure (.int (if negative then -(n : Int) else n))

/-- The double that digits with a point and an exponent write. -/
def plainDouble? (cs : List Char) : Option Float := do
  let mantissa := cs.takeWhile fun c => c != 'e'
  let exponent ← match cs.drop mantissa.length with
    | [] => some 0
    | _ :: rest => Decimal.exponent? rest
  let (whole, fraction) := match cutAtChar '.' mantissa with
    | (whole, some fraction) => (whole, fraction)
    | (whole, none) => (whole, [])
  let n ← Decimal.digits? (whole ++ fraction)
  pure (nearestDouble n (exponent - fraction.length))

def sixtyDouble : List Float → Float → Float → Float
  | [], _, total => total
  | x :: rest, base, total => sixtyDouble rest (base * 60.0) (total + x * base)

/-- The double that a text writes. -/
def floatValue (text : String) : Except Fault Value :=
  let cs := text.toList.filter (· != '_') |> lower
  let negative := cs.head? == some '-'
  let body := unsigned cs
  let signed (x : Float) : Except Fault Value := .ok (.float (if negative then negateDouble x else x))
  if body == ".inf".toList then signed infDouble
  else if body == ".nan".toList then .ok (.float nanDouble)
  else if body.contains ':' then
    match (fields ':' body).mapM plainDouble? with
    | some parts => signed (sixtyDouble parts.reverse 1.0 0.0)
    | none => .error .badScalar
  else
    match plainDouble? body with
    | some x => signed x
    | none => .error .badScalar

def boolValue (text : String) : Except Fault Value :=
  let word := lowerString text
  if ["yes", "true", "on"].contains word then .ok (.bool true)
  else if ["no", "false", "off"].contains word then .ok (.bool false)
  else .error .badScalar

/-- The date or moment that a text writes. -/
def timeValue (text : String) : Except Fault Value :=
  let found := do
    let parts ← timeParts? text.toList
    let (y, mo, d) := parts.date
    match parts.clock with
    | none => (Date.of? (asciiNat y) (asciiNat mo) (asciiNat d)).map Value.date
    | some (h, mi, s) =>
      let digits := parts.fraction.take 6
      let micro := asciiNat digits * Nat.pow 10 (6 - digits.length)
      let offset : Option Int := parts.zone.map fun (sign, zh, zm) =>
        let minutes : Int := (asciiNat zh * 60 + asciiNat zm : Nat)
        (if sign == '-' then -minutes else minutes) * 60000000
      (Moment.of? (asciiNat y) (asciiNat mo) (asciiNat d) (asciiNat h) (asciiNat mi) (asciiNat s)
        micro offset).map Value.moment
  match found with
  | some v => .ok v
  | none => .error .badScalar

def scalarValue (tag text : String) : Except Fault Value :=
  if tag == standard "str" then .ok (.text text)
  else if tag == standard "int" then intValue text
  else if tag == standard "null" then .ok .null
  else if tag == standard "bool" then boolValue text
  else if tag == standard "float" then floatValue text
  else if tag == standard "timestamp" then timeValue text
  else if tag == standard "binary" then
    match Base64.decode? false text.toList with
    | some octets => if text.toList.all (·.toNat < 128) then .ok (.bytes octets) else .error .malformed
    | none => .error .malformed
  else .error .malformed

/-- Whether a value can be a key: neither a list nor a map. -/
def isKey : Value → Bool
  | .list _ => false
  | .map _ => false
  | _ => true

/-- The value of a key. The default key is a text here. -/
def keyTag (tag : String) : String := if tag == standard "value" then standard "str" else tag

mutual

def Node.value : Node → Except Fault Value
  | .scalar tag text => scalarValue tag text
  | .sequence tag items =>
    if tag == standard "seq" then do
      let vs ← Node.values items
      pure (.list vs)
    else if tag == standard "omap" || tag == standard "pairs" then do
      let ps ← Node.pairs items
      pure (.list ps)
    else .error .malformed
  | .mapping tag entries =>
    if tag == standard "map" then do
      let (merged, own) ← Node.entries entries
      pure (.map (overlay [] (merged ++ own)))
    else if tag == standard "set" then do
      let (merged, own) ← Node.entries entries
      pure (.list ((overlay [] (merged ++ own)).map (·.1)))
    else .error .malformed

def Node.values : List Node → Except Fault (List Value)
  | [] => .ok []
  | n :: rest => do
    let v ← n.value
    let vs ← Node.values rest
    pure (v :: vs)

def Node.pairs : List Node → Except Fault (List Value)
  | [] => .ok []
  | .mapping _ [(k, v)] :: rest => do
    let key ← k.value
    let value ← v.value
    let ps ← Node.pairs rest
    pure (.tuple [key, value] :: ps)
  | _ => .error .malformed

/-- The entries that a mapping takes over from others, and its own. -/
def Node.entries : List (Node × Node) → Except Fault (List (Value × Value) × List (Value × Value))
  | [] => .ok ([], [])
  | (k, v) :: rest => do
    if k.tag == standard "merge" then
      let taken ← Node.mergedFrom v
      let (merged, own) ← Node.entries rest
      pure (taken ++ merged, own)
    else
      let key ←
        match k with
        | .scalar tag text => scalarValue (keyTag tag) text
        | k => k.value
      if !isKey key then .error .malformed
      else
        let value ← v.value
        let (merged, own) ← Node.entries rest
        pure (merged, (key, value) :: own)

/-- The entries that are taken over from a node: a mapping, or a list of mappings of which the
first win. -/
def Node.mergedFrom : Node → Except Fault (List (Value × Value))
  | .mapping _ entries => do
    let (merged, own) ← Node.entries entries
    pure (merged ++ own)
  | .sequence _ items => Node.mergedAll items
  | _ => .error .malformed

/-- The entries of a row of mappings, those of the last first. -/
def Node.mergedAll : List Node → Except Fault (List (Value × Value))
  | [] => .ok []
  | .mapping _ entries :: rest => do
    let (merged, own) ← Node.entries entries
    let later ← Node.mergedAll rest
    pure (later ++ merged ++ own)
  | _ => .error .malformed

end

/-- The plain data that a document holds; an empty document is null. -/
def read (cs : List Char) : Except Fault Value := do
  let tokens ← Token.scan cs
  match ← Composer.document tokens with
  | none => pure .null
  | some n => n.value

end ApiSmith.Yaml
