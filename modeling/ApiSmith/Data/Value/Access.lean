import ApiSmith.Data.Value.Same
import ApiSmith.Text.Cut

/-!
# Access to parts of a value

Parts of descriptions are looked up in maps. Where a value has not the shape that an access needs,
there is no result.
-/

namespace ApiSmith.Value

/-- The value under a text key of a map, null where the key is absent; none for what is no map. -/
def part? (v : Value) (key : String) : Option Value :=
  match v with
  | .map es => some ((lookupText key es).getD .null)
  | _ => none

def orElse (v : Value) (other : Value) : Value := if v.isPresent then v else other

/-- The entries of a map; what is not present has none. -/
def entriesOrNone? (v : Value) : Option (List (Value × Value)) :=
  if v.isPresent then v.entries? else some []

/-- The elements of what can be gone through: of lists and rows the items, of maps the keys, of
texts the characters, of octets their numbers. -/
def elements? : Value → Option (List Value)
  | .list items => some items
  | .tuple items => some items
  | .map entries => some (entries.map (·.1))
  | .text s => some (s.toList.map fun c => .text (String.ofList [c]))
  | .bytes octets => some (octets.map fun b => .int b.toNat)
  | .object fields => some (fields.map (·.1))
  | _ => none

def elementsOrNone? (v : Value) : Option (List Value) :=
  if v.isPresent then v.elements? else some []

mutual

/-- Whether a value can be a key. Lists, maps, objects and models cannot. -/
def isHashable : Value → Bool
  | .list _ | .map _ | .object _ | .model .. => false
  | .tuple items => areHashable items
  | _ => true

def areHashable : List Value → Bool
  | [] => true
  | v :: rest => v.isHashable && areHashable rest

end

/-- The pair that a value of two elements stands for, if the first can be a key. -/
def pair? (v : Value) : Option (Value × Value) :=
  match v.elements? with
  | some [a, b] => if a.isHashable then some (a, b) else none
  | _ => none

/-- The entries of a map, or those that a row of pairs stands for. -/
def asEntries? (v : Value) : Option (List (Value × Value)) :=
  match v with
  | .map es => some es
  | v => do
    let items ← v.elements?
    let pairs ← items.mapM pair?
    pure (overlay [] pairs)

def isAmong (v : Value) (vs : List Value) : Bool := vs.any fun w => v.same w

end ApiSmith.Value
