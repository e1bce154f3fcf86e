import ApiSmith.Number.Decimal
import ApiSmith.Time.Moment

/-!
# Data values

What API descriptions, settings and payloads are made of. Maps keep the order of their entries, and
their keys may be any value. Besides plain data there are the values that typed decoding produces:
enum members, models and dynamic objects.

A dynamic object holds *tagged* values only: scalars, lists of scalars of one kind, objects, and
lists of objects. There is no tagged null, no nested list and no mixed list.
-/

namespace ApiSmith

open Number Time

/-- A plain scalar of a payload. -/
inductive Scalar where
  | text (s : String)
  | bool (b : Bool)
  | int (n : Int)
  | float (x : Float)
  deriving DecidableEq

/-- A value that a dynamic object with keys `κ` can hold. -/
inductive Tagged (κ : Type) where
  | scalar (s : Scalar)
  | scalars (items : List Scalar)
  | object (fields : List (κ × Tagged κ))
  | objects (items : List (List (κ × Tagged κ)))

inductive Value where
  | null
  | bool (b : Bool)
  | int (n : Int)
  | float (x : Float)
  | text (s : String)
  | bytes (octets : List UInt8)
  | decimal (d : Decimal)
  | date (d : Date)
  /-- A date and time of day. -/
  | moment (m : Moment)
  | list (items : List Value)
  | tuple (items : List Value)
  /-- A map, its entries in order. -/
  | map (entries : List (Value × Value))
  | object (fields : List (Value × Tagged Value))
  /-- A member of the enum `type`; `integral` says that it counts as its integer value. -/
  | member (type name : String) (value : Value) (integral : Bool)
  /-- An instance of a model: per field its name, its key in payloads, and its value. -/
  | model (type : String) (fields : List (String × String × Value))
  /-- A value of a kind that nothing here supports. -/
  | foreign

instance : Inhabited Value := ⟨.null⟩

abbrev DynamicObject := List (Value × Tagged Value)

namespace Value

def text? : Value → Option String
  | .text s => some s
  | _ => none

def entries? : Value → Option (List (Value × Value))
  | .map es => some es
  | _ => none

def isText (v : Value) (s : String) : Bool :=
  match v with
  | .text t => t == s
  | _ => false

def isNull : Value → Bool
  | .null => true
  | _ => false

/-- Whether a value counts as present: not null, not false, not zero and not empty. -/
def isPresent : Value → Bool
  | .null => false
  | .bool b => b
  | .int n => n != 0
  | .float x => x != 0.0
  | .text s => !s.isEmpty
  | .bytes octets => !octets.isEmpty
  | .decimal (.finite _ coefficient _) => coefficient != 0
  | .decimal _ => true
  | .list items => !items.isEmpty
  | .tuple items => !items.isEmpty
  | .map entries => !entries.isEmpty
  | .object fields => !fields.isEmpty
  | .member _ _ (.int n) true => n != 0
  | .member .. => true
  | .date _ | .moment _ | .model .. | .foreign => true

/-- The integer of an integer that is not a truth value. -/
def int? : Value → Option Int
  | .int n => some n
  | .member _ _ (.int n) true => some n
  | _ => none

def kindName : Value → String
  | .null => "NoneType"
  | .bool _ => "bool"
  | .int _ => "int"
  | .float _ => "float"
  | .text _ => "str"
  | .bytes _ => "bytes"
  | .decimal _ => "Decimal"
  | .date _ => "date"
  | .moment _ => "datetime"
  | .list _ => "list"
  | .tuple _ => "tuple"
  | .map _ => "dict"
  | .object _ => "ApiObject"
  | .member type .. => type
  | .model type _ => type
  | .foreign => "Opaque"

end Value

end ApiSmith
