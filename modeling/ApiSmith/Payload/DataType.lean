import ApiSmith.Data.Value.Same
import ApiSmith.Text.Cut

/-!
# Types of payload data

What a payload is read as: scalars, dynamic objects, lists, enums and models by name, and unions. A
table says what the names stand for. Unions are kept flat and without repetitions, and a union of
one type is that type.
-/

namespace ApiSmith

inductive UnionForm where
  /-- As a row of members in brackets. -/
  | listed
  | barred
  deriving DecidableEq, Repr

inductive DataType where
  | any
  | int
  | float
  | text
  | bool
  | decimal
  /-- A date and time of day. -/
  | moment
  | bytes
  | object
  | anyList
  | complex
  | anyMap
  | null
  | named (name : String)
  | list (item : DataType)
  | map (item : DataType)
  | union (form : UnionForm) (members : List DataType)
  deriving Inhabited, Repr

namespace DataType

mutual

def same : DataType → DataType → Bool
  | .any, .any | .int, .int | .float, .float | .text, .text | .bool, .bool => true
  | .decimal, .decimal | .moment, .moment | .bytes, .bytes | .object, .object => true
  | .anyList, .anyList | .complex, .complex | .anyMap, .anyMap | .null, .null => true
  | .named a, .named b => a == b
  | .list a, .list b => a.same b
  | .map a, .map b => a.same b
  | .union form as, .union form' bs => form == form' && sameAll as bs
  | _, _ => false

def sameAll : List DataType → List DataType → Bool
  | [], [] => true
  | a :: as, b :: bs => a.same b && sameAll as bs
  | _, _ => false

end

instance : BEq DataType := ⟨same⟩

def parts : DataType → List DataType
  | .union _ members => members
  | t => [t]

def isNull : DataType → Bool
  | .null => true
  | _ => false

def distinct : List DataType → List DataType
  | [] => []
  | t :: rest => t :: (distinct rest).filter fun u => !(u == t)

def ofParts (form : UnionForm) (members : List DataType) : DataType :=
  match distinct members with
  | [t] => t
  | ts => .union form ts

/-- The members of an optional type in the order in which they are written: texts before
integers where these two are all. -/
def optionalParts (members : List DataType) : List DataType :=
  match members with
  | [.int, .text] => [.text, .int]
  | ts => ts

def oneOf (types : List DataType) : DataType :=
  match types with
  | [.union _ members, .null] => ofParts .listed (optionalParts members ++ [.null])
  | ts => ofParts .listed (ts.flatMap parts)

def optional (t : DataType) : DataType := oneOf [t, .null]

def isListed : DataType → Bool
  | .union .listed _ => true
  | _ => false

def either (a b : DataType) : DataType :=
  if a.isListed || b.isListed then oneOf [a, b] else ofParts .barred (a.parts ++ b.parts)

def inner : DataType → String
  | .any => "typing.Any"
  | .int => "int"
  | .float => "float"
  | .text => "str"
  | .bool => "bool"
  | .decimal => "decimal.Decimal"
  | .moment => "datetime.datetime"
  | .bytes => "bytes"
  | .object => "clientgen.runtime.objects.ApiObject"
  | .anyList => "list"
  | .complex => "complex"
  | .anyMap => "dict"
  | .null => "NoneType"
  | .named name => "models." ++ name
  | .list t => "list[" ++ t.inner ++ "]"
  | .map t => "dict[str, " ++ t.inner ++ "]"
  | .union form members =>
    match form, innerAll members with
    | .listed, [(_, true), (b, false)] => "typing.Optional[" ++ b ++ "]"
    | .listed, [(a, false), (_, true)] => "typing.Optional[" ++ a ++ "]"
    | .listed, ts => "typing.Union[" ++ Text.joinStrings ", " (ts.map (·.1)) ++ "]"
    | .barred, ts =>
      Text.joinStrings " | " (ts.map fun t => if t.2 then "None" else t.1)
where
  /-- The texts of members, each with whether it is null. -/
  innerAll : List DataType → List (String × Bool)
    | [] => []
    | t :: rest => (t.inner, t.isNull) :: innerAll rest

def scalarName : DataType → String
  | .decimal => "Decimal"
  | .moment => "datetime"
  | t => t.inner

end DataType

structure FieldType where
  name : String
  key : String
  type : DataType
  /-- Its value where a payload has none; a required field has no fallback. -/
  fallback : Option Value

def Value.isMemberOf (type : String) : Value → Bool
  | .member t .. => t == type
  | _ => false

inductive TypeDecl where
  /-- An enum; the members of an integral one count as integers. -/
  | enum (integral : Bool) (members : List (String × Value))
  | model (fields : List FieldType)

abbrev TypeTable := List (String × TypeDecl)

namespace TypeTable

def find? (table : TypeTable) (name : String) : Option TypeDecl :=
  (List.find? (fun e => e.1 == name) table).map (·.2)

def typeText (table : TypeTable) (t : DataType) : String :=
  match t with
  | .named name =>
    match table.find? name with
    | some (.enum ..) => "<enum '" ++ name ++ "'>"
    | _ => "<class '" ++ t.inner ++ "'>"
  | .any | .list _ | .map _ | .union .. => t.inner
  | t => "<class '" ++ t.inner ++ "'>"

end TypeTable

/-- The member of an enum with a value: the first of several. A member of the enum stands for
itself. -/
def memberOf? (type : String) (integral : Bool) (members : List (String × Value)) (v : Value) :
    Option Value :=
  if v.isMemberOf type then some v
  else (members.find? fun m => m.2.same v).map fun m => .member type m.1 m.2 integral

/-- The member of an enum with a raw value, null where there is none. -/
def memberOrNull (type : String) (integral : Bool) (members : List (String × Value))
    (raw : Value) : Value :=
  if raw.isNull then .null else (memberOf? type integral members raw).getD .null

def memberNamed? (type : String) (integral : Bool) (members : List (String × Value))
    (name : String) : Option Value :=
  (members.find? fun m => m.1 == name).bind fun m => memberOf? type integral members m.2

end ApiSmith
