import ApiSmith.Payload.DataType
import ApiSmith.Payload.Dynamic
import ApiSmith.Text.Base64
import ApiSmith.Time.Reading

/-!
# Reading typed data

A value of a payload is read as a type. Null is only read as a type that allows it. A union is read
only if it is one type or null. Fields of a model are found by their keys; what a payload lacks
takes its fallback, and a fault is reported with the keys on the way to it.
-/

namespace ApiSmith

open Text Number Time

inductive Mismatch where
  | nullFor (type : String)
  | notAList (kind : String)
  | notScalar (type : String) (value : Value)
  | notADate (text : String)
  | notAMember (enum : String) (value : Value)
  /-- A value is no object for the model. -/
  | notAModel (model kind : String)
  /-- A value is no dynamic object. -/
  | notDynamic (fault : DynamicFault)
  | missingKey (model key : String)
  /-- A union is of several types. -/
  | ambiguous (type : String)
  | unsupported (type : String)
  /-- The value under a key of a model does not match. -/
  | under (model key : String) (fault : Mismatch)

def Mismatch.message : Mismatch → String
  | .nullFor type => "Expected " ++ type ++ ", got null"
  | .notAList kind => "Expected a list, got " ++ kind
  | .notScalar type v => "Expected " ++ type ++ ", got " ++ v.literal
  | .notADate text => "Expected an ISO 8601 date, got " ++ (Value.text text).literal
  | .notAMember enum v => v.literal ++ " is not a valid " ++ enum
  | .notAModel model kind => model ++ ": expected an object, got " ++ kind
  | .notDynamic fault => fault.message
  | .missingKey model key => model ++ ": missing required key " ++ (Value.text key).literal
  | .ambiguous type => "Unsupported union " ++ type
  | .unsupported type => "Unsupported type " ++ type
  | .under model key fault => model ++ "." ++ key ++ ": " ++ fault.message

inductive DecodeFault where
  /-- The value does not match. -/
  | mismatch (m : Mismatch)
  | tooLarge
  | unknownName

abbrev Decode := Logged DecodeFault

namespace Decode

def mismatch {α : Type} (m : Mismatch) : Decode α := .fail (.mismatch m)

def under {α : Type} (model key : String) (x : Decode α) : Decode α :=
  ⟨x.result.mapError fun
    | .mismatch m => .mismatch (.under model key m)
    | f => f, x.log⟩

def moment (text : String) : Decode Value :=
  match readMoment? text.toList with
  | some m => pure (.moment m)
  | none => mismatch (.notADate text)

def decimalText? : Value → Option (List Char)
  | .text s => some s.toList
  | .float x => some (floatText x)
  | v => v.int?.map intText

/-- A value of a scalar type other than a double or a date, if it is one. -/
def plainScalar? (t : DataType) (v : Value) : Option Value :=
  match t, v with
  | .bool, .bool _ => some v
  | .int, v => if v.int?.isSome then some v else none
  | .text, .text _ => some v
  | .decimal, v => ((decimalText? v).bind Decimal.read?).map .decimal
  | .bytes, .text s => (Base64.decode? true s.toList).map .bytes
  | _, _ => none

def double (v : Value) : Decode Value :=
  match v with
  | .float x => pure (.float x)
  | v =>
    match v.int? with
    | none => mismatch (.notScalar "float" v)
    | some n =>
      match intDouble? n with
      | some x => pure (.float x)
      | none => .fail .tooLarge

def scalar (table : TypeTable) (t : DataType) (v : Value) : Decode Value :=
  match t, v with
  | .float, v => double v
  | .moment, .text s => moment s
  | .bool, v | .int, v | .text, v | .decimal, v | .bytes, v | .moment, v =>
    match plainScalar? t v with
    | some w => pure w
    | none => mismatch (.notScalar t.scalarName v)
  | t, _ => mismatch (.unsupported (table.typeText t))

def dynamic (v : Value) : Decode Value :=
  let x := DynamicObject.ofPayload v
  ⟨(x.result.map .object).mapError fun f => .mismatch (.notDynamic f), x.log⟩

def member (name : String) (integral : Bool) (members : List (String × Value)) (v : Value) :
    Decode Value :=
  match memberOf? name integral members v with
  | some m => pure m
  | none => mismatch (.notAMember name v)

def fallback (model : String) (f : FieldType) : Decode Value :=
  match f.fallback with
  | some v => pure v
  | none => mismatch (.missingKey model f.key)

end Decode

theorem sizeOf_only_member {u : DataType} {members : List DataType}
    (h : members.filter (fun t => !t.isNull) = [u]) : sizeOf u < sizeOf members := by
  have hu : u ∈ members := (List.mem_filter.1 (h ▸ List.mem_singleton.2 rfl)).1
  exact List.sizeOf_lt_of_mem hu

mutual

def decode (table : TypeTable) (t : DataType) (v : Value) : Decode Value :=
  match t with
  | .any => pure v
  | .union form members =>
    if v.isNull && members.any DataType.isNull then pure .null
    else
      match _h : members.filter fun t => !t.isNull with
      | [u] => decode table u v
      | _ => Decode.mismatch (.ambiguous (table.typeText (.union form members)))
  | t =>
    if v.isNull then Decode.mismatch (.nullFor (table.typeText t))
    else
      match t with
      | .list item =>
        match v with
        | .list items => do
          let values ← decodeAll table item items
          pure (.list values)
        | v => Decode.mismatch (.notAList v.kindName)
      | .anyList =>
        match v with
        | .list items => pure (.list items)
        | v => Decode.mismatch (.notAList v.kindName)
      | .object => Decode.dynamic v
      | .named name =>
        match table.find? name with
        | some (.enum integral members) => Decode.member name integral members v
        | some (.model fields) =>
          match v with
          | .map entries => do
            let values ← decodeFields table name entries fields
            pure (.model name values)
          | v => Decode.mismatch (.notAModel name v.kindName)
        | none => .fail .unknownName
      | t => Decode.scalar table t v
termination_by (sizeOf v, sizeOf t)
decreasing_by
  · have := sizeOf_only_member _h
    simp only [DataType.union.sizeOf_spec]
    decreasing_tactic
  · decreasing_tactic
  · decreasing_tactic

def decodeAll (table : TypeTable) (t : DataType) (vs : List Value) : Decode (List Value) :=
  match vs with
  | [] => pure []
  | v :: rest => do
    let x ← decode table t v
    let more ← decodeAll table t rest
    pure (x :: more)
termination_by (sizeOf vs, 0)

def decodeFields (table : TypeTable) (model : String) (entries : List (Value × Value))
    (fields : List FieldType) : Decode (List (String × String × Value)) :=
  match fields with
  | [] => pure []
  | f :: rest => do
    let x ←
      match _h : lookupText f.key entries with
      | some raw =>
        if raw.isNull then Decode.fallback model f
        else Decode.under model f.key (decode table f.type raw)
      | none => Decode.fallback model f
    let more ← decodeFields table model entries rest
    pure ((f.name, f.key, x) :: more)
termination_by (sizeOf entries, fields.length)
decreasing_by
  · decreasing_tactic
  · have := sizeOf_lookupText _h
    decreasing_tactic

end

end ApiSmith
