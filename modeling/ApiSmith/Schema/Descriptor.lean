import ApiSmith.Profile

/-!
# Type descriptors

What a schema node comes to: a primitive kind, a reference to a definition, an array, or an enum
made from the node. A descriptor is a leaf under a number of arrays (`depth`, `leaf`).
-/

namespace ApiSmith

structure EnumMember where
  name : String
  value : Int
  deriving DecidableEq, Repr

/-- An enum made from a schema, its members in the order of the input. -/
structure EnumSpec where
  name : String
  members : List EnumMember
  deriving DecidableEq, Repr

/-- The type of a schema node. -/
inductive Descriptor where
  | primitive (kind : PrimitiveKind)
  /-- A definition, by its name. -/
  | reference (name : String)
  | array (element : Descriptor)
  | enum (spec : EnumSpec)
  deriving DecidableEq, Repr

namespace Descriptor

def leaf : Descriptor → Descriptor
  | .array d => d.leaf
  | d => d

def depth : Descriptor → Nat
  | .array d => d.depth + 1
  | _ => 0

def enums : Descriptor → List EnumSpec
  | .array d => d.enums
  | .enum spec => [spec]
  | _ => []

def references : Descriptor → List String
  | .array d => d.references
  | .reference name => [name]
  | _ => []

def kinds : Descriptor → List PrimitiveKind
  | .array d => d.kinds
  | .primitive kind => [kind]
  | _ => []

def withoutEnums : Descriptor → Descriptor
  | .array d => .array d.withoutEnums
  | .enum _ => .primitive .int
  | d => d

def uses (d : Descriptor) (kind : PrimitiveKind) : Bool := d.kinds.contains kind

@[simp] theorem enums_withoutEnums (d : Descriptor) : d.withoutEnums.enums = [] := by
  induction d with
  | array d ih => simpa [withoutEnums, enums] using ih
  | _ => rfl

@[simp] theorem references_withoutEnums (d : Descriptor) :
    d.withoutEnums.references = d.references := by
  induction d with
  | array d ih => simpa [withoutEnums, references] using ih
  | _ => rfl

@[simp] theorem withoutEnums_withoutEnums (d : Descriptor) :
    d.withoutEnums.withoutEnums = d.withoutEnums := by
  induction d with
  | array d ih => simpa [withoutEnums] using ih
  | _ => rfl

end Descriptor

def Value.concat? (a b : Value) : Option String :=
  match a, b with
  | .text s, .text t => some (s ++ t)
  | _, _ => none

namespace Profile

def modelClass? (p : Profile) (name : Value) : Option String := p.modelStart.concat? name

def enumClass? (p : Profile) (spec : EnumSpec) : Option String := do
  let start ← p.modelStart.concat? (.text spec.name)
  Value.concat? (.text start) p.enumEnd

end Profile

def PrimitiveKind.typeText : PrimitiveKind → String
  | .int => "int"
  | .int64 => "int"
  | .string => "str"
  | .bool => "bool"
  | .decimal => "Decimal"
  | .date => "datetime.datetime"
  | .binary => "bytes"
  | .object => "ApiObject"

def Descriptor.typeText? (p : Profile) : Descriptor → Option String
  | .primitive kind => some kind.typeText
  | .reference name => p.modelClass? (.text name)
  | .enum spec => p.enumClass? spec
  | .array d => (d.typeText? p).map fun t => "list[" ++ t ++ "]"

end ApiSmith
