import ApiSmith.Schema.Resolve

/-!
# Types on the wire

Parameters and responses carry the literals of an enum and not the enum itself. An enum declared in
place, or as the items of an array in place, has the type of its literals: integers where all of
them are, texts otherwise. Any other enum is carried as an integer.
-/

namespace ApiSmith

structure InlineEnum where
  values : List Value
  /-- Whether it is that of the items of an array. -/
  ofItems : Bool

namespace InlineEnum

/-- The enum that the entries of a schema declare, if they declare one. The outer option is empty
where the schema has not the shape of one. -/
def ofEntries? (es : List (Value × Value)) : Option (Option InlineEnum) := do
  let own := (lookupText "enum" es).getD .null
  if !own.isNull then
    let values ← own.elements?
    pure (some ⟨values, false⟩)
  else if ((lookupText "type" es).getD .null).isText "array" then
    let items ← (((lookupText "items" es).getD .null).orElse (.map [])).part? "enum"
    if items.isNull then pure none
    else do
      let values ← items.elements?
      pure (some ⟨values, true⟩)
  else pure none

def ofParameter? (es : List (Value × Value)) : Option (Option InlineEnum) := do
  match ← ofEntries? es with
  | some e => pure (some e)
  | none =>
    let schema ← ((lookupText "schema" es).getD .null).entriesOrNone?
    ofEntries? schema

def kind (e : InlineEnum) : PrimitiveKind :=
  if e.values.all fun v => v.int?.isSome then .int else .string

def type (e : InlineEnum) : Descriptor :=
  if e.ofItems then .array (.primitive e.kind) else .primitive e.kind

end InlineEnum

/-- The type of a parameter or a response. -/
def wireType (p : Profile) (node : Value) (c : NamingContext) : Compile Descriptor := do
  let es ← Compile.shaped node.entries?
  match ← Compile.shaped (InlineEnum.ofEntries? es) with
  | some e => pure e.type
  | none => do
    let d ← resolve p node c
    pure d.withoutEnums

end ApiSmith
