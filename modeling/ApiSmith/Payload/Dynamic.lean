import ApiSmith.Data.Value.Literal
import ApiSmith.Data.Value.Same
import ApiSmith.Log

/-!
# Dynamic objects

A dynamic object keeps every key of a payload whose value it can hold. The shapes are tried in a
fixed order: text, truth value, integer, double, object, list of one kind of scalars, list of
objects. Reading a payload leaves out keys with other values; the strict constructor refuses them.
Writing an object and looking at it go over the tagged values each in its own way.
-/

namespace ApiSmith

/-- How values that a dynamic object cannot hold are treated. -/
inductive Strictness where
  | lenient
  | strict
  deriving DecidableEq, Repr

inductive DynamicFault where
  | unsupported (key value : Value)
  | notAnObject (kind : String)
  /-- The constructor is given what has no entries. -/
  | shape

def DynamicFault.message : DynamicFault → String
  | .unsupported key value =>
    "Unsupported value for key " ++ key.literal ++ ": " ++ value.literal
  | .notAnObject kind => "Expected a JSON object, got " ++ kind
  | .shape => ""

/-! ## Plain values -/

def Scalar.value : Scalar → Value
  | .text s => .text s
  | .bool b => .bool b
  | .int n => .int n
  | .float x => .float x

def Value.scalar? : Value → Option Scalar
  | .text s => some (.text s)
  | .bool b => some (.bool b)
  | .int n => some (.int n)
  | .member _ _ (.int n) true => some (.int n)
  | .float x => some (.float x)
  | _ => none

namespace Tagged

mutual

def plain : Tagged Value → Value
  | .scalar s => s.value
  | .scalars items => .list (items.map Scalar.value)
  | .object fields => .map (plainFields fields)
  | .objects items => .list (plainObjects items)

def plainFields : List (Value × Tagged Value) → List (Value × Value)
  | [] => []
  | (k, t) :: rest => (k, t.plain) :: plainFields rest

def plainObjects : List (List (Value × Tagged Value)) → List Value
  | [] => []
  | o :: rest => .map (plainFields o) :: plainObjects rest

end

mutual

def untag : Tagged Value → Value
  | .object fields => .map (untagFields fields)
  | .objects items => .list (untagObjects items)
  | .scalars items => .list (items.map Scalar.value)
  | .scalar s => s.value

def untagFields : List (Value × Tagged Value) → List (Value × Value)
  | [] => []
  | (k, t) :: rest => (k, t.untag) :: untagFields rest

def untagObjects : List (List (Value × Tagged Value)) → List Value
  | [] => []
  | o :: rest => .map (untagFields o) :: untagObjects rest

end

end Tagged

/-! ## Tagging -/

def Scalar.alike : Scalar → Scalar → Bool
  | .text _, .text _ => true
  | .bool _, .bool _ => true
  | .int _, .int _ => true
  | .float _, .float _ => true
  | _, _ => false

def scalarsOf? (items : List Value) : Option (List Scalar) := do
  let scalars ← items.mapM Value.scalar?
  match scalars with
  | [] => pure []
  | s :: rest => if rest.all s.alike then pure (s :: rest) else none

def allThere {α : Type} : List (Option α) → Option (List α)
  | [] => some []
  | none :: _ => none
  | some a :: rest => (allThere rest).map (a :: ·)

def droppedRecord (key value : Value) : Logged DynamicFault Unit :=
  .note .debug .objects
    ("Dropping key " ++ key.literal ++ " with unsupported value " ++ value.literal)

/-- The fields of a dynamic object: strictly made ones have text keys. -/
def settledFields (strictness : Strictness) (fields : DynamicObject) : DynamicObject :=
  match strictness with
  | .lenient => fields
  | .strict => overlay [] (fields.map fun f => (.text f.1.display, f.2))

mutual

/-- The tagged form of a value, none where it has none. -/
def tag (strictness : Strictness) : Value → Logged DynamicFault (Option (Tagged Value))
  | .text s => pure (some (.scalar (.text s)))
  | .bool b => pure (some (.scalar (.bool b)))
  | .int n => pure (some (.scalar (.int n)))
  | .member _ _ (.int n) true => pure (some (.scalar (.int n)))
  | .float x => pure (some (.scalar (.float x)))
  | .object fields => pure (some (.object fields))
  | .map entries => do
    let fields ← tagEntries strictness entries
    pure (some (.object (settledFields strictness fields)))
  | .list items =>
    match scalarsOf? items with
    | some scalars => pure (some (.scalars scalars))
    | none => do
      let objects ← tagObjects strictness items
      pure ((allThere objects).map .objects)
  | .tuple items =>
    match scalarsOf? items with
    | some scalars => pure (some (.scalars scalars))
    | none => do
      let objects ← tagObjects strictness items
      pure ((allThere objects).map .objects)
  | _ => pure none

/-- The tagged forms of entries. Values without one are left out or refused. -/
def tagEntries (strictness : Strictness) :
    List (Value × Value) → Logged DynamicFault (List (Value × Tagged Value))
  | [] => pure []
  | (key, value) :: rest => do
    match ← tag strictness value with
    | some t => do
      let more ← tagEntries strictness rest
      pure ((key, t) :: more)
    | none =>
      match strictness with
      | .strict => .fail (.unsupported key value)
      | .lenient => do
        droppedRecord key value
        tagEntries strictness rest

def tagObjects (strictness : Strictness) :
    List Value → Logged DynamicFault (List (Option (List (Value × Tagged Value))))
  | [] => pure []
  | .object fields :: rest => do
    let more ← tagObjects strictness rest
    pure (some fields :: more)
  | .map entries :: rest => do
    let fields ← tagEntries strictness entries
    let more ← tagObjects strictness rest
    pure (some (settledFields strictness fields) :: more)
  | _ :: rest => do
    let more ← tagObjects strictness rest
    pure (none :: more)

end

namespace DynamicObject

def ofPayload (v : Value) : Logged DynamicFault DynamicObject :=
  match v with
  | .map entries => tagEntries .lenient entries
  | v => .fail (.notAnObject v.kindName)

/-- The dynamic object with the given entries, all of which it must hold. -/
def make (v : Value) : Logged DynamicFault DynamicObject :=
  match v with
  | .map entries => do
    let fields ← tagEntries .strict entries
    pure (settledFields .strict fields)
  | v => if v.isPresent then .fail .shape else pure []

def plain (fields : DynamicObject) : Value := .map (Tagged.plainFields fields)

def info (fields : DynamicObject) : Value := .map (Tagged.untagFields fields)

def get? (fields : DynamicObject) (key : Value) : Option Value :=
  (lookup key fields).map Tagged.untag

end DynamicObject

end ApiSmith
