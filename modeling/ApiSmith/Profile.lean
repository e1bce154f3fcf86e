import ApiSmith.Data.Value.Literal
import ApiSmith.Data.Value.Same
import ApiSmith.Text.Cut

/-!
# Profiles

A profile bundles the naming parts, the policy for default values and the tables that tell one
family of generated packages from another. There are two presets; a settings map can override single
settings and extend the tables. Settings that are used as text may be any value and are kept as they
are.
-/

namespace ApiSmith

open Text

inductive PrimitiveKind where
  | int
  | int64
  | string
  | bool
  | decimal
  /-- A date and time of day. -/
  | date
  | binary
  | object
  deriving DecidableEq, Repr

namespace PrimitiveKind

def name : PrimitiveKind → String
  | .int => "Int"
  | .int64 => "Int64"
  | .string => "String"
  | .bool => "Bool"
  | .decimal => "Decimal"
  | .date => "Date"
  | .binary => "Data"
  | .object => "Object"

def all : List PrimitiveKind := [.int, .int64, .string, .bool, .decimal, .date, .binary, .object]

def ofName? (name : String) : Option PrimitiveKind := all.find? fun k => k.name == name

theorem ofName?_name (k : PrimitiveKind) : ofName? k.name = some k := by cases k <;> decide

end PrimitiveKind

inductive DefaultPolicy where
  | pathOnly
  | all
  deriving DecidableEq, Repr

namespace DefaultPolicy

def name : DefaultPolicy → String
  | .pathOnly => "path-only"
  | .all => "all"

def ofName? (name : String) : Option DefaultPolicy :=
  [pathOnly, all].find? fun p => p.name == name

end DefaultPolicy

abbrev TypeKey := String × Option String

structure Profile where
  name : String
  modelStart : Value
  enumEnd : Value
  groupEnd : Value
  /-- What names of enum members start with where the description names none. -/
  memberStart : Value
  defaultPolicy : DefaultPolicy
  frozenModels : Value
  /-- The root that is taken off paths before they are grouped. -/
  pathRoot : Value
  /-- The module that generated code imports its support from. -/
  supportModule : Value
  primitiveTypes : List (TypeKey × PrimitiveKind)
  defaultValues : List (PrimitiveKind × String)
  nameAliases : List (Value × Value)
  /-- Texts that are replaced in comments. -/
  commentReplacements : List (Value × Value)

namespace Profile

def standardTypes : List (TypeKey × PrimitiveKind) :=
  [(("integer", none), .int), (("string", none), .string), (("boolean", none), .bool),
    (("number", some "double"), .decimal), (("string", some "date-time"), .date),
    (("integer", some "int32"), .int), (("integer", some "int64"), .int64),
    (("string", some "byte"), .binary), (("string", some "uuid"), .string),
    (("object", none), .object), (("number", some "float"), .decimal)]

def standardDefaults : List (PrimitiveKind × String) :=
  [(.decimal, "Decimal(\"0\")"), (.int, "0"), (.int64, "0"), (.string, "\"\""), (.bool, "False")]

def standardAliases : List (Value × Value) :=
  [(.text "class", .text "aClass"), (.text "default", .text "aDefault")]

def common : Profile where
  name := "common"
  modelStart := .text "CA"
  enumEnd := .text "Enum"
  groupEnd := .text "Api"
  memberStart := .text "el"
  defaultPolicy := .pathOnly
  frozenModels := .bool true
  pathRoot := .text ""
  supportModule := .text "clientgen.runtime"
  primitiveTypes := standardTypes
  defaultValues := standardDefaults
  nameAliases := standardAliases
  commentReplacements := []

def legacy : Profile :=
  { common with
    name := "legacy"
    modelStart := .text "PSB"
    defaultPolicy := .all
    frozenModels := .bool false }

def presets : List Profile := [common, legacy]

/-- The presets name the members of enums and keep names from the reserved ones in the same way. -/
theorem naming_of_mem_presets {p : Profile} (h : p ∈ presets) :
    p.memberStart = .text "el" ∧ p.nameAliases = standardAliases := by
  simp only [presets, List.mem_cons, List.not_mem_nil, or_false] at h
  rcases h with rfl | rfl <;> exact ⟨rfl, rfl⟩

inductive Fault where
  | unknownProfile (name : Value)
  | unknownPolicy (value : Value)
  | unknownKind (value : Value)
  | unknownSettings (names : List String)
  /-- The settings do not have the shape of settings. -/
  | shape

def Fault.message : Fault → String
  | .unknownProfile name =>
    "Unknown profile " ++ name.literal ++ "; expected one of " ++
      (Value.list (presets.map fun p => .text p.name)).literal
  | .unknownPolicy v => v.literal ++ " is not a valid DefaultPolicy"
  | .unknownKind v => v.literal ++ " is not a valid PrimitiveKind"
  | .unknownSettings names => "Unknown profile settings: " ++ joinStrings ", " names
  | .shape => ""

def preset (name : Value) : Except Fault Profile :=
  match name with
  | .list _ | .map _ => .error .shape
  | _ =>
    match presets.find? fun p => name.isText p.name with
    | some p => .ok p
    | none => .error (.unknownProfile name)

def typeKey (cs : List Char) : TypeKey :=
  match cutAtChar '/' cs with
  | (type, some (c :: format)) => (String.ofList type, some (String.ofList (c :: format)))
  | (type, _) => (String.ofList type, none)

def setType (key : TypeKey) (kind : PrimitiveKind) :
    List (TypeKey × PrimitiveKind) → List (TypeKey × PrimitiveKind)
  | [] => [(key, kind)]
  | (k, v) :: rest => if k = key then (k, kind) :: rest else (k, v) :: setType key kind rest

def typeEntries : List (Value × Value) → Except Fault (List (TypeKey × PrimitiveKind))
  | [] => .ok []
  | (key, kind) :: rest => do
    let key ← match key with
      | .text s => .ok (typeKey s.toList)
      | _ => .error .shape
    let kind ← match kind.text?.bind PrimitiveKind.ofName? with
      | some k => .ok k
      | none => .error (.unknownKind kind)
    let more ← typeEntries rest
    pure ((key, kind) :: more)

def mapEntries (v : Value) : Except Fault (List (Value × Value)) :=
  match v with
  | .map es => .ok es
  | _ => .error .shape

def fieldNames : List String :=
  ["model_prefix", "enum_suffix", "group_suffix", "enum_member_prefix", "frozen_models",
    "path_prefix", "runtime_module"]

def tableNames : List String :=
  ["default_policy", "name_aliases", "comment_replacements", "primitive_types"]

def withFields (p : Profile) (es : List (Value × Value)) : Profile :=
  { p with
    modelStart := (lookupText "model_prefix" es).getD p.modelStart
    enumEnd := (lookupText "enum_suffix" es).getD p.enumEnd
    groupEnd := (lookupText "group_suffix" es).getD p.groupEnd
    memberStart := (lookupText "enum_member_prefix" es).getD p.memberStart
    frozenModels := (lookupText "frozen_models" es).getD p.frozenModels
    pathRoot := (lookupText "path_prefix" es).getD p.pathRoot
    supportModule := (lookupText "runtime_module" es).getD p.supportModule }

def unknownNames (es : List (Value × Value)) : Except Fault (List String) := do
  let unknown := (es.map (·.1)).filter fun k =>
    !(fieldNames ++ tableNames).any fun n => k.isText n
  match unknown.mapM Value.text? with
  | some names => pure (names.mergeSort fun a b => !(b < a))
  | none => .error .shape

def configure (p : Profile) (settings : Value) : Except Fault Profile := do
  if !settings.isPresent then pure p
  else
    let es ← mapEntries settings
    let policy ← match lookupText "default_policy" es with
      | none => pure p.defaultPolicy
      | some v =>
        match v.text?.bind DefaultPolicy.ofName? with
        | some d => pure d
        | none => .error (.unknownPolicy v)
    let aliases ← match lookupText "name_aliases" es with
      | none => pure p.nameAliases
      | some v => (mapEntries v).map (overlay p.nameAliases)
    let replacements ← match lookupText "comment_replacements" es with
      | none => pure p.commentReplacements
      | some v => (mapEntries v).map (overlay p.commentReplacements)
    let types ← match lookupText "primitive_types" es with
      | none => pure p.primitiveTypes
      | some v => do
        let extra ← mapEntries v >>= typeEntries
        pure (extra.foldl (fun table e => setType e.1 e.2 table) p.primitiveTypes)
    let unknown ← unknownNames es
    if !unknown.isEmpty then .error (.unknownSettings unknown)
    else
      pure { p.withFields es with
        defaultPolicy := policy
        nameAliases := aliases
        commentReplacements := replacements
        primitiveTypes := types }

def load (name : Value) (settings : Option Value) : Except Fault Profile := do
  let p ← preset name
  match settings with
  | none => pure p
  | some s => p.configure s

def kindOf? (p : Profile) (key : TypeKey) : Option PrimitiveKind :=
  (p.primitiveTypes.find? fun e => e.1 == key).map (·.2)

def zeroOf? (p : Profile) (kind : PrimitiveKind) : Option String :=
  (p.defaultValues.find? fun e => e.1 == kind).map (·.2)

end Profile

end ApiSmith
