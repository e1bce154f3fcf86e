import ApiSmith.Document
import ApiSmith.Package.Dependencies
import ApiSmith.Package.Page

/-!
# Packages

A package has a page for every definition and every group of operations of a document that can be
generated. A definition or an operation with a defect is left out, and so is one that refers to a
definition that is left out; the others are not touched by it.
-/

namespace ApiSmith

inductive ArtifactKind where
  | definition
  | operation
  deriving DecidableEq, Repr

def ArtifactKind.name : ArtifactKind → String
  | .definition => "definition"
  | .operation => "operation"

structure Omission where
  kind : ArtifactKind
  name : Value
  defect : Defect

structure Package where
  title : Value
  version : String
  profileName : String
  models : List ModelPage
  groups : List GroupPage
  omissions : List Omission

namespace Package

def leaveOut (kind : ArtifactKind) (name : Value) (defect : Defect) : Compile Omission := do
  Logged.note .error .assembly
    ("Skipping " ++ kind.name ++ " " ++ name.display ++ ": " ++ defect.message)
  pure ⟨kind, name, defect⟩

/-- The result of compiling an artifact, or its omission. Only a defect makes an omission. -/
def attempt {α : Type} (kind : ArtifactKind) (name : Value) (x : Compile α) :
    Compile (Omission ⊕ α) :=
  match x.result with
  | .ok a => ⟨.ok (.inr a), x.log⟩
  | .error (.defect d) =>
    ⟨.ok (), x.log⟩ >>= fun (_ : Unit) => do
      let o ← leaveOut kind name d
      pure (.inl o)
  | .error h => ⟨.error h, x.log⟩

def separate {α : Type} (results : List (Omission ⊕ α)) : List Omission × List α :=
  (results.filterMap Sum.getLeft?, results.filterMap Sum.getRight?)

/-- What a definition or an operation is where it is not present: an empty map. -/
def orEmpty (v : Value) : Value := v.orElse (.map [])

def compileDefinitions (p : Profile) (definitions : List (Value × Value)) :
    Compile (List (Omission ⊕ Model)) :=
  definitions.mapM fun d => attempt .definition d.1 (Model.compile p d.1 (orEmpty d.2))

def omitModel (dropped : Model × String) : Compile Omission :=
  leaveOut .definition dropped.1.name
    ⟨.missingDefinition dropped.2, "definitions." ++ dropped.1.name.display⟩

def operationLabel (path : Value) (method : String) : Value :=
  .text (Text.upperString method ++ " " ++ path.display)

def compileOperation (p : Profile) (shared : Value) (names : List Value) (path : Value)
    (entry : String × Value) : Compile Operation := do
  let op ← Operation.compile p shared path entry.1 (orEmpty entry.2)
  match Model.missingIn names op.references with
  | none => pure op
  | some ref => .defect (.missingDefinition ref) (Operation.place path op.verb)

def pathEntries (paths : List (Value × List (String × Value))) : List (Value × String × Value) :=
  paths.flatMap fun e => e.2.map fun op => (e.1, op)

def compileOperations (p : Profile) (shared : Value) (names : List Value)
    (paths : List (Value × List (String × Value))) : Compile (List (Omission ⊕ Operation)) :=
  (pathEntries paths).mapM fun e =>
    attempt .operation (operationLabel e.1 e.2.1) (compileOperation p shared names e.1 e.2)

def build (p : Profile) (document : Document) : Compile Package := do
  let compiled ← compileDefinitions p document.definitions
  let (faulty, models) := separate compiled
  let (models, dropped) := Model.settle models
  let unresolved ← dropped.mapM omitModel
  let modelPages ← Compile.shaped (models.mapM (ModelPage.of? p))
  let compiled ←
    compileOperations p (.map document.parameters) (models.map (·.name)) document.paths
  let (skipped, operations) := separate compiled
  let groupPages ← Compile.shaped ((Group.ofOperations operations).mapM (GroupPage.of? p))
  let omissions := faulty ++ unresolved ++ skipped
  Logged.note .info .assembly
    ("Compiled " ++ Number.intString modelPages.length ++ " models and " ++
      Number.intString groupPages.length ++ " client groups (" ++
      Number.intString omissions.length ++ " failures)")
  pure {
    title := document.title
    version := document.version
    profileName := p.name
    models := modelPages
    groups := groupPages
    omissions := omissions }

end Package

end ApiSmith
