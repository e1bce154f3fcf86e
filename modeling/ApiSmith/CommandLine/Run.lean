import ApiSmith.CommandLine.Arguments
import ApiSmith.Package.Files

/-!
# The command

The command reads a description, generates the package and writes its files below the output folder.
Artifacts that were left out are reported, and the command then ends with status 1; faulty arguments
end it with status 2. What it does with the file system is data: it is given what stands at the
paths it asks for, and gives back the files to write. A tree of files says what stands at a path when
the working folder holds given files and nothing else.
-/

namespace ApiSmith.CommandLine

open Text

inductive Entry where
  | missing
  | folder
  | file (text : String)

def fault? (a : Arguments) (look : String → Entry) (p : Param) : Option Fault :=
  match p, a.value? p with
  | .spec, none => some (.missingArgument .spec)
  | .output, none => some (.missingOption .output)
  | .output, some name =>
    match look name with
    | .file _ => some (.isFile .output name)
    | _ => none
  | .profile, some name =>
    let names := Profile.presets.map (·.name)
    if names.contains name then none else some (.noChoice .profile name names)
  | .spec, some name | .config, some name =>
    match look name with
    | .missing => some (.noFile p name)
    | .folder => some (.isFolder p name)
    | .file _ => none
  | _, _ => none

def firstFault? (a : Arguments) (look : String → Entry) : Option Fault :=
  match a.checkOrder.findSome? (fault? a look) with
  | some f => some f
  | none => if 1 < a.others.length then some (.extra (a.others.drop 1)) else none

def fileText? (a : Arguments) (look : String → Entry) (p : Param) : Option String :=
  match (a.value? p).map look with
  | some (.file text) => some text
  | _ => none

/-! ## Paths -/

/-- A path without empty and needless parts. -/
def tidyPath (path : String) : String :=
  let cs := path.toList
  let root := match cs with
    | '/' :: '/' :: '/' :: _ => "/"
    | '/' :: '/' :: _ => "//"
    | '/' :: _ => "/"
    | _ => ""
  let parts := (fields '/' cs).filter fun s => !s.isEmpty && s != ['.']
  let tidy := root ++ String.ofList (join ['/'] parts)
  if tidy.isEmpty then "." else tidy

def below (folder path : String) : String :=
  if folder == "." then path
  else if folder.toList.getLast? == some '/' then folder ++ path
  else folder ++ "/" ++ path

/-- The ending of a file name: from its last dot on, where something stands before and after it. -/
def ending (path : String) : String :=
  let name := afterLast '/' (tidyPath path).toList
  match afterLast? '.' name with
  | some (c :: tail) =>
    if name.length = tail.length + 2 then "" else String.ofList ('.' :: c :: tail)
  | _ => ""

/-! ## Running -/

structure Ending where
  status : Nat
  lines : List String
  /-- Lines of the log and of reports. -/
  reports : List String
  /-- Files to write, in order. -/
  files : List (String × String)

/-- Why the command cannot write a package. -/
inductive Crash where
  | arguments (fault : Fault)
  /-- A file holds no data. -/
  | unreadable (fault : Document.ReadFault)
  | halt (h : Halt)

def Ending.ofFault (f : Fault) : Ending := ⟨2, [], ["Error: " ++ f.message], []⟩

def helpLines : List String :=
  ["Usage: clientgen [OPTIONS] SPEC_PATH", "",
    "  Generate typed models and client groups from a Swagger document.", "", "Options:",
    "  -o, --output DIRECTORY      Output package directory.  [required]",
    "  --profile [common|legacy]   Generator profile.",
    "  --config FILE               YAML file overriding profile settings.",
    "  -v, --verbose               Log every compiled artifact.",
    "  --help                      Show this message and exit."]

def counted (n : Nat) (what : String) : String := Number.intString n ++ " " ++ what

def contents (k : Package) : String :=
  counted k.models.length "models" ++ " and " ++ counted k.groups.length "client groups"

def omissionLines (k : Package) : List String :=
  if k.omissions.isEmpty then []
  else counted k.omissions.length "artifacts failed:" ::
    k.omissions.map fun o =>
      "  " ++ o.kind.name ++ " " ++ o.name.display ++ ": " ++ o.defect.message

def writingRecord (k : Package) (output : String) : LogRecord :=
  ⟨.info, .files, "Generated " ++ contents k ++ " in " ++ output⟩

/-- The lines of a log for the user: all of them, or those above debugging. -/
def logLines (verbose : Bool) (log : List LogRecord) : List String :=
  (log.filter fun r => verbose || r.level != .debug).map LogRecord.line

def Ending.ofPackage (verbose : Bool) (output : String) (k : Package) (log : List LogRecord) :
    Ending :=
  let files := k.files
  { status := if k.omissions.isEmpty then 0 else 1
    lines := ["Generated " ++ contents k ++ " (" ++ counted files.length "files" ++ ") in " ++ output]
    reports := logLines verbose (log ++ [writingRecord k output]) ++ omissionLines k
    files := files.map fun f => (below output f.1, f.2) }

def settingsOf (text : String) : Except Crash Value :=
  match Document.readYaml text with
  | .ok v => .ok v
  | .error .scalar => .error (.arguments (.settings "a number or a date has no value"))
  | .error f => .error (.unreadable f)

def profileOf (name : String) (settings : Option String) : Except Crash Profile := do
  let value ← settings.mapM settingsOf
  match Profile.load (.text name) value with
  | .ok p => pure p
  | .error .shape => .error (.halt .shape)
  | .error f => .error (.arguments (.settings f.message))

def documentOf (path text : String) : Except Crash Document := do
  let v ← (Document.readEnding (ending path) text).mapError .unreadable
  match Document.ofValue? v with
  | some d => pure d
  | none => .error (.halt .shape)

def generate (a : Arguments) (look : String → Entry) : Except Crash Ending := do
  let path := (a.value? .spec).getD ""
  let output := tidyPath ((a.value? .output).getD "")
  let p ← profileOf ((a.value? .profile).getD "common") (fileText? a look .config)
  let d ← documentOf path ((fileText? a look .spec).getD "")
  let built := Package.build p d
  match built.result with
  | .ok k => pure (.ofPackage (a.has .verbose) output k built.log)
  | .error h => .error (.halt h)

def runOn (a : Arguments) (look : String → Entry) : Except Crash Ending :=
  if a.has .help then .ok ⟨0, helpLines, [], []⟩
  else match firstFault? a look with
    | some f => .error (.arguments f)
    | none => generate a look

def run (words : List String) (look : String → Entry) : Except Crash Ending :=
  match (readArguments words).mapError .arguments >>= fun a => runOn a look with
  | .error (.arguments f) => .ok (.ofFault f)
  | r => r

def askedPaths (words : List String) : List String :=
  match readArguments words with
  | .error _ => []
  | .ok a => [Param.spec, .output, .config].filterMap a.value?

/-! ## A tree of files -/

def entryAt (files : List (String × String)) (place : List (List Char)) : Entry :=
  let name := join ['/'] place
  match files.find? fun f => f.1.toList == name with
  | some f => .file f.2
  | none =>
    if place.isEmpty || files.any fun f => (name ++ ['/']).isPrefixOf f.1.toList then .folder
    else .missing

/-- Follows the names of a path from a place. Only folders can be passed through. -/
def follow (files : List (String × String)) (place : List (List Char)) :
    List (List Char) → Entry
  | [] => entryAt files place
  | step :: rest =>
    match entryAt files place with
    | .folder =>
      if step.isEmpty || step == ['.'] then follow files place rest
      else if step == ['.', '.'] then follow files place.dropLast rest
      else follow files (place ++ [step]) rest
    | _ => .missing

def entryIn (files : List (String × String)) (path : String) : Entry :=
  if path.isEmpty || path.toList.head? == some '/' then .missing
  else follow files [] (fields '/' path.toList)

end ApiSmith.CommandLine
