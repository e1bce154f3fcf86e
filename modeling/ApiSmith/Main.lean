import ApiSmith.CommandLine.Run

/-!
# The program

Looks at the paths that the command asks for, runs the command and writes what it gives back.
-/

open ApiSmith CommandLine

def lookAt (path : String) : IO Entry := do
  match ← (IO.FS.readFile path).toBaseIO with
  | .ok text => pure (.file text)
  | .error (.noFileOrDirectory ..) => pure .missing
  | .error (.inappropriateType ..) => pure .folder
  | .error e => throw e

def folderOf (path : String) : String :=
  String.ofList ((path.toList.reverse.dropWhile (· != '/')).drop 1).reverse

/-- Writes a file and the folders above it. -/
def writeBelow (path text : String) : IO Unit := do
  let folder := folderOf path
  if !folder.isEmpty then IO.FS.createDirAll folder
  IO.FS.writeFile path text

def main (words : List String) : IO UInt32 := do
  let entries ← (askedPaths words).mapM fun path => do pure (path, ← lookAt path)
  let look (path : String) : Entry :=
    ((entries.find? fun e => e.1 == path).map (·.2)).getD .missing
  match run words look with
  | .error (.unreadable _) => do
    IO.eprintln "Error: a file holds no data"
    pure 1
  | .error _ => do
    IO.eprintln "Error: the description has not the shape of one"
    pure 1
  | .ok result => do
    for f in result.files do writeBelow f.1 f.2
    for line in result.lines do IO.println line
    for line in result.reports do IO.eprintln line
    pure (UInt32.ofNat result.status)
