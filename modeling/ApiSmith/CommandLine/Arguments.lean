import ApiSmith.Data.Value.Literal
import ApiSmith.Text.Likeness

/-!
# Arguments of the command

The command takes the path of a description and options. Options may stand anywhere before `--`, a
value may stand in the same word or in the next, and letters of short options may share a word. The
last use of an option counts.
-/

namespace ApiSmith.CommandLine

open Text

inductive Param where
  | spec
  | output
  | profile
  /-- The path of a settings file. -/
  | config
  | verbose
  | help
  deriving DecidableEq, Repr

def longOptions : List (String × Param) :=
  [("--output", .output), ("--profile", .profile), ("--config", .config), ("--verbose", .verbose),
    ("--help", .help)]

def shortOptions : List (Char × Param) := [('o', .output), ('v', .verbose)]

def Param.takesValue : Param → Bool
  | .output | .profile | .config => true
  | .spec | .verbose | .help => false

def Param.label : Param → String
  | .spec => "'SPEC_PATH'"
  | .output => "'-o' / '--output'"
  | .profile => "'--profile'"
  | .config => "'--config'"
  | .verbose => "'-v' / '--verbose'"
  | .help => "'--help'"

inductive Fault where
  /-- No option has the name; some are like it. -/
  | unknownOption (name : String) (like : List String)
  | needsValue (name : String)
  /-- An option has a value that it does not take. -/
  | takesNoValue (name : String)
  /-- The path of the description is missing. -/
  | missingArgument (p : Param)
  | missingOption (p : Param)
  | noFile (p : Param) (name : String)
  /-- A folder stands where a file is needed. -/
  | isFolder (p : Param) (name : String)
  /-- A file stands where a folder is needed. -/
  | isFile (p : Param) (name : String)
  /-- A value is none of those that there are. -/
  | noChoice (p : Param) (value : String) (choices : List String)
  /-- There are more arguments than needed. -/
  | extra (arguments : List String)
  | settings (message : String)

def invalidValue (label message : String) : String := "Invalid value for " ++ label ++ ": " ++ message

/-- What stands behind a report of an unknown option. -/
def suggestion : List String → String
  | [] => ""
  | [one] => " Did you mean " ++ one ++ "?"
  | several => " (Possible options: " ++ joinStrings ", " several ++ ")"

def Fault.message : Fault → String
  | .unknownOption name like => "No such option: " ++ name ++ suggestion like
  | .needsValue name => "Option " ++ literalOf name ++ " requires an argument."
  | .takesNoValue name => "Option " ++ literalOf name ++ " does not take a value."
  | .missingArgument p => "Missing argument " ++ p.label ++ "."
  | .missingOption p => "Missing option " ++ p.label ++ "."
  | .noFile p name => invalidValue p.label ("File " ++ literalOf name ++ " does not exist.")
  | .isFolder p name => invalidValue p.label ("File " ++ literalOf name ++ " is a directory.")
  | .isFile p name => invalidValue p.label ("Directory " ++ literalOf name ++ " is a file.")
  | .noChoice p value choices =>
    invalidValue p.label
      (literalOf value ++ " is not one of " ++ joinStrings ", " (choices.map literalOf) ++ ".")
  | .extra [one] => "Got unexpected extra argument (" ++ one ++ ")"
  | .extra several => "Got unexpected extra arguments (" ++ joinStrings " " several ++ ")"
  | .settings message => invalidValue "--config" message

/-- What was given: uses of options in order, and the other arguments. -/
structure Arguments where
  /-- Uses of options; a flag has an empty value. -/
  uses : List (Param × String)
  others : List String

/-- What a word of options gives: uses, and the option that takes the next word as its value. -/
structure OptionWord where
  uses : List (Param × String)
  /-- The name of an option without its value, and the option. -/
  pending : Option (String × Param)

def readLetters : List Char → Except Fault OptionWord
  | [] => .ok ⟨[], none⟩
  | c :: rest =>
    let name := String.ofList ['-', c]
    match (shortOptions.find? fun o => o.1 == c).map (·.2) with
    | none => .error (.unknownOption name [])
    | some p =>
      if p.takesValue then
        if rest.isEmpty then .ok ⟨[], some (name, p)⟩
        else .ok ⟨[(p, String.ofList rest)], none⟩
      else (readLetters rest).map fun w => { w with uses := (p, "") :: w.uses }

def readOption (word : List Char) : Except Fault OptionWord :=
  let (nameChars, value) := cutAtChar '=' word
  let name := String.ofList nameChars
  match (longOptions.find? fun o => o.1 == name).map (·.2) with
  | some p =>
    match p.takesValue, value with
    | true, some v => .ok ⟨[(p, String.ofList v)], none⟩
    | true, none => .ok ⟨[], some (name, p)⟩
    | false, some _ => .error (.takesNoValue name)
    | false, none => .ok ⟨[(p, "")], none⟩
  | none =>
    if word.take 2 == ['-', '-'] then
      .error (.unknownOption name (likeWords (longOptions.map (·.1)) name))
    else readLetters (word.drop 1)

def isOption (word : String) : Bool := word.toList.head? == some '-' && 1 < word.length

def readArguments (words : List String) : Except Fault Arguments :=
  match words with
  | [] => .ok ⟨[], []⟩
  | word :: rest =>
    if word == "--" then .ok ⟨[], rest⟩
    else if !isOption word then
      (readArguments rest).map fun a => { a with others := word :: a.others }
    else
      match readOption word.toList with
      | .error f => .error f
      | .ok w =>
        match w.pending, rest with
        | none, rest => (readArguments rest).map fun a => { a with uses := w.uses ++ a.uses }
        | some (_, p), value :: rest =>
          (readArguments rest).map fun a => { a with uses := w.uses ++ (p, value) :: a.uses }
        | some (name, _), [] => .error (.needsValue name)

namespace Arguments

/-- The value of a parameter: that of its last use. -/
def value? (a : Arguments) (p : Param) : Option String :=
  match p with
  | .spec => a.others.head?
  | p => (a.uses.reverse.find? fun u => u.1 = p).map (·.2)

def has (a : Arguments) (p : Param) : Bool := (a.value? p).isSome

/-- The parameters in the order in which they are checked: used options, then the path, then the
others. -/
def checkOrder (a : Arguments) : List Param :=
  (a.uses.map (·.1) ++ [Param.spec, Param.output, Param.profile, Param.config]).eraseDups

end Arguments

end ApiSmith.CommandLine
