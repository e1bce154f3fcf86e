import ApiSmith.Data.Value.Same
import ApiSmith.Text.Lowercase
import ApiSmith.Text.Replacement
import ApiSmith.Text.Uppercase

/-!
# Names in generated code

A method is named by the HTTP verb and the path segments behind the group key, each capitalised:
`GET /user/{id}/avatar-small` is `getIdAvatar_small` in the group `user`. A group class is the
capitalised key with a suffix. Modules are in snake case. Names that the generated language or the
surrounding code needs for itself are changed.
-/

namespace ApiSmith.Naming

open ApiSmith.Text

def capitalized : List Char → List Char
  | [] => []
  | c :: rest => upperChar c ++ rest

def uncapitalized : List Char → List Char
  | [] => []
  | c :: rest => lower [c] ++ rest

/-- Puts an underscore before the last letter of a run of capitals that a small letter follows.
The first argument is the character before. -/
def splitCapitals (before : Option Char) : List Char → List Char
  | [] => []
  | c :: rest =>
    let starts := before.any isAsciiUpper && isAsciiUpper c && rest.head?.any isAsciiLower
    (if starts then ['_', c] else [c]) ++ splitCapitals (some c) rest

/-- Puts an underscore between a small letter or a digit and a capital. -/
def splitHumps (before : Option Char) : List Char → List Char
  | [] => []
  | c :: rest =>
    let starts := before.any (fun b => isAsciiLower b || isDecimal b) && isAsciiUpper c
    (if starts then ['_', c] else [c]) ++ splitHumps (some c) rest

def snakeCase (cs : List Char) : List Char :=
  lower (splitHumps none (splitCapitals none cs))

/-- Every run of characters that are not word characters as one underscore. `inRun` says that the
character before belongs to such a run. -/
def joinWords (inRun : Bool) : List Char → List Char
  | [] => []
  | c :: rest =>
    if isWord c then c :: joinWords false rest
    else if inRun then joinWords true rest
    else '_' :: joinWords true rest

/-- The text made fit for an identifier: word characters and single underscores between them, with
an underscore in front of a digit. -/
def identifierText (cs : List Char) : List Char :=
  let name := trimBy (· == '_') (joinWords false (trim cs))
  if name.head?.any isDigit then '_' :: name else name

/-- A name after the aliases; a reserved one is put behind an `a`. -/
def safeName (aliases : List (Value × Value)) (taken : List String) (name : String) : Value :=
  match lookupText name aliases with
  | some other => other
  | none =>
    if isReserved name || taken.contains name then
      .text (String.ofList ('a' :: capitalized name.toList))
    else .text name

def moduleText (cs : List Char) : List Char :=
  let name := lower (identifierText (snakeCase cs))
  if name.isEmpty then "root".toList else name

def moduleName (name : String) : String := String.ofList (moduleText name.toList)

/-- The segments of a path behind its root. The first is empty: it stands before the leading
slash. -/
def segments (root path : List Char) : List (List Char) :=
  let path := if !root.isEmpty && root.isPrefixOf path then path.drop root.length else path
  let path := if path.head? == some '/' then path else '/' :: path
  fields '/' path

/-- The key of the group that a path belongs to: its first segment. -/
def groupKey (root path : List Char) : List Char := ((segments root path)[1]?).getD []

def groupClass (key suffix : String) : String :=
  String.ofList (capitalized (identifierText key.toList)) ++ suffix

def unbraced (cs : List Char) : List Char :=
  if cs.head? == some '\x7b' && cs.getLast? == some '\x7d' then (cs.drop 1).dropLast else cs

def methodPart (segment : List Char) : List Char :=
  capitalized (identifierText ((unbraced segment).map fun c => if c == '-' then '_' else c))

def methodText (root verb path : List Char) : List Char :=
  lower verb ++
    (((segments root path).drop 2).filter (fun s => !s.isEmpty)).flatMap methodPart

def methodName (root : List Char) (verb path : String) : String :=
  String.ofList (methodText root verb.toList path.toList)

/-- The text without line feeds and without the returns in front of them. -/
def withoutBreaks : List Char → List Char
  | [] => []
  | '\n' :: rest => withoutBreaks rest
  | '\r' :: '\n' :: rest => withoutBreaks rest
  | c :: rest => c :: withoutBreaks rest

inductive CommentFault where
  /-- The comment or a replacement is not a text. -/
  | notText
  | template
  deriving DecidableEq, Repr

def replaceIn (old new : Value) (comment : List Char) : Except CommentFault (List Char) :=
  match old, new with
  | .text old, .text new =>
    match template new.toList with
    | .ok parts => .ok (replaceAlike old.toList parts comment)
    | .error .malformed => .error .template
    | .error .namedGroup => .error .notText
  | _, _ => .error .notText

def replaceAllIn : List (Value × Value) → List Char → Except CommentFault (List Char)
  | [], comment => .ok comment
  | (old, new) :: rest, comment => (replaceIn old new comment).bind (replaceAllIn rest)

/-- A comment on one line, with the replacements made. What is absent counts as empty. -/
def cleanComment (text : Value) (replacements : List (Value × Value)) :
    Except CommentFault String := do
  let cs ← match text with
    | .text s => .ok s.toList
    | v => if v.isPresent then .error .notText else .ok []
  let cleaned ← replaceAllIn replacements (trim (withoutBreaks cs))
  pure (String.ofList cleaned)

end ApiSmith.Naming
