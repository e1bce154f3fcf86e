import ApiSmith.Operation.Parameter
import ApiSmith.Text.FormattedQuoted

/-!
# Path templates

A path template is a row of plain characters and placeholders. A placeholder is a nonempty name
without braces between braces; any other brace is plain. The URL of an operation is its path with
the argument of a path parameter in place of each placeholder. The parts written one after the
other are the path again (`text_parts`).
-/

namespace ApiSmith

inductive PathPart where
  | plain (c : Char)
  | placeholder (name : List Char)
  deriving DecidableEq, Repr

namespace PathPart

open Text.FormattedQuoted (opening closing)

def text : PathPart → List Char
  | .plain c => [c]
  | .placeholder name => opening :: name ++ [closing]

/-- The parts of a path. The first argument holds what was read since an opening brace, if one was
met. -/
def partsFrom : Option (List Char) → List Char → List PathPart
  | none, [] => []
  | some held, [] => (opening :: held).map plain
  | none, c :: rest =>
    if c = opening then partsFrom (some []) rest else .plain c :: partsFrom none rest
  | some held, c :: rest =>
    if c = opening then (opening :: held).map plain ++ partsFrom (some []) rest
    else if c = closing then
      if held.isEmpty then .plain opening :: .plain closing :: partsFrom none rest
      else .placeholder held :: partsFrom none rest
    else partsFrom (some (held ++ [c])) rest

def parts (path : List Char) : List PathPart := partsFrom none path

def placeholders (path : List Char) : List String :=
  (parts path).filterMap fun
    | .placeholder name => some (String.ofList name)
    | .plain _ => none

theorem text_plain (cs : List Char) : (cs.map plain).flatMap text = cs := by
  induction cs with
  | nil => rfl
  | cons c rest ih => simp [text, ih]

theorem text_partsFrom (held : Option (List Char)) (path : List Char) :
    (partsFrom held path).flatMap text =
      (match held with
        | none => []
        | some cs => opening :: cs) ++ path := by
  fun_induction partsFrom held path with
  | case1 => rfl
  | case2 held => simpa using text_plain (opening :: held)
  | case3 rest ih => simpa using ih
  | case4 c rest _ ih => simpa [text] using ih
  | case5 held rest ih =>
    simp only [List.flatMap_append, text_plain, ih]
    simp
  | case6 held rest he _ ih =>
    have : held = [] := by simpa using he
    simp only [List.flatMap_cons, text, ih, this]
    rfl
  | case7 held rest _ _ ih =>
    simp only [List.flatMap_cons, text, ih]
    simp
  | case8 held c rest _ _ ih => simpa using ih

theorem text_parts (path : List Char) : (parts path).flatMap text = path := by
  simpa [parts] using text_partsFrom none path

end PathPart

/-- The argument for a placeholder among the parameters: that of the last path parameter of this
name, or else that of the first with this key. -/
def argumentFor (name : String) (params : List Parameter) : Option Value :=
  params.foldl (fun found q =>
    if q.placement ≠ .path then found
    else if q.name = name then some q.identifier
    else if q.key = name then found.or (some q.identifier)
    else found) none

def urlText (params : List Parameter) (location : String) :
    List PathPart → Compile (List Char)
  | [] => pure []
  | .plain c :: rest => do
    let more ← urlText params location rest
    pure (c :: more)
  | .placeholder name :: rest =>
    match argumentFor (String.ofList name) params with
    | none => .defect (.unmatchedPlaceholder (String.ofList name)) location
    | some argument => do
      let text ← Compile.shaped argument.text?
      let more ← urlText params location rest
      pure ((PathPart.placeholder text.toList).text ++ more)

end ApiSmith
