import ApiSmith.Number.Integer
import ApiSmith.Text.Identifier
import ApiSmith.Text.Lowercase

/-!
# Replacement texts

A replacement without backslashes is taken as it is. Otherwise it is a template: escapes stand for
control characters, numbered characters or, as group zero, for the text that is replaced. A pattern
is found without regard to case; the empty pattern is found around every character.
-/

namespace ApiSmith.Text

open ApiSmith.Number

inductive TemplatePart where
  | char (c : Char)
  | found
  deriving DecidableEq, Repr

/-- Why a template is refused. -/
inductive TemplateFault where
  /-- It is not well formed, or refers to a group by a number other than zero. -/
  | malformed
  /-- It refers to a group by name. -/
  | namedGroup
  deriving DecidableEq, Repr

def controlEscape? (c : Char) : Option Char :=
  match c with
  | 'a' => some (Char.ofNat 7)
  | 'b' => some (Char.ofNat 8)
  | 'f' => some (Char.ofNat 12)
  | 'n' => some '\n'
  | 'r' => some '\r'
  | 't' => some '\t'
  | 'v' => some (Char.ofNat 11)
  | '\\' => some '\\'
  | _ => none

def templateGroup (name : List Char) : Except TemplateFault TemplatePart :=
  if isIdentifier name then .error .namedGroup
  else match readInt? name with
    | some 0 => .ok .found
    | _ => .error .malformed

/-- The pieces of a template. The first argument counts characters that are already read. -/
def templateFrom : Nat → List Char → Except TemplateFault (List TemplatePart)
  | _, [] => .ok []
  | k + 1, _ :: rest => templateFrom k rest
  | 0, c :: rest =>
    if c != '\\' then (templateFrom 0 rest).map (.char c :: ·)
    else match rest with
      | [] => .error .malformed
      | 'g' :: '<' :: after =>
        let name := after.takeWhile (· != '>')
        let unclosed := name.length == after.length
        -- a lone backslash at the end shows before the group is looked up
        let dangling := after.drop (name.length + 1) == ['\\']
        if name.isEmpty || unclosed || dangling then .error .malformed
        else do
          let part ← templateGroup name
          (templateFrom (name.length + 3) rest).map (part :: ·)
      | '0' :: after =>
        let digits := (after.take 2).takeWhile isOctalDigit
        let n := octalNat digits
        (templateFrom (digits.length + 1) rest).map (.char (Char.ofNat n) :: ·)
      | x :: y :: z :: _ =>
        if isOctalDigit x && isOctalDigit y && isOctalDigit z then
          let n := octalNat [x, y, z]
          if 255 < n then .error .malformed
          else (templateFrom 3 rest).map (.char (Char.ofNat n) :: ·)
        else templateEscape x (templateFrom 1 rest)
      | x :: _ => templateEscape x (templateFrom 1 rest)
where
  /-- An escape of one character in front of the pieces of the rest. -/
  templateEscape (x : Char) (rest : Except TemplateFault (List TemplatePart)) :
      Except TemplateFault (List TemplatePart) :=
    match controlEscape? x with
    | some c => rest.map (.char c :: ·)
    | none =>
      if isAsciiDigit x || isAsciiLower x || isAsciiUpper x then .error .malformed
      else rest.map fun ps => .char '\\' :: .char x :: ps

def template (cs : List Char) : Except TemplateFault (List TemplatePart) :=
  if cs.contains '\\' then templateFrom 0 cs else .ok (cs.map .char)

def fillTemplate (parts : List TemplatePart) (found : List Char) : List Char :=
  parts.flatMap fun
    | .char c => [c]
    | .found => found

/-- Whether a text starts with a pattern, without regard to case. -/
def startsAlike : List Char → List Char → Bool
  | [], _ => true
  | _ :: _, [] => false
  | p :: ps, c :: cs => alike p c && startsAlike ps cs

/-- The text with every occurrence of a nonempty pattern replaced, leftmost first. -/
def replaceAlikeFrom (pattern : List Char) (parts : List TemplatePart) :
    Nat → List Char → List Char
  | _, [] => []
  | k + 1, _ :: rest => replaceAlikeFrom pattern parts k rest
  | 0, c :: rest =>
    if startsAlike pattern (c :: rest) then
      fillTemplate parts ((c :: rest).take pattern.length) ++
        replaceAlikeFrom pattern parts (pattern.length - 1) rest
    else c :: replaceAlikeFrom pattern parts 0 rest

/-- The text with every occurrence of a pattern replaced. -/
def replaceAlike (pattern : List Char) (parts : List TemplatePart) (cs : List Char) : List Char :=
  if pattern.isEmpty then
    let filled := fillTemplate parts []
    filled ++ cs.flatMap fun c => c :: filled
  else replaceAlikeFrom pattern parts 0 cs

end ApiSmith.Text
