import ApiSmith.Text.CodePoints

/-!
# A place in a document

What is left of a document, with the number of characters passed, the line and the column. The end
shows as the character NUL, which no document may hold.
-/

namespace ApiSmith.Yaml

/-- Why a document is refused. -/
inductive Fault where
  /-- It is not YAML, or holds more than plain data. -/
  | malformed
  /-- A scalar does not fit the tag it is given or has, such as the thirteenth month. -/
  | badScalar
  /-- An escape has a number that takes more than 31 bits. -/
  | hugeEscape
  deriving DecidableEq, Repr

/-- A place in a document. -/
structure Cursor where
  rest : List Char
  index : Nat
  line : Nat
  column : Nat

def endMark : Char := Char.ofNat 0

def isBreak (c : Char) : Bool :=
  c == '\n' || c == '\r' || c.toNat == 0x85 || c.toNat == 0x2028 || c.toNat == 0x2029

def isBreakOrEnd (c : Char) : Bool := c == endMark || isBreak c

def isGap (c : Char) : Bool := c == ' ' || isBreakOrEnd c

def isBlankOrEnd (c : Char) : Bool := c == '\t' || isGap c

def isAllowed (c : Char) : Bool :=
  let n := c.toNat
  n == 9 || n == 10 || n == 13 || (0x20 ≤ n && n ≤ 0x7E) || n == 0x85 ||
    (0xA0 ≤ n && n != 0xFFFE && n != 0xFFFF)

namespace Cursor

def start (cs : List Char) : Cursor := ⟨cs, 0, 0, 0⟩

def peek (p : Cursor) : Char := p.rest.headD endMark

def peekAt (p : Cursor) (k : Nat) : Char := (p.rest.drop k).headD endMark

/-- The place after one character. A return starts a new line unless a line feed follows it. -/
def next (p : Cursor) : Cursor :=
  match p.rest with
  | [] => p
  | c :: rest =>
    if c == '\r' then
      if rest.head? == some '\n' then ⟨rest, p.index + 1, p.line, p.column + 1⟩
      else ⟨rest, p.index + 1, p.line + 1, 0⟩
    else if isBreak c then ⟨rest, p.index + 1, p.line + 1, 0⟩
    else ⟨rest, p.index + 1, p.line, if c.toNat == 0xFEFF then p.column else p.column + 1⟩

def advance (p : Cursor) : Nat → Cursor
  | 0 => p
  | n + 1 => (p.next).advance n

def takeWhile (p : Cursor) (f : Char → Bool) : List Char × Cursor :=
  let run := p.rest.takeWhile f
  (run, p.advance run.length)

def skipWhile (p : Cursor) (f : Char → Bool) : Cursor := (p.takeWhile f).2

def startsWith (p : Cursor) (text : List Char) : Bool := text.isPrefixOf p.rest

/-- The line break at the place as it counts in scalars, and the place after it. A break that is not
one of the two separators counts as a line feed. -/
def lineBreak (p : Cursor) : List Char × Cursor :=
  let c := p.peek
  if c == '\r' && p.peekAt 1 == '\n' then (['\n'], p.advance 2)
  else if c == '\r' || c == '\n' || c.toNat == 0x85 then (['\n'], p.next)
  else if isBreak c then ([c], p.next)
  else ([], p)

/-- Whether a document marker stands at the place: three hyphens or three points and a blank. -/
def atMarker (p : Cursor) : Bool :=
  (p.startsWith ['-', '-', '-'] || p.startsWith ['.', '.', '.']) && isBlankOrEnd (p.peekAt 3)

def skipComment (p : Cursor) : Cursor :=
  let p := p.skipWhile (· == ' ')
  if p.peek == '#' then p.skipWhile (fun c => !isBreakOrEnd c) else p

end Cursor

end ApiSmith.Yaml
