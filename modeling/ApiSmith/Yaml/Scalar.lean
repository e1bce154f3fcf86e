import ApiSmith.Number.Integer
import ApiSmith.Text.Encoding
import ApiSmith.Yaml.Cursor

/-!
# Scalars as they are written

Reading the text of plain, quoted and block scalars. Line breaks inside plain and quoted scalars are
folded: one break is a space, further ones stay. Block scalars keep their breaks or fold them, and
keep, clip or strip those at the end.
-/

namespace ApiSmith.Yaml

open ApiSmith.Number

/-! ## Quoted scalars -/

/-- The character of an escape of one letter. -/
def escape? (c : Char) : Option Char :=
  match c with
  | '0' => some (Char.ofNat 0)
  | 'a' => some (Char.ofNat 7)
  | 'b' => some (Char.ofNat 8)
  | 't' | '\t' => some '\t'
  | 'n' => some '\n'
  | 'v' => some (Char.ofNat 11)
  | 'f' => some (Char.ofNat 12)
  | 'r' => some '\r'
  | 'e' => some (Char.ofNat 27)
  | ' ' | '"' | '\\' | '/' => some c
  | 'N' => some (Char.ofNat 0x85)
  | '_' => some (Char.ofNat 0xA0)
  | 'L' => some (Char.ofNat 0x2028)
  | 'P' => some (Char.ofNat 0x2029)
  | _ => none

/-- The number of hexadecimal digits of a numbered escape. -/
def escapeWidth? (c : Char) : Option Nat :=
  match c with
  | 'x' => some 2
  | 'u' => some 4
  | 'U' => some 8
  | _ => none

def escapeNumber? (width : Nat) (p : Cursor) : Option Nat :=
  let digits := p.rest.take width
  if digits.length == width then (digits.mapM hexValue?).map (ofDigits 16) else none

/-- A numbered escape. Two surrogates in a row are one character; a lone one is replaced. -/
def numberedEscape (width : Nat) (p : Cursor) : Except Fault (Char × Cursor) :=
  match escapeNumber? width p with
  | none => .error .malformed
  | some n =>
    let p := p.advance width
    if 0x80000000 ≤ n then .error .hugeEscape
    else if 0x110000 ≤ n then .error .badScalar
    else if 0xD800 ≤ n && n < 0xDC00 && p.startsWith ['\\', 'u'] then
      match escapeNumber? 4 (p.advance 2) with
      | some m =>
        if 0xDC00 ≤ m && m < 0xE000 then
          .ok (Char.ofNat (0x10000 + (n - 0xD800) * 0x400 + (m - 0xDC00)), p.advance 6)
        else .ok (Char.ofNat 0xFFFD, p)
      | none => .ok (Char.ofNat 0xFFFD, p)
    else .ok (if n.isValidChar then Char.ofNat n else Char.ofNat 0xFFFD, p)

/-- The breaks of blank lines inside a quoted scalar. -/
def quotedBreaks : Nat → Cursor → Except Fault (List Char × Cursor)
  | 0, _ => .error .malformed
  | fuel + 1, p =>
    if p.atMarker then .error .malformed
    else
      let p := p.skipWhile fun c => c == ' ' || c == '\t'
      if isBreak p.peek then do
        let (b, p) := p.lineBreak
        let (bs, p) ← quotedBreaks fuel p
        pure (b ++ bs, p)
      else pure ([], p)

/-- Blanks inside a quoted scalar: kept inside a line, folded around a line break. -/
def quotedBlanks (p : Cursor) : Except Fault (List Char × Cursor) := do
  let (blanks, p) := p.takeWhile fun c => c == ' ' || c == '\t'
  if p.peek == endMark then .error .malformed
  else if isBreak p.peek then
    let (b, p) := p.lineBreak
    let (bs, p) ← quotedBreaks (p.rest.length + 1) p
    let first := if b != ['\n'] then b else if bs.isEmpty then [' '] else []
    pure (first ++ bs, p)
  else pure (blanks, p)

def isQuotedPlain (c : Char) : Bool :=
  !(c.toNat == 39 || c == '"' || c == '\\' || isBlankOrEnd c)

/-- The rest of a quoted scalar after its opening quote. -/
def quotedRest (double : Bool) : Nat → Cursor → Except Fault (List Char × Cursor)
  | 0, _ => .error .malformed
  | fuel + 1, p => do
    let (run, p) := p.takeWhile isQuotedPlain
    let c := p.peek
    let single := c.toNat == 39
    if !double && single then
      if (p.peekAt 1).toNat == 39 then
        let (more, p) ← quotedRest double fuel (p.advance 2)
        pure (run ++ c :: more, p)
      else pure (run, p.next)
    else if double && c == '"' then pure (run, p.next)
    else if (double && single) || (!double && (c == '"' || c == '\\')) then
      let (more, p) ← quotedRest double fuel p.next
      pure (run ++ c :: more, p)
    else if double && c == '\\' then
      let p := p.next
      let e := p.peek
      match escape? e with
      | some x =>
        let (more, p) ← quotedRest double fuel p.next
        pure (run ++ x :: more, p)
      | none =>
        match escapeWidth? e with
        | some width =>
          let (x, p) ← numberedEscape width p.next
          let (more, p) ← quotedRest double fuel p
          pure (run ++ x :: more, p)
        | none =>
          if isBreak e then
            let (_, p) := p.lineBreak
            let (bs, p) ← quotedBreaks (p.rest.length + 1) p
            let (more, p) ← quotedRest double fuel p
            pure (run ++ bs ++ more, p)
          else .error .malformed
    else
      let (blanks, p) ← quotedBlanks p
      let (more, p) ← quotedRest double fuel p
      pure (run ++ blanks ++ more, p)

def quotedScalar (double : Bool) (p : Cursor) : Except Fault (List Char × Cursor) :=
  quotedRest double (p.rest.length + 1) p.next

/-! ## Plain scalars -/

/-- Whether a plain scalar ends before the character at a place of what is left. -/
def endsPlain (inFlow : Bool) (c following : Char) : Bool :=
  isBlankOrEnd c ||
    (c == ':' && (isBlankOrEnd following || (inFlow && ",[]\x7b\x7d".toList.contains following))) ||
    (inFlow && ",?[]\x7b\x7d".toList.contains c)

def plainRun (inFlow : Bool) : List Char → List Char
  | [] => []
  | c :: rest => if endsPlain inFlow c (rest.headD endMark) then [] else c :: plainRun inFlow rest

/-- Blanks inside a plain scalar. -/
structure PlainGap where
  /-- What the blanks count as; none where the scalar ends. -/
  text : Option (List Char)
  /-- Whether a line break is among them. -/
  broken : Bool
  after : Cursor

/-- The breaks of blank lines inside a plain scalar, and whether a document marker follows one. -/
def plainBreaks : Nat → Cursor → List Char × Bool × Cursor
  | 0, p => ([], false, p)
  | fuel + 1, p =>
    if p.peek == ' ' then plainBreaks fuel p.next
    else if isBreak p.peek then
      let (b, p) := p.lineBreak
      if p.atMarker then (b, true, p)
      else
        let (bs, marker, p) := plainBreaks fuel p
        (b ++ bs, marker, p)
    else ([], false, p)

/-- The blanks at the place inside a plain scalar. -/
def plainGap (p : Cursor) : PlainGap :=
  let (blanks, p) := p.takeWhile (· == ' ')
  if isBreak p.peek then
    let (b, p) := p.lineBreak
    if p.atMarker then ⟨none, true, p⟩
    else
      let (bs, marker, p) := plainBreaks (p.rest.length + 1) p
      if marker then ⟨none, true, p⟩
      else
        let first := if b != ['\n'] then b else if bs.isEmpty then [' '] else []
        ⟨some (first ++ bs), true, p⟩
  else ⟨if blanks.isEmpty then none else some blanks, false, p⟩

/-- A plain scalar as read: its text, whether a line break follows its last part, and the place
after it. -/
structure PlainReading where
  text : List Char
  /-- A line break was passed after the last part. -/
  broken : Bool
  /-- The place after the scalar and the blanks behind it. -/
  after : Cursor

/-- The rest of a plain scalar whose parts so far are `text`, with the blanks before the next
part. -/
def plainRest (inFlow : Bool) (indent : Nat) :
    Nat → List Char → List Char → Bool → Cursor → PlainReading
  | 0, text, _, broken, p => ⟨text, broken, p⟩
  | fuel + 1, text, gap, broken, p =>
    if p.peek == '#' then ⟨text, broken, p⟩
    else
      let run := plainRun inFlow p.rest
      if run.isEmpty then ⟨text, broken, p⟩
      else
        let text := text ++ gap ++ run
        let g := plainGap (p.advance run.length)
        match g.text with
        | none => ⟨text, g.broken, g.after⟩
        | some gap =>
          if g.after.peek == '#' || (!inFlow && g.after.column < indent) then
            ⟨text, g.broken, g.after⟩
          else plainRest inFlow indent fuel text gap g.broken g.after

def plainScalar (inFlow : Bool) (indent : Nat) (p : Cursor) : PlainReading :=
  plainRest inFlow indent (p.rest.length + 1) [] [] false p

/-! ## Block scalars -/

/-- What becomes of the line breaks at the end of a block scalar. -/
inductive Chomping where
  | clip
  | strip
  | keep
  deriving DecidableEq, Repr

def chomping? (c : Char) : Option Chomping :=
  if c == '+' then some .keep else if c == '-' then some .strip else none

def indentDigit? (c : Char) : Option Nat :=
  if '1' ≤ c && c ≤ '9' then some (c.toNat - 48) else none

/-- The indicators behind the opening of a block scalar, in either order. -/
def blockHeader (p : Cursor) : Except Fault (Chomping × Option Nat × Cursor) := do
  let (chomp, increment, p) :=
    match chomping? p.peek with
    | some chomp =>
      match indentDigit? p.next.peek with
      | some n => (chomp, some n, p.next.next)
      | none => (chomp, none, p.next)
    | none =>
      match indentDigit? p.peek with
      | some n =>
        match chomping? p.next.peek with
        | some chomp => (chomp, some n, p.next.next)
        | none => (.clip, some n, p.next)
      | none => (.clip, none, p)
  if !isGap p.peek then .error .malformed
  else
    let p := p.skipComment
    if isBreakOrEnd p.peek then pure (chomp, increment, p.lineBreak.2) else .error .malformed

/-- Blank lines before the first line of a block scalar, and the greatest column reached. -/
def blockLead : Nat → Nat → Cursor → List Char × Nat × Cursor
  | 0, deepest, p => ([], deepest, p)
  | fuel + 1, deepest, p =>
    if p.peek == ' ' then
      let p := p.next
      blockLead fuel (max deepest p.column) p
    else if isBreak p.peek then
      let (b, p) := p.lineBreak
      let (bs, deepest, p) := blockLead fuel deepest p
      (b ++ bs, deepest, p)
    else ([], deepest, p)

def indentTo (indent : Nat) (p : Cursor) : Cursor :=
  p.advance (min (indent - p.column) (p.rest.takeWhile (· == ' ')).length)

/-- Blank lines inside a block scalar. -/
def blockBreaks (indent : Nat) : Nat → Cursor → List Char × Cursor
  | 0, p => ([], p)
  | fuel + 1, p =>
    let p := indentTo indent p
    if isBreak p.peek then
      let (b, p) := p.lineBreak
      let (bs, p) := blockBreaks indent fuel p
      (b ++ bs, p)
    else ([], p)

/-- The lines of a block scalar from the place on, which is at its first column. -/
def blockLines (folded : Bool) (chomp : Chomping) (indent : Nat) :
    Nat → List Char → Cursor → List Char × Cursor
  | 0, breaks, p => (breaks, p)
  | fuel + 1, breaks, p =>
    let flush := !(p.peek == ' ' || p.peek == '\t')
    let (line, p) := p.takeWhile fun c => !isBreakOrEnd c
    let (b, p) := p.lineBreak
    let (more, p) := blockBreaks indent (p.rest.length + 1) p
    if p.column == indent && p.peek != endMark then
      let joint :=
        if folded && b == ['\n'] && flush && !(p.peek == ' ' || p.peek == '\t') then
          (if more.isEmpty then [' '] else [])
        else b
      let (rest, p) := blockLines folded chomp indent fuel more p
      (breaks ++ line ++ joint ++ rest, p)
    else
      let tail := match chomp with
        | .clip => b
        | .strip => []
        | .keep => b ++ more
      (breaks ++ line ++ tail, p)

/-- The block scalar at the place, inside a collection at the given indentation. -/
def blockScalar (folded : Bool) (outer : Int) (p : Cursor) : Except Fault (List Char × Cursor) := do
  let (chomp, increment, p) ← blockHeader p.next
  let least := (max (outer + 1) 1).toNat
  let (breaks, indent, p) :=
    match increment with
    | none =>
      let (breaks, deepest, p) := blockLead (p.rest.length + 1) 0 p
      (breaks, max least deepest, p)
    | some n =>
      let indent := least + n - 1
      let (breaks, p) := blockBreaks indent (p.rest.length + 1) p
      (breaks, indent, p)
  if p.column == indent && p.peek != endMark then
    pure (blockLines folded chomp indent (p.rest.length + 1) breaks p)
  else
    -- No line at all: only breaks that are kept count.
    pure (if chomp == .keep then breaks else [], p)

end ApiSmith.Yaml
