import ApiSmith.Yaml.Scalar

/-!
# Tokens of a document

Indentation is turned into tokens that open and close block collections. A key without a mark of its
own is recognised by the colon behind it: until then the place where it starts is remembered, one
place for each level of flow collections, and the tokens that open it are put in afterwards.
-/

namespace ApiSmith.Yaml

open ApiSmith.Number

inductive Token where
  /-- A directive that matters: the major version, or a tag handle with what it stands for. -/
  | version (major : Nat)
  /-- A tag handle with what it stands for. -/
  | handle (name expansion : String)
  | directive
  | documentStart
  | documentEnd
  | streamEnd
  | blockSequence
  | blockMapping
  | blockEnd
  | flowSequence
  | flowSequenceEnd
  | flowMapping
  | flowMappingEnd
  | key
  | value
  | entry
  | comma
  | aliasOf (name : String)
  | anchor (name : String)
  /-- A tag, with its handle where it has one. -/
  | tag (handle : Option String) (suffix : String)
  /-- A scalar; `plain` ones are not quoted. -/
  | scalar (text : String) (plain : Bool)
  deriving DecidableEq, Repr

/-- A place where a key without a mark may have started. -/
structure KeyPlace where
  level : Nat
  /-- The number of tokens before it. -/
  position : Nat
  /-- A key must have started here. -/
  required : Bool
  cursor : Cursor

/-- The state of scanning. -/
structure Scanner where
  cursor : Cursor
  tokens : Array Token
  /-- The number of open flow collections. -/
  level : Nat
  /-- The column of the innermost block collection, -1 outside. -/
  indent : Int
  /-- The columns of the block collections around it. -/
  indents : List Int
  /-- Whether a key without a mark may start here. -/
  keyAllowed : Bool
  places : List KeyPlace

namespace Scanner

def start (cs : List Char) : Scanner := ⟨.start cs, #[], 0, -1, [], true, []⟩

def push (s : Scanner) (t : Token) : Scanner := { s with tokens := s.tokens.push t }

def forward (s : Scanner) (n : Nat) : Scanner := { s with cursor := s.cursor.advance n }

/-- Forgets the places that are out of reach: on another line, or more than 1024 characters back. -/
def dropStale (s : Scanner) : Except Fault Scanner :=
  let stale (k : KeyPlace) : Bool :=
    k.cursor.line != s.cursor.line || 1024 < s.cursor.index - k.cursor.index
  if s.places.any fun k => stale k && k.required then .error .malformed
  else .ok { s with places := s.places.filter fun k => !stale k }

def dropPlace (s : Scanner) : Except Fault Scanner :=
  if s.places.any fun k => k.level == s.level && k.required then .error .malformed
  else .ok { s with places := s.places.filter fun k => k.level != s.level }

def savePlace (s : Scanner) : Except Fault Scanner :=
  if s.keyAllowed then do
    let required := s.level == 0 && s.indent == (s.cursor.column : Int)
    let s ← s.dropPlace
    pure { s with places := ⟨s.level, s.tokens.size, required, s.cursor⟩ :: s.places }
  else .ok s

/-- Closes block collections to the right of a column. -/
def unwindFrom : Nat → Int → Scanner → Scanner
  | 0, _, s => s
  | fuel + 1, column, s =>
    if column < s.indent then
      let (outer, rest) := match s.indents with
        | i :: is => (i, is)
        | [] => (-1, [])
      unwindFrom fuel column ({ s with indent := outer, indents := rest }.push .blockEnd)
    else s

/-- Closes block collections to the right of a column, unless a flow collection is open. -/
def unwind (s : Scanner) (column : Int) : Scanner :=
  if s.level == 0 then unwindFrom (s.indents.length + 1) column s else s

/-- Whether a block collection opens at a column, and the state inside it. -/
def enter (s : Scanner) (column : Nat) : Bool × Scanner :=
  if s.indent < column then
    (true, { s with indents := s.indent :: s.indents, indent := column })
  else (false, s)

/-- The state at the next token: behind blanks, comments and line breaks. -/
def skipToToken : Nat → Scanner → Scanner
  | 0, s => s
  | fuel + 1, s =>
    let p := s.cursor.skipComment
    if isBreak p.peek then
      let s := { s with cursor := p.lineBreak.2 }
      skipToToken fuel (if s.level == 0 then { s with keyAllowed := true } else s)
    else { s with cursor := p }

def isNameChar (c : Char) : Bool :=
  ApiSmith.Text.isAsciiDigit c || ApiSmith.Text.isAsciiUpper c || ApiSmith.Text.isAsciiLower c ||
    c == '-' || c == '_'

def name (p : Cursor) : Except Fault (String × Cursor) :=
  let (run, p) := p.takeWhile isNameChar
  if run.isEmpty then .error .malformed else .ok (String.ofList run, p)

/-- The state after a name that follows one character: an anchor or a reference to one. -/
def nameToken (s : Scanner) (token : String → Token) : Except Fault Scanner := do
  let s ← s.savePlace
  let (n, p) ← name s.cursor.next
  if isBlankOrEnd p.peek || "?:,]\x7d%@".toList.contains p.peek || p.peek.toNat == 96 then
    pure ({ s with cursor := p, keyAllowed := false }.push (token n))
  else .error .malformed

/-! ## Tags and directives -/

/-- A handle: an exclamation mark, alone or with a name and another one. -/
def handle (p : Cursor) : Except Fault (String × Cursor) :=
  if p.peek != '!' then .error .malformed
  else if p.peekAt 1 == ' ' then .ok ("!", p.next)
  else
    let (run, q) := p.next.takeWhile isNameChar
    if q.peek == '!' then .ok (String.ofList ('!' :: run ++ ['!']), q.next) else .error .malformed

def isUriChar (c : Char) : Bool :=
  isNameChar c || ";/?:@&=+$,.!~*()[]".toList.contains c || c.toNat == 39

/-- The octets of escapes at the place. -/
def uriOctets : Nat → Cursor → Except Fault (List UInt8 × Cursor)
  | 0, p => .ok ([], p)
  | fuel + 1, p =>
    if p.peek == '%' then
      match escapeNumber? 2 p.next with
      | some n => do
        let (ns, p) ← uriOctets fuel (p.advance 3)
        pure (UInt8.ofNat n :: ns, p)
      | none => .error .malformed
    else .ok ([], p)

def uriRest : Nat → Cursor → Except Fault (List Char × Cursor)
  | 0, p => .ok ([], p)
  | fuel + 1, p =>
    if p.peek == '%' then do
      let (octets, p) ← uriOctets p.rest.length p
      match ApiSmith.Text.utf8Text? octets with
      | none => .error .malformed
      | some cs =>
        let (more, p) ← uriRest fuel p
        pure (cs ++ more, p)
    else if isUriChar p.peek then do
      let (run, p) := p.takeWhile isUriChar
      let (more, p) ← uriRest fuel p
      pure (run ++ more, p)
    else .ok ([], p)

def uri (p : Cursor) : Except Fault (String × Cursor) := do
  let (cs, q) ← uriRest (p.rest.length + 1) p
  if q.index == p.index then .error .malformed else pure (String.ofList cs, q)

def tag (p : Cursor) : Except Fault (Token × Cursor) := do
  let c := p.peekAt 1
  let (t, q) ←
    if c == '<' then do
      let (suffix, q) ← uri (p.advance 2)
      if q.peek == '>' then pure (Token.tag none suffix, q.next) else .error .malformed
    else if isBlankOrEnd c then pure (Token.tag none "!", p.next)
    else
      let ahead := p.next.rest.takeWhile fun c => !isGap c
      if ahead.contains '!' then do
        let (h, q) ← handle p
        let (suffix, q) ← uri q
        pure (Token.tag (some h) suffix, q)
      else do
        let (suffix, q) ← uri p.next
        pure (Token.tag (some "!") suffix, q)
  if isGap q.peek then pure (t, q) else .error .malformed

def versionNumber (p : Cursor) : Except Fault (Nat × Cursor) :=
  let (run, p) := p.takeWhile ApiSmith.Text.isAsciiDigit
  if run.isEmpty then .error .malformed else .ok (asciiNat run, p)

def directive (p : Cursor) : Except Fault (Token × Cursor) := do
  let (n, p) ← name p.next
  if !isGap p.peek then .error .malformed
  else
    let (t, p) ←
      if n == "YAML" then do
        let (major, p) ← versionNumber (p.skipWhile (· == ' '))
        if p.peek != '.' then .error .malformed
        else
          let (_, p) ← versionNumber p.next
          if isGap p.peek then pure (Token.version major, p) else .error .malformed
      else if n == "TAG" then do
        let (h, p) ← handle (p.skipWhile (· == ' '))
        if p.peek != ' ' then .error .malformed
        else
          let (expansion, p) ← uri (p.skipWhile (· == ' '))
          if isGap p.peek then pure (Token.handle h expansion, p) else .error .malformed
      else pure (Token.directive, p.skipWhile fun c => !isBreakOrEnd c)
    let p := p.skipComment
    if isBreakOrEnd p.peek then pure (t, p.lineBreak.2) else .error .malformed

/-! ## One token -/

/-- The state after a document marker or a directive, which closes all block collections. -/
def closeAll (s : Scanner) : Except Fault Scanner := do
  let s ← (s.unwind (-1)).dropPlace
  pure { s with keyAllowed := false }

def openFlow (s : Scanner) (t : Token) : Except Fault Scanner := do
  let s ← s.savePlace
  pure (({ s with level := s.level + 1, keyAllowed := true }.forward 1).push t)

def closeFlow (s : Scanner) (t : Token) : Except Fault Scanner := do
  let s ← s.dropPlace
  if s.level == 0 then .error .malformed
  else pure (({ s with level := s.level - 1, keyAllowed := false }.forward 1).push t)

/-- Opens a block collection where one starts with the present token. -/
def openBlock (s : Scanner) (t : Token) : Except Fault Scanner :=
  if s.level != 0 then .ok s
  else if !s.keyAllowed then .error .malformed
  else
    let (opened, s) := s.enter s.cursor.column
    .ok (if opened then s.push t else s)

/-- The state after a colon. A remembered place becomes a key. -/
def valueToken (s : Scanner) : Except Fault Scanner := do
  let s ←
    match s.places.find? fun k => k.level == s.level with
    | some k =>
      let s := { s with
        places := s.places.filter fun k => k.level != s.level
        tokens := s.tokens.insertIdxIfInBounds k.position .key
        keyAllowed := false }
      if s.level == 0 then
        let (opened, s) := s.enter k.cursor.column
        pure (if opened then
          { s with tokens := s.tokens.insertIdxIfInBounds k.position .blockMapping } else s)
      else pure s
    | none =>
      let s ← s.openBlock .blockMapping
      let s := { s with keyAllowed := s.level == 0 }
      s.dropPlace
  pure ((s.forward 1).push .value)

def blockToken (s : Scanner) (folded : Bool) : Except Fault Scanner := do
  let s ← { s with keyAllowed := true }.dropPlace
  let (text, p) ← blockScalar folded s.indent s.cursor
  pure ({ s with cursor := p }.push (.scalar (String.ofList text) false))

def quotedToken (s : Scanner) (double : Bool) : Except Fault Scanner := do
  let s ← s.savePlace
  let (text, p) ← quotedScalar double s.cursor
  pure ({ s with cursor := p, keyAllowed := false }.push (.scalar (String.ofList text) false))

def plainToken (s : Scanner) : Except Fault Scanner := do
  let s ← s.savePlace
  let r := plainScalar (s.level != 0) (s.indent + 1).toNat s.cursor
  pure ({ s with cursor := r.after, keyAllowed := r.broken }.push
    (.scalar (String.ofList r.text) true))

def startsPlain (s : Scanner) : Bool :=
  let c := s.cursor.peek
  let indicators := "-?:,[]\x7b\x7d#&*!|>\"%@".toList
  !(isBlankOrEnd c || indicators.contains c || c.toNat == 39 || c.toNat == 96) ||
    (!isBlankOrEnd (s.cursor.peekAt 1) &&
      (c == '-' || (s.level == 0 && (c == '?' || c == ':'))))

/-- The state after the next token, and whether it is the last. -/
def step (s : Scanner) : Except Fault (Scanner × Bool) := do
  let s := s.skipToToken (s.cursor.rest.length + 1)
  let s ← s.dropStale
  let s := s.unwind s.cursor.column
  let p := s.cursor
  let c := p.peek
  let more (r : Except Fault Scanner) : Except Fault (Scanner × Bool) := r.map fun s => (s, false)
  let inFlow := s.level != 0
  let blankNext := isBlankOrEnd (p.peekAt 1)
  if c == endMark then
    let s ← s.closeAll
    pure (s.push .streamEnd, true)
  else if c == '%' && p.column == 0 then
    let s ← s.closeAll
    let (t, p) ← directive s.cursor
    pure ({ s with cursor := p }.push t, false)
  else if p.column == 0 && p.atMarker then
    let s ← s.closeAll
    pure ((s.forward 3).push (if c == '-' then .documentStart else .documentEnd), false)
  else if c == '[' then more (s.openFlow .flowSequence)
  else if c == '\x7b' then more (s.openFlow .flowMapping)
  else if c == ']' then more (s.closeFlow .flowSequenceEnd)
  else if c == '\x7d' then more (s.closeFlow .flowMappingEnd)
  else if c == ',' then
    let s ← { s with keyAllowed := true }.dropPlace
    pure ((s.forward 1).push .comma, false)
  else if c == '-' && blankNext then
    let s ← s.openBlock .blockSequence
    let s ← { s with keyAllowed := true }.dropPlace
    pure ((s.forward 1).push .entry, false)
  else if c == '?' && (inFlow || blankNext) then
    let s ← s.openBlock .blockMapping
    let s ← { s with keyAllowed := !inFlow }.dropPlace
    pure ((s.forward 1).push .key, false)
  else if c == ':' && (inFlow || blankNext) then more s.valueToken
  else if c == '*' then more (s.nameToken .aliasOf)
  else if c == '&' then more (s.nameToken .anchor)
  else if c == '!' then
    let s ← s.savePlace
    let (t, p) ← tag s.cursor
    pure ({ s with cursor := p, keyAllowed := false }.push t, false)
  else if c == '|' && !inFlow then more (s.blockToken false)
  else if c == '>' && !inFlow then more (s.blockToken true)
  else if c.toNat == 39 then more (s.quotedToken false)
  else if c == '"' then more (s.quotedToken true)
  else if s.startsPlain then more s.plainToken
  else .error .malformed

def run : Nat → Scanner → Except Fault (List Token)
  | 0, _ => .error .malformed
  | fuel + 1, s => do
    let (s, done) ← s.step
    if done then pure s.tokens.toList else run fuel s

end Scanner

/-- The tokens of a document, which may start with a byte order mark. -/
def Token.scan (cs : List Char) : Except Fault (List Token) :=
  if !cs.all isAllowed then .error .malformed
  else
    let s := Scanner.start cs
    let s := if cs.head? == some (Char.ofNat 0xFEFF) then s.forward 1 else s
    Scanner.run (cs.length + 1) s

end ApiSmith.Yaml
