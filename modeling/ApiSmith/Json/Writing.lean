import ApiSmith.Data.Value

/-!
# Writing JSON

JSON texts of values, in one line. A style says what stands between elements and after keys and
whether characters beyond ASCII are escaped. Values that JSON cannot express have no text. Keys that
are numbers, truth values or null are written as texts.
-/

namespace ApiSmith.Json

open ApiSmith.Text ApiSmith.Number

def unitEscape (n : Nat) : List Char := ['\\', 'u'] ++ hexText 4 n

/-- A character as escapes of its UTF-16 units. -/
def unicodeEscape (c : Char) : List Char :=
  if c.toNat < 0x10000 then unitEscape c.toNat
  else
    let n := c.toNat - 0x10000
    unitEscape (0xD800 + n / 0x400) ++ unitEscape (0xDC00 + n % 0x400)

def escapeChar (c : Char) : List Char :=
  if c == '"' then ['\\', '"']
  else if c == '\\' then ['\\', '\\']
  else if c == '\n' then ['\\', 'n']
  else if c == '\r' then ['\\', 'r']
  else if c == '\t' then ['\\', 't']
  else if c.toNat == 8 then ['\\', 'b']
  else if c.toNat == 12 then ['\\', 'f']
  else if c.toNat < 32 then unitEscape c.toNat
  else [c]

def escapeAscii (c : Char) : List Char :=
  if c.toNat < 127 then escapeChar c else unicodeEscape c

structure Style where
  between : String
  afterKey : String
  escape : Char → List Char

/-- No blanks, all characters as they are. -/
def Style.compact : Style := ⟨",", ":", escapeChar⟩

/-- Blanks after commas and colons, ASCII only. -/
def Style.spaced : Style := ⟨", ", ": ", escapeAscii⟩

def quoted (escape : Char → List Char) (s : String) : String :=
  String.ofList ('"' :: s.toList.flatMap escape ++ ['"'])

def keyText? : Value → Option String
  | .text s => some s
  | .int n => some (intString n)
  | .member _ _ (.int n) true => some (intString n)
  | .bool b => some (if b then "true" else "false")
  | .null => some "null"
  | .float x => if x.isFinite then some (floatString x) else none
  | _ => none

mutual

def text? (style : Style) : Value → Option String
  | .null => some "null"
  | .bool b => some (if b then "true" else "false")
  | .int n => some (intString n)
  | .member _ _ (.int n) true => some (intString n)
  | .float x => if x.isFinite then some (floatString x) else none
  | .text s => some (quoted style.escape s)
  | .list items => (texts? style items).map fun ts => "[" ++ joinStrings style.between ts ++ "]"
  | .tuple items => (texts? style items).map fun ts => "[" ++ joinStrings style.between ts ++ "]"
  | .map entries =>
    (entryTexts? style entries).map fun ts => "\x7b" ++ joinStrings style.between ts ++ "\x7d"
  | _ => none

def texts? (style : Style) : List Value → Option (List String)
  | [] => some []
  | v :: rest => do
    let t ← text? style v
    let ts ← texts? style rest
    pure (t :: ts)

def entryTexts? (style : Style) : List (Value × Value) → Option (List String)
  | [] => some []
  | (k, v) :: rest => do
    let key ← keyText? k
    let t ← text? style v
    let ts ← entryTexts? style rest
    pure ((quoted style.escape key ++ style.afterKey ++ t) :: ts)

end

end ApiSmith.Json
