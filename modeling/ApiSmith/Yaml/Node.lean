import ApiSmith.Data.Value.Same
import ApiSmith.Text.Base64
import ApiSmith.Time.Moment
import ApiSmith.Yaml.Token

/-!
# Nodes of a document

A document is a tree of tagged scalars, sequences and mappings. A scalar without a tag gets one from
its text when it is plain, and is a text otherwise. A reference stands for the node with its anchor.
-/

namespace ApiSmith.Yaml

inductive Node where
  | scalar (tag text : String)
  | sequence (tag : String) (items : List Node)
  | mapping (tag : String) (entries : List (Node × Node))

def Node.tag : Node → String
  | .scalar t _ => t
  | .sequence t _ => t
  | .mapping t _ => t

def standard (name : String) : String := "tag:yaml.org,2002:" ++ name

/-! ## The tag of a plain scalar -/

open ApiSmith.Text ApiSmith.Number

def isGrouped (c : Char) : Bool := isAsciiDigit c || c == '_'

def unsigned : List Char → List Char
  | '-' :: rest => rest
  | '+' :: rest => rest
  | cs => cs

def isExponentOrEmpty : List Char → Bool
  | [] => true
  | e :: sign :: digits =>
    (e == 'e' || e == 'E') && (sign == '-' || sign == '+') && !digits.isEmpty &&
      digits.all isAsciiDigit
  | _ => false

/-- Parts of a number to the base sixty: one or two digits, the first below six where there are
two. -/
def isSixtieth : List Char → Bool
  | [a] => isAsciiDigit a
  | [a, b] => '0' ≤ a && a ≤ '5' && isAsciiDigit b
  | _ => false

def isGroupedNumber : List Char → Bool
  | [] => false
  | c :: rest => isAsciiDigit c && rest.all isGrouped

/-- A text that writes a double. -/
def isFloatText (cs : List Char) : Bool :=
  let body := unsigned cs
  let (whole, point) := cutAtChar '.' body
  match point with
  | none => false
  | some after =>
    let tail := after.dropWhile isGrouped
    (isGroupedNumber whole && isExponentOrEmpty tail) ||
      (whole.isEmpty && body.length == cs.length && isGroupedNumber (after.takeWhile isGrouped) &&
        isExponentOrEmpty tail) ||
      (whole.isEmpty && ["inf", "Inf", "INF"].any fun w => w.toList == after) ||
      (whole.isEmpty && body.length == cs.length &&
        ["nan", "NaN", "NAN"].any fun w => w.toList == after) ||
      (match fields ':' whole with
        | first :: rest => !rest.isEmpty && isGroupedNumber first && rest.all isSixtieth &&
            tail.isEmpty
        | [] => false)

/-- A text that writes an integer. -/
def isIntText (cs : List Char) : Bool :=
  match unsigned cs with
  | '0' :: 'b' :: rest => !rest.isEmpty && rest.all fun c => c == '0' || c == '1' || c == '_'
  | '0' :: 'x' :: rest => !rest.isEmpty && rest.all fun c => (hexValue? c).isSome || c == '_'
  | ['0'] => true
  | '0' :: rest => rest.all fun c => ('0' ≤ c && c ≤ '7') || c == '_'
  | body =>
    match fields ':' body with
    | first :: rest => isGroupedNumber first && rest.all isSixtieth
    | [] => false

/-- The parts of a date with an optional time of day. -/
structure TimeParts where
  /-- Year, month and day, with their lengths checked by the reader. -/
  date : List Char × List Char × List Char
  /-- Hour, minute and second. -/
  clock : Option (List Char × List Char × List Char)
  fraction : List Char
  /-- The offset: a sign, hours and minutes; a zero sign mark stands for `Z`. -/
  zone : Option (Char × List Char × List Char)

def digitRun? (least most : Nat) (cs : List Char) : Option (List Char × List Char) :=
  let run := (cs.take most).takeWhile isAsciiDigit
  if least ≤ run.length then some (run, cs.drop run.length) else none

def behind? (c : Char) : List Char → Option (List Char)
  | x :: rest => if x == c then some rest else none
  | [] => none

/-- The offset at the end of a time. -/
def zone? (cs : List Char) : Option (Option (Char × List Char × List Char)) :=
  match cs with
  | [] => some none
  | _ =>
    match cs.dropWhile fun c => c == ' ' || c == '\t' with
    | ['Z'] => some (some ('Z', [], []))
    | sign :: rest =>
      if sign == '+' || sign == '-' then do
        let (h, rest) ← digitRun? 1 2 rest
        match rest with
        | [] => some (some (sign, h, []))
        | ':' :: rest => do
          let (m, rest) ← digitRun? 2 2 rest
          if rest.isEmpty then some (some (sign, h, m)) else none
        | _ => none
      else none
    | [] => none

def timeParts? (cs : List Char) : Option TimeParts := do
  let (y, rest) ← digitRun? 4 4 cs
  let (mo, rest) ← behind? '-' rest >>= digitRun? 1 2
  let (d, rest) ← behind? '-' rest >>= digitRun? 1 2
  match rest with
  | [] => some ⟨(y, mo, d), none, [], none⟩
  | c :: after =>
    let rest ←
      if c == 'T' || c == 't' then some after
      else
        let rest := rest.dropWhile fun c => c == ' ' || c == '\t'
        if rest.length < (c :: after).length then some rest else none
    let (h, rest) ← digitRun? 1 2 rest
    let (mi, rest) ← behind? ':' rest >>= digitRun? 2 2
    let (s, rest) ← behind? ':' rest >>= digitRun? 2 2
    let (f, rest) := match rest with
      | '.' :: rest => (rest.takeWhile isAsciiDigit, rest.dropWhile isAsciiDigit)
      | rest => ([], rest)
    let zone ← zone? rest
    some ⟨(y, mo, d), some (h, mi, s), f, zone⟩

/-- A text that writes a date or a time. A date alone has all its digits. -/
def isTimeText (cs : List Char) : Bool :=
  match timeParts? cs with
  | some ⟨(_, mo, d), none, _, _⟩ => mo.length == 2 && d.length == 2
  | some _ => true
  | none => false

def trueWords : List String := ["yes", "Yes", "YES", "true", "True", "TRUE", "on", "On", "ON"]

def falseWords : List String := ["no", "No", "NO", "false", "False", "FALSE", "off", "Off", "OFF"]

def plainTag (text : String) : String :=
  let cs := text.toList
  if trueWords.contains text || falseWords.contains text then standard "bool"
  else if isFloatText cs then standard "float"
  else if isIntText cs then standard "int"
  else if text == "<<" then standard "merge"
  else if ["", "~", "null", "Null", "NULL"].contains text then standard "null"
  else if isTimeText cs then standard "timestamp"
  else if text == "=" then standard "value"
  else if ["!", "&", "*"].contains text then standard "yaml"
  else standard "str"

/-! ## From tokens to nodes -/

/-- The state of reading nodes. -/
structure Composer where
  tokens : List Token
  anchors : List (String × Node)
  handles : List (String × String)

abbrev Compose (α : Type) := Composer → Except Fault (α × Composer)

namespace Composer

def peek (s : Composer) : Token := s.tokens.headD .streamEnd

def next (s : Composer) : Composer := { s with tokens := s.tokens.drop 1 }

def isAt (s : Composer) (ts : List Token) : Bool := ts.contains s.peek

def empty : Node := .scalar (standard "null") ""

/-- The full tag that a tag token stands for; an exclamation mark alone leaves the tag open. -/
def fullTag (s : Composer) (handle : Option String) (suffix : String) : Except Fault String :=
  match handle with
  | none => .ok suffix
  | some h =>
    match s.handles.find? fun e => e.1 == h with
    | some e => .ok (e.2 ++ suffix)
    | none => .error .malformed

/-- The anchor and the tag in front of a node, in either order. -/
def properties (s : Composer) : Except Fault (Option String × Option String × Composer) :=
  match s.peek with
  | .anchor a =>
    match s.next.peek with
    | .tag h suffix => do
      let t ← s.fullTag h suffix
      pure (some a, some t, s.next.next)
    | _ => .ok (some a, none, s.next)
  | .tag h suffix => do
    match s.next.peek with
    | .anchor a => do
      let t ← s.fullTag h suffix
      pure (some a, some t, s.next.next)
    | _ => do
      let t ← s.fullTag h suffix
      pure (none, some t, s.next)
  | _ => .ok (none, none, s)

def record (anchor : Option String) (n : Node) (s : Composer) : Except Fault (Node × Composer) :=
  match anchor with
  | none => .ok (n, s)
  | some a =>
    if s.anchors.any fun e => e.1 == a then .error .malformed
    else .ok (n, { s with anchors := (a, n) :: s.anchors })

def collectionTag (tag : Option String) (default : String) : String :=
  match tag with
  | some "!" => standard default
  | some t => t
  | none => standard default

mutual

/-- The node at hand. Block collections are read where `block` allows them, and a sequence without
its own indentation where `indentless` does. -/
def node (block indentless : Bool) : Nat → Compose Node
  | 0, _ => .error .malformed
  | fuel + 1, s =>
    match s.peek with
    | .aliasOf a =>
      match s.anchors.find? fun e => e.1 == a with
      | some e => .ok (e.2, s.next)
      | none => .error .malformed
    | _ => do
      let (anchor, tag, s) ← s.properties
      match s.peek with
      | .scalar text plain =>
        let isOpen := tag == some "!" || (plain && tag.isNone)
        let t := if isOpen then plainTag text else tag.getD (standard "str")
        record anchor (.scalar t text) s.next
      | .flowSequence => do
        let (items, s) ← flowItems true fuel s.next
        record anchor (.sequence (collectionTag tag "seq") items) s
      | .flowMapping => do
        let (entries, s) ← flowEntries true fuel s.next
        record anchor (.mapping (collectionTag tag "map") entries) s
      | .entry =>
        if indentless then do
          let (items, s) ← bareItems fuel s
          record anchor (.sequence (collectionTag tag "seq") items) s
        else propertiesOnly anchor tag s
      | .blockSequence =>
        if block then do
          let (items, s) ← blockItems fuel s.next
          record anchor (.sequence (collectionTag tag "seq") items) s
        else propertiesOnly anchor tag s
      | .blockMapping =>
        if block then do
          let (entries, s) ← blockEntries fuel s.next
          record anchor (.mapping (collectionTag tag "map") entries) s
        else propertiesOnly anchor tag s
      | _ => propertiesOnly anchor tag s

/-- A node that is only an anchor or a tag: an empty scalar. -/
def propertiesOnly (anchor tag : Option String) : Compose Node := fun s =>
  if anchor.isNone && tag.isNone then .error .malformed
  else
    let t := match tag with
      | some "!" | none => plainTag ""
      | some t => t
    record anchor (.scalar t "") s

def nodeUnless (stops : List Token) (block indentless : Bool) : Nat → Compose Node
  | 0, _ => .error .malformed
  | fuel + 1, s => if s.isAt stops then .ok (empty, s) else node block indentless fuel s

/-- The elements of a block sequence up to its end. -/
def blockItems : Nat → Compose (List Node)
  | 0, _ => .error .malformed
  | fuel + 1, s =>
    match s.peek with
    | .entry => do
      let (n, s) ← nodeUnless [.entry, .blockEnd] true false fuel s.next
      let (ns, s) ← blockItems fuel s
      pure (n :: ns, s)
    | .blockEnd => .ok ([], s.next)
    | _ => .error .malformed

/-- The elements of a sequence without indentation of its own. -/
def bareItems : Nat → Compose (List Node)
  | 0, _ => .error .malformed
  | fuel + 1, s =>
    match s.peek with
    | .entry => do
      let (n, s) ← nodeUnless [.entry, .key, .value, .blockEnd] true false fuel s.next
      let (ns, s) ← bareItems fuel s
      pure (n :: ns, s)
    | _ => .ok ([], s)

/-- The entries of a block mapping up to its end. -/
def blockEntries : Nat → Compose (List (Node × Node))
  | 0, _ => .error .malformed
  | fuel + 1, s =>
    match s.peek with
    | .key => do
      let (k, s) ← nodeUnless [.key, .value, .blockEnd] true true fuel s.next
      let (v, s) ←
        match s.peek with
        | .value => nodeUnless [.key, .value, .blockEnd] true true fuel s.next
        | _ => pure (empty, s)
      let (es, s) ← blockEntries fuel s
      pure ((k, v) :: es, s)
    | .blockEnd => .ok ([], s.next)
    | _ => .error .malformed

/-- The elements of a flow sequence up to its bracket. A pair without braces is a mapping. -/
def flowItems (first : Bool) : Nat → Compose (List Node)
  | 0, _ => .error .malformed
  | fuel + 1, s => do
    if s.peek == .flowSequenceEnd then pure ([], s.next)
    else
      let s ← if first then pure s else if s.peek == .comma then pure s.next else .error .malformed
      if s.peek == .flowSequenceEnd then pure ([], s.next)
      else
        let (n, s) ←
          if s.peek == .key then do
            let (k, s) ← nodeUnless [.value, .comma, .flowSequenceEnd] false false fuel s.next
            let (v, s) ←
              if s.peek == .value then
                nodeUnless [.comma, .flowSequenceEnd] false false fuel s.next
              else pure (empty, s)
            pure (Node.mapping (standard "map") [(k, v)], s)
          else node false false fuel s
        let (ns, s) ← flowItems false fuel s
        pure (n :: ns, s)

/-- The entries of a flow mapping up to its brace. -/
def flowEntries (first : Bool) : Nat → Compose (List (Node × Node))
  | 0, _ => .error .malformed
  | fuel + 1, s => do
    if s.peek == .flowMappingEnd then pure ([], s.next)
    else
      let s ← if first then pure s else if s.peek == .comma then pure s.next else .error .malformed
      if s.peek == .flowMappingEnd then pure ([], s.next)
      else
        let (e, s) ←
          if s.peek == .key then do
            let (k, s) ← nodeUnless [.value, .comma, .flowMappingEnd] false false fuel s.next
            let (v, s) ←
              if s.peek == .value then
                nodeUnless [.comma, .flowMappingEnd] false false fuel s.next
              else pure (empty, s)
            pure ((k, v), s)
          else do
            let (k, s) ← node false false fuel s
            pure ((k, empty), s)
        let (es, s) ← flowEntries false fuel s
        pure (e :: es, s)

end

/-! ## Documents -/

def defaultHandles : List (String × String) := [("!", "!"), ("!!", "tag:yaml.org,2002:")]

def directives : List Token → Bool → List (String × String) →
    Except Fault (List Token × List (String × String))
  | .version major :: rest, seen, hs =>
    if seen || major != 1 then .error .malformed else directives rest true hs
  | .handle h e :: rest, seen, hs =>
    if hs.any fun x => x.1 == h then .error .malformed else directives rest seen ((h, e) :: hs)
  | .directive :: rest, seen, hs => directives rest seen hs
  | rest, _, hs => .ok (rest, hs)

/-- The only document of a row of tokens; none where there is no document. -/
def document (tokens : List Token) : Except Fault (Option Node) := do
  let fuel := 4 * tokens.length + 8
  let finish (s : Composer) : Except Fault Unit :=
    let left := s.tokens.dropWhile (· == .documentEnd)
    if left.headD .streamEnd == .streamEnd then .ok () else .error .malformed
  let explicit (tokens : List Token) : Except Fault (Option Node) := do
    let (rest, hs) ← directives tokens false []
    match rest with
    | .documentStart :: rest =>
      let s : Composer := ⟨rest, [], hs ++ defaultHandles⟩
      let stops := [.documentStart, .documentEnd, .streamEnd]
      let isDirective : Bool := match s.peek with
        | .version _ | .handle .. | .directive => true
        | _ => false
      let (n, s) ← if isDirective then pure (empty, s) else nodeUnless stops true false fuel s
      finish s
      pure (some n)
    | _ => .error .malformed
  match tokens.headD .streamEnd with
  | .streamEnd => pure none
  | .documentStart | .version _ | .handle .. | .directive => explicit tokens
  | _ =>
    let (n, s) ← node true false fuel ⟨tokens, [], defaultHandles⟩
    finish s
    pure (some n)

end Composer

end ApiSmith.Yaml
