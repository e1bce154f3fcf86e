/-!
# Octets and characters

UTF-8 read strictly or with replacement, the big and little endian forms of UTF-16 and UTF-32, and
the choice between them by the first octets of a text that starts with ASCII.
-/

namespace ApiSmith.Text

/-- What the first octets of a UTF-8 text are. -/
inductive Utf8Step where
  /-- A character, written in so many octets. -/
  | char (c : Char) (length : Nat)
  /-- So many octets that no character starts with. -/
  | malformed (length : Nat)

def isTail (b : Nat) : Bool := 0x80 ≤ b && b ≤ 0xBF

/-- The bounds of the second octet after a leading octet, the number of octets that follow it, and
the bits that it gives; none for an octet that leads nothing. -/
def utf8Lead? (b : Nat) : Option (Nat × Nat × Nat × Nat) :=
  if 0xC2 ≤ b && b ≤ 0xDF then some (0x80, 0xBF, 1, b - 0xC0)
  else if b == 0xE0 then some (0xA0, 0xBF, 2, 0)
  else if b == 0xED then some (0x80, 0x9F, 2, 0xD)
  else if 0xE1 ≤ b && b ≤ 0xEF then some (0x80, 0xBF, 2, b - 0xE0)
  else if b == 0xF0 then some (0x90, 0xBF, 3, 0)
  else if 0xF1 ≤ b && b ≤ 0xF3 then some (0x80, 0xBF, 3, b - 0xF0)
  else if b == 0xF4 then some (0x80, 0x8F, 3, 4)
  else none

/-- Reads up to `n` continuation octets after `taken` octets that gave `bits`. -/
def utf8Tails : Nat → Nat → Nat → List Nat → Utf8Step
  | 0, taken, bits, _ => .char (Char.ofNat bits) taken
  | n + 1, taken, bits, b :: rest =>
    if isTail b then utf8Tails n (taken + 1) (bits * 64 + (b - 0x80)) rest else .malformed taken
  | _ + 1, taken, _, [] => .malformed taken

/-- The character at the start of a nonempty row of octets. -/
def utf8Step (b : Nat) (rest : List Nat) : Utf8Step :=
  if b < 0x80 then .char (Char.ofNat b) 1
  else match utf8Lead? b with
    | none => .malformed 1
    | some (low, high, n, bits) =>
      match rest with
      | t :: rest =>
        if low ≤ t && t ≤ high then utf8Tails (n - 1) 2 (bits * 64 + (t - 0x80)) rest
        else .malformed 1
      | [] => .malformed 1

/-- Reads octets as UTF-8, `bad` standing for what is malformed. The first argument counts octets
that are already read. -/
def utf8From (bad : Option Char) : Nat → List Nat → Option (List Char)
  | _, [] => some []
  | k + 1, _ :: rest => utf8From bad k rest
  | 0, b :: rest =>
    match utf8Step b rest with
    | .char c n => (utf8From bad (n - 1) rest).map (c :: ·)
    | .malformed n => bad.bind fun c => (utf8From bad (n - 1) rest).map (c :: ·)

def utf8Text? (octets : List UInt8) : Option (List Char) :=
  utf8From none 0 (octets.map UInt8.toNat)

def utf8TextReplacing (octets : List UInt8) : List Char :=
  (utf8From (some (Char.ofNat 0xFFFD)) 0 (octets.map UInt8.toNat)).getD []

def utf8Octets (s : String) : List UInt8 := s.toUTF8.toList

def char? (n : Nat) : Option Char := if n.isValidChar then some (Char.ofNat n) else none

def utf16Text? : List Nat → Option (List Char)
  | [] => some []
  | u :: rest =>
    if 0xD800 ≤ u && u < 0xDC00 then
      match rest with
      | v :: rest =>
        if 0xDC00 ≤ v && v < 0xE000 then
          (utf16Text? rest).map (Char.ofNat (0x10000 + (u - 0xD800) * 0x400 + (v - 0xDC00)) :: ·)
        else none
      | [] => none
    else do
      let c ← char? u
      (utf16Text? rest).map (c :: ·)

def units16? (bigEndian : Bool) : List Nat → Option (List Nat)
  | [] => some []
  | a :: b :: rest =>
    (units16? bigEndian rest).map ((if bigEndian then a * 256 + b else b * 256 + a) :: ·)
  | _ => none

def units32? (bigEndian : Bool) : List Nat → Option (List Nat)
  | [] => some []
  | a :: b :: c :: d :: rest =>
    let (p, q, r, s) := if bigEndian then (a, b, c, d) else (d, c, b, a)
    (units32? bigEndian rest).map ((((p * 256 + q) * 256 + r) * 256 + s) :: ·)
  | _ => none

def wideText? (bigEndian : Bool) (octets : List Nat) : Option (List Char) :=
  (units16? bigEndian octets).bind utf16Text?

def longText? (bigEndian : Bool) (octets : List Nat) : Option (List Char) :=
  (units32? bigEndian octets).bind fun us => us.mapM char?

/-- The text that octets write, in the encoding that a byte order mark or the place of zero octets
shows, and in UTF-8 otherwise. -/
def sniffedText? (octets : List UInt8) : Option (List Char) :=
  let ns := octets.map UInt8.toNat
  match ns with
  | 0 :: 0 :: 0xFE :: 0xFF :: rest => longText? true rest
  | 0xFF :: 0xFE :: 0 :: 0 :: rest => longText? false rest
  | 0xFE :: 0xFF :: rest => wideText? true rest
  | 0xFF :: 0xFE :: rest => wideText? false rest
  | 0xEF :: 0xBB :: 0xBF :: rest => utf8From none 0 rest
  | 0 :: b :: _ :: _ :: _ => if b == 0 then longText? true ns else wideText? true ns
  | _ :: 0 :: c :: d :: _ => if c == 0 && d == 0 then longText? false ns else wideText? false ns
  | [0, _] => wideText? true ns
  | [_, 0] => wideText? false ns
  | _ => utf8From none 0 ns

end ApiSmith.Text
