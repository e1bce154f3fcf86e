import ApiSmith.Time.Moment

/-!
# Reading moments

Servers write moments in two fixed forms, date and time with an offset, with or without a fraction
of the second; parts may lack their leading zeros. Where neither form fits, a text is read as ISO
8601: calendar or week date, basic or extended form, any character between date and time.
-/

namespace ApiSmith.Time

open ApiSmith.Text ApiSmith.Number

/-! ## The fixed forms -/

/-- All ways to read the start of a text, the preferred one first, each with the rest. -/
abbrev Reader (α : Type) := List Char → List (α × List Char)

namespace Reader

def char (p : Char → Bool) : Reader Char
  | c :: rest => if p c then [(c, rest)] else []
  | [] => []

def andThen {α β : Type} (r : Reader α) (f : α → Reader β) : Reader β :=
  fun cs => (r cs).flatMap fun x => f x.1 x.2

def orElse {α : Type} (a b : Reader α) : Reader α := fun cs => a cs ++ b cs

def done {α : Type} (x : α) : Reader α := fun cs => [(x, cs)]

def between (lo hi : Char) : Reader Char := char fun c => lo ≤ c && c ≤ hi

def digit : Reader Char := char isDecimal

def pair (a b : Reader Char) : Reader (List Char) :=
  a.andThen fun x => b.andThen fun y => done [x, y]

def single (a : Reader Char) : Reader (List Char) := a.andThen fun x => done [x]

def number (cs : List Char) : Nat := ofDigits 10 (cs.map fun c => (decimalValue? c).getD 0)

def upToSix (p : Char → Bool) : Reader (List Char) := fun cs =>
  let run := (cs.take 6).takeWhile p
  (List.range run.length).map fun i => (run.take (run.length - i), cs.drop (run.length - i))

def year : Reader (List Char) :=
  (pair digit digit).andThen fun a => (pair digit digit).andThen fun b => done (a ++ b)

def month : Reader (List Char) :=
  (pair (between '1' '1') (between '0' '2')).orElse
    ((pair (between '0' '0') (between '1' '9')).orElse (single (between '1' '9')))

/-- A day of the month, with or without its zero, which may also be a space. -/
def day : Reader (List Char) :=
  (pair (between '3' '3') (between '0' '1')).orElse
    ((pair (between '1' '2') digit).orElse
      ((pair (between '0' '0') (between '1' '9')).orElse
        ((single (between '1' '9')).orElse
          ((between ' ' ' ').andThen fun _ => single (between '1' '9')))))

def hour : Reader (List Char) :=
  (pair (between '2' '2') (between '0' '3')).orElse
    ((pair (between '0' '1') digit).orElse (single digit))

def minute : Reader (List Char) := (pair (between '0' '5') digit).orElse (single digit)

/-- A second, leap seconds included, with or without its zero. -/
def second : Reader (List Char) :=
  (pair (between '6' '6') (between '0' '1')).orElse
    ((pair (between '0' '5') digit).orElse (single digit))

def optionalColon : Reader (List Char) := (single (between ':' ':')).orElse (done [])

def offsetSeconds : Reader (List Char) :=
  optionalColon.andThen fun colon => (pair (between '0' '5') digit).andThen fun s =>
    ((between '.' '.').andThen fun dot => (upToSix isDecimal).andThen fun f =>
      done (colon ++ s ++ dot :: f)).orElse (done (colon ++ s))

def offset : Reader (List Char) :=
  ((char fun c => c == '+' || c == '-').andThen fun sign => (pair digit digit).andThen fun h =>
    optionalColon.andThen fun colon => (pair (between '0' '5') digit).andThen fun m =>
      (offsetSeconds.orElse (done [])).andThen fun s => done (sign :: h ++ colon ++ m ++ s)).orElse
    (single (between 'Z' 'Z'))

def mark (c : Char) : Reader Unit := (between c c).andThen fun _ => done ()

def timeMark : Reader Unit := (char fun c => c == 'T' || c == 't').andThen fun _ => done ()

end Reader

/-- The parts of a moment in a fixed form, as texts. -/
structure FixedParts where
  /-- Year, month, day, hour, minute and second. -/
  numbers : List (List Char)
  fraction : List Char
  offset : List Char

/-- Date, time, a fraction where asked for, and the offset. -/
def fixedForm (withFraction : Bool) : Reader FixedParts :=
  Reader.year.andThen fun y => (Reader.mark '-').andThen fun _ =>
  Reader.month.andThen fun mo => (Reader.mark '-').andThen fun _ =>
  Reader.day.andThen fun d => Reader.timeMark.andThen fun _ =>
  Reader.hour.andThen fun h => (Reader.mark ':').andThen fun _ =>
  Reader.minute.andThen fun mi => (Reader.mark ':').andThen fun _ =>
  Reader.second.andThen fun s =>
  (if withFraction then
      (Reader.mark '.').andThen fun _ => Reader.upToSix isAsciiDigit
    else Reader.done []).andThen fun f =>
  Reader.offset.andThen fun o => Reader.done ⟨[y, mo, d, h, mi, s], f, o⟩

def fractionMicros (cs : List Char) : Nat :=
  Reader.number cs * Nat.pow 10 (6 - cs.length)

def offsetMicros (negative : Bool) (h m s : Nat) (micros : Nat) : Int :=
  let total : Int := (h * 3600 + m * 60 + s : Nat) * 1000000 + micros
  if negative then -total else total

/-- The offset that a text of the fixed form writes. Colons must be used throughout or not at
all. -/
def readOffset? : List Char → Option Int
  | ['Z'] => some 0
  | sign :: h₁ :: h₂ :: rest => do
    let colons := rest.head? == some ':'
    let rest := if colons then rest.drop 1 else rest
    let minutes := rest.take 2
    let seconds ← match rest.drop 2 with
      | [] => some []
      | ':' :: s => if colons then some s else none
      | s => if colons then none else some s
    pure (offsetMicros (sign == '-') (Reader.number [h₁, h₂]) (Reader.number minutes)
      (Reader.number (seconds.take 2)) (fractionMicros (seconds.drop 3)))
  | _ => none

/-- The moment that a text in a fixed form writes. -/
def readFixed? (withFraction : Bool) (cs : List Char) : Option Moment := do
  let (parts, rest) ← (fixedForm withFraction cs).head?
  if !rest.isEmpty then none
  else
    let offset ← readOffset? parts.offset
    match parts.numbers.map Reader.number with
    | [y, mo, d, h, mi, s] =>
      Moment.of? y mo d h mi s (fractionMicros parts.fraction) (some offset)
    | _ => none

/-! ## ISO 8601 -/

def leadingDigits? (n : Nat) (cs : List Char) : Option (Nat × List Char) :=
  let run := cs.take n
  if run.length == n && run.all isAsciiDigit then some (asciiNat run, cs.drop n) else none

/-- The length of the date at the start of a text of at least seven characters. -/
def isoDateLength? (cs : List Char) : Option Nat :=
  let charAt (i : Nat) : Option Char := cs[i]?
  let digitAt (i : Nat) : Bool := (charAt i).any isAsciiDigit
  if cs.length < 7 then none
  else if cs.length == 7 then some 7
  else if charAt 4 == some '-' then
    if charAt 5 == some 'W' then
      if charAt 8 == some '-' then
        if cs.length == 9 then none else if digitAt 10 then some 8 else some 10
      else some 8
    else some 10
  else if charAt 4 == some 'W' then
    let pos := 7 + ((cs.drop 7).takeWhile isAsciiDigit).length
    if pos < 9 then some pos else if pos % 2 == 0 then some 7 else some 8
  else some 8

/-- The date in the first `len` characters. -/
def isoDate? (cs : List Char) (len : Nat) : Option (Nat × Nat × Nat) := do
  let (year, rest) ← leadingDigits? 4 cs
  let hyphens := rest.head? == some '-'
  let rest := if hyphens then rest.drop 1 else rest
  -- The hyphen before the last part, where the form has hyphens.
  let afterHyphen? (cs : List Char) : Option (List Char) :=
    if hyphens then (if cs.head? == some '-' then some (cs.drop 1) else none) else some cs
  if rest.head? == some 'W' then
    let (week, rest) ← leadingDigits? 2 (rest.drop 1)
    if cs.length - rest.length < len then
      let rest ← afterHyphen? rest
      let (day, _) ← leadingDigits? 1 rest
      ofIsoWeek? year week day
    else ofIsoWeek? year week 1
  else
    let (month, rest) ← leadingDigits? 2 rest
    let rest ← afterHyphen? rest
    let (day, rest) ← leadingDigits? 2 rest
    if cs.length - rest.length == len then some (year, month, day) else none

/-- A time of day as read, and whether characters were left over. -/
structure ClockReading where
  /-- Hours, minutes, seconds and microseconds. -/
  parts : Nat × Nat × Nat × Nat
  /-- Something follows that is not part of it. -/
  leftOver : Bool

def isoFraction? (hms : Nat × Nat × Nat) (closed : Bool) (cs : List Char) : Option ClockReading := do
  let n := min 6 cs.length
  let (f, rest) ← leadingDigits? n cs
  let beyond := rest.dropWhile isAsciiDigit
  pure ⟨(hms.1, hms.2.1, hms.2.2, f * Nat.pow 10 (6 - n)), !(closed && beyond.isEmpty)⟩

/-- What follows two digits of a time of day. -/
inductive ClockStep where
  /-- The end; whether something is left over. -/
  | stop (leftOver : Bool)
  | fraction (rest : List Char)
  | more (rest : List Char)
  | bad

/-- A time of day: hours, then minutes and seconds with or without colons, then a fraction.
`closed` says that the whole text ends where `cs` ends. -/
def isoClock? (closed : Bool) (cs : List Char) : Option ClockReading := do
  let (h, rest) ← leadingDigits? 2 cs
  let colons := rest.head? == some ':'
  match next? colons rest with
  | .stop left => pure ⟨(h, 0, 0, 0), left⟩
  | .fraction rest => isoFraction? (h, 0, 0) closed rest
  | .bad => none
  | .more rest =>
    let (m, rest) ← leadingDigits? 2 rest
    match next? colons rest with
    | .stop left => pure ⟨(h, m, 0, 0), left⟩
    | .fraction rest => isoFraction? (h, m, 0) closed rest
    | .bad => none
    | .more rest =>
      let (s, rest) ← leadingDigits? 2 rest
      match next? colons rest with
      | .stop left => pure ⟨(h, m, s, 0), left⟩
      | .fraction rest => isoFraction? (h, m, s) closed rest
      | .bad => none
      | .more rest => isoFraction? (h, m, s) closed rest
where
  /-- What follows two digits: the end, a fraction, the next two digits, or nothing readable. -/
  next? (colons : Bool) : List Char → ClockStep
    | [] => .stop (!closed)
    | [c] => if c.toNat < 128 then .stop true else .bad
    | c :: rest =>
      if colons && c == ':' then .more rest
      else if c == '.' || c == ',' then .fraction rest
      else if colons then .bad
      else .more (c :: rest)

/-- The time of day and the offset at the end of a moment. -/
def isoTime? (cs : List Char) : Option ((Nat × Nat × Nat × Nat) × Option Int) := do
  let isZone (c : Char) : Bool := c == '+' || c == '-' || c == 'Z'
  let body := cs.takeWhile fun c => !isZone c
  match cs.drop body.length with
  | [] =>
    let clock ← isoClock? true body
    if clock.leftOver then none else some (clock.parts, none)
  | 'Z' :: rest =>
    let clock ← isoClock? false body
    if rest.isEmpty then some (clock.parts, some 0) else none
  | sign :: rest =>
    let clock ← isoClock? false body
    let zone ← isoClock? true rest
    let (h, m, s, f) := zone.parts
    if zone.leftOver then none
    else
      let whole := h * 3600 + m * 60 + s
      some (clock.parts, some (if whole == 0 then 0 else offsetMicros (sign == '-') h m s f))

/-- The moment that an ISO 8601 text writes: a date, or a date and a time with any character
between them. -/
def readIso? (cs : List Char) : Option Moment := do
  let len ← isoDateLength? cs
  let (year, month, day) ← isoDate? cs len
  match cs.drop len with
  | [] => Moment.of? year month day 0 0 0 0 none
  | _ :: rest =>
    let ((h, m, s, f), offset) ← isoTime? rest
    Moment.of? year month day h m s f offset

/-- The moment that a server's text writes: one of the fixed forms, or else ISO 8601 with `Z` for
UTC. -/
def readMoment? (cs : List Char) : Option Moment :=
  match readFixed? false cs with
  | some m => some m
  | none =>
    match readFixed? true cs with
    | some m => some m
    | none => readIso? (replaceAll ['Z'] "+00:00".toList cs)

end ApiSmith.Time
