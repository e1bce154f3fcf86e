import Mathlib.Algebra.Group.Nat.Defs
import Mathlib.Data.List.Basic
import ApiSmith.Package.Files
import ApiSmith.Text.PlainQuoted

/-!
# Keys between plain quotes

The key of a renamed field and the key of a query parameter are put between plain quotes in the way
of JSON, and what is generated reads them as literals of its own language. The two agree on every
character that is one UTF-16 unit. A character that is two is written as two escapes, which JSON puts
together and the literal does not: it holds the two halves as code points of their own, and is not the
key (`keys_evaluate_iff`).

Each character is read on its own (`inside_escapeKeyChar`), so the reading of a key is one induction
over its characters.
-/

namespace ApiSmith.Package

open Number Text PlainQuoted Docstring

/-! ## Hexadecimal digits -/

theorem hexValue?_hexDigit : ∀ d < 16, hexValue? (hexDigit d) = some d := by decide

theorem isPlain_hexDigit : ∀ d < 16, isPlain (hexDigit d) = true := by decide

theorem length_hexText (width n : Nat) : (hexText width n).length = width := by
  induction width generalizing n with
  | zero => rfl
  | succ width ih => simp [hexText, ih]

theorem isPlain_of_mem_hexText {width n : Nat} {d : Char} (h : d ∈ hexText width n) :
    isPlain d = true := by
  induction width generalizing n with
  | zero => cases h
  | succ width ih =>
    rcases List.mem_append.mp h with hfront | hlast
    · exact ih hfront
    · rw [List.mem_singleton.mp hlast]
      exact isPlain_hexDigit _ (Nat.mod_lt _ (by decide))

theorem ofDigits_concat (base : Nat) (ds : List Nat) (d : Nat) :
    ofDigits base (ds ++ [d]) = ofDigits base ds * base + d := by
  simp [ofDigits]

theorem mapM_hexText (width n : Nat) :
    ((hexText width n).mapM hexValue?).map (ofDigits 16) = some (n % 16 ^ width) := by
  induction width generalizing n with
  | zero => simp [hexText, ofDigits, Nat.mod_one]
  | succ width ih =>
    obtain ⟨ds, hds, hvalue⟩ := Option.map_eq_some_iff.mp (ih (n / 16))
    have hlast := hexValue?_hexDigit _ (Nat.mod_lt n (by decide))
    have hall : (hexText (width + 1) n).mapM hexValue? = some (ds ++ [n % 16]) := by
      simp [hexText, List.mapM_append, hds, hlast]
    rw [hall, Option.map_some, ofDigits_concat, hvalue, Nat.pow_succ', Nat.mod_mul]
    congr 1
    omega

theorem hexNumber?_hexText (width : Nat) {n : Nat} (h : n < 16 ^ width) (cs : List Char) :
    hexNumber? width (hexText width n ++ cs) = some n := by
  have hlength := length_hexText width n
  rw [hexNumber?, if_neg (by simp [hlength]), List.take_left' hlength, mapM_hexText,
    Nat.mod_eq_of_lt h]

/-! ## Characters -/

def utf16Units (c : Char) : List Nat :=
  if c.toNat < 0x10000 then [c.toNat]
  else [0xD800 + (c.toNat - 0x10000) / 0x400, 0xDC00 + (c.toNat - 0x10000) % 0x400]

def utf16 (s : String) : List Nat := s.toList.flatMap utf16Units

def codePoints (s : String) : List Nat := s.toList.map Char.toNat

theorem lt_of_mem_utf16Units {c : Char} {n : Nat} (h : n ∈ utf16Units c) : n < 0x10000 := by
  have hlast : c.toNat < 0x110000 := c.valid.elim (fun h => by simp only [Char.toNat]; omega) (·.2)
  unfold utf16Units at h
  split at h <;> simp only [List.mem_cons, List.not_mem_nil, or_false] at h <;> omega

theorem utf16_eq_codePoints_iff (s : String) :
    utf16 s = codePoints s ↔ ∀ c ∈ s.toList, c.toNat < 0x10000 := by
  unfold utf16 codePoints
  induction s.toList with
  | nil => simp
  | cons c cs ih =>
    rw [List.flatMap_cons, List.map_cons, List.forall_mem_cons, ← ih]
    by_cases hc : c.toNat < 0x10000
    · simp [utf16Units, hc]
    · have hne : utf16Units c ++ cs.flatMap utf16Units ≠ c.toNat :: cs.map Char.toNat := by
        intro heq
        rw [utf16Units, if_neg hc] at heq
        have hunit := lt_of_mem_utf16Units (c := c) (n := 0xD800 + (c.toNat - 0x10000) / 0x400)
          (by simp [utf16Units, hc])
        rw [(List.cons.inj heq).1] at hunit
        exact hc hunit
      simp [hne, hc]

/-! ## Reading a key -/

variable (named : List Char → Option Char)

theorem inside_unitEscape {n : Nat} (h : n < 0x10000) (cs : List Char) :
    inside named (Json.unitEscape n ++ cs) =
      (inside named cs).map fun r => (n :: r.1, r.2) := by
  refine inside_escape named (c := 'u') (by decide) (by decide) (hexText 4 n)
    (fun d hd => isPlain_of_mem_hexText hd) [n] (fun rest => ?_) cs
  have hletter : TripleQuoted.letter? 'u' = none := rfl
  simp [escape?, hletter, hexNumber?_hexText 4 h, length_hexText]

theorem inside_utf16Units {us : List Nat} (h : ∀ n ∈ us, n < 0x10000) (cs : List Char) :
    inside named (us.flatMap Json.unitEscape ++ cs) =
      (inside named cs).map fun r => (us ++ r.1, r.2) := by
  induction us with
  | nil => simp
  | cons n us ih =>
    rw [List.flatMap_cons, List.append_assoc, inside_unitEscape named (h n List.mem_cons_self),
      ih fun m hm => h m (List.mem_cons_of_mem _ hm), Option.map_map]
    rfl

theorem unicodeEscape_eq (c : Char) :
    Json.unicodeEscape c = (utf16Units c).flatMap Json.unitEscape := by
  unfold Json.unicodeEscape utf16Units
  split <;> simp

theorem inside_escapeChar (c : Char) (cs : List Char) :
    inside named (Json.escapeChar c ++ cs) =
      (inside named cs).map fun r => (c.toNat :: r.1, r.2) := by
  have numbered {n : Nat} (hn : c.toNat = n) : c = Char.ofNat n := by rw [← hn, Char.ofNat_toNat]
  unfold Json.escapeChar
  simp only [beq_iff_eq]
  by_cases hquote : c = '"'
  · subst hquote
    exact inside_letter named rfl cs
  by_cases hslash : c = '\\'
  · subst hslash
    exact inside_letter named rfl cs
  by_cases hfeed : c = '\n'
  · subst hfeed
    exact inside_letter named rfl cs
  by_cases hreturn : c = '\r'
  · subst hreturn
    exact inside_letter named rfl cs
  by_cases htab : c = '\t'
  · subst htab
    exact inside_letter named rfl cs
  by_cases hback : c.toNat = 8
  · obtain rfl := numbered hback
    exact inside_letter named rfl cs
  by_cases hform : c.toNat = 12
  · obtain rfl := numbered hform
    exact inside_letter named rfl cs
  simp only [hquote, hslash, hfeed, hreturn, htab, hback, hform, if_false]
  by_cases hcontrol : c.toNat < 32
  · rw [if_pos hcontrol]
    exact inside_unitEscape named (by omega) cs
  · have hplain : isPlain c = true := isPlain_iff.mpr ⟨by omega, hreturn, hfeed, hquote, hslash⟩
    rw [if_neg hcontrol]
    exact inside_plain named hplain cs

theorem inside_escapeKeyChar (c : Char) (cs : List Char) :
    inside named (escapeKeyChar c ++ cs) =
      (inside named cs).map fun r => (utf16Units c ++ r.1, r.2) := by
  have single (hc : c.toNat < 127) : utf16Units c = [c.toNat] := if_pos (by omega)
  unfold escapeKeyChar Json.escapeAscii
  split
  · next hmarkup =>
    have hc : c.toNat < 127 := by
      simp only [isMarkup, Bool.or_eq_true, beq_iff_eq] at hmarkup
      rcases hmarkup with ((rfl | rfl) | rfl) | hc
      · decide
      · decide
      · decide
      · omega
    rw [single hc]
    exact inside_unitEscape named (by omega) cs
  · split
    · next hc =>
      rw [single hc]
      exact inside_escapeChar named c cs
    · rw [unicodeEscape_eq]
      exact inside_utf16Units named (fun n hn => lt_of_mem_utf16Units hn) cs

/-- A key is read as its UTF-16 units, with anything after it that is no quote. -/
theorem read?_key (s : String) {after : List Char} (hafter : after.head? ≠ some '"') :
    read? named ((key s).toList ++ after) = some (utf16 s, after) := by
  have hinside (cs : List Char) :
      inside named (cs.flatMap escapeKeyChar ++ '"' :: after) =
        some (cs.flatMap utf16Units, after) := by
    induction cs with
    | nil => exact inside_quote named after
    | cons c cs ih =>
      rw [List.flatMap_cons, List.append_assoc, inside_escapeKeyChar, ih]
      rfl
  have hkey : (key s).toList ++ after = '"' :: (s.toList.flatMap escapeKeyChar ++ '"' :: after) := by
    simp [key, Json.quoted]
  have opens : TripleQuoted.quotes.isPrefixOf
      ('"' :: (s.toList.flatMap escapeKeyChar ++ '"' :: after)) = false := by
    rw [Bool.eq_false_iff]
    intro hopens
    obtain ⟨more, hmore⟩ := List.isPrefixOf_iff_prefix.mp hopens
    have hread : inside named ('"' :: '"' :: more) = some (s.toList.flatMap utf16Units, after) := by
      rw [← hinside s.toList, ← (List.cons.inj hmore).2]
      rfl
    rw [inside_quote] at hread
    obtain ⟨-, rfl⟩ := Prod.mk.inj (Option.some.inj hread)
    exact hafter rfl
  rw [hkey]
  rw [read?, opens, if_neg Bool.false_ne_true]
  exact hinside s.toList

/-! ## Pages -/

/-- On a page stands a key, after a start and before an end, and it is read there as a literal of some
code points. -/
def WritesKey (page start s stop : String) (codes : List Nat) : Prop :=
  ∃ front back,
    page.toList = front ++ start.toList ++ (key s).toList ++ stop.toList ++ back ∧
    read? named ((key s).toList ++ (stop.toList ++ back)) = some (codes, stop.toList ++ back)

def fieldStart (f : FieldLine) : String :=
  "    " ++ f.name.display ++ ": " ++ f.annotation ++
    if f.required then " = field(metadata=\x7b\"json_key\": "
    else " = field(default=None, metadata=\x7b\"json_key\": "

def fieldStop : String := "\x7d)\n"

def queryStart : String := "            "

def queryStop (q : ParameterLine) : String :=
  let value := q.identifier.display
  ": " ++ (if q.isDate then "format_date(" ++ value ++ ")" else value) ++ ",\n"

theorem head?_queryStop (q : ParameterLine) : (queryStop q).toList.head? = some ':' := by
  simp [queryStop]

theorem toList_fileText (lines : List String) :
    (fileText lines).toList = lines.flatMap fun l => (l ++ "\n").toList := by
  simp [fileText, List.flatMap_def, Function.comp_def]

theorem writesKey_fileText {lines : List String} {line start s stop : String}
    (hline : line ∈ lines) (heq : line ++ "\n" = start ++ key s ++ stop) {c : Char}
    (hstop : stop.toList.head? = some c) (hc : c ≠ '"') :
    WritesKey named (fileText lines) start s stop (utf16 s) := by
  obtain ⟨before, after, rfl⟩ := List.append_of_mem hline
  refine ⟨(fileText before).toList, (fileText after).toList, ?_, read?_key named s ?_⟩
  · simp only [toList_fileText, List.flatMap_append, List.flatMap_cons, heq]
    simp only [String.toList_append, List.append_assoc]
  · simp [hstop, hc]

theorem declaration_eq {f : FieldLine} (h : f.renamed = true) :
    declaration f ++ "\n" = fieldStart f ++ key f.key ++ fieldStop := by
  unfold declaration fieldStart fieldStop
  cases hrequired : f.required with
  | false | true =>
    simp only [h, Bool.false_eq_true, if_true, if_false, String.append_assoc]
    rfl

theorem queryLine_eq (q : ParameterLine) :
    queryLine q ++ "\n" = queryStart ++ key q.key ++ queryStop q := by
  simp [queryLine, queryStart, queryStop, String.append_assoc]

theorem writesKey_modelText {m : ModelPage} {f : FieldLine} (hf : f ∈ m.fields)
    (h : f.renamed = true) :
    WritesKey named (modelText m) (fieldStart f) f.key fieldStop (utf16 f.key) := by
  have hline : declaration f ∈ m.fields.flatMap fieldLines :=
    List.mem_flatMap.mpr ⟨f, hf, List.mem_append_right _ List.mem_cons_self⟩
  refine writesKey_fileText named ?_ (declaration_eq h) rfl (by decide)
  simp only [List.mem_append, hline, true_or, or_true]

theorem writesKey_groupText {g : GroupPage} {m : MethodPart} (hm : m ∈ g.methods)
    {q : ParameterLine} (hq : q ∈ m.query) :
    WritesKey named (groupText g) queryStart q.key (queryStop q) (utf16 q.key) := by
  have hurl : queryLine q ∈ urlLines m := by
    have hquery : m.query.isEmpty = false := by
      rw [List.isEmpty_eq_false_iff]
      exact List.ne_nil_of_mem hq
    rw [urlLines, hquery, if_neg Bool.false_ne_true]
    simp only [List.mem_append, List.mem_map_of_mem hq, true_or, or_true]
  have hline : queryLine q ∈ g.methods.flatMap methodLines := by
    refine List.mem_flatMap.mpr ⟨m, hm, ?_⟩
    simp only [methodLines, List.mem_append, hurl, true_or, or_true]
  refine writesKey_fileText named ?_ (queryLine_eq q) (head?_queryStop q) (by decide)
  simp only [List.mem_append, hline, or_true]

/-- A key that is written on a page has one reading, and this is the key exactly if each of its
characters is one unit. -/
theorem writesKey_codePoints_iff {page start s stop : String} {c : Char}
    (hstop : stop.toList.head? = some c) (hc : c ≠ '"')
    (h : WritesKey named page start s stop (utf16 s)) :
    WritesKey named page start s stop (codePoints s) ↔ ∀ c ∈ s.toList, c.toNat < 0x10000 := by
  rw [← utf16_eq_codePoints_iff]
  constructor
  · rintro ⟨front, back, -, hread⟩
    have hafter : (stop.toList ++ back).head? ≠ some '"' := by simp [hstop, hc]
    rw [read?_key named s hafter] at hread
    exact (Prod.mk.inj (Option.some.inj hread)).1
  · intro heq
    rw [← heq]
    exact h

/-- Take the page of a model and the page of a group.

* The key of a renamed field stands in the metadata of its declaration and is read there as its
  UTF-16 units. It is read as the key itself exactly if no character of it is beyond the first plane.
* So does the key of a query parameter in the line of the query that holds its value.

In a literal, names of characters may stand for any characters. -/
theorem keys_evaluate_iff (named : List Char → Option Char) :
    (∀ m : ModelPage, ∀ f ∈ m.fields, f.renamed = true →
      WritesKey named (modelText m) (fieldStart f) f.key fieldStop (utf16 f.key) ∧
      (WritesKey named (modelText m) (fieldStart f) f.key fieldStop (codePoints f.key) ↔
        ∀ c ∈ f.key.toList, c.toNat < 0x10000)) ∧
    ∀ g : GroupPage, ∀ m ∈ g.methods, ∀ q ∈ m.query,
      WritesKey named (groupText g) queryStart q.key (queryStop q) (utf16 q.key) ∧
      (WritesKey named (groupText g) queryStart q.key (queryStop q) (codePoints q.key) ↔
        ∀ c ∈ q.key.toList, c.toNat < 0x10000) := by
  refine ⟨fun m f hf hrenamed => ?_, fun g m hm q hq => ?_⟩
  · have hwrites := writesKey_modelText named hf hrenamed
    exact ⟨hwrites, writesKey_codePoints_iff named (c := '\x7d') rfl (by decide) hwrites⟩
  · have hwrites := writesKey_groupText named hm hq
    exact ⟨hwrites, writesKey_codePoints_iff named (head?_queryStop q) (by decide) hwrites⟩

/-! ## A face and a limit -/

def faceField : FieldLine :=
  ⟨.text "a", "a😀", true, "Optional[str]", false, "", none, "aValue"⟩

def facePage : ModelPage :=
  ⟨"User", ⟨"user", "CAUser"⟩, "", .bool true, .text "clientgen.runtime", [faceField], [],
    ⟨false, false, false⟩, []⟩

def limitLine : ParameterLine :=
  ⟨.text "limit", "limit", .query, "limit: Optional[int] = None", "", false⟩

def limitMethod : MethodPart :=
  ⟨"get_users", "GET", "/users", "", [limitLine], none, "/users", "\"/users\"", "CAUser"⟩

def limitPage : GroupPage :=
  ⟨"users", ⟨"users_client", "CAUsersClient"⟩, .text "clientgen.runtime", [limitMethod],
    ⟨false, false, false⟩, false, []⟩

/-- The key with the face is read as three code points and not as itself, and the key of the limit is
read as itself. -/
theorem keys_evaluate_iff_of_face :
    WritesKey (fun _ => none) (modelText facePage) (fieldStart faceField) "a😀" fieldStop
        [97, 0xD83D, 0xDE00] ∧
      ¬ WritesKey (fun _ => none) (modelText facePage) (fieldStart faceField) "a😀" fieldStop
        (codePoints "a😀") ∧
      WritesKey (fun _ => none) (groupText limitPage) queryStart "limit" (queryStop limitLine)
        (codePoints "limit") := by
  obtain ⟨hfields, hqueries⟩ := keys_evaluate_iff fun _ => none
  obtain ⟨hunits, hface⟩ := hfields facePage faceField (by simp [facePage]) rfl
  obtain ⟨-, hlimit⟩ := hqueries limitPage limitMethod (by simp [limitPage]) limitLine
    (by simp [MethodPart.query, limitMethod, limitLine])
  refine ⟨hunits, fun hread => ?_, hlimit.mpr (by simp [limitLine])⟩
  have hplane := hface.mp hread
  simp [faceField] at hplane

end ApiSmith.Package
