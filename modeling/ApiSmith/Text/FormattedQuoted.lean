import ApiSmith.Text.Identifier
import ApiSmith.Text.PlainQuoted

/-!
# Literals with fields

A literal with an `f` in front has fields: a name between braces stands for the text that it is
bound to. Two braces of one kind stand for one. Only literals without a backslash are read here, and
only fields with nothing but a name in ASCII between their braces; others have no reading.
-/

namespace ApiSmith.Text.FormattedQuoted

open TripleQuoted PlainQuoted

def opening : Char := '\x7b'

def closing : Char := '\x7d'

/-- An identifier that is no argument: the language gives it its value. -/
def constant : String := "__debug__"

/-- The value of the constant, as a run has it that is not optimized. -/
def constantText : String := "True"

/-- Whether a field may name an argument, which reserved words and the constant do not. -/
def isArgument (name : String) : Bool :=
  isIdentifier name.toList && name.toList.all (·.toNat < 128) && !isReserved name &&
    name != constant

def field? (bound : String → Option String) (name : String) : Option (List Nat) :=
  if name = constant then some (constantText.toList.map Char.toNat)
  else if isArgument name then (bound name).map fun s => s.toList.map Char.toNat
  else none

/-- Where a reading stands in a literal. -/
inductive Place where
  | text
  /-- In a field of which some characters were read. -/
  | field (held : List Char)
  /-- Behind a closing brace, which needs another. -/
  | closed

/-- The code points up to the closing quote, and what stands after it. -/
def inside (bound : String → Option String) : Place → List Char → Option (List Nat × List Char)
  | _, [] => none
  | .text, c :: rest =>
    if c = '"' then some ([], rest)
    else if !isPlain c then none
    else if c = opening then inside bound (.field []) rest
    else if c = closing then inside bound .closed rest
    else (inside bound .text rest).map fun r => (c.toNat :: r.1, r.2)
  | .field held, c :: rest =>
    if c = closing then
      (field? bound (String.ofList held)).bind fun codes =>
        (inside bound .text rest).map fun r => (codes ++ r.1, r.2)
    else if c = opening && held.isEmpty then
      (inside bound .text rest).map fun r => (c.toNat :: r.1, r.2)
    else inside bound (.field (held ++ [c])) rest
  | .closed, c :: rest =>
    if c = closing then (inside bound .text rest).map fun r => (c.toNat :: r.1, r.2) else none

/-- What a literal with fields comes to, and what stands after it. Three quotes open a literal of
another kind. -/
def read? (bound : String → Option String) (cs : List Char) : Option (List Nat × List Char) :=
  match cs with
  | '"' :: rest => if quotes.isPrefixOf cs then none else inside bound .text rest
  | _ => none

def whole? : Option (List Nat × List Char) → Option (List Nat)
  | some (codes, []) => some codes
  | _ => none

/-- The code points that an expression of a single literal comes to, with fields or without. -/
def evaluate? (named : List Char → Option Char) (bound : String → Option String) :
    List Char → Option (List Nat)
  | 'f' :: rest => whole? (read? bound rest)
  | cs => whole? (PlainQuoted.read? named cs)

/-! ## What stands inside -/

variable {bound : String → Option String}

theorem inside_quote (cs : List Char) : inside bound .text ('"' :: cs) = some ([], cs) := rfl

theorem inside_plain {c : Char} (plain : isPlain c = true) (hopening : c ≠ opening)
    (hclosing : c ≠ closing) (cs : List Char) :
    inside bound .text (c :: cs) = (inside bound .text cs).map fun r => (c.toNat :: r.1, r.2) := by
  rw [inside, if_neg (isPlain_iff.mp plain).2.2.2.1, if_neg (by simp [plain]), if_neg hopening,
    if_neg hclosing]

theorem inside_name {held name : List Char} (hopening : opening ∉ name) (hclosing : closing ∉ name)
    (cs : List Char) :
    inside bound (.field held) (name ++ closing :: cs) =
      (field? bound (String.ofList (held ++ name))).bind fun codes =>
        (inside bound .text cs).map fun r => (codes ++ r.1, r.2) := by
  induction name generalizing held with
  | nil => rw [List.nil_append, inside, if_pos rfl, List.append_nil]
  | cons c rest ih =>
    obtain ⟨ho, hopening⟩ := not_or.mp (mt List.mem_cons.mpr hopening)
    obtain ⟨hc, hclosing⟩ := not_or.mp (mt List.mem_cons.mpr hclosing)
    rw [List.cons_append, inside, if_neg (Ne.symm hc), if_neg (by simp [Ne.symm ho]),
      ih hopening hclosing, List.append_assoc]
    rfl

theorem isIdentPart_of_isIdentifier {cs : List Char} (h : isIdentifier cs = true) :
    ∀ c ∈ cs, isIdentPart c = true := by
  cases cs with
  | nil => exact List.forall_mem_nil _
  | cons c rest =>
    obtain ⟨hstart, hrest⟩ := Bool.and_eq_true_iff.mp h
    refine List.forall_mem_cons.mpr ⟨?_, List.all_eq_true.mp hrest⟩
    rw [isIdentPart, hstart, Bool.true_or]

theorem not_mem_of_isArgument {name : String} (h : isArgument name = true) :
    opening ∉ name.toList ∧ closing ∉ name.toList := by
  simp only [isArgument, Bool.and_eq_true] at h
  have hparts := isIdentPart_of_isIdentifier h.1.1.1
  exact ⟨fun hmem => absurd (hparts _ hmem) (by decide),
    fun hmem => absurd (hparts _ hmem) (by decide)⟩

theorem inside_field {name value : String} (h : isArgument name = true)
    (hvalue : bound name = some value) (cs : List Char) :
    inside bound .text (opening :: (name.toList ++ closing :: cs)) =
      (inside bound .text cs).map fun r => (value.toList.map Char.toNat ++ r.1, r.2) := by
  obtain ⟨hopening, hclosing⟩ := not_mem_of_isArgument h
  have hname : name ≠ constant := by
    rintro rfl
    exact absurd h (by decide)
  have hstart : inside bound .text (opening :: (name.toList ++ closing :: cs)) =
      inside bound (.field []) (name.toList ++ closing :: cs) := rfl
  rw [hstart, inside_name hopening hclosing, List.nil_append, String.ofList_toList, field?,
    if_neg hname, if_pos h, hvalue]
  rfl

/-! ## Whole literals -/

theorem not_isPrefixOf_quotes {cs : List Char} (h : cs.head? ≠ some '"') :
    quotes.isPrefixOf ('"' :: (cs ++ ['"'])) = false := by
  cases cs with
  | nil => rfl
  | cons c cs =>
    have hne : '"' ≠ c := fun heq => h (congrArg some heq.symm)
    simp [quotes, List.isPrefixOf, hne]

section

variable {cs : List Char} {codes : List Nat} (named : List Char → Option Char)
  (h : cs.head? ≠ some '"')

include h

theorem evaluate?_formatted (hcodes : inside bound .text (cs ++ ['"']) = some (codes, [])) :
    evaluate? named bound ('f' :: '"' :: (cs ++ ['"'])) = some codes := by
  have hread : read? bound ('"' :: (cs ++ ['"'])) = some (codes, []) := by
    rw [read?, not_isPrefixOf_quotes h, hcodes]
    rfl
  rw [evaluate?, hread]
  rfl

theorem evaluate?_plain (hcodes : PlainQuoted.inside named (cs ++ ['"']) = some (codes, [])) :
    evaluate? named bound ('"' :: (cs ++ ['"'])) = some codes := by
  have hread : PlainQuoted.read? named ('"' :: (cs ++ ['"'])) = some (codes, []) := by
    rw [PlainQuoted.read?, not_isPrefixOf_quotes h, hcodes]
    rfl
  show whole? (PlainQuoted.read? named ('"' :: (cs ++ ['"']))) = some codes
  rw [hread]
  rfl

end

end ApiSmith.Text.FormattedQuoted
