import ApiSmith.Text.CodePoints

/-!
# Cutting texts

Trimming, splitting at a separator and replacing, as recursion on the characters. The pieces of a
text joined by the separator are the text again (`join_fields`), and a piece holds no separator
character (`not_mem_of_mem_fields`). Replacing goes by the occurrence at the start, if there is one
(`replaceAll_append`, `replaceAll_cons`).
-/

namespace ApiSmith.Text

def trimBy (p : Char → Bool) (cs : List Char) : List Char :=
  ((cs.dropWhile p).reverse.dropWhile p).reverse

def trim (cs : List Char) : List Char := trimBy isBlank cs

/-- The parts between the occurrences of a separator character. -/
def fields (sep : Char) : List Char → List (List Char)
  | [] => [[]]
  | c :: rest =>
    if c = sep then [] :: fields sep rest
    else match fields sep rest with
      | [] => [[c]]
      | f :: fs => (c :: f) :: fs

/-- The parts between the occurrences of a separator text, leftmost first. The first argument
counts the characters of an occurrence that are still to be passed over. -/
def piecesFrom (sep : List Char) : Nat → List Char → List (List Char)
  | _, [] => [[]]
  | k + 1, _ :: rest => piecesFrom sep k rest
  | 0, c :: rest =>
    if sep.isPrefixOf (c :: rest) then [] :: piecesFrom sep (sep.length - 1) rest
    else match piecesFrom sep 0 rest with
      | [] => [[c]]
      | p :: ps => (c :: p) :: ps

def pieces (sep cs : List Char) : List (List Char) := piecesFrom sep 0 cs

/-- The text with every occurrence of a nonempty text replaced, leftmost first. -/
def replaceFrom (old new : List Char) : Nat → List Char → List Char
  | _, [] => []
  | k + 1, _ :: rest => replaceFrom old new k rest
  | 0, c :: rest =>
    if old.isPrefixOf (c :: rest) then new ++ replaceFrom old new (old.length - 1) rest
    else c :: replaceFrom old new 0 rest

def replaceAll (old new cs : List Char) : List Char := replaceFrom old new 0 cs

/-- What stands before and after the first occurrence of a text. -/
def cutAt (sep : List Char) : List Char → Option (List Char × List Char)
  | [] => if sep.isEmpty then some ([], []) else none
  | c :: rest =>
    if sep.isPrefixOf (c :: rest) then some ([], (c :: rest).drop sep.length)
    else (cutAt sep rest).map fun r => (c :: r.1, r.2)

def occursIn (sep cs : List Char) : Bool := (cutAt sep cs).isSome

/-- What stands after the last occurrence of a character. -/
def afterLast? (x : Char) : List Char → Option (List Char)
  | [] => none
  | c :: rest =>
    match afterLast? x rest with
    | some tail => some tail
    | none => if c = x then some rest else none

/-- What stands after the last occurrence of a character, or all of it where there is none. -/
def afterLast (x : Char) (cs : List Char) : List Char := (afterLast? x cs).getD cs

/-- What stands before and after the first occurrence of a character. -/
def cutAtChar (x : Char) (cs : List Char) : List Char × Option (List Char) :=
  (cs.takeWhile (· != x),
    match cs.dropWhile (· != x) with
    | [] => none
    | _ :: rest => some rest)

def join (sep : List Char) : List (List Char) → List Char
  | [] => []
  | [p] => p
  | p :: ps => p ++ sep ++ join sep ps

def joinStrings (sep : String) (parts : List String) : String :=
  String.ofList (join sep.toList (parts.map String.toList))

theorem replaceFrom_length (old new cs rest : List Char) :
    replaceFrom old new cs.length (cs ++ rest) = replaceFrom old new 0 rest := by
  induction cs with
  | nil => rfl
  | cons c cs ih => exact ih

theorem replaceAll_append {old : List Char} (h : old ≠ []) (new rest : List Char) :
    replaceAll old new (old ++ rest) = new ++ replaceAll old new rest := by
  cases old with
  | nil => exact absurd rfl h
  | cons c cs =>
    have hstarts : (c :: cs).isPrefixOf (c :: (cs ++ rest)) = true :=
      List.isPrefixOf_iff_prefix.mpr (List.prefix_append (c :: cs) rest)
    rw [replaceAll, List.cons_append, replaceFrom, if_pos hstarts]
    exact congrArg (new ++ ·) (replaceFrom_length (c :: cs) new cs rest)

theorem replaceAll_cons {old : List Char} {c : Char} {rest : List Char}
    (h : old.isPrefixOf (c :: rest) = false) (new : List Char) :
    replaceAll old new (c :: rest) = c :: replaceAll old new rest := by
  rw [replaceAll, replaceFrom, h]
  rfl

theorem fields_ne_nil (sep : Char) (cs : List Char) : fields sep cs ≠ [] := by
  cases cs with
  | nil => simp [fields]
  | cons c rest =>
    unfold fields
    split
    · simp
    · split <;> simp

theorem join_fields (sep : Char) (cs : List Char) : join [sep] (fields sep cs) = cs := by
  induction cs with
  | nil => rfl
  | cons c rest ih =>
    unfold fields
    split
    · rename_i h
      cases hf : fields sep rest with
      | nil => exact absurd hf (fields_ne_nil sep rest)
      | cons f fs => rw [hf] at ih; simp [join, ih, h]
    · cases hf : fields sep rest with
      | nil => exact absurd hf (fields_ne_nil sep rest)
      | cons f fs =>
        rw [hf] at ih
        cases fs with
        | nil => simp_all [join]
        | cons g gs => simp_all [join]

theorem not_mem_of_mem_fields {sep : Char} {cs f : List Char} (h : f ∈ fields sep cs) :
    sep ∉ f := by
  induction cs generalizing f with
  | nil => simp [fields] at h; simp [h]
  | cons c rest ih =>
    unfold fields at h
    split at h
    · rcases List.mem_cons.1 h with rfl | h
      · simp
      · exact ih h
    · rename_i hc
      cases hf : fields sep rest with
      | nil => exact absurd hf (fields_ne_nil sep rest)
      | cons g gs =>
        rw [hf] at h ih
        rcases List.mem_cons.1 h with rfl | h
        · simp only [List.mem_cons, not_or]
          exact ⟨fun e => hc e.symm, ih (by simp)⟩
        · exact ih (List.mem_cons_of_mem _ h)

end ApiSmith.Text
