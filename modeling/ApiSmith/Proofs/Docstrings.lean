import Mathlib.Data.List.Basic
import Mathlib.Data.List.TakeWhile
import Mathlib.Data.Nat.Init
import ApiSmith.Package.Files

/-!
# Descriptions between triple quotes

A description that is put between triple quotes is read back as it was, whatever follows the literal,
except where it ends with three quotes, or six, or any other number of quotes that is a multiple of
three (`reads_back_iff`). Quotes at the end are escaped in threes, and then the last one once more;
after a whole number of threes it is escaped already, so that the second escape escapes the backslash
of the first one, the closing quotes come one quote too early, and one quote is left over.

Escaping is done in three passes over the text. The proof reads them as one: `escape` has an equation
for each way in which a text begins, and the induction goes by these (`quoteInduction`).
-/

namespace ApiSmith.Docstring

open Text TripleQuoted

/-! ## Escaping in one pass -/

def doubled (cs : List Char) : List Char := replaceAll ['\\'] ['\\', '\\'] cs

/-- The text with backslashes doubled and with quotes escaped in threes. -/
def inThrees (cs : List Char) : List Char := replaceAll quotes escapedTriple (doubled cs)

theorem escape_eq (cs : List Char) : escape cs = escapeLast (inThrees cs) := rfl

theorem doubled_backslash (cs : List Char) : doubled ('\\' :: cs) = '\\' :: '\\' :: doubled cs :=
  @replaceAll_append ['\\'] (List.cons_ne_nil _ _) _ cs

theorem doubled_cons {c : Char} (hc : c ≠ '\\') (cs : List Char) :
    doubled (c :: cs) = c :: doubled cs := by
  refine replaceAll_cons ?_ _
  simp [List.isPrefixOf, hc.symm]

theorem isPrefixOf_doubled (n : Nat) (cs : List Char) :
    (List.replicate n '"').isPrefixOf (doubled cs) = (List.replicate n '"').isPrefixOf cs := by
  induction n generalizing cs with
  | zero => simp
  | succ n ih =>
    cases cs with
    | nil => rfl
    | cons c cs =>
      by_cases hc : c = '\\'
      · subst hc
        rw [doubled_backslash]
        rfl
      · rw [doubled_cons hc, List.replicate_succ, List.isPrefixOf_cons_cons,
          List.isPrefixOf_cons_cons, ih]

theorem inThrees_backslash (cs : List Char) :
    inThrees ('\\' :: cs) = '\\' :: '\\' :: inThrees cs := by
  rw [inThrees, doubled_backslash, replaceAll_cons rfl, replaceAll_cons rfl, inThrees]

theorem inThrees_triple (cs : List Char) :
    inThrees (quotes ++ cs) = escapedTriple ++ inThrees cs := by
  have hdoubled : doubled (quotes ++ cs) = quotes ++ doubled cs := by
    simp only [quotes, List.cons_append, List.nil_append]
    rw [doubled_cons (by decide), doubled_cons (by decide), doubled_cons (by decide)]
  rw [inThrees, hdoubled, replaceAll_append (by simp [quotes]), inThrees]

theorem inThrees_cons {c : Char} (hc : c ≠ '\\') {cs : List Char}
    (opens : quotes.isPrefixOf (c :: cs) = false) :
    inThrees (c :: cs) = c :: inThrees cs := by
  have hopens : quotes.isPrefixOf (doubled (c :: cs)) = false :=
    (isPrefixOf_doubled 3 (c :: cs)).trans opens
  rw [doubled_cons hc] at hopens
  rw [inThrees, doubled_cons hc, replaceAll_cons hopens, inThrees]

theorem inThrees_ne_nil {cs : List Char} (h : cs ≠ []) : inThrees cs ≠ [] := by
  obtain ⟨c, rest, rfl⟩ := List.exists_cons_of_ne_nil h
  by_cases hc : c = '\\'
  · subst hc
    simp [inThrees_backslash]
  · by_cases opens : quotes.isPrefixOf (c :: rest) = true
    · obtain ⟨more, hmore⟩ := List.isPrefixOf_iff_prefix.mp opens
      rw [← hmore, inThrees_triple]
      simp [escapedTriple]
    · rw [inThrees_cons hc (Bool.eq_false_iff.mpr opens)]
      exact List.cons_ne_nil _ _

theorem escapeLast_append {u v : List Char} (h : v ≠ [] ∨ u.getLast? ≠ some '"') :
    escapeLast (u ++ v) = u ++ escapeLast v := by
  by_cases hv : v = []
  · subst hv
    have hu := h.resolve_left (· rfl)
    simp [escapeLast, hu]
  · rw [escapeLast, escapeLast, List.getLast?_append_of_ne_nil _ hv,
      List.dropLast_append_of_ne_nil hv]
    split <;> simp

theorem escape_backslash (cs : List Char) : escape ('\\' :: cs) = '\\' :: '\\' :: escape cs := by
  rw [escape_eq, inThrees_backslash, escape_eq]
  exact escapeLast_append (.inr (by decide)) (u := ['\\', '\\'])

theorem escape_cons {c : Char} (hc : c ≠ '\\') (hquote : c ≠ '"') (cs : List Char) :
    escape (c :: cs) = c :: escape cs := by
  have opens : quotes.isPrefixOf (c :: cs) = false := by
    simp [quotes, List.isPrefixOf_cons_cons, hquote.symm]
  rw [escape_eq, inThrees_cons hc opens, escape_eq]
  exact escapeLast_append (.inr (by simpa using hquote)) (u := [c])

theorem escape_quote {cs : List Char} (h : cs ≠ [])
    (opens : quotes.isPrefixOf ('"' :: cs) = false) : escape ('"' :: cs) = '"' :: escape cs := by
  rw [escape_eq, inThrees_cons (by decide) opens, escape_eq]
  exact escapeLast_append (.inl (inThrees_ne_nil h)) (u := ['"'])

theorem escape_triple {cs : List Char} (h : cs ≠ []) :
    escape (quotes ++ cs) = escapedTriple ++ escape cs := by
  rw [escape_eq, inThrees_triple, escape_eq, escapeLast_append (.inl (inThrees_ne_nil h))]

/-- The ways in which a text begins, as escaping sees them. -/
theorem quoteInduction {P : List Char → Prop} (nil : P []) (last : P ['"'])
    (lastTriple : P quotes) (backslash : ∀ cs, P cs → P ('\\' :: cs))
    (plain : ∀ c cs, c ≠ '\\' → c ≠ '"' → P cs → P (c :: cs))
    (triple : ∀ cs, cs ≠ [] → P cs → P (quotes ++ cs))
    (quote : ∀ cs, cs ≠ [] → quotes.isPrefixOf ('"' :: cs) = false → P cs → P ('"' :: cs))
    (cs : List Char) : P cs := by
  induction hn : cs.length using Nat.strong_induction_on generalizing cs with
  | _ n ih =>
    have shorter (rest : List Char) (hrest : rest.length < cs.length) : P rest :=
      ih rest.length (hn ▸ hrest) rest rfl
    cases cs with
    | nil => exact nil
    | cons c rest =>
      have hlater := shorter rest (by simp)
      by_cases hslash : c = '\\'
      · subst hslash
        exact backslash rest hlater
      by_cases hquote : c = '"'
      · subst hquote
        by_cases hrest : rest = []
        · subst hrest
          exact last
        by_cases opens : quotes.isPrefixOf ('"' :: rest) = true
        · obtain ⟨more, hmore⟩ := List.isPrefixOf_iff_prefix.mp opens
          rw [← hmore] at shorter ⊢
          by_cases hmore : more = []
          · subst hmore
            exact lastTriple
          · refine triple more hmore (shorter more ?_)
            simp only [quotes, List.length_append, List.length_cons]
            omega
        · exact quote rest hrest (Bool.eq_false_iff.mpr opens) hlater
      · exact plain c rest hslash hquote hlater

/-! ## Quotes at the end -/

def trailingQuotes (cs : List Char) : Nat := (cs.reverse.takeWhile (· == '"')).length

def endsInThrees (cs : List Char) : Bool := 0 < trailingQuotes cs && trailingQuotes cs % 3 == 0

theorem trailingQuotes_append (u v : List Char) :
    trailingQuotes (u ++ v) =
      if v.all (· == '"') then trailingQuotes v + trailingQuotes u else trailingQuotes v := by
  have hall : v.reverse.takeWhile (· == '"') = v.reverse ↔ v.all (· == '"') = true := by
    simp [List.takeWhile_eq_self_iff]
  rw [trailingQuotes, List.reverse_append]
  split
  · next h =>
    rw [List.takeWhile_append_of_pos (by simpa using h), List.length_append, trailingQuotes,
      hall.mpr h, trailingQuotes]
  · next h =>
    have hshort : (v.reverse.takeWhile (· == '"')).length ≠ v.reverse.length := fun hlength =>
      h (hall.mp ((List.takeWhile_prefix _).eq_of_length hlength))
    rw [List.takeWhile_append, if_neg hshort, trailingQuotes]

theorem trailingQuotes_of_all {cs : List Char} (h : ∀ c ∈ cs, c = '"') :
    trailingQuotes cs = cs.length := by
  rw [trailingQuotes, List.takeWhile_eq_self_iff.mpr (by simpa using h), List.length_reverse]

theorem endsInThrees_cons {c : Char} (hc : c ≠ '"') (cs : List Char) :
    endsInThrees (c :: cs) = endsInThrees cs := by
  have hnone : trailingQuotes [c] = 0 := by simp [trailingQuotes, hc]
  have hquotes : trailingQuotes (c :: cs) = trailingQuotes cs := by
    rw [← List.singleton_append, trailingQuotes_append, hnone]
    split <;> rfl
  rw [endsInThrees, endsInThrees, hquotes]

theorem endsInThrees_triple {cs : List Char} (h : cs ≠ []) :
    endsInThrees (quotes ++ cs) = endsInThrees cs := by
  have hthree : trailingQuotes quotes = 3 := rfl
  rw [endsInThrees, endsInThrees, trailingQuotes_append, hthree]
  split
  · next hall =>
    have hpos : 0 < trailingQuotes cs := by
      rw [trailingQuotes_of_all (by simpa using hall)]
      exact List.length_pos_iff.mpr h
    rw [Nat.add_mod_right, decide_eq_true hpos, decide_eq_true (Nat.add_pos_left hpos 3)]
  · rfl

/-- A quote before a text that does not start three quotes ends in no more threes: if only quotes
follow, there is one. -/
theorem endsInThrees_quote {cs : List Char} (h : cs ≠ [])
    (opens : quotes.isPrefixOf ('"' :: cs) = false) :
    endsInThrees ('"' :: cs) = endsInThrees cs := by
  by_cases hall : ∀ c ∈ cs, c = '"'
  · obtain ⟨c, rest, rfl⟩ := List.exists_cons_of_ne_nil h
    obtain rfl := hall c List.mem_cons_self
    cases rest with
    | nil => rfl
    | cons d more =>
      obtain rfl := hall d (by simp)
      cases opens
  · rw [endsInThrees, endsInThrees, ← List.singleton_append, trailingQuotes_append,
      if_neg (by simpa using hall)]

/-! ## Reading back -/

/-- The text that a description is read back as, and what is left of the characters after it. -/
def readBack (cs after : List Char) : List Char × List Char :=
  if endsInThrees cs then (cs.dropLast ++ ['\\'], '"' :: after) else (cs, after)

theorem readBack_append {u cs : List Char} (h : endsInThrees (u ++ cs) = endsInThrees cs)
    (after : List Char) :
    readBack (u ++ cs) after = (u ++ (readBack cs after).1, (readBack cs after).2) := by
  rw [readBack, h, readBack]
  split
  · next hthrees =>
    have hcs : cs ≠ [] := by
      rintro rfl
      cases hthrees
    rw [List.dropLast_append_of_ne_nil hcs, List.append_assoc]
  · rfl

theorem escape_head {c : Char} (hc : c ≠ '"') (cs : List Char) : ∃ u, escape (c :: cs) = c :: u := by
  by_cases hslash : c = '\\'
  · subst hslash
    exact ⟨_, escape_backslash cs⟩
  · exact ⟨_, escape_cons hslash hc cs⟩

theorem not_quotes_of_escape {cs : List Char} (h : cs ≠ [])
    (opens : quotes.isPrefixOf ('"' :: cs) = false) (more : List Char) :
    quotes.isPrefixOf ('"' :: (escape cs ++ more)) = false := by
  obtain ⟨c, rest, rfl⟩ := List.exists_cons_of_ne_nil h
  by_cases hc : c = '"'
  · subst hc
    cases rest with
    | nil => rfl
    | cons d later =>
      have hd : d ≠ '"' := by
        rintro rfl
        cases opens
      have hlone : quotes.isPrefixOf ('"' :: d :: later) = false := by
        simp [quotes, List.isPrefixOf_cons_cons, hd.symm]
      obtain ⟨u, hu⟩ := escape_head hd later
      rw [escape_quote (List.cons_ne_nil d later) hlone, hu]
      simp [quotes, List.isPrefixOf_cons_cons, hd.symm]
  · obtain ⟨u, hu⟩ := escape_head hc rest
    rw [hu]
    simp [quotes, List.isPrefixOf_cons_cons, Ne.symm hc]

variable (named : List Char → Option Char)

theorem inside_escape {cs : List Char} (clean : ∀ c ∈ cs, c.toNat ≠ 0 ∧ c ≠ '\r')
    (after : List Char) :
    inside named (escape cs ++ (quotes ++ after)) = some (readBack cs after) := by
  induction cs using quoteInduction with
  | nil => exact inside_quotes named after
  | last =>
    show inside named ('\\' :: '"' :: (quotes ++ after)) = _
    rw [inside_letter named (d := '"') rfl, inside_quotes]
    rfl
  | lastTriple =>
    -- The last quote stands bare behind two backslashes, and closes with two of the three after it.
    show inside named ('\\' :: '"' :: '\\' :: '"' :: '\\' :: '\\' :: (quotes ++ '"' :: after)) = _
    rw [inside_letter named (d := '"') rfl, inside_letter named (d := '"') rfl,
      inside_letter named (d := '\\') rfl, inside_quotes]
    rfl
  | backslash cs ih =>
    have hback := @readBack_append ['\\'] cs (endsInThrees_cons (by decide) cs) after
    rw [escape_backslash, List.cons_append, List.cons_append, inside_letter named (d := '\\') rfl,
      ih fun c hc => clean c (List.mem_cons_of_mem _ hc)]
    exact congrArg some hback.symm
  | plain c cs hslash hquote ih =>
    obtain ⟨hnul, hreturn⟩ := clean c List.mem_cons_self
    have opens : quotes.isPrefixOf (c :: (escape cs ++ (quotes ++ after))) = false := by
      simp [quotes, List.isPrefixOf_cons_cons, hquote.symm]
    have hback := @readBack_append [c] cs (endsInThrees_cons hquote cs) after
    rw [escape_cons hslash hquote, List.cons_append, inside_plain named hnul hreturn hslash opens,
      ih fun c hc => clean c (List.mem_cons_of_mem _ hc)]
    exact congrArg some hback.symm
  | triple cs h ih =>
    have hback := readBack_append (endsInThrees_triple h) after
    rw [escape_triple h]
    show inside named
      ('\\' :: '"' :: '\\' :: '"' :: '\\' :: '"' :: (escape cs ++ (quotes ++ after))) = _
    rw [inside_letter named (d := '"') rfl, inside_letter named (d := '"') rfl,
      inside_letter named (d := '"') rfl, ih fun c hc => clean c (List.mem_append_right _ hc)]
    exact congrArg some hback.symm
  | quote cs h opens ih =>
    have hback := @readBack_append ['"'] cs (endsInThrees_quote h opens) after
    rw [escape_quote h opens, List.cons_append,
      inside_plain named (by decide) (by decide) (by decide) (not_quotes_of_escape h opens _),
      ih fun c hc => clean c (List.mem_cons_of_mem _ hc)]
    exact congrArg some hback.symm

/-- Take a text without NULs and returns, put it between triple quotes as a description, and read the
literal, with anything after it. It is read back as it was, and what comes after is left, exactly if
the quotes at its end are not a positive multiple of three. If they are, its last quote is read as a
backslash, and a quote is left over. -/
theorem reads_back_iff (named : List Char → Option Char) {cs : List Char}
    (clean : ∀ c ∈ cs, c.toNat ≠ 0 ∧ c ≠ '\r') (after : List Char) :
    let literal := quotes ++ escape cs ++ quotes ++ after
    (read? named literal = some (cs, after) ↔ endsInThrees cs = false) ∧
      (endsInThrees cs = true →
        read? named literal = some (cs.dropLast ++ ['\\'], '"' :: after)) := by
  intro literal
  have hread : read? named literal = some (readBack cs after) := by
    simp only [literal, List.append_assoc]
    rw [read?_quotes, inside_escape named clean after]
  rw [hread, readBack]
  cases endsInThrees cs <;> simp

/-- A text of three quotes is not read back. -/
theorem reads_back_iff_for_triple :
    read? (fun _ => none) (quotes ++ escape quotes ++ quotes ++ ['\n']) =
      some (['"', '"', '\\'], ['"', '\n']) := by
  have clean : ∀ c ∈ quotes, c.toNat ≠ 0 ∧ c ≠ '\r' := by simp [quotes]
  exact (reads_back_iff (fun _ => none) clean ['\n']).2 rfl

end ApiSmith.Docstring
