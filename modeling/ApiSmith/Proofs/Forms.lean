import ApiSmith.Proofs.Cutting
import ApiSmith.Proofs.Logged
import ApiSmith.Proofs.Octets
import ApiSmith.Text.Percent

/-!
# Forms that are written and read

What is written as a form is read as the same pairs in the same order (`read?_formPairs`), whatever
the texts are: empty ones, blanks, and the signs that the form itself uses.

Only unreserved characters stand for themselves, and everything else is an escape, so a written side
of a pair holds neither an ampersand nor an equals sign (`form_chars`), and the signs that are there
were put in between. Each side is read on its own: octets from escapes, and the text from octets.
-/

namespace ApiSmith.Text

open Number

namespace Percent

/-! ## Escapes -/

theorem capital_hexDigit : ∀ d < 16, isUnreserved (hexDigit d).toUpper = true ∧
    hexValue? (hexDigit d).toUpper = some d := by
  decide

theorem escape_eq (b : UInt8) : escape b =
    ['%', (hexDigit (b.toNat / 16 % 16)).toUpper, (hexDigit (b.toNat % 16)).toUpper] := rfl

theorem decode_escape (b : UInt8) (rest : List Char) :
    decode (escape b ++ rest) = b :: decode rest := by
  have hhigh := (capital_hexDigit _ (Nat.mod_lt (b.toNat / 16) (by decide))).2
  have hlow := (capital_hexDigit _ (Nat.mod_lt b.toNat (by decide))).2
  have hvalue : 16 * (b.toNat / 16 % 16) + b.toNat % 16 = b.toNat := by
    have := b.toNat_lt
    omega
  rw [escape_eq, List.cons_append, List.cons_append, List.singleton_append, decode, hhigh, hlow]
  simp only [hvalue, UInt8.ofNat_toNat]

theorem decode_cons {c : Char} (h : c ≠ '%') (rest : List Char) :
    decode (c :: rest) = UInt8.ofNat c.toNat :: decode rest := by
  rw [decode]
  exact fun a b more hc _ => h hc

section

variable {safe : Char → Bool}

theorem encode_cons (b : UInt8) (rest : List UInt8) : encode safe (b :: rest) =
    (if b.toNat < 128 && safe (Char.ofNat b.toNat) then [Char.ofNat b.toNat] else escape b) ++
      encode safe rest := rfl

theorem decode_encode (percent : safe '%' = false) (octets : List UInt8) :
    decode (encode safe octets) = octets := by
  induction octets with
  | nil => rfl
  | cons b rest ih =>
    rw [encode_cons]
    split
    · next hsafe =>
      obtain ⟨hascii, hsafe⟩ := Bool.and_eq_true_iff.mp hsafe
      have hne : Char.ofNat b.toNat ≠ '%' := by
        intro he
        rw [he, percent] at hsafe
        cases hsafe
      have hvalid : b.toNat.isValidChar := .inl (by have := of_decide_eq_true hascii; omega)
      have hown : (Char.ofNat b.toNat).toNat = b.toNat := by
        rw [Char.ofNat, dif_pos hvalid]
        rfl
      rw [List.singleton_append, decode_cons hne, ih, hown, UInt8.ofNat_toNat]
    · rw [decode_escape, ih]

theorem mem_encode {octets : List UInt8} {c : Char} (h : c ∈ encode safe octets) :
    safe c = true ∨ c = '%' ∨ isUnreserved c = true := by
  obtain ⟨b, -, hc⟩ := List.mem_flatMap.mp h
  simp only at hc
  split at hc
  · next hsafe =>
    rw [List.mem_singleton.mp hc]
    exact .inl (Bool.and_eq_true_iff.mp hsafe).2
  · rw [escape_eq] at hc
    rcases List.mem_cons.mp hc with rfl | hc
    · exact .inr (.inl rfl)
    · rcases List.mem_cons.mp hc with rfl | hc
      · exact .inr (.inr (capital_hexDigit _ (Nat.mod_lt _ (by decide))).1)
      · rw [List.mem_singleton.mp hc]
        exact .inr (.inr (capital_hexDigit _ (Nat.mod_lt _ (by decide))).1)

end

/-! ## Sides of a pair -/

theorem form_chars {s : String} {c : Char} (h : c ∈ form s) :
    isUnreserved c = true ∨ c = '%' ∨ c = '+' := by
  obtain ⟨d, hd, rfl⟩ := List.mem_map.mp h
  split
  · exact .inr (.inr rfl)
  · next hblank =>
    rcases mem_encode hd with hsafe | rfl | hunreserved
    · rcases Bool.or_eq_true_iff.mp hsafe with hunreserved | hd
      · exact .inl hunreserved
      · exact absurd hd hblank
    · exact .inr (.inl rfl)
    · exact .inl hunreserved

theorem not_mem_form {c : Char} (h : c ∈ ['&', '=', '#', '?']) (s : String) : c ∉ form s := by
  have hsign : isUnreserved c = false ∧ c ≠ '%' ∧ c ≠ '+' := by
    simp only [List.mem_cons, List.not_mem_nil, or_false] at h
    rcases h with rfl | rfl | rfl | rfl <;> decide
  obtain ⟨hreserved, hpercent, hplus⟩ := hsign
  intro hc
  rcases form_chars hc with hunreserved | hc | hc
  · rw [hreserved] at hunreserved
    cases hunreserved
  · exact hpercent hc
  · exact hplus hc

end Percent

namespace Form

open Percent

theorem side?_form (s : String) : side? (form s) = some s := by
  have hblanks : (form s).map (fun c => if c == '+' then ' ' else c) =
      Percent.encode (fun c => isUnreserved c || c == ' ') (utf8Octets s) := by
    rw [form, List.map_map]
    refine (List.map_congr_left fun c hc => ?_).trans (List.map_id _)
    have hplus : c ≠ '+' := by
      rintro rfl
      rcases mem_encode hc with h | h | h <;> exact absurd h (by decide)
    by_cases hblank : c = ' '
    · rw [hblank]
      rfl
    · simp [hblank, hplus]
  rw [side?, hblanks, decode_encode (by decide), utf8Text?_utf8Octets, Option.map_some,
    String.ofList_toList]

/-! ## Pairs -/

def pairText (p : String × String) : List Char := form p.1 ++ '=' :: form p.2

theorem pair?_pairText (p : String × String) : pair? (pairText p) = some p := by
  have hcut : cutAtChar '=' (pairText p) = (form p.1, some (form p.2)) :=
    cutAtChar_eq_some.mpr ⟨rfl, not_mem_form (by decide) p.1⟩
  rw [pair?, hcut]
  simp [side?_form]

theorem not_mem_pairText {c : Char} (h : c ∈ ['&', '#', '?']) (p : String × String) :
    c ∉ pairText p := by
  have hsign : c ∈ ['&', '=', '#', '?'] ∧ c ≠ '=' := by
    simp only [List.mem_cons, List.not_mem_nil, or_false] at h
    rcases h with rfl | rfl | rfl <;> decide
  obtain ⟨hsign, hequals⟩ := hsign
  rw [pairText, List.mem_append, List.mem_cons, not_or, not_or]
  exact ⟨not_mem_form hsign p.1, hequals, not_mem_form hsign p.2⟩

theorem flatten_intersperse (sep : List Char) (parts : List (List Char)) :
    (parts.intersperse sep).flatten = join sep parts := by
  induction parts with
  | nil => rfl
  | cons part rest ih =>
    cases rest with
    | nil => simp [join]
    | cons next rest =>
      rw [List.intersperse_cons_cons, List.flatten_cons, List.flatten_cons, ih, ← List.append_assoc]
      rfl

theorem formPairs_eq (pairs : List (String × String)) :
    formPairs pairs = join ['&'] (pairs.map pairText) := flatten_intersperse _ _

/-- Pairs that were written are read in the same order, none lost, merged or split. -/
theorem read?_formPairs (pairs : List (String × String)) : read? (formPairs pairs) = some pairs := by
  cases pairs with
  | nil => rfl
  | cons p rest =>
    have hparts : fields '&' (formPairs (p :: rest)) = (p :: rest).map pairText := by
      rw [formPairs_eq]
      refine fields_join (by simp) fun part hpart => ?_
      obtain ⟨q, -, rfl⟩ := List.mem_map.mp hpart
      exact not_mem_pairText (by decide) q
    have hkept : ∀ part ∈ (p :: rest).map pairText, (!part.isEmpty) = true := by
      intro part hpart
      obtain ⟨q, -, rfl⟩ := List.mem_map.mp hpart
      simp [pairText]
    rw [read?, hparts, List.filter_eq_self.mpr hkept, mapM_eq_some_iff, List.forall₂_map_left_iff]
    exact List.forall₂_same.mpr fun q _ => pair?_pairText q

theorem not_mem_formPairs {c : Char} (h : c ∈ ['#', '?']) (pairs : List (String × String)) :
    c ∉ formPairs pairs := by
  have hsign : c ∈ ['&', '#', '?'] ∧ c ∉ ['&'] := by
    simp only [List.mem_cons, List.not_mem_nil, or_false] at h
    rcases h with rfl | rfl <;> decide
  obtain ⟨hsign, hamp⟩ := hsign
  rw [formPairs_eq]
  refine not_mem_join hamp fun part hpart => ?_
  obtain ⟨q, -, rfl⟩ := List.mem_map.mp hpart
  exact not_mem_pairText hsign q

end Form

end ApiSmith.Text
