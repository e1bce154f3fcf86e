import ApiSmith.Text.Cut
import Mathlib.Data.List.Basic
import Mathlib.Data.List.TakeWhile

/-!
# What cutting finds

Each function that cuts a text is described by the text it was cut from: `CutsAt` puts the parts
around the first occurrence of a separator, `Splits` does so again behind each occurrence, and both
leave only one way to cut (`CutsAt.unique`, `Splits.unique`). So it is enough to show a way: joined
parts without a separator in them are the pieces of the whole (`pieces_join`).

The separator may begin like a part ends. Of its characters it is enough that one is not in the
parts and is the first of its kind in the separator.
-/

namespace ApiSmith.Text

/-! ## Single characters -/

theorem afterLast?_eq_none {x : Char} {cs : List Char} : afterLast? x cs = none ↔ x ∉ cs := by
  induction cs with
  | nil => simp [afterLast?]
  | cons c rest ih =>
    rw [afterLast?, List.mem_cons, not_or, ← ih]
    cases afterLast? x rest with
    | some tail => simp
    | none =>
      by_cases h : c = x
      · simp [h]
      · simp [h, Ne.symm h]

theorem afterLast?_eq_some {x : Char} {cs tail : List Char} :
    afterLast? x cs = some tail ↔ (∃ before, cs = before ++ x :: tail) ∧ x ∉ tail := by
  induction cs with
  | nil => simp [afterLast?]
  | cons c rest ih =>
    rw [afterLast?]
    cases hrest : afterLast? x rest with
    | some found =>
      rw [hrest] at ih
      simp only [ih]
      refine and_congr_left fun hout => ⟨?_, ?_⟩
      · rintro ⟨before, rfl⟩
        exact ⟨c :: before, rfl⟩
      · rintro ⟨before, hcs⟩
        cases before with
        | nil =>
          obtain ⟨-, rfl⟩ := List.cons.inj hcs
          rw [afterLast?_eq_none.mpr hout] at hrest
          cases hrest
        | cons d before => exact ⟨before, (List.cons.inj hcs).2⟩
    | none =>
      have hout := afterLast?_eq_none.mp hrest
      simp only
      constructor
      · intro h
        split at h
        · next heq =>
          cases h
          exact ⟨⟨[], by rw [heq]; rfl⟩, hout⟩
        · cases h
      · rintro ⟨⟨before, hcs⟩, -⟩
        cases before with
        | nil =>
          obtain ⟨rfl, rfl⟩ := List.cons.inj hcs
          rw [if_pos rfl]
        | cons d before =>
          obtain ⟨-, rfl⟩ := List.cons.inj hcs
          simp at hout

theorem cutAtChar_of_not_mem {x : Char} {cs : List Char} (h : x ∉ cs) :
    cutAtChar x cs = (cs, none) := by
  have hkeep : ∀ c ∈ cs, (c != x) = true := fun c hc => by
    rw [bne_iff_ne]
    rintro rfl
    exact h hc
  rw [cutAtChar, List.takeWhile_eq_self_iff.mpr hkeep, List.dropWhile_eq_nil_iff.mpr hkeep]

theorem cutAtChar_eq_some {x : Char} {cs inside after : List Char} :
    cutAtChar x cs = (inside, some after) ↔ cs = inside ++ x :: after ∧ x ∉ inside := by
  induction cs generalizing inside with
  | nil => simp [cutAtChar]
  | cons c rest ih =>
    by_cases hc : c = x
    · subst hc
      have hcut : cutAtChar c (c :: rest) = ([], some rest) := by simp [cutAtChar]
      rw [hcut]
      constructor
      · intro h
        cases h
        exact ⟨rfl, List.not_mem_nil⟩
      · rintro ⟨hcs, hout⟩
        cases inside with
        | nil =>
          cases hcs
          rfl
        | cons d inside =>
          obtain ⟨rfl, -⟩ := List.cons.inj hcs
          exact absurd List.mem_cons_self hout
    · have hcut : cutAtChar x (c :: rest) = (c :: (cutAtChar x rest).1, (cutAtChar x rest).2) := by
        simp [cutAtChar, hc]
      rw [hcut]
      constructor
      · intro h
        obtain ⟨rfl, hafter⟩ := Prod.mk.inj h
        obtain ⟨hrest, hout⟩ := ih.mp (Prod.ext rfl hafter)
        refine ⟨congrArg (c :: ·) hrest, ?_⟩
        simpa [Ne.symm hc] using hout
      · rintro ⟨hcs, hout⟩
        cases inside with
        | nil => exact absurd (List.cons.inj hcs).1 hc
        | cons d inside =>
          obtain ⟨rfl, hrest⟩ := List.cons.inj hcs
          rw [ih.mpr ⟨hrest, fun h => hout (List.mem_cons_of_mem _ h)⟩]

/-! ## Fields -/

theorem fields_eq_self {sep : Char} {cs : List Char} (h : sep ∉ cs) : fields sep cs = [cs] := by
  induction cs with
  | nil => rfl
  | cons c rest ih =>
    have hc : ¬ c = sep := fun hc => h (hc ▸ List.mem_cons_self)
    rw [fields, if_neg hc, ih fun hrest => h (List.mem_cons_of_mem _ hrest)]

theorem fields_append {sep : Char} {as bs : List Char} {front more : List (List Char)}
    {last first : List Char} (ha : fields sep as = front ++ [last])
    (hb : fields sep bs = first :: more) :
    fields sep (as ++ bs) = front ++ (last ++ first) :: more := by
  induction as generalizing front last with
  | nil =>
    obtain ⟨rfl, rfl⟩ : front = [] ∧ last = [] := by
      cases front with
      | nil => exact ⟨rfl, (List.cons.inj ha).1.symm⟩
      | cons f front => cases front <;> cases ha
    exact hb
  | cons c rest ih =>
    rw [List.cons_append]
    rw [fields] at ha ⊢
    split at ha
    · next hc =>
      rw [if_pos hc]
      cases front with
      | nil => exact absurd (List.cons.inj ha).2 (fields_ne_nil sep rest)
      | cons f front =>
        obtain ⟨rfl, hrest⟩ := List.cons.inj ha
        rw [ih hrest, List.cons_append]
    · next hc =>
      rw [if_neg hc]
      cases hrest : fields sep rest with
      | nil => exact absurd hrest (fields_ne_nil sep rest)
      | cons f fs =>
        rw [hrest] at ha
        cases front with
        | nil =>
          obtain ⟨rfl, rfl⟩ := List.cons.inj ha
          rw [ih (show fields sep rest = [] ++ [f] from hrest)]
          rfl
        | cons g front =>
          obtain ⟨rfl, rfl⟩ := List.cons.inj ha
          rw [ih (show fields sep rest = (f :: front) ++ [last] from hrest)]
          rfl

theorem exists_fields_eq_concat (sep : Char) (cs : List Char) :
    ∃ front last, fields sep cs = front ++ [last] := by
  rcases List.eq_nil_or_concat (fields sep cs) with hnil | ⟨front, last, hlast⟩
  · exact absurd hnil (fields_ne_nil sep cs)
  · exact ⟨front, last, by rw [hlast, List.concat_eq_append]⟩

theorem fields_append_cons (sep : Char) (as bs : List Char) :
    fields sep (as ++ sep :: bs) = fields sep as ++ fields sep bs := by
  obtain ⟨front, last, hfields⟩ := exists_fields_eq_concat sep as
  have hsep : fields sep (sep :: bs) = [] :: fields sep bs := by rw [fields, if_pos rfl]
  rw [fields_append hfields hsep, hfields, List.append_nil, List.append_assoc]
  rfl

theorem fields_join {sep : Char} {parts : List (List Char)} (ne : parts ≠ [])
    (h : ∀ part ∈ parts, sep ∉ part) : fields sep (join [sep] parts) = parts := by
  induction parts with
  | nil => exact absurd rfl ne
  | cons part rest ih =>
    have hpart := fields_eq_self (h part List.mem_cons_self)
    cases rest with
    | nil => exact hpart
    | cons next rest =>
      have hrest := ih (List.cons_ne_nil next rest) fun q hq => h q (List.mem_cons_of_mem _ hq)
      rw [join, List.append_assoc, List.singleton_append, fields_append_cons, hpart, hrest]
      · rfl
      · exact List.cons_ne_nil next rest

/-! ## Separator texts -/

/-- A text is cut at the first occurrence of another. -/
structure CutsAt (sep cs before after : List Char) : Prop where
  parts : cs = before ++ sep ++ after
  first : ∀ k < before.length, ¬ sep <+: cs.drop k

theorem CutsAt.cons {sep cs before after : List Char} {c : Char} (h : CutsAt sep cs before after)
    (hc : ¬ sep <+: c :: cs) : CutsAt sep (c :: cs) (c :: before) after := by
  refine ⟨by rw [h.parts]; rfl, fun k hk => ?_⟩
  cases k with
  | zero => exact hc
  | succ k => exact h.first k (Nat.lt_of_succ_lt_succ hk)

theorem CutsAt.unique {sep cs a b a' b' : List Char} (h : CutsAt sep cs a b)
    (h' : CutsAt sep cs a' b') : a = a' ∧ b = b' := by
  have hle : ∀ {a b a' b' : List Char}, CutsAt sep cs a b → CutsAt sep cs a' b' →
      a'.length ≤ a.length := by
    intro a b a' b' h h'
    refine Nat.le_of_not_lt fun hlt => h'.first a.length hlt ?_
    rw [h.parts, List.append_assoc, List.drop_left]
    exact List.prefix_append sep b
  have hlength := Nat.le_antisymm (hle h' h) (hle h h')
  have heq := h.parts.symm.trans h'.parts
  rw [List.append_assoc, List.append_assoc] at heq
  obtain ⟨rfl, hrest⟩ := List.append_inj heq hlength
  exact ⟨rfl, List.append_cancel_left hrest⟩

theorem cutAt_eq_some {sep cs before after : List Char} :
    cutAt sep cs = some (before, after) ↔ CutsAt sep cs before after := by
  induction cs generalizing before with
  | nil =>
    constructor
    · intro h
      cases sep with
      | nil =>
        cases h
        exact ⟨rfl, by simp⟩
      | cons a sep => cases h
    · intro h
      obtain ⟨rfl, rfl, rfl⟩ : before = [] ∧ sep = [] ∧ after = [] := by
        simpa using h.parts.symm
      rfl
  | cons c rest ih =>
    -- either the separator starts here, or the first occurrence is that of the rest
    by_cases hstarts : sep <+: c :: rest
    · obtain ⟨more, hmore⟩ := hstarts
      have hcut : cutAt sep (c :: rest) = some ([], more) := by
        rw [cutAt, if_pos (List.isPrefixOf_iff_prefix.mpr ⟨more, hmore⟩), ← hmore,
          List.drop_left]
      have hcuts : CutsAt sep (c :: rest) [] more := ⟨hmore.symm, by simp⟩
      rw [hcut]
      constructor
      · intro h
        cases h
        exact hcuts
      · intro h
        obtain ⟨rfl, rfl⟩ := hcuts.unique h
        rfl
    · have hcut : cutAt sep (c :: rest) = (cutAt sep rest).map fun r => (c :: r.1, r.2) := by
        rw [cutAt, if_neg fun h => hstarts (List.isPrefixOf_iff_prefix.mp h)]
      rw [hcut]
      constructor
      · intro h
        obtain ⟨⟨early, late⟩, hcut, hr⟩ := Option.map_eq_some_iff.mp h
        cases hr
        exact (ih.mp hcut).cons hstarts
      · intro h
        cases before with
        | nil => exact absurd ⟨after, h.parts.symm⟩ hstarts
        | cons d before =>
          obtain ⟨rfl, hrest⟩ := List.cons.inj h.parts
          have hlater : CutsAt sep rest before after :=
            ⟨hrest, fun k hk => h.first (k + 1) (Nat.succ_lt_succ hk)⟩
          rw [ih.mpr hlater]
          rfl

/-- The parts of a text between the occurrences of a separator, each found from the one before. -/
inductive Splits (sep : List Char) : List Char → List (List Char) → Prop where
  | last {cs} : (∀ k, ¬ sep <+: cs.drop k) → Splits sep cs [cs]
  | more {cs part rest parts} : CutsAt sep cs part rest → Splits sep rest parts →
      Splits sep cs (part :: parts)

theorem splits_piecesFrom {sep : List Char} (hsep : sep ≠ []) (k : Nat) (cs : List Char) :
    Splits sep (cs.drop k) (piecesFrom sep k cs) := by
  fun_induction piecesFrom sep k cs with
  | case1 k =>
    rw [List.drop_nil]
    exact .last fun k => by simpa using hsep
  | case2 k c rest ih => exact ih
  | case3 c rest hstarts ih =>
    obtain ⟨more, hmore⟩ := List.isPrefixOf_iff_prefix.mp hstarts
    have hdrop : rest.drop (sep.length - 1) = more := by
      cases sep with
      | nil => exact absurd rfl hsep
      | cons a sep =>
        obtain ⟨-, rfl⟩ := List.cons.inj hmore
        exact List.drop_left
    rw [hdrop] at ih
    exact .more ⟨hmore.symm, by simp⟩ ih
  | case4 c rest hstarts hnil ih =>
    rw [hnil] at ih
    cases ih
  | case5 c rest hstarts part parts hparts ih =>
    rw [hparts] at ih
    have hc : ¬ sep <+: c :: rest := fun h => hstarts (List.isPrefixOf_iff_prefix.mpr h)
    cases ih with
    | last hnone =>
      refine .last fun k => ?_
      cases k with
      | zero => exact hc
      | succ k => exact hnone k
    | more hcut hrest => exact .more (hcut.cons hc) hrest

theorem splits_pieces {sep : List Char} (hsep : sep ≠ []) (cs : List Char) :
    Splits sep cs (pieces sep cs) := splits_piecesFrom hsep 0 cs

theorem Splits.unique {sep cs : List Char} {parts others : List (List Char)}
    (h : Splits sep cs parts) (h' : Splits sep cs others) : parts = others := by
  have hcut : ∀ {cs part rest}, CutsAt sep cs part rest → ¬ ∀ k, ¬ sep <+: cs.drop k := by
    intro cs part rest hcut hnone
    refine hnone part.length ?_
    rw [hcut.parts, List.append_assoc, List.drop_left]
    exact List.prefix_append sep rest
  induction h generalizing others with
  | last hnone =>
    cases h' with
    | last _ => rfl
    | more hcuts _ => exact absurd hnone (hcut hcuts)
  | more hcuts _ ih =>
    cases h' with
    | last hnone => exact absurd hnone (hcut hcuts)
    | more hcuts' hrest' =>
      obtain ⟨rfl, rfl⟩ := hcuts.unique hcuts'
      rw [ih hrest']

/-! ## Joined texts -/

/-- A part can be taken apart: one half ends the parts in front of it, the other begins those
behind it. -/
theorem join_append_cons (sep : List Char) (front more : List (List Char)) (head tail : List Char) :
    join sep (front ++ (head ++ tail) :: more) =
      join sep (front ++ [head]) ++ join sep (tail :: more) := by
  induction front with
  | nil =>
    cases more with
    | nil => rfl
    | cons next more => simp only [List.nil_append, join, List.append_assoc]
  | cons part front ih =>
    cases front with
    | nil =>
      rw [List.nil_append, List.nil_append] at ih
      simp only [List.cons_append, List.nil_append, join, List.append_assoc] at ih ⊢
      rw [ih]
    | cons next front =>
      simp only [List.cons_append, join, List.append_assoc] at ih ⊢
      rw [ih]

theorem mem_join_of_mem {sep : List Char} {parts : List (List Char)} {part : List Char} {c : Char}
    (hpart : part ∈ parts) (hc : c ∈ part) : c ∈ join sep parts := by
  induction parts with
  | nil => cases hpart
  | cons p rest ih =>
    cases rest with
    | nil =>
      rw [List.mem_singleton.mp hpart] at hc
      exact hc
    | cons q rest =>
      rcases List.mem_cons.mp hpart with rfl | hpart
      · exact List.mem_append_left _ (List.mem_append_left _ hc)
      · exact List.mem_append_right _ (ih hpart)

theorem not_mem_join {sep : List Char} {parts : List (List Char)} {c : Char} (hsep : c ∉ sep)
    (h : ∀ part ∈ parts, c ∉ part) : c ∉ join sep parts := by
  induction parts with
  | nil => exact List.not_mem_nil
  | cons p rest ih =>
    have hp := h p List.mem_cons_self
    cases rest with
    | nil => exact hp
    | cons q rest =>
      have hrest := ih fun part hpart => h part (List.mem_cons_of_mem _ hpart)
      simp only [join, List.mem_append, not_or]
      exact ⟨⟨hp, hsep⟩, hrest⟩

/-! ## Texts without the separator -/

section

variable {sep : List Char} {i : Nat} {b : Char} (hb : sep[i]? = some b)
include hb

theorem not_prefix_of_not_mem {cs : List Char} (h : b ∉ cs) (k : Nat) : ¬ sep <+: cs.drop k := by
  intro hprefix
  obtain ⟨more, hmore⟩ := hprefix
  have hget : (cs.drop k)[i]? = some b := by
    rw [← hmore]
    exact List.getElem?_append_left (List.getElem?_eq_some_iff.mp hb).1 ▸ hb
  exact h (List.mem_of_mem_drop (List.mem_of_getElem? hget))

/-- No occurrence of the separator starts in front of one, if one of its characters is not there and
not among those before it in the separator. -/
theorem cutsAt_of_not_mem (own : b ∉ sep.take i) {part : List Char} (h : b ∉ part)
    (rest : List Char) : CutsAt sep (part ++ sep ++ rest) part rest := by
  refine ⟨rfl, fun k hk hprefix => ?_⟩
  obtain ⟨more, hmore⟩ := hprefix
  have hi := (List.getElem?_eq_some_iff.mp hb).1
  have hget : (part ++ sep ++ rest)[k + i]? = some b := by
    rw [← List.getElem?_drop, ← hmore, List.getElem?_append_left hi, hb]
  by_cases hlt : k + i < part.length
  · rw [List.append_assoc, List.getElem?_append_left hlt] at hget
    exact h (List.mem_of_getElem? hget)
  · rw [List.append_assoc, List.getElem?_append_right (by omega),
      List.getElem?_append_left (by omega)] at hget
    refine own (List.mem_of_getElem? (i := k + i - part.length) ?_)
    rw [List.getElem?_take_of_lt (by omega), hget]

theorem cutAt_of_not_mem {cs : List Char} (h : b ∉ cs) : cutAt sep cs = none := by
  cases hcut : cutAt sep cs with
  | none => rfl
  | some r =>
    obtain ⟨before, after⟩ := r
    refine absurd ?_ (not_prefix_of_not_mem hb h before.length)
    rw [(cutAt_eq_some.mp hcut).parts, List.append_assoc, List.drop_left]
    exact List.prefix_append sep after

/-- What was joined is split into the same parts. -/
theorem pieces_join (own : b ∉ sep.take i) {parts : List (List Char)} (ne : parts ≠ [])
    (h : ∀ part ∈ parts, b ∉ part) : pieces sep (join sep parts) = parts := by
  have hsep : sep ≠ [] := by
    rintro rfl
    cases hb
  refine (splits_pieces hsep _).unique ?_
  induction parts with
  | nil => exact absurd rfl ne
  | cons part parts ih =>
    have hpart := h part List.mem_cons_self
    cases parts with
    | nil => exact .last (not_prefix_of_not_mem hb hpart)
    | cons next parts =>
      exact .more (cutsAt_of_not_mem hb own hpart _)
        (ih (by simp) fun q hq => h q (List.mem_cons_of_mem _ hq))

end

end ApiSmith.Text
