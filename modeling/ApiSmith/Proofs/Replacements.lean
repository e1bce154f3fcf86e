import ApiSmith.Proofs.Identifiers
import ApiSmith.Text.Lines
import ApiSmith.Text.Replacement

/-!
# Replacements and line ends

Replacing a text without line ends takes no line end away, and it puts one in exactly if the text is
found and its template writes one (`holdsBreak_replaceAlike`). What is found has no line end, as a
line end is alike to nothing but a line end (`endsLine_of_alike`).
-/

namespace ApiSmith

namespace Text

/-! ## Line ends and case -/

theorem lowerChar_of_endsLine {c : Char} (h : endsLine c = true) : lowerChar c = c := by
  rcases endsLine_iff.mp h with rfl | rfl <;> rfl

theorem endsLine_of_lowerChar {c : Char} (h : endsLine (lowerChar c) = true) :
    endsLine c = true := by
  by_cases ascii : c.toNat < 128
  · exact of_ascii (P := fun c => endsLine (lowerChar c) = true → endsLine c = true)
      (by decide +kernel) ascii h
  · have hlarge : 95 < applyRuns c.toNat lowerRuns := applyRuns_gt lowerRuns_gt (by omega)
    rw [lowerChar, if_neg ascii] at h
    rcases endsLine_iff.mp h with hend | hend
    · exact absurd hend (ofNat_ne (by show _ ≠ 10; omega) (by decide))
    · exact absurd hend (ofNat_ne (by show _ ≠ 13; omega) (by decide))

theorem spellings_not_endsLine : ∀ e ∈ spellings, ∀ n ∈ e.2, n ≠ 10 ∧ n ≠ 13 := by
  decide

theorem endsLine_of_alike {a c : Char} (h : alike a c = true) (ends : endsLine c = true) :
    endsLine a = true := by
  rw [alike, lowerChar_of_endsLine ends, Bool.or_eq_true, beq_iff_eq] at h
  rcases h with hsame | hspelling
  · refine endsLine_of_lowerChar ?_
    rwa [← Char.ofNat_toNat (lowerChar a), ← hsame, Char.ofNat_toNat]
  · split at hspelling
    · next e he =>
      obtain ⟨hfeed, hreturn⟩ := spellings_not_endsLine e (List.mem_of_find?_eq_some he) _
        (List.contains_iff_mem.mp hspelling)
      rcases endsLine_iff.mp ends with rfl | rfl
      · exact absurd rfl hfeed
      · exact absurd rfl hreturn
    · cases hspelling

/-! ## Occurrences -/

theorem exists_of_startsAlike {pattern cs : List Char} (h : startsAlike pattern cs = true) :
    ∃ a b, cs = a ++ b ∧ a.length = pattern.length ∧ (HoldsBreak a → HoldsBreak pattern) := by
  induction pattern generalizing cs with
  | nil => exact ⟨[], cs, rfl, rfl, id⟩
  | cons first rest ih =>
    cases cs with
    | nil => cases h
    | cons c cs =>
      obtain ⟨hfirst, hrest⟩ := Bool.and_eq_true_iff.mp h
      obtain ⟨a, b, rfl, hlength, hbreak⟩ := ih hrest
      refine ⟨c :: a, b, rfl, congrArg Nat.succ hlength, ?_⟩
      rw [holdsBreak_cons, holdsBreak_cons]
      exact Or.imp (endsLine_of_alike hfirst) hbreak

/-- A text in which a pattern is found, without regard to case. -/
def Finds (pattern cs : List Char) : Prop := ∃ a b, cs = a ++ b ∧ startsAlike pattern b = true

theorem finds_cons {pattern cs : List Char} {c : Char} :
    Finds pattern (c :: cs) ↔ startsAlike pattern (c :: cs) = true ∨ Finds pattern cs := by
  constructor
  · rintro ⟨a, b, hcs, hstarts⟩
    cases a with
    | nil => exact .inl (hcs ▸ hstarts)
    | cons _ a => exact .inr ⟨a, b, (List.cons.inj hcs).2, hstarts⟩
  · rintro (hstarts | ⟨a, b, rfl, hstarts⟩)
    · exact ⟨[], c :: cs, rfl, hstarts⟩
    · exact ⟨c :: a, b, rfl, hstarts⟩

def WritesBreak (parts : List TemplatePart) : Prop := ∃ c, .char c ∈ parts ∧ endsLine c = true

theorem holdsBreak_fillTemplate {parts : List TemplatePart} {found : List Char}
    (inside : ¬ HoldsBreak found) : HoldsBreak (fillTemplate parts found) ↔ WritesBreak parts := by
  constructor
  · rintro ⟨c, hc, ends⟩
    obtain ⟨part, hpart, hc⟩ := List.mem_flatMap.mp hc
    cases part with
    | char d =>
      cases List.mem_singleton.mp hc
      exact ⟨c, hpart, ends⟩
    | found => exact absurd ⟨c, hc, ends⟩ inside
  · rintro ⟨c, hpart, ends⟩
    exact ⟨c, List.mem_flatMap.mpr ⟨_, hpart, List.mem_singleton_self c⟩, ends⟩

theorem replaceAlikeFrom_length (pattern : List Char) (parts : List TemplatePart)
    (cs rest : List Char) :
    replaceAlikeFrom pattern parts cs.length (cs ++ rest) =
      replaceAlikeFrom pattern parts 0 rest := by
  induction cs with
  | nil => cases rest <;> rfl
  | cons c cs ih => exact ih

theorem replaceAlikeFrom_append {pattern a b : List Char} (ne : pattern ≠ [])
    (starts : startsAlike pattern (a ++ b) = true) (length : a.length = pattern.length)
    (parts : List TemplatePart) :
    replaceAlikeFrom pattern parts 0 (a ++ b) =
      fillTemplate parts a ++ replaceAlikeFrom pattern parts 0 b := by
  cases a with
  | nil => exact absurd (List.length_eq_zero_iff.mp length.symm) ne
  | cons c a =>
    have hrest : pattern.length - 1 = a.length := by
      rw [← length, List.length_cons, Nat.add_sub_cancel]
    have htake : (c :: (a ++ b)).take pattern.length = c :: a := by
      rw [← length]
      exact List.take_left' rfl
    rw [List.cons_append] at starts ⊢
    rw [replaceAlikeFrom, if_pos starts, htake, hrest, replaceAlikeFrom_length]

/-- Replacing a pattern takes no line end away, and puts one in exactly if the pattern is found and
its replacement writes one. -/
theorem holdsBreak_replaceAlikeFrom {pattern : List Char} (ne : pattern ≠ [])
    (plain : ¬ HoldsBreak pattern) (parts : List TemplatePart) (cs : List Char) :
    HoldsBreak (replaceAlikeFrom pattern parts 0 cs) ↔
      HoldsBreak cs ∨ WritesBreak parts ∧ Finds pattern cs := by
  induction hn : cs.length using Nat.strong_induction_on generalizing cs with
  | _ n ih =>
    cases cs with
    | nil =>
      have hnone : ¬ Finds pattern [] := by
        rintro ⟨a, b, hcs, starts⟩
        obtain ⟨-, rfl⟩ := List.append_eq_nil_iff.mp hcs.symm
        obtain ⟨a, b, hnil, hlength, -⟩ := exists_of_startsAlike starts
        obtain ⟨rfl, -⟩ := List.append_eq_nil_iff.mp hnil.symm
        exact ne (List.length_eq_zero_iff.mp hlength.symm)
      simp [replaceAlikeFrom, hnone]
    | cons c rest =>
      by_cases starts : startsAlike pattern (c :: rest) = true
      · -- the occurrence `a` has no line end, so what is lost is none and `b` is shorter
        have hfinds : Finds pattern (c :: rest) := finds_cons.mpr (.inl starts)
        obtain ⟨a, b, hcs, hlength, hbreak⟩ := exists_of_startsAlike starts
        have hinside : ¬ HoldsBreak a := plain ∘ hbreak
        rw [hcs] at starts hn hfinds ⊢
        have hshorter : b.length < n := by
          have := List.length_pos_iff.mpr ne
          rw [List.length_append] at hn
          omega
        rw [replaceAlikeFrom_append ne starts hlength, holdsBreak_append, holdsBreak_append,
          holdsBreak_fillTemplate hinside, ih b.length hshorter b rfl, or_iff_right hinside,
          and_iff_left hfinds]
        constructor
        · rintro (writes | breaks | ⟨writes, -⟩)
          exacts [.inr writes, .inl breaks, .inr writes]
        · rintro (breaks | writes)
          exacts [.inr (.inl breaks), .inl writes]
      · rw [replaceAlikeFrom, if_neg starts, holdsBreak_cons, holdsBreak_cons, finds_cons,
          or_iff_right starts, ih rest.length (by rw [← hn]; exact Nat.lt_succ_self _) rest rfl,
          or_assoc]

theorem finds_nil (cs : List Char) : Finds [] cs := ⟨[], cs, rfl, rfl⟩

theorem holdsBreak_replaceAlike {pattern : List Char} (plain : ¬ HoldsBreak pattern)
    (parts : List TemplatePart) (cs : List Char) :
    HoldsBreak (replaceAlike pattern parts cs) ↔
      HoldsBreak cs ∨ WritesBreak parts ∧ Finds pattern cs := by
  cases pattern with
  | cons first rest =>
    rw [replaceAlike]
    exact holdsBreak_replaceAlikeFrom (List.cons_ne_nil _ _) plain parts cs
  | nil =>
    have hempty : replaceAlike [] parts cs =
        fillTemplate parts [] ++ cs.flatMap fun c => c :: fillTemplate parts [] := rfl
    have hfilled : HoldsBreak (fillTemplate parts []) ↔ WritesBreak parts :=
      holdsBreak_fillTemplate not_holdsBreak_nil
    have hrow : HoldsBreak (cs.flatMap fun c => c :: fillTemplate parts []) →
        HoldsBreak cs ∨ WritesBreak parts := by
      rintro ⟨c, hc, ends⟩
      obtain ⟨d, hd, hc⟩ := List.mem_flatMap.mp hc
      rcases List.mem_cons.mp hc with rfl | hc
      · exact .inl ⟨c, hd, ends⟩
      · exact .inr (hfilled.mp ⟨c, hc, ends⟩)
    have hkept : HoldsBreak cs → HoldsBreak (cs.flatMap fun c => c :: fillTemplate parts []) := by
      rintro ⟨c, hc, ends⟩
      exact ⟨c, List.mem_flatMap.mpr ⟨c, hc, List.mem_cons_self⟩, ends⟩
    rw [hempty, holdsBreak_append, hfilled, and_iff_left (finds_nil cs)]
    constructor
    · rintro (writes | breaks)
      exacts [.inr writes, hrow breaks]
    · rintro (breaks | writes)
      exacts [.inr (hkept breaks), .inl writes]

end Text

end ApiSmith
