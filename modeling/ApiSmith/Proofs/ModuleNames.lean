import Mathlib.Data.List.DropRight
import ApiSmith.Naming

/-!
# Names of modules

A module name is never empty and starts with at most one underscore, which something else follows
(`LeadsOnce`), so it is not the name of an index module. Trimming an identifier takes the leading
underscores away, a digit puts one back, and lower case leaves underscores where they are: no other
character has an underscore as its small form (`lowerChar_ne_underscore`).
-/

namespace ApiSmith

namespace Text

theorem applyRuns_gt {runs : List CaseRun} (images : ∀ r ∈ runs, 95 < r.image) {n : Nat}
    (h : 95 < n) : 95 < applyRuns n runs := by
  induction runs with
  | nil => exact h
  | cons r rest ih =>
    have := images r List.mem_cons_self
    unfold applyRuns
    split_ifs
    · exact h
    · omega
    · exact ih fun r' hr' => images r' (List.mem_cons_of_mem _ hr')

theorem lowerRuns_gt : ∀ r ∈ lowerRuns, 95 < r.image := by
  decide +kernel

theorem ofNat_ne {n : Nat} {c : Char} (h : n ≠ c.toNat) (nul : c.toNat ≠ 0) : Char.ofNat n ≠ c := by
  rintro rfl
  by_cases valid : n.isValidChar
  · rw [Char.ofNat, dif_pos valid] at h
    exact h rfl
  · rw [Char.ofNat, dif_neg valid] at nul
    exact nul rfl

theorem lowerChar_ne_underscore {c : Char} (h : c ≠ '_') : lowerChar c ≠ '_' := by
  unfold lowerChar
  split_ifs with hascii hupper
  · refine ofNat_ne (show _ ≠ 95 from ?_) (by decide)
    simp only [isAsciiUpper, Bool.and_eq_true, decide_eq_true_eq] at hupper
    omega
  · exact h
  · refine ofNat_ne (show _ ≠ 95 from ?_) (by decide)
    have := applyRuns_gt lowerRuns_gt (n := c.toNat) (by omega)
    omega

/-- A text that starts with at most one underscore, which does not end it. -/
def LeadsOnce (cs : List Char) : Prop :=
  ∃ c rest, c ≠ '_' ∧ (cs = c :: rest ∨ cs = '_' :: c :: rest)

theorem LeadsOnce.append {cs : List Char} (h : LeadsOnce cs) (more : List Char) :
    LeadsOnce (cs ++ more) := by
  obtain ⟨c, rest, hc, rfl | rfl⟩ := h
  · exact ⟨c, rest ++ more, hc, .inl rfl⟩
  · exact ⟨c, rest ++ more, hc, .inr rfl⟩

theorem LeadsOnce.ne_init {cs : List Char} (h : LeadsOnce cs) : cs ≠ "__init__".toList := by
  obtain ⟨c, rest, hc, rfl | rfl⟩ := h
  · intro he
    exact hc (List.cons.inj he).1
  · intro he
    exact hc (List.cons.inj (List.cons.inj he).2).1

theorem lowerFrom_cons {c : Char} (h : c ≠ '_') (before rest : List Char) :
    ∃ d more, d ≠ '_' ∧ lowerFrom before (c :: rest) = d :: more := by
  unfold lowerFrom
  by_cases hsigma : (c.toNat == 0x3A3) = true
  · simp only [hsigma, if_true]
    refine ⟨_, _, ?_, rfl⟩
    split_ifs <;> decide
  · by_cases hdotted : (c.toNat == 0x130) = true
    · simp only [hsigma, hdotted, if_true]
      exact ⟨'i', _, by decide, rfl⟩
    · simp only [hsigma, hdotted]
      exact ⟨lowerChar c, _, lowerChar_ne_underscore h, rfl⟩

theorem LeadsOnce.lower {cs : List Char} (h : LeadsOnce cs) : LeadsOnce (lower cs) := by
  obtain ⟨c, rest, hc, rfl | rfl⟩ := h
  · obtain ⟨d, more, hd, he⟩ := lowerFrom_cons hc [] rest
    exact ⟨d, more, hd, .inl he⟩
  · obtain ⟨d, more, hd, he⟩ := lowerFrom_cons hc ['_'] rest
    have hunder : lowerFrom [] ('_' :: c :: rest) = '_' :: lowerFrom ['_'] (c :: rest) := rfl
    exact ⟨d, more, hd, .inr (hunder.trans (congrArg _ he))⟩

theorem trimBy_eq (p : Char → Bool) (cs : List Char) :
    trimBy p cs = (cs.dropWhile p).rdropWhile p := rfl

theorem not_of_trimBy_eq_cons {p : Char → Bool} {cs rest : List Char} {c : Char}
    (h : trimBy p cs = c :: rest) : p c = false := by
  obtain ⟨tail, htail⟩ := List.rdropWhile_prefix p (cs.dropWhile p)
  rw [← trimBy_eq, h] at htail
  have := List.head?_dropWhile_not p cs
  rw [← htail] at this
  exact this

end Text

namespace Naming

open Text

theorem leadsOnce_identifierText {cs : List Char} (h : identifierText cs ≠ []) :
    LeadsOnce (identifierText cs) := by
  unfold identifierText at h ⊢
  generalize hname : trimBy (· == '_') (joinWords false (trim cs)) = name at h ⊢
  cases name with
  | nil => simp at h
  | cons c rest =>
    have hc : c ≠ '_' := by simpa using not_of_trimBy_eq_cons hname
    simp only
    split_ifs
    · exact ⟨c, rest, hc, .inr rfl⟩
    · exact ⟨c, rest, hc, .inl rfl⟩

theorem leadsOnce_moduleText (cs : List Char) : LeadsOnce (moduleText cs) := by
  unfold moduleText
  simp only
  split_ifs with hempty
  · exact ⟨'r', "oot".toList, by decide, .inl rfl⟩
  · refine (leadsOnce_identifierText fun h => hempty ?_).lower
    rw [h]
    rfl

/-- A module is not an index module, whatever is put behind its name. -/
theorem moduleName_append_ne_init (name ending : String) : moduleName name ++ ending ≠ "__init__" := by
  intro h
  refine ((leadsOnce_moduleText name.toList).append ending.toList).ne_init ?_
  have := congrArg String.toList h
  rwa [String.toList_append, moduleName, String.toList_ofList] at this

end Naming

end ApiSmith
