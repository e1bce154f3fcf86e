import ApiSmith.Naming
import ApiSmith.Proofs.Cutting

/-!
# Where the root of a path ends

The root of all paths is taken from the front of a path character by character, while the segments
behind it name groups and methods. A root that starts and does not end with a slash is taken at the
end of a segment, unless its own last segment goes on in the path (`EndsInside`): then the rest of
that segment is left as the first one, and the path is grouped by a piece
(`taken_at_boundary_iff`). Methods are named by whole segments in any case.

The argument is one look at the four ways a root and a path can meet (`root_meets`), with the
segments behind the root for each of them.
-/

namespace ApiSmith.Naming

open ApiSmith.Text

variable {root path : List Char}

/-- The root stops in the middle of a segment: both go through the same segments, and where the
last one of the root ends, the one of the path goes on. -/
def EndsInside (root path : List Char) : Prop :=
  ∃ front head tail more, fields '/' root = front ++ [head] ∧
    fields '/' path = front ++ (head ++ tail) :: more ∧ head ≠ [] ∧ tail ≠ []

/-! ## Parts of a root -/

theorem last_ne_nil {sep : Char} {cs : List Char} {front : List (List Char)} {last : List Char}
    (nonempty : cs ≠ []) (hend : cs.getLast? ≠ some sep)
    (hfields : fields sep cs = front ++ [last]) : last ≠ [] := by
  rintro rfl
  have hcs := join_fields sep cs
  rw [hfields] at hcs
  rcases List.eq_nil_or_concat front with rfl | ⟨front, part, rfl⟩
  · exact nonempty hcs.symm
  · rw [List.concat_eq_append, List.append_assoc, List.singleton_append] at hcs
    have hparts : join [sep] (front ++ part :: [[]]) = join [sep] (front ++ [part]) ++ [sep] := by
      have := join_append_cons [sep] front [[]] part []
      rwa [List.append_nil] at this
    rw [← hcs, hparts, List.getLast?_concat] at hend
    exact hend rfl

theorem root_ne_nil (hroot : root.head? = some '/') : root ≠ [] := by
  rintro rfl
  cases hroot

section

variable (hroot : root.head? = some '/') (hend : root.getLast? ≠ some '/')
include hroot hend

/-- A root stops inside a segment if a character of that segment follows it. -/
theorem endsInside_iff : EndsInside root path ↔ ∃ c rest, c ≠ '/' ∧ path = root ++ c :: rest := by
  constructor
  · rintro ⟨front, head, tail, more, hfront, hpath, -, htail⟩
    cases tail with
    | nil => exact absurd rfl htail
    | cons c tail =>
      have hmem : head ++ c :: tail ∈ fields '/' path := by
        rw [hpath]
        exact List.mem_append_right _ List.mem_cons_self
      have hc := not_mem_of_mem_fields hmem
      refine ⟨c, join ['/'] (tail :: more), fun h => hc (by simp [h]), ?_⟩
      have hjoin := join_append_cons ['/'] front more head (c :: tail)
      rw [← hpath, ← hfront, join_fields, join_fields] at hjoin
      rw [hjoin]
      cases more <;> rfl
  · rintro ⟨c, rest, hc, rfl⟩
    obtain ⟨front, head, hfront⟩ := exists_fields_eq_concat '/' root
    obtain ⟨first, more, hrest⟩ := List.exists_cons_of_ne_nil (fields_ne_nil '/' rest)
    have hfirst : fields '/' (c :: rest) = (c :: first) :: more := by
      rw [fields, if_neg hc, hrest]
    exact ⟨front, head, c :: first, more, hfront, fields_append hfront hfirst,
      last_ne_nil (root_ne_nil hroot) hend hfront, List.cons_ne_nil c first⟩

theorem root_meets (path : List Char) :
    ¬ root <+: path ∨ path = root ∨ (∃ rest, path = root ++ '/' :: rest) ∨
      EndsInside root path := by
  by_cases hstarts : root <+: path
  · obtain ⟨rest, rfl⟩ := hstarts
    cases rest with
    | nil => exact .inr (.inl (List.append_nil root))
    | cons c rest =>
      by_cases hc : c = '/'
      · exact .inr (.inr (.inl ⟨rest, by rw [hc]⟩))
      · exact .inr (.inr (.inr ((endsInside_iff hroot hend).mpr ⟨c, rest, hc, rfl⟩)))
  · exact .inl hstarts

end

/-! ## Segments behind a root -/

theorem segments_of_apart (hapart : root = [] ∨ ¬ root <+: path)
    (hpath : path.head? = some '/') : segments root path = fields '/' path := by
  have hkept : ¬ (!root.isEmpty && root.isPrefixOf path) = true := by
    rw [Bool.and_eq_true, List.isPrefixOf_iff_prefix]
    rintro ⟨hne, h⟩
    rcases hapart with rfl | hapart
    · cases hne
    · exact hapart h
  have hhead : (path.head? == some '/') = true := by rw [hpath]; rfl
  rw [segments, if_neg hkept]
  simp only [hhead, if_true]

theorem segments_nil (hpath : path.head? = some '/') : segments [] path = fields '/' path :=
  segments_of_apart (.inl rfl) hpath

theorem segments_append (nonempty : root ≠ []) (rest : List Char) :
    segments root (root ++ rest) =
      fields '/' (if rest.head? == some '/' then rest else '/' :: rest) := by
  have htaken : (!root.isEmpty && root.isPrefixOf (root ++ rest)) = true := by
    rw [Bool.and_eq_true, List.isPrefixOf_iff_prefix]
    exact ⟨by simpa using nonempty, List.prefix_append root rest⟩
  rw [segments, if_pos htaken, List.drop_left]

theorem segments_self (nonempty : root ≠ []) : segments root root = [[], []] := by
  have h := segments_append nonempty []
  rwa [List.append_nil] at h

theorem segments_append_slash (nonempty : root ≠ []) (rest : List Char) :
    segments root (root ++ '/' :: rest) = [] :: fields '/' rest := by
  rw [segments_append nonempty, List.head?_cons, if_pos (beq_self_eq_true _), fields, if_pos rfl]

theorem segments_of_endsInside (hroot : root.head? = some '/') (hend : root.getLast? ≠ some '/')
    (h : EndsInside root path) :
    ∃ front head tail more, head ≠ [] ∧ tail ≠ [] ∧
      fields '/' path = front ++ (head ++ tail) :: more ∧
      segments root path = [] :: tail :: more := by
  have nonempty := root_ne_nil hroot
  obtain ⟨c, rest, hc, rfl⟩ := (endsInside_iff hroot hend).mp h
  obtain ⟨front, head, hfront⟩ := exists_fields_eq_concat '/' root
  obtain ⟨tail, more, hrest⟩ := List.exists_cons_of_ne_nil (fields_ne_nil '/' (c :: rest))
  refine ⟨front, head, tail, more, last_ne_nil nonempty hend hfront, ?_,
    fields_append hfront hrest, ?_⟩
  · rintro rfl
    rw [fields, if_neg hc] at hrest
    cases hfields : fields '/' rest with
    | nil => exact fields_ne_nil '/' rest hfields
    | cons first others =>
      rw [hfields] at hrest
      cases hrest
  · have hhead : ¬ ((c :: rest).head? == some '/') = true := by simpa using hc
    rw [segments_append nonempty, if_neg hhead, fields, if_pos rfl, hrest]

/-! ## What the segments name -/

section

variable (hroot : root.head? = some '/') (hend : root.getLast? ≠ some '/')
  (hpath : path.head? = some '/')
include hroot hend hpath

theorem segments_ne_of_endsInside (h : EndsInside root path) :
    segments root path ≠ segments [] path := by
  obtain ⟨front, head, tail, more, hhead, -, hparts, hsegments⟩ :=
    segments_of_endsInside hroot hend h
  rw [segments_nil hpath, hparts, hsegments]
  intro heq
  have hlength := congrArg List.length heq
  simp only [List.length_cons, List.length_append] at hlength
  obtain ⟨part, rfl⟩ : ∃ part, front = [part] := List.length_eq_one_iff.mp (by omega)
  have htail : tail = head ++ tail := (List.cons.inj (List.cons.inj heq).2).1
  have hlengths := congrArg List.length htail
  rw [List.length_append] at hlengths
  exact hhead (List.length_eq_zero_iff.mp (by omega))

theorem drop_segments_suffix : (segments root path).drop 2 <:+ segments [] path := by
  have nonempty := root_ne_nil hroot
  rw [segments_nil hpath]
  rcases root_meets hroot hend path with hapart | rfl | ⟨rest, rfl⟩ | hinside
  · rw [segments_of_apart (.inr hapart) hpath]
    exact List.drop_suffix 2 _
  · rw [segments_self nonempty]
    exact List.nil_suffix
  · rw [segments_append_slash nonempty, fields_append_cons]
    exact (List.drop_suffix 1 _).trans (List.suffix_append _ _)
  · obtain ⟨front, head, tail, more, -, -, hparts, hsegments⟩ :=
      segments_of_endsInside hroot hend hinside
    rw [hsegments, hparts]
    exact (List.suffix_cons _ more).trans (List.suffix_append front _)

theorem groupKey_of_not_endsInside (h : ¬ EndsInside root path) :
    groupKey root path = [] ∨ groupKey root path ∈ segments [] path := by
  have nonempty := root_ne_nil hroot
  have hfirst : ∀ parts : List (List Char), (parts[1]?).getD [] = [] ∨
      (parts[1]?).getD [] ∈ parts := by
    intro parts
    cases hpart : parts[1]? with
    | none => exact .inl rfl
    | some part => exact .inr (List.mem_of_getElem? hpart)
  rw [segments_nil hpath, groupKey]
  rcases root_meets hroot hend path with hapart | rfl | ⟨rest, rfl⟩ | hinside
  · rw [segments_of_apart (.inr hapart) hpath]
    exact hfirst _
  · rw [segments_self nonempty]
    exact .inl rfl
  · rw [segments_append_slash nonempty, fields_append_cons]
    obtain ⟨first, more, hrest⟩ := List.exists_cons_of_ne_nil (fields_ne_nil '/' rest)
    rw [hrest]
    exact .inr (List.mem_append_right _ List.mem_cons_self)
  · exact absurd hinside h

theorem groupKey_of_endsInside (h : EndsInside root path) :
    ∃ head, head ≠ [] ∧ groupKey root path ≠ [] ∧
      head ++ groupKey root path ∈ segments [] path := by
  obtain ⟨front, head, tail, more, hhead, htail, hparts, hsegments⟩ :=
    segments_of_endsInside hroot hend h
  rw [segments_nil hpath, hparts, groupKey, hsegments]
  exact ⟨head, hhead, htail, List.mem_append_right _ List.mem_cons_self⟩

/-- A root is taken from a path at the end of a segment exactly if it does not stop inside one. The
group key is then a whole segment or empty, else what is left of the segment. The method is named
by whole segments either way. -/
theorem taken_at_boundary_iff :
    ((segments root path ≠ segments [] path → path = root ∨ root ++ ['/'] <+: path) ↔
      ¬ EndsInside root path) ∧
    (¬ EndsInside root path →
      groupKey root path = [] ∨ groupKey root path ∈ segments [] path) ∧
    (EndsInside root path → ∃ head, head ≠ [] ∧ groupKey root path ≠ [] ∧
      head ++ groupKey root path ∈ segments [] path) ∧
    ∀ verb, ∃ parts, parts <:+ segments [] path ∧
      methodText root verb path =
        lower verb ++ (parts.filter fun s => !s.isEmpty).flatMap methodPart := by
  refine ⟨⟨fun hboundary hinside => ?_, fun houtside hdiffers => ?_⟩,
    groupKey_of_not_endsInside hroot hend hpath, groupKey_of_endsInside hroot hend hpath,
    fun verb => ⟨_, drop_segments_suffix hroot hend hpath, rfl⟩⟩
  · have hdiffers := segments_ne_of_endsInside hroot hend hpath hinside
    obtain ⟨c, rest, hc, rfl⟩ := (endsInside_iff hroot hend).mp hinside
    rcases hboundary hdiffers with hself | ⟨more, hmore⟩
    · exact List.cons_ne_nil c rest (List.append_right_eq_self.mp hself)
    · rw [List.append_assoc] at hmore
      exact hc (List.cons.inj (List.append_cancel_left hmore)).1.symm
  · rcases root_meets hroot hend path with hapart | hself | ⟨rest, rfl⟩ | hinside
    · refine absurd ?_ hdiffers
      rw [segments_of_apart (.inr hapart) hpath, segments_nil hpath]
    · exact .inl hself
    · exact .inr ⟨rest, by rw [List.append_assoc, List.singleton_append]⟩
    · exact absurd hinside houtside

end

/-- With the root `/api/v1` the path `/api/v10/card/list` is in the group `0`. -/
theorem taken_at_boundary_iff_of_versions :
    EndsInside "/api/v1".toList "/api/v10/card/list".toList ∧
    groupKey "/api/v1".toList "/api/v10/card/list".toList = "0".toList ∧
    ¬ (segments "/api/v1".toList "/api/v10/card/list".toList ≠
        segments [] "/api/v10/card/list".toList →
      "/api/v10/card/list".toList = "/api/v1".toList ∨
        "/api/v1".toList ++ ['/'] <+: "/api/v10/card/list".toList) := by
  have hinside : EndsInside "/api/v1".toList "/api/v10/card/list".toList :=
    ⟨[[], "api".toList], "v1".toList, "0".toList, ["card".toList, "list".toList], by decide,
      by decide, by decide, by decide⟩
  exact ⟨hinside, by decide, fun h =>
    (taken_at_boundary_iff (by decide) (by decide) (by decide)).1.mp h hinside⟩

end ApiSmith.Naming
