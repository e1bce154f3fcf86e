import ApiSmith.Package.Page
import ApiSmith.Proofs.Logged

/-!
# Operations in groups

Grouping loses no operation and doubles none: every operation is in the group of its key and in no
other, in order (`shows_of_pages`). Making method names distinct changes nothing but names
(`distinguish_renames`), so what is said of the pages of a group can be said of its operations.
-/

namespace ApiSmith

/-! ## First occurrences -/

theorem mem_firstOccurrences {seen xs : List String} {x : String} :
    x ∈ firstOccurrences seen xs ↔ x ∈ xs ∧ x ∉ seen := by
  induction xs generalizing seen with
  | nil => simp [firstOccurrences]
  | cons y ys ih =>
    unfold firstOccurrences
    by_cases hy : seen.contains y = true
    · rw [if_pos hy, ih]
      rw [List.contains_iff_mem] at hy
      constructor
      · rintro ⟨hx, hseen⟩
        exact ⟨List.mem_cons_of_mem _ hx, hseen⟩
      · rintro ⟨hx, hseen⟩
        rcases List.mem_cons.mp hx with rfl | hx
        · exact absurd hy hseen
        · exact ⟨hx, hseen⟩
    · rw [if_neg hy, List.mem_cons, ih]
      rw [List.contains_iff_mem] at hy
      by_cases hxy : x = y
      · subst hxy
        simp [hy]
      · simp [hxy]

theorem nodup_firstOccurrences (seen xs : List String) : (firstOccurrences seen xs).Nodup := by
  induction xs generalizing seen with
  | nil => exact List.nodup_nil
  | cons y ys ih =>
    unfold firstOccurrences
    split
    · exact ih seen
    · refine List.nodup_cons.mpr ⟨fun h => ?_, ih _⟩
      exact (mem_firstOccurrences.mp h).2 List.mem_cons_self

namespace Group

theorem mem_keys {ops : List Operation} {key : String} :
    key ∈ keys ops ↔ ∃ op ∈ ops, op.groupKey = key := by
  simp [keys, mem_firstOccurrences]

theorem nodup_keys (ops : List Operation) : (keys ops).Nodup := nodup_firstOccurrences _ _

/-! ## Method names -/

/-- The same operation but for the name of its method. -/
def Renamed (op other : Operation) : Prop := ∃ name, other = { op with methodName := name }

theorem distinguish_renames (taken seen : List String) (ops : List Operation) :
    List.Forall₂ Renamed ops (distinguish taken seen ops) := by
  induction ops generalizing taken seen with
  | nil => exact .nil
  | cons op rest ih =>
    unfold distinguish
    split
    · exact .cons ⟨_, rfl⟩ (ih _ _)
    · exact .cons ⟨op.methodName, rfl⟩ (ih _ _)

end Group

/-! ## Pages -/

def MethodPart.IsOf (p : Profile) (op : Operation) (m : MethodPart) : Prop :=
  ∃ name, MethodPart.of? p { op with methodName := name } = some m

/-- Pages of groups show operations: each one on the page of its key, in order, and on no other
page. -/
structure GroupPage.Show (p : Profile) (pages : List GroupPage) (ops : List Operation) : Prop where
  /-- There is one page for a key. -/
  distinct : (pages.map (·.key)).Nodup
  /-- There is a page for the key of every operation. -/
  covered : ∀ op ∈ ops, ∃ g ∈ pages, g.key = op.groupKey
  /-- A page has the operations of its key. -/
  methods : ∀ g ∈ pages,
    List.Forall₂ (MethodPart.IsOf p) (ops.filter fun op => op.groupKey = g.key) g.methods

theorem GroupPage.of?_eq_some {p : Profile} {g : Group} {page : GroupPage}
    (h : GroupPage.of? p g = some page) :
    page.key = g.key ∧ g.operations.mapM (MethodPart.of? p) = some page.methods := by
  simp only [GroupPage.of?, Option.pure_def, Option.bind_eq_bind, Option.bind_eq_some_iff,
    Option.some.injEq] at h
  obtain ⟨_, -, _, -, methods, hmethods, _, -, rfl⟩ := h
  exact ⟨rfl, hmethods⟩

theorem forall₂_of_renamed {p : Profile} {ops renamed : List Operation} {ms : List MethodPart}
    (hr : List.Forall₂ Group.Renamed ops renamed) (hm : renamed.mapM (MethodPart.of? p) = some ms) :
    List.Forall₂ (MethodPart.IsOf p) ops ms := by
  rw [mapM_eq_some_iff] at hm
  induction hr generalizing ms with
  | nil =>
    cases hm
    exact .nil
  | cons h _ ih =>
    cases hm with
    | cons hm hrest =>
      obtain ⟨name, rfl⟩ := h
      exact .cons ⟨name, hm⟩ (ih hrest)

theorem shows_of_pages {p : Profile} {ops : List Operation} {pages : List GroupPage}
    (h : (Group.ofOperations ops).mapM (GroupPage.of? p) = some pages) :
    GroupPage.Show p pages ops := by
  have hkeys : pages.map (·.key) = Group.keys ops := by
    rw [map_eq_of_mapM h fun g page hg => (GroupPage.of?_eq_some hg).1, Group.ofOperations,
      List.map_map]
    exact List.map_id _
  refine ⟨hkeys ▸ Group.nodup_keys ops, fun op hop => ?_, fun page hpage => ?_⟩
  · have : op.groupKey ∈ pages.map (·.key) := hkeys ▸ Group.mem_keys.mpr ⟨op, hop, rfl⟩
    exact List.mem_map.mp this
  · obtain ⟨g, hg, hof⟩ := exists_of_mem_mapM h hpage
    obtain ⟨key, -, rfl⟩ := List.mem_map.mp hg
    obtain ⟨hkey, hmethods⟩ := GroupPage.of?_eq_some hof
    rw [hkey]
    exact forall₂_of_renamed (Group.distinguish_renames _ _ _) hmethods

end ApiSmith
