import Mathlib.Data.List.Nodup
import Mathlib.Data.List.Perm.Subperm
import Mathlib.Data.Nat.Find
import ApiSmith.Proofs.Grouping

/-!
# Names of methods

In a group every operation gets a method name of its own (`groups_name_methods`). The first operation
of a name keeps it, and any other one gets the name with the first number from two on that is not
taken. The search for the number ends because numbers make different names and only so many names are
taken (`freshName_eq`).

A name is taken if some operation of the group has it from the start, so a new name is never one that
an operation further on would keep. This is what makes names distinct: in `distinguish`, whatever comes
out was either not met so far or not taken so far (`new_of_distinguish`).
-/

namespace ApiSmith

theorem Number.intString_natCast_injective :
    Function.Injective fun n : Nat => Number.intString n := by
  intro m n h
  have hdigits : Nat.toDigits 10 m = Nat.toDigits 10 n := String.ofList_injective h
  have hread (k : Nat) : Nat.ofDigitChars 10 (Nat.toDigits 10 k) 0 = k :=
    Nat.ofDigitChars_toDigits (by decide) (by decide)
  rw [← hread m, hdigits, hread]

namespace Group

/-! ## The search for a number -/

def withNumber (name : String) (n : Nat) : String := name ++ Number.intString n

theorem withNumber_injective (name : String) : Function.Injective (withNumber name) :=
  fun _ _ h => Number.intString_natCast_injective ((String.append_right_inj name).mp h)

/-- A number is the first one from another on that makes a new name. -/
structure IsFirstNew (taken : List String) (name : String) (start n : Nat) : Prop where
  start_le : start ≤ n
  new : withNumber name n ∉ taken
  before : ∀ m, start ≤ m → m < n → withNumber name m ∈ taken

/-- The search stops at the first new name, if there is one among the numbers it has left. -/
theorem numbered_eq {taken : List String} {name : String} {start n : Nat}
    (h : IsFirstNew taken name start n) {k : Nat} (hk : n ≤ start + k) :
    numbered taken name k start = withNumber name n := by
  induction k generalizing start with
  | zero =>
    obtain rfl : n = start := Nat.le_antisymm hk h.start_le
    rfl
  | succ k ih =>
    rw [numbered]
    by_cases hn : start = n
    · subst hn
      rw [if_neg]
      · rfl
      · simpa [withNumber] using h.new
    · have hlt : start < n := Nat.lt_of_le_of_ne h.start_le hn
      have htaken : taken.contains (name ++ Number.intString start) = true := by
        rw [List.contains_iff_mem]
        exact h.before start (Nat.le_refl _) hlt
      rw [if_pos htaken]
      exact ih ⟨hlt, h.new, fun m hm => h.before m (Nat.le_of_succ_le hm)⟩ (by omega)

theorem exists_new (taken : List String) (name : String) (start : Nat) :
    ∃ n, start ≤ n ∧ n ≤ start + taken.length ∧ withNumber name n ∉ taken := by
  by_contra hnone
  have hall : ∀ n, start ≤ n → n ≤ start + taken.length → withNumber name n ∈ taken :=
    fun n hstart hend => by_contra fun hnew => hnone ⟨n, hstart, hend, hnew⟩
  let candidates := (List.range' start (taken.length + 1)).map (withNumber name)
  have hdistinct : candidates.Nodup :=
    (List.nodup_range' ..).map (withNumber_injective name)
  have htaken : candidates ⊆ taken := by
    intro candidate hcandidate
    obtain ⟨n, hn, rfl⟩ := List.mem_map.mp hcandidate
    rw [List.mem_range'_1] at hn
    exact hall n hn.1 (by omega)
  have hlength := (List.subperm_of_subset hdistinct htaken).length_le
  simp only [candidates, List.length_map, List.length_range'] at hlength
  omega

theorem freshName_eq (taken : List String) (name : String) :
    ∃ n, IsFirstNew taken name 2 n ∧ freshName taken name = withNumber name n := by
  obtain ⟨n, hstart, hend, hnew⟩ := exists_new taken name 2
  have hexists : ∃ m, 2 ≤ m ∧ withNumber name m ∉ taken := ⟨n, hstart, hnew⟩
  classical
  have hfirst : IsFirstNew taken name 2 (Nat.find hexists) := by
    refine ⟨(Nat.find_spec hexists).1, (Nat.find_spec hexists).2, fun m hm hlt => ?_⟩
    exact by_contra fun hm' => Nat.find_min hexists hlt ⟨hm, hm'⟩
  refine ⟨_, hfirst, numbered_eq hfirst ?_⟩
  exact Nat.le_trans (Nat.find_min' hexists ⟨hstart, hnew⟩) hend

theorem freshName_not_mem (taken : List String) (name : String) : freshName taken name ∉ taken := by
  obtain ⟨n, hfirst, heq⟩ := freshName_eq taken name
  rw [heq]
  exact hfirst.new

/-! ## Distinct names -/

def methodNames (ops : List Operation) : List String := ops.map (·.methodName)

theorem new_of_distinguish (taken seen : List String) {ops : List Operation} (hseen : seen ⊆ taken)
    (hops : methodNames ops ⊆ taken) :
    (methodNames (distinguish taken seen ops)).Nodup ∧
      ∀ name ∈ methodNames (distinguish taken seen ops),
        name ∉ seen ∧ (name ∈ methodNames ops ∨ name ∉ taken) := by
  induction ops generalizing taken seen with
  | nil => simp [distinguish, methodNames]
  | cons op rest ih =>
    obtain ⟨hop, hrest⟩ := List.cons_subset.mp hops
    unfold distinguish
    split
    · -- the fresh name is taken from here on, so no later one is the same
      have hfresh := freshName_not_mem taken op.methodName
      obtain ⟨hnodup, hnew⟩ := ih (freshName taken op.methodName :: taken) seen
        (fun _ h => List.mem_cons_of_mem _ (hseen h)) fun _ h => List.mem_cons_of_mem _ (hrest h)
      refine ⟨List.nodup_cons.mpr ⟨fun hmem => ?_, hnodup⟩, fun name hname => ?_⟩
      · rcases (hnew _ hmem).2 with hlater | huntaken
        · exact hfresh (hrest hlater)
        · exact huntaken List.mem_cons_self
      · rcases List.mem_cons.mp hname with rfl | hname
        · exact ⟨fun h => hfresh (hseen h), .inr hfresh⟩
        · obtain ⟨hunseen, hcase⟩ := hnew name hname
          refine ⟨hunseen, hcase.imp (List.mem_cons_of_mem _) fun huntaken htaken => ?_⟩
          exact huntaken (List.mem_cons_of_mem _ htaken)
    · next hunseen =>
      rw [List.contains_iff_mem] at hunseen
      obtain ⟨hnodup, hnew⟩ := ih taken (op.methodName :: seen)
        (List.cons_subset.mpr ⟨hop, hseen⟩) hrest
      refine ⟨List.nodup_cons.mpr ⟨fun hmem => ?_, hnodup⟩, fun name hname => ?_⟩
      · exact (hnew _ hmem).1 List.mem_cons_self
      · rcases List.mem_cons.mp hname with rfl | hname
        · exact ⟨hunseen, .inl List.mem_cons_self⟩
        · obtain ⟨hlater, hcase⟩ := hnew name hname
          exact ⟨fun h => hlater (List.mem_cons_of_mem _ h), hcase.imp_left (List.mem_cons_of_mem _)⟩

theorem distinguish_of_new {taken seen : List String} {ops : List Operation} {i : Nat} {op : Operation}
    (hop : ops[i]? = some op) (hseen : op.methodName ∉ seen)
    (hearlier : op.methodName ∉ methodNames (ops.take i)) :
    (distinguish taken seen ops)[i]? = some op := by
  induction ops generalizing taken seen i with
  | nil => cases hop
  | cons first rest ih =>
    unfold distinguish
    cases i with
    | zero =>
      cases hop
      rw [if_neg (by simpa using hseen)]
      rfl
    | succ i =>
      simp only [methodNames, List.take_succ_cons, List.map_cons, List.mem_cons, not_or] at hearlier
      split
      · exact ih hop hseen hearlier.2
      · exact ih hop (by simp [hearlier.1, hseen]) hearlier.2

/-- An operation whose name was met before gets a fresh one. What is taken then are the names taken at
the start and those given to operations before. -/
theorem distinguish_of_met (taken seen : List String) {ops : List Operation} {i : Nat} {op : Operation}
    (hop : ops[i]? = some op)
    (hmet : op.methodName ∈ seen ∨ op.methodName ∈ methodNames (ops.take i)) :
    ∃ more, more ⊆ methodNames ((distinguish taken seen ops).take i) ∧
      (distinguish taken seen ops)[i]? =
        some { op with methodName := freshName (more ++ taken) op.methodName } := by
  induction ops generalizing taken seen i with
  | nil => cases hop
  | cons first rest ih =>
    unfold distinguish
    cases i with
    | zero =>
      cases hop
      have hseen : seen.contains op.methodName = true := by simpa [methodNames] using hmet
      exact ⟨[], List.nil_subset _, by rw [if_pos hseen]; rfl⟩
    | succ i =>
      simp only [methodNames, List.take_succ_cons, List.map_cons, List.mem_cons] at hmet
      split
      · next hfirst =>
        rw [List.contains_iff_mem] at hfirst
        have hlater : op.methodName ∈ seen ∨ op.methodName ∈ methodNames (rest.take i) := by
          rcases hmet with hseen | heq | hearlier
          · exact .inl hseen
          · exact .inl (heq ▸ hfirst)
          · exact .inr hearlier
        obtain ⟨more, hmore, heq⟩ := ih (freshName taken first.methodName :: taken) seen hop hlater
        refine ⟨more ++ [freshName taken first.methodName], fun name hname => ?_, ?_⟩
        · rcases List.mem_append.mp hname with hname | hname
          · exact List.mem_cons_of_mem _ (hmore hname)
          · exact List.mem_singleton.mp hname ▸ List.mem_cons_self
        · simpa using heq
      · have hlater :
            op.methodName ∈ first.methodName :: seen ∨ op.methodName ∈ methodNames (rest.take i) := by
          rcases hmet with hseen | heq | hearlier
          · exact .inl (List.mem_cons_of_mem _ hseen)
          · exact .inl (heq ▸ List.mem_cons_self)
          · exact .inr hearlier
        obtain ⟨more, hmore, heq⟩ := ih taken (first.methodName :: seen) hop hlater
        exact ⟨more, fun name hname => List.mem_cons_of_mem _ (hmore hname), heq⟩

/-- Operations stand for those of a group, under names of their own. -/
structure NamesMethods (own named : List Operation) : Prop where
  /-- Nothing is changed but names. -/
  renamed : List.Forall₂ Renamed own named
  distinct : (methodNames named).Nodup
  /-- The first operation of a name keeps it. -/
  kept : ∀ i op, own[i]? = some op → op.methodName ∉ methodNames (own.take i) → named[i]? = some op
  /-- Any other operation gets its name with the first number from two on that makes neither a name
  of the group nor one given before. -/
  numbered : ∀ i op, own[i]? = some op → op.methodName ∈ methodNames (own.take i) →
    ∃ n, 2 ≤ n ∧ named[i]? = some { op with methodName := withNumber op.methodName n } ∧
      withNumber op.methodName n ∉ methodNames own ∧
      ∀ m, 2 ≤ m → m < n → withNumber op.methodName m ∈ methodNames own ∨
        withNumber op.methodName m ∈ methodNames (named.take i)

theorem namesMethods_distinguish (own : List Operation) :
    NamesMethods own (distinguish (methodNames own) [] own) := by
  refine ⟨distinguish_renames _ _ own,
    (new_of_distinguish _ _ (List.nil_subset _) (List.Subset.refl _)).1,
    fun i op hop hnew => distinguish_of_new hop List.not_mem_nil hnew, fun i op hop hmet => ?_⟩
  obtain ⟨more, hmore, hget⟩ := distinguish_of_met (methodNames own) [] hop (.inr hmet)
  obtain ⟨n, hfirst, hfresh⟩ := freshName_eq (more ++ methodNames own) op.methodName
  refine ⟨n, hfirst.start_le, hfresh ▸ hget, fun hown => hfirst.new (List.mem_append_right _ hown),
    fun m hm hlt => ?_⟩
  rcases List.mem_append.mp (hfirst.before m hm hlt) with hgiven | hown
  · exact .inr (hmore hgiven)
  · exact .inl hown

/-! ## Groups -/

theorem pairwise_firstOccurrences (seen xs : List String) :
    (firstOccurrences seen xs).Pairwise fun a b => xs.idxOf a < xs.idxOf b := by
  induction xs generalizing seen with
  | nil => exact .nil
  | cons x xs ih =>
    unfold firstOccurrences
    have hlater (seen : List String) (hx : x ∈ seen) :
        (firstOccurrences seen xs).Pairwise fun a b => (x :: xs).idxOf a < (x :: xs).idxOf b := by
      refine (ih seen).imp_of_mem fun {a b} ha hb hab => ?_
      have hne {c : String} (hc : c ∈ firstOccurrences seen xs) : x ≠ c := by
        rintro rfl
        exact (mem_firstOccurrences.mp hc).2 hx
      rw [List.idxOf_cons_ne _ (hne ha), List.idxOf_cons_ne _ (hne hb)]
      exact Nat.succ_lt_succ hab
    split
    · next hx =>
      exact hlater seen (List.contains_iff_mem.mp hx)
    · refine List.pairwise_cons.mpr ⟨fun b hb => ?_, hlater _ List.mem_cons_self⟩
      have hne : x ≠ b := by
        rintro rfl
        exact (mem_firstOccurrences.mp hb).2 List.mem_cons_self
      rw [List.idxOf_cons_self, List.idxOf_cons_ne _ hne]
      exact Nat.succ_pos _

/-- Operations fall into one group for each key that they have, in the order in which the keys are
first met. A group has the operations of its key, under names of their own. -/
theorem groups_name_methods (ops : List Operation) :
    ((ofOperations ops).map (·.key)).Nodup ∧
    ((ofOperations ops).map (·.key)).Pairwise
      (fun a b => (ops.map (·.groupKey)).idxOf a < (ops.map (·.groupKey)).idxOf b) ∧
    (∀ key, key ∈ (ofOperations ops).map (·.key) ↔ ∃ op ∈ ops, op.groupKey = key) ∧
    ∀ g ∈ ofOperations ops,
      NamesMethods (ops.filter fun op => op.groupKey = g.key) g.operations := by
  have hkeys : (ofOperations ops).map (·.key) = keys ops := by
    rw [ofOperations, List.map_map]
    exact List.map_id _
  rw [hkeys]
  refine ⟨nodup_keys ops, pairwise_firstOccurrences _ _, fun key => mem_keys, fun g hg => ?_⟩
  obtain ⟨key, -, rfl⟩ := List.mem_map.mp hg
  exact namesMethods_distinguish _

/-- An operation with a name for its method. -/
def itemOperation (name : String) : Operation where
  verb := "get"
  path := "/item"
  methodName := name
  groupKey := "item"
  urlTemplate := "/item"
  parameters := []
  response := .primitive .string
  summary := ""

/-- Two operations of one name, and one whose name the second of them would get. -/
def itemOperations : List Operation := ["get", "get", "get2"].map itemOperation

/-- The second operation passes over the name of the third. -/
theorem groups_name_methods_of_items :
    ((ofOperations itemOperations).map fun g => (g.key, methodNames g.operations)) =
      [("item", ["get", "get3", "get2"])] ∧
    ∀ g ∈ ofOperations itemOperations,
      NamesMethods (itemOperations.filter fun op => op.groupKey = g.key) g.operations :=
  ⟨by decide +kernel, (groups_name_methods itemOperations).2.2.2⟩

end Group

end ApiSmith
