import Mathlib.Data.List.Dedup
import ApiSmith.Package.Files
import ApiSmith.Proofs.Assembly
import ApiSmith.Proofs.ModuleNames

/-!
# Paths of files

A package has a file for every path of its pages (`length_files`). The three indexes have paths of
their own, but two definitions have one path if their names come to one module name, and so have two
groups; the page that comes later then takes the file. `files_eq_pages_iff` says exactly when that
does not happen, and `files_lose_pages` shows a document where it does.
-/

namespace ApiSmith.Package

/-! ## Setting files -/

def pathsOf (fs : List (String × String)) : List String := fs.map (·.1)

@[simp] theorem pathsOf_nil : pathsOf [] = [] := rfl

@[simp] theorem pathsOf_cons (f : String × String) (fs : List (String × String)) :
    pathsOf (f :: fs) = f.1 :: pathsOf fs := rfl

@[simp] theorem pathsOf_append (fs gs : List (String × String)) :
    pathsOf (fs ++ gs) = pathsOf fs ++ pathsOf gs := List.map_append

theorem pathsOf_setFile (path text : String) (fs : List (String × String)) :
    pathsOf (setFile path text fs) =
      if path ∈ pathsOf fs then pathsOf fs else pathsOf fs ++ [path] := by
  induction fs with
  | nil => rfl
  | cons f rest ih =>
    obtain ⟨q, t⟩ := f
    unfold setFile
    by_cases hq : q = path
    · simp [hq]
    · have hne : path ≠ q := fun he => hq he.symm
      by_cases hmem : path ∈ pathsOf rest
      · simp [hq, ih, hmem]
      · simp [hq, hne, ih, hmem]

theorem setFile_of_new {path text : String} {fs : List (String × String)}
    (h : path ∉ pathsOf fs) : setFile path text fs = fs ++ [(path, text)] := by
  induction fs with
  | nil => rfl
  | cons f rest ih =>
    obtain ⟨q, t⟩ := f
    rw [pathsOf_cons, List.mem_cons, not_or] at h
    unfold setFile
    rw [if_neg fun he => h.1 he.symm, ih h.2]
    rfl

def setAll (fs pages : List (String × String)) : List (String × String) :=
  pages.foldl (fun fs f => setFile f.1 f.2 fs) fs

theorem setAll_cons (fs : List (String × String)) (f : String × String)
    (pages : List (String × String)) :
    setAll fs (f :: pages) = setAll (setFile f.1 f.2 fs) pages := rfl

theorem pathsOf_setAll {fs : List (String × String)} (h : (pathsOf fs).Nodup)
    (pages : List (String × String)) :
    (pathsOf (setAll fs pages)).Nodup ∧
      ∀ path, path ∈ pathsOf (setAll fs pages) ↔ path ∈ pathsOf fs ∨ path ∈ pathsOf pages := by
  induction pages generalizing fs with
  | nil => exact ⟨h, by simp [setAll]⟩
  | cons f pages ih =>
    rw [setAll_cons]
    have hset := pathsOf_setFile f.1 f.2 fs
    by_cases hold : f.1 ∈ pathsOf fs
    · rw [if_pos hold] at hset
      obtain ⟨hnodup, hmem⟩ := ih (hset.symm ▸ h)
      refine ⟨hnodup, fun path => ?_⟩
      rw [hmem, hset, pathsOf_cons, List.mem_cons]
      constructor
      · rintro (hfs | hpages)
        · exact .inl hfs
        · exact .inr (.inr hpages)
      · rintro (hfs | rfl | hpages)
        · exact .inl hfs
        · exact .inl hold
        · exact .inr hpages
    · rw [if_neg hold] at hset
      have hnew : (pathsOf (setFile f.1 f.2 fs)).Nodup := by
        rw [hset]
        exact List.nodup_append_comm.mp (List.nodup_cons.mpr ⟨hold, h⟩)
      obtain ⟨hnodup, hmem⟩ := ih hnew
      refine ⟨hnodup, fun path => ?_⟩
      rw [hmem, hset, pathsOf_cons, List.mem_append, List.mem_singleton, List.mem_cons, or_assoc]

/-- Pages with paths of their own all become files. -/
theorem setAll_of_nodup (fs : List (String × String)) {pages : List (String × String)}
    (h : (pathsOf (fs ++ pages)).Nodup) :
    setAll fs pages = fs ++ pages := by
  induction pages generalizing fs with
  | nil => simp [setAll]
  | cons f pages ih =>
    have hnew : f.1 ∉ pathsOf fs := by
      intro hold
      rw [pathsOf_append, List.nodup_append] at h
      exact h.2.2 f.1 hold f.1 (by simp) rfl
    rw [setAll_cons, setFile_of_new hnew, ih _ (by simpa using h)]
    simp

theorem length_setAll (pages : List (String × String)) :
    (setAll [] pages).length = (pathsOf pages).dedup.length := by
  obtain ⟨hnodup, hmem⟩ := pathsOf_setAll (show (pathsOf []).Nodup from List.nodup_nil) pages
  have hperm : (pathsOf (setAll [] pages)).Perm (pathsOf pages).dedup := by
    rw [List.perm_ext_iff_of_nodup hnodup (List.nodup_dedup _)]
    intro path
    rw [hmem, List.mem_dedup]
    simp
  rw [← hperm.length_eq, pathsOf, List.length_map]

/-! ## Paths of pages -/

def fileIn (folder module : String) : String := folder ++ module ++ ".py"

theorem fileIn_injective (folder : String) : Function.Injective (fileIn folder) := by
  intro a b h
  have := congrArg String.toList h
  simp only [fileIn, String.toList_append, List.append_cancel_right_eq,
    List.append_cancel_left_eq] at this
  exact String.toList_inj.mp this

theorem models_ne_api (a b : String) : fileIn "models/" a ≠ fileIn "api/" b := by
  intro h
  have := congrArg (fun s => s.toList.head?) h
  simp [fileIn] at this

def indexPaths : List String := ["__init__.py", fileIn "models/" "__init__", fileIn "api/" "__init__"]

def modelModules (pkg : Package) : List String := pkg.models.map (·.place.module)

def groupModules (pkg : Package) : List String := pkg.groups.map (·.place.module)

theorem pathsOf_pages (pkg : Package) : pathsOf pkg.pages =
    indexPaths ++ ((modelModules pkg).map (fileIn "models/") ++
      (groupModules pkg).map (fileIn "api/")) := by
  simp only [pages, pathsOf_append, pathsOf_cons, pathsOf_nil, List.append_assoc]
  simp only [pathsOf, modelModules, groupModules, List.map_map]
  rfl

theorem disjoint_indexPaths {models groups : List String} (hm : "__init__" ∉ models)
    (hg : "__init__" ∉ groups) : List.Disjoint indexPaths
      (models.map (fileIn "models/") ++ groups.map (fileIn "api/")) := by
  intro path hpi hp
  rcases List.mem_append.mp hp with hp | hp
  · obtain ⟨a, ha, rfl⟩ := List.mem_map.mp hp
    simp only [indexPaths, List.mem_cons, List.not_mem_nil, or_false] at hpi
    rcases hpi with h | h | h
    · have := congrArg (fun s => s.toList.head?) h
      simp [fileIn] at this
    · exact hm (fileIn_injective _ h ▸ ha)
    · exact models_ne_api _ _ h
  · obtain ⟨a, ha, rfl⟩ := List.mem_map.mp hp
    simp only [indexPaths, List.mem_cons, List.not_mem_nil, or_false] at hpi
    rcases hpi with h | h | h
    · have := congrArg (fun s => s.toList.head?) h
      simp [fileIn] at this
    · exact models_ne_api _ _ h.symm
    · exact hg (fileIn_injective _ h ▸ ha)

theorem dedup_paths {models groups : List String} (hm : "__init__" ∉ models)
    (hg : "__init__" ∉ groups) :
    (indexPaths ++ (models.map (fileIn "models/") ++ groups.map (fileIn "api/"))).dedup =
      indexPaths ++ (models.dedup.map (fileIn "models/") ++ groups.dedup.map (fileIn "api/")) := by
  have hpages : List.Disjoint (models.map (fileIn "models/")) (groups.map (fileIn "api/")) := by
    intro path hpm hpg
    obtain ⟨a, -, rfl⟩ := List.mem_map.mp hpm
    obtain ⟨b, -, hb⟩ := List.mem_map.mp hpg
    exact models_ne_api a b hb.symm
  have hnodup : indexPaths.Nodup := by decide
  rw [(disjoint_indexPaths hm hg).dedup_append, hpages.dedup_append, hnodup.dedup,
    List.dedup_map_of_injective (fileIn_injective _),
    List.dedup_map_of_injective (fileIn_injective _)]

theorem length_files {pkg : Package} (hm : "__init__" ∉ modelModules pkg)
    (hg : "__init__" ∉ groupModules pkg) :
    pkg.files.length =
      3 + (modelModules pkg).dedup.length + (groupModules pkg).dedup.length := by
  have hfiles : pkg.files = setAll [] pkg.pages := rfl
  rw [hfiles, length_setAll, pathsOf_pages, dedup_paths hm hg]
  simp only [List.length_append, List.length_map]
  rw [Nat.add_assoc]
  rfl

theorem length_dedup_eq_iff {xs : List String} : xs.dedup.length = xs.length ↔ xs.Nodup := by
  rw [← List.dedup_eq_self]
  constructor
  · exact (List.dedup_sublist xs).eq_of_length
  · exact congrArg List.length

/-! ## Modules of a built package -/

theorem module_of_modelPage {p : Profile} {m : Model} {page : ModelPage}
    (h : ModelPage.of? p m = some page) : page.place.module = Naming.moduleName page.name := by
  simp only [ModelPage.of?, Option.pure_def, Option.bind_eq_bind, Option.bind_eq_some_iff,
    Option.some.injEq] at h
  obtain ⟨_, -, _, -, _, -, _, -, _, -, rfl⟩ := h
  rfl

theorem module_of_groupPage {p : Profile} {g : Group} {page : GroupPage}
    (h : GroupPage.of? p g = some page) : ∃ ending, p.groupEnd = .text ending ∧
      page.place.module = Naming.moduleName page.key ++ "_" ++ Naming.moduleName ending := by
  simp only [GroupPage.of?, Option.pure_def, Option.bind_eq_bind, Option.bind_eq_some_iff,
    Option.some.injEq] at h
  obtain ⟨ending, hending, _, -, _, -, _, -, rfl⟩ := h
  exact ⟨ending, Value.text?_eq_some.mp hending, rfl⟩

theorem modelModules_of_build {p : Profile} {doc : Document} {pkg : Package}
    (h : (build p doc).result = .ok pkg) :
    modelModules pkg = pkg.models.map fun m => Naming.moduleName m.name := by
  refine List.map_congr_left fun page hpage => ?_
  obtain ⟨m, -, hm⟩ := exists_of_mem_mapM (build_assembled h).models hpage
  exact module_of_modelPage hm

theorem groupModules_of_build {p : Profile} {doc : Document} {pkg : Package}
    (h : (build p doc).result = .ok pkg) : ∃ ending,
      groupModules pkg = pkg.groups.map fun g => Naming.moduleName g.key ++ ending := by
  have hpage : ∀ page ∈ pkg.groups, ∃ ending, p.groupEnd = .text ending ∧
      page.place.module = Naming.moduleName page.key ++ "_" ++ Naming.moduleName ending := by
    intro page hpage
    obtain ⟨g, -, hg⟩ := exists_of_mem_mapM (build_assembled h).groups hpage
    exact module_of_groupPage hg
  refine ⟨"_" ++ Naming.moduleName (p.groupEnd.text?.getD ""),
    List.map_congr_left fun page hmem => ?_⟩
  obtain ⟨ending, hending, hmodule⟩ := hpage page hmem
  rw [hmodule, hending, String.append_assoc]
  rfl

theorem nodup_modelModules_iff {p : Profile} {doc : Document} {pkg : Package}
    (h : (build p doc).result = .ok pkg) : (modelModules pkg).Nodup ↔
      (pkg.models.map fun m => Naming.moduleName m.name).Nodup := by
  rw [modelModules_of_build h]

theorem nodup_groupModules_iff {p : Profile} {doc : Document} {pkg : Package}
    (h : (build p doc).result = .ok pkg) : (groupModules pkg).Nodup ↔
      (pkg.groups.map fun g => Naming.moduleName g.key).Nodup := by
  obtain ⟨ending, hmodules⟩ := groupModules_of_build h
  have hinj : Function.Injective fun name : String => name ++ ending :=
    fun _ _ hab => (String.append_left_inj ending).mp hab
  have hmap : (pkg.groups.map fun g => Naming.moduleName g.key ++ ending) =
      (pkg.groups.map fun g => Naming.moduleName g.key).map fun name => name ++ ending := by
    rw [List.map_map, Function.comp_def]
  rw [hmodules, hmap, List.nodup_map_iff hinj]

theorem init_not_mem_modules {p : Profile} {doc : Document} {pkg : Package}
    (h : (build p doc).result = .ok pkg) :
    "__init__" ∉ modelModules pkg ∧ "__init__" ∉ groupModules pkg := by
  obtain ⟨ending, hmodules⟩ := groupModules_of_build h
  rw [modelModules_of_build h, hmodules]
  constructor
  · intro hmem
    obtain ⟨m, -, hm⟩ := List.mem_map.mp hmem
    refine Naming.moduleName_append_ne_init m.name "" ?_
    rw [String.append_empty, hm]
  · intro hmem
    obtain ⟨g, -, hg⟩ := List.mem_map.mp hmem
    exact Naming.moduleName_append_ne_init g.key ending hg

/-- The names of the models come to different modules, and so do the keys of the groups. -/
def HasDistinctModules (pkg : Package) : Prop :=
  (pkg.models.map fun m => Naming.moduleName m.name).Nodup ∧
    (pkg.groups.map fun g => Naming.moduleName g.key).Nodup

/-- A built package has as many files as pages, and has all of its pages as files, exactly if no two
definitions and no two group keys come to one module name. Otherwise later pages take the files of
earlier ones. -/
theorem files_eq_pages_iff {p : Profile} {doc : Document} {pkg : Package}
    (h : (build p doc).result = .ok pkg) :
    (pkg.files.length = 3 + pkg.models.length + pkg.groups.length ↔ HasDistinctModules pkg) ∧
      (pkg.files = pkg.pages ↔ HasDistinctModules pkg) := by
  obtain ⟨hm, hg⟩ := init_not_mem_modules h
  have hlength := length_files hm hg
  have hmodels : (modelModules pkg).length = pkg.models.length := List.length_map _
  have hgroups : (groupModules pkg).length = pkg.groups.length := List.length_map _
  have hmodels_le := (List.dedup_sublist (modelModules pkg)).length_le
  have hgroups_le := (List.dedup_sublist (groupModules pkg)).length_le
  have hcount : pkg.files.length = 3 + pkg.models.length + pkg.groups.length ↔
      HasDistinctModules pkg := by
    unfold HasDistinctModules
    rw [← nodup_modelModules_iff h, ← nodup_groupModules_iff h, ← length_dedup_eq_iff,
      ← length_dedup_eq_iff]
    omega
  refine ⟨hcount, fun heq => hcount.mp ?_, fun hdistinct => ?_⟩
  · rw [heq]
    simp only [pages, List.length_append, List.length_map]
    rfl
  · refine setAll_of_nodup [] ?_
    rw [List.nil_append, ← List.dedup_eq_self]
    refine (List.dedup_sublist _).eq_of_length ?_
    rw [← length_setAll]
    have hpages : pkg.pages.length = 3 + pkg.models.length + pkg.groups.length := by
      simp only [pages, List.length_append, List.length_map]
      rfl
    rw [pathsOf, List.length_map, hpages]
    exact hcount.mpr hdistinct

def answeringText : Value :=
  .map [(.text "responses",
    .map [(.text "200", .map [(.text "schema", .map [(.text "type", .text "string")])])])]

/-- Two definitions, and two groups, whose names differ in a capital only. -/
def clashDocument : Document where
  definitions := [(.text "User", .map []), (.text "user", .map [])]
  distinct := by decide +kernel
  paths := [(.text "/card/list", [("get", answeringText)]),
    (.text "/Card/list", [("get", answeringText)])]
  parameters := []
  title := .text "Bank"
  version := "1"

/-- Seven pages, five files: a model and a group are lost. -/
theorem files_lose_pages : ∃ pkg, (build .common clashDocument).result = .ok pkg ∧
    pkg.files.length = 5 ∧ 3 + pkg.models.length + pkg.groups.length = 7 ∧
    (pkg.files.length = 3 + pkg.models.length + pkg.groups.length ↔ HasDistinctModules pkg) ∧
    (pkg.files = pkg.pages ↔ HasDistinctModules pkg) := by
  have hcounts : (build .common clashDocument).result.toOption.map
      (fun pkg => (pkg.files.length, 3 + pkg.models.length + pkg.groups.length)) = some (5, 7) := by
    decide +kernel
  cases hbuild : (build .common clashDocument).result with
  | error e =>
    rw [hbuild] at hcounts
    cases hcounts
  | ok pkg =>
    rw [hbuild] at hcounts
    obtain ⟨hfiles, hpages⟩ := Prod.mk.inj (Option.some.inj hcounts)
    exact ⟨pkg, rfl, hfiles, hpages, files_eq_pages_iff hbuild⟩

end ApiSmith.Package
