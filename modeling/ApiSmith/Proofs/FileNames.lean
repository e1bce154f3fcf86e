import ApiSmith.Proofs.Cutting
import ApiSmith.Proofs.FilePaths
import ApiSmith.Proofs.Identifiers

/-!
# Names of files

Definitions and paths are free texts, with slashes, dots and control characters in them, and name
the files of a package. Every file but the indexes lies in the folder for models or for groups under
a name of word characters (`IsStem`), so a path leads to no other place than one below the package,
and the indexes keep their own pages (`files_stay_below`).

Making an identifier leaves word characters only, but the small form is taken before and after it,
and the small form of the dotted capital I is not a word. The first time rids the text of that
letter (`not_dotted_of_mem_lower`), and without it the small form of a word is a word
(`isWord_of_mem_lower`). The runs of the table are checked member by member.
-/

namespace ApiSmith

namespace Text

/-! ## Small forms of words -/

/-- The code point of the capital I with a dot, the only letter whose small form is two characters. -/
def dottedCapitalI : Nat := 0x130

theorem applyRuns_cases (n : Nat) (runs : List CaseRun) :
    applyRuns n runs = n ∨ ∃ r ∈ runs, r.first ≤ n ∧ n ≤ r.last ∧
      applyRuns n runs = r.image + (n - r.first) := by
  induction runs with
  | nil => exact .inl rfl
  | cons r rest ih =>
    unfold applyRuns
    split_ifs with hlow hhere
    · exact .inl rfl
    · simp only [Bool.and_eq_true, decide_eq_true_eq] at hhere
      exact .inr ⟨r, List.mem_cons_self, by omega, hhere.1, rfl⟩
    · rcases ih with hsame | ⟨s, hs, h⟩
      · exact .inl hsame
      · exact .inr ⟨s, List.mem_cons_of_mem _ hs, h⟩

/-- Whether the code points between two are inside an ascending table, if they are all alike. -/
def spanIn? (lo hi : Nat) : List (Nat × Nat) → Option Bool
  | [] => some false
  | (a, b) :: rest =>
    bif Nat.ble a lo then
      bif Nat.blt b lo then spanIn? lo hi rest
      else bif Nat.ble hi b then some true else none
    else bif Nat.blt hi a then some false else none

theorem inRanges_of_spanIn? {lo hi n : Nat} {table : List (Nat × Nat)} {inside : Bool}
    (h : spanIn? lo hi table = some inside) (hlo : lo ≤ n) (hhi : n ≤ hi) :
    inRanges n table = inside := by
  induction table with
  | nil => exact Option.some.inj h
  | cons r rest ih =>
    obtain ⟨a, b⟩ := r
    simp only [spanIn?, Bool.cond_eq_ite, Nat.ble_eq, Nat.blt_eq] at h
    rw [inRanges]
    split_ifs at h with hfirst hbehind hlast hbefore
    · rw [if_neg (by omega), if_neg (by omega), ih h]
    · rw [if_neg (by omega), if_pos (by omega), ← Option.some.inj h]
    · rw [if_pos (by omega), ← Option.some.inj h]

theorem lowerRuns_words : ∀ r ∈ lowerRuns,
    (128 ≤ r.image ∧
      spanIn? r.image (r.image + (r.last - r.first)) alphanumericRanges = some true) ∨
    spanIn? r.first r.last alphanumericRanges = some false ∨
    (r.last = r.first ∧ isWord (Char.ofNat r.image) = true) := by
  decide +kernel

theorem lowerRuns_undotted : ∀ r ∈ lowerRuns,
    r.image + (r.last - r.first) < dottedCapitalI ∨ dottedCapitalI < r.image := by
  decide +kernel

theorem toNat_ofNat_of_inRanges {n : Nat} (h : inRanges n alphanumericRanges = true) :
    (Char.ofNat n).toNat = n := by
  have htable : ∀ r ∈ alphanumericRanges, r.2 < 0xD800 ∨ 0xDFFF < r.1 ∧ r.2 < 0x110000 := by
    decide +kernel
  obtain ⟨r, hr, hlow, hhigh⟩ := exists_of_inRanges h
  have hvalid : n.isValidChar := by
    rcases htable r hr with hbelow | ⟨habove, hlast⟩
    · exact .inl (by omega)
    · exact .inr ⟨by omega, by omega⟩
  rw [Char.ofNat, dif_pos hvalid]
  rfl

theorem isWord_lowerChar {c : Char} (h : isWord c = true) : isWord (lowerChar c) = true := by
  by_cases hascii : c.toNat < 128
  · exact of_ascii (P := fun c => isWord c = true → isWord (lowerChar c) = true)
      (by decide +kernel) hascii h
  · rw [lowerChar, if_neg hascii]
    rcases applyRuns_cases c.toNat lowerRuns with hsame | ⟨r, hr, hfirst, hlast, himage⟩
    · rwa [hsame, Char.ofNat_toNat]
    · rw [isWord, if_neg hascii] at h
      rw [himage]
      rcases lowerRuns_words r hr with ⟨hhigh, hspan⟩ | hspan | ⟨hone, hword⟩
      · have hinside := inRanges_of_spanIn? hspan (Nat.le_add_right _ (c.toNat - r.first))
          (by omega)
        rw [isWord, toNat_ofNat_of_inRanges hinside, if_neg (by omega), hinside]
      · rw [inRanges_of_spanIn? hspan hfirst hlast] at h
        cases h
      · have hc : c.toNat - r.first = 0 := by omega
        rwa [hc]

theorem applyRuns_ne_dotted (n : Nat) : applyRuns n lowerRuns ≠ dottedCapitalI := by
  by_cases hdotted : n = dottedCapitalI
  · rw [hdotted]
    decide +kernel
  · rcases applyRuns_cases n lowerRuns with hsame | ⟨r, hr, hfirst, hlast, himage⟩
    · rwa [hsame]
    · rw [himage]
      have := lowerRuns_undotted r hr
      omega

theorem not_dotted_lowerChar (c : Char) : (lowerChar c).toNat ≠ dottedCapitalI := by
  by_cases hascii : c.toNat < 128
  · have := lowerChar_lt hascii
    unfold dottedCapitalI
    omega
  · rw [lowerChar, if_neg hascii, Char.ofNat]
    by_cases hvalid : (applyRuns c.toNat lowerRuns).isValidChar
    · rw [dif_pos hvalid]
      exact applyRuns_ne_dotted c.toNat
    · rw [dif_neg hvalid]
      decide

theorem mem_lowerFrom {before cs : List Char} {d : Char} (h : d ∈ lowerFrom before cs) :
    (∃ c ∈ cs, d = lowerChar c) ∨ d = Char.ofNat 0x3C2 ∨ d = Char.ofNat 0x3C3 ∨
      (∃ c ∈ cs, c.toNat = dottedCapitalI) ∧ (d = 'i' ∨ d = Char.ofNat 0x307) := by
  induction cs generalizing before with
  | nil => cases h
  | cons c rest ih =>
    rw [lowerFrom] at h
    rcases List.mem_append.mp h with h | h
    · split_ifs at h with hsigma hfinal hdotted
      · exact .inr (.inl (List.mem_singleton.mp h))
      · exact .inr (.inr (.inl (List.mem_singleton.mp h)))
      · have hc : c.toNat = dottedCapitalI := beq_iff_eq.mp hdotted
        exact .inr (.inr (.inr ⟨⟨c, List.mem_cons_self, hc⟩,
          (List.mem_cons.mp h).imp_right List.mem_singleton.mp⟩))
      · exact .inl ⟨c, List.mem_cons_self, List.mem_singleton.mp h⟩
    · rcases ih h with ⟨b, hb, hd⟩ | hfinal | hsigma | ⟨⟨b, hb, hdotted⟩, hd⟩
      · exact .inl ⟨b, List.mem_cons_of_mem _ hb, hd⟩
      · exact .inr (.inl hfinal)
      · exact .inr (.inr (.inl hsigma))
      · exact .inr (.inr (.inr ⟨⟨b, List.mem_cons_of_mem _ hb, hdotted⟩, hd⟩))

theorem not_dotted_of_mem_lower {cs : List Char} {d : Char} (h : d ∈ lower cs) :
    d.toNat ≠ dottedCapitalI := by
  rcases mem_lowerFrom h with ⟨c, -, rfl⟩ | rfl | rfl | ⟨-, rfl | rfl⟩
  · exact not_dotted_lowerChar c
  all_goals decide

theorem isWord_of_mem_lower {cs : List Char} (words : ∀ c ∈ cs, isWord c = true)
    (undotted : ∀ c ∈ cs, c.toNat ≠ dottedCapitalI) {d : Char} (h : d ∈ lower cs) :
    isWord d = true := by
  rcases mem_lowerFrom h with ⟨c, hc, rfl⟩ | rfl | rfl | ⟨⟨c, hc, hdotted⟩, -⟩
  · exact isWord_lowerChar (words c hc)
  · decide +kernel
  · decide +kernel
  · exact absurd hdotted (undotted c hc)

end Text

namespace Naming

open Text

/-! ## Stems of files -/

theorem isWord_of_mem_moduleText {cs : List Char} {d : Char} (h : d ∈ moduleText cs) :
    isWord d = true := by
  unfold moduleText at h
  simp only at h
  split_ifs at h
  · have hroot : "root".toList.all isWord = true := by decide
    exact List.all_eq_true.mp hroot d h
  · refine isWord_of_mem_lower (fun _ => isWord_of_mem_identifierText) (fun c hc => ?_) h
    rcases mem_of_mem_identifierText hc with rfl | hc
    · decide
    · exact not_dotted_of_mem_lower hc

/-- A name for a file of a page: a text of word characters, and not that of an index. -/
structure IsStem (name : String) : Prop where
  nonempty : name ≠ ""
  words : ∀ c ∈ name.toList, isWord c = true
  free : name ≠ "__init__"

theorem moduleName_ne_empty (name : String) : moduleName name ≠ "" := by
  intro h
  obtain ⟨c, rest, -, hlead | hlead⟩ := leadsOnce_moduleText name.toList
  all_goals
    rw [moduleName, hlead] at h
    simpa using congrArg String.toList h

/-- A module name, with more words behind it or without, is the stem of a file. -/
theorem isStem_moduleName_append (name : String) {ending : String}
    (words : ∀ c ∈ ending.toList, isWord c = true) : IsStem (moduleName name ++ ending) where
  nonempty := by
    rw [ne_eq, String.append_eq_empty_iff]
    exact fun h => moduleName_ne_empty name h.1
  words := by
    intro c hc
    rw [String.toList_append, moduleName, String.toList_ofList] at hc
    exact (List.mem_append.mp hc).elim isWord_of_mem_moduleText (words c)
  free := moduleName_append_ne_init name ending

theorem isStem_moduleName (name : String) : IsStem (moduleName name) := by
  have h := isStem_moduleName_append name (show ∀ c ∈ "".toList, isWord c = true by simp)
  rwa [String.append_empty] at h

end Naming

namespace Package

open Text
open Naming (IsStem)

/-! ## Places of files -/

/-- A path leads below the place it starts from: no step of it is empty or leads back, and the
characters of the steps mean nothing but themselves. -/
def StaysBelow (path : String) : Prop :=
  ∀ step ∈ fields '/' path.toList, step ≠ [] ∧ step ≠ ['.'] ∧ step ≠ ['.', '.'] ∧
    ∀ c ∈ step, isWord c = true ∨ c = '.'

instance (path : String) : Decidable (StaysBelow path) :=
  have (step : List Char) : Decidable (∀ c ∈ step, isWord c = true ∨ c = '.') :=
    List.decidableBAll _ _
  List.decidableBAll _ _

theorem fields_fileIn (folder : String) {stem : String} (h : IsStem stem) :
    fields '/' (fileIn (folder ++ "/") stem).toList =
      fields '/' folder.toList ++ [stem.toList ++ ".py".toList] := by
  have hfile : '/' ∉ stem.toList ++ ".py".toList := by
    intro hmem
    rcases List.mem_append.mp hmem with hmem | hmem
    · exact absurd (h.words '/' hmem) (by decide)
    · exact absurd hmem (by decide)
  simp only [fileIn, String.toList_append, List.append_assoc]
  rw [← fields_eq_self hfile, ← fields_append_cons]
  rfl

theorem staysBelow_fileIn {folder : String} (hfolder : folder ∈ ["models", "api"]) {stem : String}
    (h : IsStem stem) : StaysBelow (fileIn (folder ++ "/") stem) := by
  have hfolders : ∀ folder ∈ ["models", "api"], StaysBelow folder := by decide +kernel
  intro step hstep
  rw [fields_fileIn folder h] at hstep
  rcases List.mem_append.mp hstep with hstep | hstep
  · exact hfolders folder hfolder step hstep
  · rw [List.mem_singleton.mp hstep]
    have hlong : ∀ short : List Char, short.length ≤ 2 → stem.toList ++ ".py".toList ≠ short := by
      rintro short hshort rfl
      rw [List.length_append] at hshort
      have hend : ".py".toList.length = 3 := by decide
      omega
    refine ⟨hlong [] (by decide), hlong ['.'] (by decide), hlong ['.', '.'] (by decide),
      fun c hc => ?_⟩
    rcases List.mem_append.mp hc with hc | hc
    · exact .inl (h.words c hc)
    · have hend : (".py".toList.all fun c => isWord c || c == '.') = true := by decide
      simpa using List.all_eq_true.mp hend c hc

/-! ## Files that stay -/

theorem prefix_setFile {fs gs : List (String × String)} {path : String} (text : String)
    (h : fs <+: gs) (own : path ∉ pathsOf fs) : fs <+: setFile path text gs := by
  induction fs generalizing gs with
  | nil => exact List.nil_prefix
  | cons f fs ih =>
    obtain ⟨more, rfl⟩ := h
    rw [pathsOf_cons, List.mem_cons, not_or] at own
    obtain ⟨q, t⟩ := f
    rw [List.cons_append, setFile, if_neg fun he => own.1 he.symm]
    exact (List.cons_prefix_cons).mpr ⟨rfl, ih (List.prefix_append fs more) own.2⟩

theorem prefix_setAll {fs gs pages : List (String × String)} (h : fs <+: gs)
    (own : ∀ path ∈ pathsOf pages, path ∉ pathsOf fs) : fs <+: setAll gs pages := by
  induction pages generalizing gs with
  | nil => exact h
  | cons f pages ih =>
    rw [setAll_cons]
    exact ih (prefix_setFile f.2 h (own f.1 List.mem_cons_self))
      fun path hpath => own path (List.mem_cons_of_mem _ hpath)

section

variable {p : Profile} {doc : Document} {pkg : Package} (h : (build p doc).result = .ok pkg)
include h

theorem isStem_of_mem_modelModules {stem : String} (hstem : stem ∈ modelModules pkg) :
    IsStem stem := by
  rw [modelModules_of_build h] at hstem
  obtain ⟨page, -, rfl⟩ := List.mem_map.mp hstem
  exact Naming.isStem_moduleName page.name

theorem isStem_of_mem_groupModules {stem : String} (hstem : stem ∈ groupModules pkg) :
    IsStem stem := by
  obtain ⟨page, hpage, rfl⟩ := List.mem_map.mp hstem
  obtain ⟨g, -, hg⟩ := exists_of_mem_mapM (build_assembled h).groups hpage
  obtain ⟨ending, -, hmodule⟩ := module_of_groupPage hg
  have hunder : "_".toList.all isWord = true := by decide
  rw [hmodule, String.append_assoc]
  refine Naming.isStem_moduleName_append page.key fun c hc => ?_
  rw [String.toList_append] at hc
  rcases List.mem_append.mp hc with hc | hc
  · exact List.all_eq_true.mp hunder c hc
  · rw [Naming.moduleName, String.toList_ofList] at hc
    exact Naming.isWord_of_mem_moduleText hc

theorem mem_pathsOf_files {path : String} (hpath : path ∈ pathsOf pkg.files) :
    path ∈ indexPaths ∨ ∃ folder ∈ ["models", "api"], ∃ stem, IsStem stem ∧
      path = fileIn (folder ++ "/") stem := by
  have hnil : (pathsOf []).Nodup := List.nodup_nil
  rcases ((pathsOf_setAll hnil pkg.pages).2 path).mp hpath with hpath | hpath
  · cases hpath
  · rw [pathsOf_pages] at hpath
    rcases List.mem_append.mp hpath with hindex | hpath
    · exact .inl hindex
    · rcases List.mem_append.mp hpath with hpath | hpath
      · obtain ⟨stem, hstem, rfl⟩ := List.mem_map.mp hpath
        exact .inr ⟨"models", by decide, stem, isStem_of_mem_modelModules h hstem, rfl⟩
      · obtain ⟨stem, hstem, rfl⟩ := List.mem_map.mp hpath
        exact .inr ⟨"api", by decide, stem, isStem_of_mem_groupModules h hstem, rfl⟩

theorem index_prefix_files : pkg.pages.take 3 <+: pkg.files := by
  obtain ⟨hm, hg⟩ := init_not_mem_modules h
  have hpages : pathsOf (pkg.pages.drop 3) = (modelModules pkg).map (fileIn "models/") ++
      (groupModules pkg).map (fileIn "api/") := by
    rw [pathsOf, List.map_drop, ← pathsOf, pathsOf_pages]
    rfl
  have hkept : setAll [] (pkg.pages.take 3) = pkg.pages.take 3 :=
    setAll_of_nodup [] (show indexPaths.Nodup by decide)
  have hfiles : pkg.files = setAll (setAll [] (pkg.pages.take 3)) (pkg.pages.drop 3) := by
    rw [setAll, setAll, ← List.foldl_append, List.take_append_drop]
    rfl
  rw [hfiles, hkept]
  refine prefix_setAll (List.prefix_refl _) fun path hpath hindex => ?_
  rw [hpages] at hpath
  exact disjoint_indexPaths hm hg hindex hpath

/-- Whatever a document calls its definitions and paths, and whatever the groups end with, the files
of the package are the indexes and files named by words in the folders for models and for groups.
All of them lie below the package, no path has two files, and no page takes the place of an
index. -/
theorem files_stay_below :
    (∀ path ∈ pathsOf pkg.files, path ∈ indexPaths ∨ ∃ folder ∈ ["models", "api"], ∃ stem,
      IsStem stem ∧ path = fileIn (folder ++ "/") stem) ∧
    (∀ path ∈ pathsOf pkg.files, StaysBelow path) ∧
    (pathsOf pkg.files).Nodup ∧ pkg.pages.take 3 <+: pkg.files := by
  refine ⟨fun path => mem_pathsOf_files h, fun path hpath => ?_,
    (pathsOf_setAll (show (pathsOf []).Nodup from List.nodup_nil) _).1, index_prefix_files h⟩
  have hindex : ∀ path ∈ indexPaths, StaysBelow path := by decide +kernel
  rcases mem_pathsOf_files h hpath with hpath | ⟨folder, hfolder, stem, hstem, rfl⟩
  · exact hindex path hpath
  · exact staysBelow_fileIn hfolder hstem

end

/-- Names that lead elsewhere, the name of an index, and one that is a capital I with a dot. -/
def strayDocument : Document where
  definitions := [(.text "../../etc/passwd", .map []), (.text "__init__", .map []),
    (.text "a\\b\x00\n", .map []), (.text "\u0130", .map [])]
  distinct := by decide +kernel
  paths := [(.text "/../x", [("get", answeringText)]),
    (.text "/\\..\\y", [("get", answeringText)])]
  parameters := []
  title := .text "Bank"
  version := "1"

def strayProfile : Profile := { Profile.common with groupEnd := .text "/../Api" }

theorem files_stay_below_of_stray : ∃ pkg,
    (build strayProfile strayDocument).result = .ok pkg ∧
    pathsOf pkg.files = indexPaths ++ ["models/etc_passwd.py", "models/init.py", "models/a_b.py",
      "models/i.py", "api/root_api.py", "api/y_api.py"] ∧
    (∀ path ∈ pathsOf pkg.files, StaysBelow path) ∧ pkg.pages.take 3 <+: pkg.files := by
  have hpaths : (build strayProfile strayDocument).result.toOption.map
      (fun pkg => pathsOf pkg.files) = some (indexPaths ++ ["models/etc_passwd.py",
        "models/init.py", "models/a_b.py", "models/i.py", "api/root_api.py", "api/y_api.py"]) := by
    decide +kernel
  cases hbuild : (build strayProfile strayDocument).result with
  | error e =>
    rw [hbuild] at hpaths
    cases hpaths
  | ok pkg =>
    rw [hbuild] at hpaths
    obtain ⟨-, hbelow, -, hindex⟩ := files_stay_below hbuild
    exact ⟨pkg, rfl, Option.some.inj hpaths, hbelow, hindex⟩

end Package

end ApiSmith
