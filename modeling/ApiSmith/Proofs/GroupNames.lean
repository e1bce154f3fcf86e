import ApiSmith.Proofs.Assembly
import ApiSmith.Proofs.Cutting
import ApiSmith.Proofs.Identifiers
import ApiSmith.Proofs.MethodNames

/-!
# Names in the code of groups

The code of a group declares a class, which is named by the key of the group, and a method for each
operation, which is named by the HTTP method and the segments of the path. Whatever ASCII texts these
are, the names can be bound (`ascii_names_bindable`). A segment loses its braces, its dashes and all
other characters that are none of words, and what is left of it goes behind the HTTP method, which is
an identifier already. No reserved word starts with an HTTP method (`httpMethods_free`) or ends like a
group class, so no path and no key makes one.

Where operations of a group have one name, numbers are put behind it, and it can be bound still. So
all that the groups of a package declare can be, if the paths are ASCII (`build_groups_bindable`).
-/

namespace ApiSmith

open Text

namespace Text

/-- A name of ASCII characters that a declaration can bind. -/
structure IsAsciiName (name : String) : Prop where
  ascii : IsAscii name.toList
  bindable : IsBindable name

theorem isReserved_of_forall_ne {cs : List Char} (h : ∀ w ∈ reservedWords, w.toList ≠ cs) :
    isReserved (String.ofList cs) = false := by
  rw [isReserved, List.contains_eq_mem, decide_eq_false_iff_not]
  intro hmem
  exact h _ hmem String.toList_ofList

theorem isAsciiName_ofList {cs : List Char} (ascii : IsAscii cs) (identifier : isIdentifier cs = true)
    (free : isReserved (String.ofList cs) = false) : IsAsciiName (String.ofList cs) := by
  rw [← String.toList_ofList (l := cs)] at ascii identifier
  exact ⟨ascii, identifier, free⟩

theorem mem_of_mem_fields {sep c : Char} {cs f : List Char} (hf : f ∈ fields sep cs) (hc : c ∈ f) :
    c ∈ cs := by
  rw [← join_fields sep cs]
  exact mem_join_of_mem hf hc

end Text

/-! ## HTTP methods -/

namespace Document

/-- An HTTP method that a document keeps: some path that is read has an operation under it. -/
def Keeps (verb : String) : Prop :=
  ∃ entries ops operation, operations? entries = some ops ∧ (verb, operation) ∈ ops

theorem mem_httpMethods_of_operations {entries : List (Value × Value)}
    {ops : List (String × Value)} (h : operations? entries = some ops) :
    ∀ op ∈ ops, lowerString op.1 ∈ httpMethods := by
  induction entries generalizing ops with
  | nil =>
    cases h
    exact nofun
  | cons entry rest ih =>
    obtain ⟨key, operation⟩ := entry
    -- a key that is not a text makes the whole path unreadable
    cases key with
    | text verb =>
      obtain ⟨more, hmore, h⟩ := Option.bind_eq_some_iff.mp h
      split at h
      · next hverb =>
        cases h
        exact List.forall_mem_cons.mpr ⟨List.contains_iff_mem.mp hverb, ih hmore⟩
      · cases h
        exact ih hmore
    | _ => cases h

theorem keeps_iff {verb : String} : Keeps verb ↔ lowerString verb ∈ httpMethods := by
  constructor
  · rintro ⟨entries, ops, operation, hread, hmem⟩
    exact mem_httpMethods_of_operations hread (verb, operation) hmem
  · intro h
    refine ⟨[(.text verb, .null)], [(verb, .null)], .null, ?_, List.mem_singleton_self _⟩
    rw [operations?, operations?, Option.bind_eq_bind, Option.bind_some,
      if_pos (List.contains_iff_mem.mpr h)]
    rfl

theorem keeps_lowerString {verb : String} (h : Keeps verb) : Keeps (lowerString verb) := by
  have hall : ∀ verb ∈ httpMethods, lowerString verb ∈ httpMethods := by decide
  exact keeps_iff.mpr (hall _ (keeps_iff.mp h))

theorem keeps_of_paths {entries : List (Value × Value)} {paths : List (Value × List (String × Value))}
    (h : paths? entries = some paths) : ∀ e ∈ paths, ∀ op ∈ e.2, Keeps op.1 := by
  induction entries generalizing paths with
  | nil =>
    cases h
    exact nofun
  | cons entry rest ih =>
    obtain ⟨es, -, h⟩ := Option.bind_eq_some_iff.mp h
    obtain ⟨ops, hops, h⟩ := Option.bind_eq_some_iff.mp h
    obtain ⟨more, hmore, h⟩ := Option.bind_eq_some_iff.mp h
    cases h
    exact List.forall_mem_cons.mpr ⟨fun op hop => ⟨es, ops, op.2, hops, hop⟩, ih hmore⟩

theorem keeps_of_ofValue {v : Value} {doc : Document} (h : ofValue? v = some doc) :
    ∀ e ∈ doc.paths, ∀ op ∈ e.2, Keeps op.1 := by
  obtain ⟨spec, -, h⟩ := Option.bind_eq_some_iff.mp h
  obtain ⟨paths, hpaths, h⟩ := Option.bind_eq_some_iff.mp h
  obtain ⟨info, -, h⟩ := Option.bind_eq_some_iff.mp h
  obtain ⟨definitions, -, h⟩ := Option.bind_eq_some_iff.mp h
  obtain ⟨parameters, -, h⟩ := Option.bind_eq_some_iff.mp h
  obtain ⟨entries, -, hread⟩ := Option.bind_eq_some_iff.mp hpaths
  cases h
  exact keeps_of_paths hread

theorem httpMethods_free : ∀ verb ∈ httpMethods, IsAscii verb.toList ∧
    isIdentifier verb.toList = true ∧ ∀ w ∈ reservedWords, ¬ verb.toList <+: w.toList := by
  decide

theorem isAsciiName_of_httpMethod {verb : String} (h : verb ∈ httpMethods) {more : List Char}
    (word : IsAsciiWord more) : IsAsciiName (String.ofList (verb.toList ++ more)) := by
  obtain ⟨hascii, hidentifier, hfree⟩ := httpMethods_free verb h
  refine isAsciiName_ofList (List.forall_mem_append.mpr ⟨hascii, word.isAscii⟩)
    (isIdentifier_append hidentifier word) (isReserved_of_forall_ne fun w hw heq => ?_)
  apply hfree w hw
  rw [heq]
  exact List.prefix_append _ _

end Document

namespace Naming

/-! ## Segments -/

theorem mem_of_mem_segments {root path s : List Char} {c : Char} (hs : s ∈ segments root path)
    (hc : c ∈ s) : c ∈ path := by
  unfold segments at hs
  simp only at hs
  have hslash : c ≠ '/' := by
    rintro rfl
    exact not_mem_of_mem_fields hs hc
  have hmem := mem_of_mem_fields hs hc
  split_ifs at hmem
  · exact List.mem_of_mem_drop hmem
  · exact List.mem_of_mem_drop ((List.mem_cons.mp hmem).resolve_left hslash)
  · exact hmem
  · exact (List.mem_cons.mp hmem).resolve_left hslash

theorem isAscii_groupKey (root : List Char) {path : List Char} (h : IsAscii path) :
    IsAscii (groupKey root path) := by
  unfold groupKey
  cases hkey : (segments root path)[1]? with
  | none => exact nofun
  | some key => exact fun c hc => h c (mem_of_mem_segments (List.mem_of_getElem? hkey) hc)

theorem isAscii_unbraced {s : List Char} (h : IsAscii s) : IsAscii (unbraced s) := by
  unfold unbraced
  split
  · exact fun c hc => h c (List.mem_of_mem_drop (List.dropLast_subset _ hc))
  · exact h

theorem isAsciiWord_methodPart {s : List Char} (h : IsAscii s) : IsAsciiWord (methodPart s) := by
  refine isAsciiWord_capitalized (isAsciiWord_identifierText fun c hc => ?_)
  obtain ⟨d, hd, rfl⟩ := List.mem_map.mp hc
  split
  · decide
  · exact isAscii_unbraced h d hd

/-! ## Names of methods and classes -/

theorem isAsciiName_methodName (root : List Char) {verb path : String} (kept : Document.Keeps verb)
    (ascii : IsAscii path.toList) : IsAsciiName (methodName root verb path) := by
  have hmore : IsAsciiWord
      ((((segments root path.toList).drop 2).filter fun s => !s.isEmpty).flatMap methodPart) := by
    intro c hc
    obtain ⟨s, hs, hc⟩ := List.mem_flatMap.mp hc
    have hsegment := List.mem_of_mem_drop (List.mem_of_mem_filter hs)
    exact isAsciiWord_methodPart (fun d hd => ascii d (mem_of_mem_segments hsegment hd)) c hc
  have hname := Document.isAsciiName_of_httpMethod (Document.keeps_iff.mp kept) hmore
  rwa [lowerString, String.toList_ofList] at hname

theorem isAsciiName_groupClass {key : String} (ascii : IsAscii key.toList) :
    IsAsciiName (groupClass key "Api") := by
  have htext : groupClass key "Api" =
      String.ofList (capitalized (identifierText key.toList) ++ "Api".toList) := by
    rw [groupClass, String.ofList_append, String.ofList_toList]
  rw [htext]
  have hkey := isAsciiWord_capitalized (isAsciiWord_identifierText ascii)
  have hending : IsAsciiWord "Api".toList := by decide
  have hidentifier : isIdentifier (capitalized (identifierText key.toList) ++ "Api".toList) =
      true := by
    by_cases hempty : identifierText key.toList = []
    · -- a key without a letter or a digit leaves the ending alone
      rw [hempty]
      decide
    · refine isIdentifier_append ?_ hending
      rw [isIdentifier_capitalized (isAscii_identifierText ascii)]
      exact isIdentifier_identifierText ascii hempty
  refine isAsciiName_ofList (List.forall_mem_append.mpr ⟨hkey.isAscii, hending.isAscii⟩)
    hidentifier (isReserved_of_forall_ne fun w hw heq => ?_)
  have hother : ∀ w ∈ reservedWords, ¬ "Api".toList <:+ w.toList := by decide
  apply hother w hw
  rw [heq]
  exact List.suffix_append _ _

/-- ASCII texts make names that declarations can bind: a path and an HTTP method that of a method,
whatever root is taken from the path, and a key that of a group class. The texts that identifiers are
made to are the tidy ones. These are left as they are, and in ASCII they are empty or identifiers. -/
theorem ascii_names_bindable :
    (∀ (root : List Char) (verb path : String), Document.Keeps verb → IsAscii path.toList →
      IsAsciiName (methodName root verb path)) ∧
    (∀ key : String, IsAscii key.toList → IsAsciiName (groupClass key "Api")) ∧
    ∀ text : List Char, IsAscii text →
      identifierText (identifierText text) = identifierText text ∧
      (identifierText text = text ↔ IsTidy text) ∧
      (identifierText text = [] ∨ isIdentifier (identifierText text) = true) ∧
      ∀ c ∈ identifierText text, isWord c = true := by
  refine ⟨fun root verb path kept ascii => isAsciiName_methodName root kept ascii,
    fun key ascii => isAsciiName_groupClass ascii, fun text ascii => ?_⟩
  have htidy := isTidy_identifierText text
  refine ⟨htidy.identifierText_eq_self, identifierText_eq_self_iff, ?_, htidy.words⟩
  by_cases hempty : identifierText text = []
  · exact .inl hempty
  · exact .inr (isIdentifier_identifierText ascii hempty)

/-- A capital verb, a reserved word between braces, a digit after a brace, dots, dashes and blanks. -/
theorem ascii_names_bindable_of_files :
    Document.Keeps "Post" ∧
    IsAscii "/api/files/{class}/{1st.file-name}/-/down load.json".toList ∧
    methodName "/api".toList "Post" "/api/files/{class}/{1st.file-name}/-/down load.json" =
      "postClass_1st_file_nameDown_load_json" ∧
    IsAsciiName
      (methodName "/api".toList "Post" "/api/files/{class}/{1st.file-name}/-/down load.json") ∧
    IsAscii "{2nd key}".toList ∧ groupClass "{2nd key}" "Api" = "_2nd_keyApi" ∧
    IsAsciiName (groupClass "{2nd key}" "Api") ∧
    IsAscii " 1st--name_".toList ∧ identifierText " 1st--name_".toList = "_1st_name".toList ∧
    identifierText "_1st_name".toList = "_1st_name".toList ∧
    ¬ IsTidy " 1st--name_".toList ∧ isIdentifier "_1st_name".toList = true := by
  have kept : Document.Keeps "Post" := Document.keeps_iff.mpr (by decide)
  have path : IsAscii "/api/files/{class}/{1st.file-name}/-/down load.json".toList := by decide
  have key : IsAscii "{2nd key}".toList := by decide
  have text : IsAscii " 1st--name_".toList := by decide
  have hname : identifierText " 1st--name_".toList = "_1st_name".toList := by decide
  obtain ⟨hmethods, hclasses, htexts⟩ := ascii_names_bindable
  obtain ⟨hagain, htidy, hempty, -⟩ := htexts _ text
  rw [hname] at hagain htidy hempty
  refine ⟨kept, path, by decide, hmethods _ _ _ kept path, key, by decide, hclasses _ key, text,
    hname, hagain, fun h => ?_, hempty.resolve_left (by decide)⟩
  exact absurd (htidy.mpr h) (by decide)

end Naming

/-! ## Groups -/

namespace Group

theorem isAsciiWord_natText (n : Nat) : IsAsciiWord (Number.natText n) := by
  intro c hc
  have hdigit := Number.isAsciiDigit_of_mem_natText hc
  have hlt : c.toNat < 128 := by
    simp only [isAsciiDigit, Bool.and_eq_true, decide_eq_true_eq] at hdigit
    omega
  refine ⟨hlt, ?_⟩
  rw [isWord, if_pos hlt, hdigit, Bool.or_true, Bool.true_or]

theorem isAsciiName_withNumber {name : String} (h : IsAsciiName name) (n : Nat) :
    IsAsciiName (withNumber name n) := by
  have htext : withNumber name n = String.ofList (name.toList ++ Number.natText n) := by
    rw [String.ofList_append, String.ofList_toList]
    rfl
  have hnumber := isAsciiWord_natText n
  rw [htext]
  refine isAsciiName_ofList (List.forall_mem_append.mpr ⟨h.ascii, hnumber.isAscii⟩)
    (isIdentifier_append h.bindable.identifier hnumber) (Bool.eq_false_iff.mpr fun hreserved => ?_)
  -- a reserved word has letters only, and a number has a digit
  obtain ⟨d, hd⟩ := List.exists_mem_of_ne_nil _ (Number.natText_ne_nil n)
  have hletter := letter_of_isReserved hreserved (c := d) (by simp [hd])
  have hdigit := Number.isAsciiDigit_of_mem_natText hd
  simp only [isAsciiLower, isAsciiUpper, isAsciiDigit, Bool.and_eq_true, decide_eq_true_eq]
    at hletter hdigit
  omega

theorem isAsciiName_of_distinguish {own : List Operation}
    (h : ∀ op ∈ own, IsAsciiName op.methodName) :
    ∀ op ∈ distinguish (methodNames own) [] own, IsAsciiName op.methodName := by
  intro op hop
  have hnames := namesMethods_distinguish own
  obtain ⟨i, hi⟩ := List.mem_iff_getElem?.mp hop
  obtain ⟨first, hfirst, -⟩ := getElem?_of_forall₂ hnames.renamed.flip hi
  have hown := h first (List.mem_of_getElem? hfirst)
  by_cases hmet : first.methodName ∈ methodNames (own.take i)
  · obtain ⟨n, -, hnamed, -⟩ := hnames.numbered i first hfirst hmet
    cases hi.symm.trans hnamed
    exact isAsciiName_withNumber hown n
  · cases hi.symm.trans (hnames.kept i first hfirst hmet)
    exact hown

end Group

theorem MethodPart.methodName_of? {p : Profile} {op : Operation} {m : MethodPart}
    (h : MethodPart.of? p op = some m) : m.methodName = op.methodName := by
  obtain ⟨params, -, h⟩ := Option.bind_eq_some_iff.mp h
  obtain ⟨result, -, h⟩ := Option.bind_eq_some_iff.mp h
  cases h
  rfl

theorem GroupPage.className_of? {p : Profile} {g : Group} {page : GroupPage}
    (h : GroupPage.of? p g = some page) : g.className? p = some page.place.className := by
  obtain ⟨ending, -, h⟩ := Option.bind_eq_some_iff.mp h
  obtain ⟨className, hclass, h⟩ := Option.bind_eq_some_iff.mp h
  obtain ⟨methods, -, h⟩ := Option.bind_eq_some_iff.mp h
  obtain ⟨references, -, h⟩ := Option.bind_eq_some_iff.mp h
  cases h
  exact hclass

/-! ## Packages -/

def Document.HasAsciiPaths (doc : Document) : Prop :=
  ∀ e ∈ doc.paths, ∀ s, e.1 = .text s → IsAscii s.toList

namespace Package

variable {p : Profile} {doc : Document} {pkg : Package}

theorem names_of_operationAmong (kept : ∀ e ∈ doc.paths, ∀ op ∈ e.2, Document.Keeps op.1)
    (ascii : doc.HasAsciiPaths) {left : List Model} {e : Value × String × Value}
    (he : e ∈ pathEntries doc.paths) {op : Operation} (h : operationAmong? p doc left e = some op) :
    IsAsciiName op.methodName ∧ IsAscii op.groupKey.toList := by
  obtain ⟨entry, hentry, he⟩ := List.mem_flatMap.mp he
  obtain ⟨own, hown, rfl⟩ := List.mem_map.mp he
  rw [operationAmong?, Option.filter_eq_some_iff, toOption_eq_some] at h
  have hsteps := Operation.steps_of_compile h.1
  obtain ⟨root, -, hname, hkey⟩ := hsteps.named
  have hpath : IsAscii op.path.toList := ascii entry hentry op.path hsteps.template
  constructor
  · rw [hname, hsteps.verb]
    exact Naming.isAsciiName_methodName root
      (Document.keeps_lowerString (kept entry hentry own hown)) hpath
  · rw [hkey, String.toList_ofList]
    exact Naming.isAscii_groupKey root hpath

/-- With ASCII paths, the classes of the groups in a package and all their methods have names that
declarations can bind. -/
theorem build_groups_bindable {v : Value} (read : Document.ofValue? v = some doc)
    (ending : p.groupEnd = .text "Api") (ascii : doc.HasAsciiPaths)
    (h : (build p doc).result = .ok pkg) :
    ∀ page ∈ pkg.groups, IsAsciiName page.place.className ∧
      ∀ m ∈ page.methods, IsAsciiName m.methodName := by
  intro page hpage
  obtain ⟨g, hg, hof⟩ := exists_of_mem_mapM (build_assembled h).groups hpage
  obtain ⟨key, hkey, rfl⟩ := List.mem_map.mp hg
  have hall : ∀ op ∈ (pathEntries doc.paths).filterMap
      (operationAmong? p doc (Model.settle (compiledModels p doc)).1),
      IsAsciiName op.methodName ∧ IsAscii op.groupKey.toList := by
    intro op hop
    obtain ⟨e, he, hmade⟩ := List.mem_filterMap.mp hop
    exact names_of_operationAmong (Document.keeps_of_ofValue read) ascii he hmade
  constructor
  · obtain ⟨op, hop, rfl⟩ := Group.mem_keys.mp hkey
    have hclass := GroupPage.className_of? hof
    rw [Group.className?, ending, Value.text?, Option.map_some, Option.some.injEq] at hclass
    rw [← hclass]
    exact Naming.isAsciiName_groupClass (hall op hop).2
  · intro m hm
    obtain ⟨op, hop, hmade⟩ := exists_of_mem_mapM (GroupPage.of?_eq_some hof).2 hm
    rw [MethodPart.methodName_of? hmade]
    exact Group.isAsciiName_of_distinguish
      (fun own hown => (hall own (List.mem_of_mem_filter hown)).1) op hop

end Package

end ApiSmith
