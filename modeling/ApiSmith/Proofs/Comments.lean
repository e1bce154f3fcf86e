import ApiSmith.Proofs.Accounting
import ApiSmith.Proofs.ClassNames
import ApiSmith.Proofs.Docstrings
import ApiSmith.Proofs.Replacements

/-!
# Comments on one line

A description stands as a comment over a field, and a summary as the first line of the documentation
of a method, so what comes behind a line end in it would be read as code. Cleaning takes line feeds
away, and returns with a line feed behind them. It leaves a return that stands alone, and the
replacements come after it. `comments_on_one_line_iff` says which comments are one line: those
without a lone return between other characters, if no replacement that is found in them writes a
line end. The template of a replacement can, since it has escapes for line ends; a replacement
without backslashes does not.

A comment goes through three steps, each with a lemma on its line ends: those that removing and
trimming leave (`holdsBreak_trim_iff`), those after the replacements (`holdsBreak_replaceAllIn`),
and those of the line that a page has for it (`FieldLine.isOneLine_commentLine`,
`MethodPart.isOneLine_summaryLine`).
-/

namespace ApiSmith

namespace Text

/-! ## Trimming -/

theorem mem_trimBy_iff {p : Char → Bool} {c : Char} (hc : p c = true) {cs : List Char} :
    c ∈ trimBy p cs ↔
      ∃ a b, cs = a ++ c :: b ∧ (∃ d ∈ a, p d = false) ∧ ∃ d ∈ b, p d = false := by
  constructor
  · intro h
    obtain ⟨front, back, hcs, -, -⟩ := exists_around_trimBy p cs
    obtain ⟨a, b, htrim⟩ := List.append_of_mem h
    refine ⟨front ++ a, b ++ back, by rw [hcs, htrim]; simp, ?_, ?_⟩
    · cases a with
      | nil => exact absurd (not_of_trimBy_eq_cons htrim) (by simp [hc])
      | cons d a => exact ⟨d, by simp, not_of_trimBy_eq_cons htrim⟩
    · rcases List.eq_nil_or_concat b with rfl | ⟨b, d, rfl⟩
      · exact absurd (not_of_trimBy_eq_concat htrim) (by simp [hc])
      · have hlast : trimBy p cs = (a ++ c :: b) ++ [d] := by
          rw [htrim]
          simp
        exact ⟨d, by simp, not_of_trimBy_eq_concat hlast⟩
  · rintro ⟨a, b, rfl, ⟨d, hd, hleft⟩, e, he, hright⟩
    have hfront : (a ++ c :: b).dropWhile p = a.dropWhile p ++ c :: b := by
      rw [List.dropWhile_append, if_neg]
      simpa using ⟨d, hd, hleft⟩
    have hback : (b.reverse ++ ([c] ++ (a.dropWhile p).reverse)).dropWhile p =
        b.reverse.dropWhile p ++ ([c] ++ (a.dropWhile p).reverse) := by
      rw [List.dropWhile_append, if_neg]
      simpa using ⟨e, he, hright⟩
    rw [trimBy, hfront]
    simp only [List.reverse_append, List.reverse_cons, List.append_assoc]
    rw [hback]
    simp

end Text

namespace Naming

open Text

/-! ## Removing line ends -/

theorem withoutBreaks_cons {c : Char} {rest : List Char} (feed : c ≠ '\n')
    (pair : c = '\r' → rest.head? ≠ some '\n') :
    withoutBreaks (c :: rest) = c :: withoutBreaks rest := by
  rw [withoutBreaks.eq_4 _ _ feed]
  rintro more rfl rfl
  exact pair rfl rfl

theorem feed_not_mem_withoutBreaks (cs : List Char) : '\n' ∉ withoutBreaks cs := by
  fun_induction withoutBreaks cs with
  | case1 => simp
  | case2 rest ih => exact ih
  | case3 rest ih => exact ih
  | case4 c rest hfeed _ ih => simpa [Ne.symm hfeed] using ih

theorem mem_withoutBreaks_iff {c : Char} (inside : endsLine c = false) {cs : List Char} :
    c ∈ withoutBreaks cs ↔ c ∈ cs := by
  have hfeed : c ≠ '\n' := by rintro rfl; cases inside
  have hreturn : c ≠ '\r' := by rintro rfl; cases inside
  fun_induction withoutBreaks cs with
  | case1 => rfl
  | case2 rest ih => simp [ih, hfeed]
  | case3 rest ih => simp [ih, hfeed, hreturn]
  | case4 d rest _ _ ih => simp [ih]

theorem withoutBreaks_append (a : List Char) {b : List Char} (lone : b.head? ≠ some '\n') :
    withoutBreaks (a ++ '\r' :: b) = withoutBreaks a ++ '\r' :: withoutBreaks b := by
  fun_induction withoutBreaks a with
  | case1 => exact withoutBreaks_cons (by decide) fun _ => lone
  | case2 rest ih => exact ih
  | case3 rest ih => exact ih
  | case4 c rest hfeed hpair ih =>
    rw [List.cons_append, List.cons_append, ← ih]
    refine withoutBreaks_cons hfeed fun hc => ?_
    cases rest with
    | nil => simp
    | cons d rest =>
      intro hd
      exact hpair rest hc (by rw [Option.some.inj hd])

theorem withoutBreaks_eq_append {cs u v : List Char} (h : withoutBreaks cs = u ++ '\r' :: v) :
    ∃ a b, cs = a ++ '\r' :: b ∧ b.head? ≠ some '\n' ∧ withoutBreaks a = u ∧
      withoutBreaks b = v := by
  fun_induction withoutBreaks cs generalizing u with
  | case1 => simp at h
  | case2 rest ih =>
    obtain ⟨a, b, rfl, lone, hu, hv⟩ := ih h
    exact ⟨'\n' :: a, b, rfl, lone, hu, hv⟩
  | case3 rest ih =>
    obtain ⟨a, b, rfl, lone, hu, hv⟩ := ih h
    exact ⟨'\r' :: '\n' :: a, b, rfl, lone, hu, hv⟩
  | case4 c rest hfeed hpair ih =>
    have hlone : c = '\r' → rest.head? ≠ some '\n' := by
      intro hc hhead
      obtain ⟨more, rfl⟩ := List.head?_eq_some_iff.mp hhead
      exact hpair more hc rfl
    cases u with
    | nil =>
      obtain ⟨rfl, rfl⟩ := List.cons.inj h
      exact ⟨[], rest, rfl, hlone rfl, rfl, rfl⟩
    | cons d u =>
      obtain ⟨rfl, hrest⟩ := List.cons.inj h
      obtain ⟨a, b, rfl, lone, rfl, hv⟩ := ih hrest
      refine ⟨c :: a, b, rfl, lone, withoutBreaks_cons hfeed fun hc => ?_, hv⟩
      cases a with
      | nil => simp
      | cons e a => exact hlone hc

/-- A return with no line feed behind it, which stands between characters that are not blank. -/
def HasLoneReturn (cs : List Char) : Prop :=
  ∃ a b, cs = a ++ '\r' :: b ∧ b.head? ≠ some '\n' ∧ (∃ c ∈ a, isBlank c = false) ∧
    ∃ c ∈ b, isBlank c = false

theorem exists_mem_withoutBreaks_iff {cs : List Char} :
    (∃ c ∈ withoutBreaks cs, isBlank c = false) ↔ ∃ c ∈ cs, isBlank c = false := by
  refine exists_congr fun c => and_congr_left fun hc => mem_withoutBreaks_iff ?_
  rw [Bool.eq_false_iff]
  intro ends
  rcases endsLine_iff.mp ends with rfl | rfl <;> cases hc

/-- The line ends that are left in a comment are lone returns. -/
theorem holdsBreak_trim_iff {cs : List Char} :
    HoldsBreak (trim (withoutBreaks cs)) ↔ HasLoneReturn cs := by
  have hreturn : HoldsBreak (trim (withoutBreaks cs)) ↔ '\r' ∈ trim (withoutBreaks cs) := by
    constructor
    · rintro ⟨c, hc, ends⟩
      rcases endsLine_iff.mp ends with rfl | rfl
      · exact absurd (mem_of_mem_trimBy hc) (feed_not_mem_withoutBreaks cs)
      · exact hc
    · exact fun h => ⟨_, h, rfl⟩
  rw [hreturn, trim, mem_trimBy_iff (by decide)]
  constructor
  · rintro ⟨u, v, hcs, hu, hv⟩
    obtain ⟨a, b, rfl, lone, rfl, rfl⟩ := withoutBreaks_eq_append hcs
    exact ⟨a, b, rfl, lone, exists_mem_withoutBreaks_iff.mp hu, exists_mem_withoutBreaks_iff.mp hv⟩
  · rintro ⟨a, b, rfl, lone, ha, hb⟩
    exact ⟨_, _, withoutBreaks_append a lone, exists_mem_withoutBreaks_iff.mpr ha,
      exists_mem_withoutBreaks_iff.mpr hb⟩

/-! ## Cleaned comments -/

/-- A replacement puts a line end into a comment, after those before it were made: it is found, and
its template writes one. -/
inductive PutsBreak : List (Value × Value) → List Char → Prop
  | here {old new : String} {rest : List (Value × Value)} {comment : List Char}
      {parts : List TemplatePart} (reads : template new.toList = .ok parts)
      (writes : WritesBreak parts) (finds : Finds old.toList comment) :
      PutsBreak ((.text old, .text new) :: rest) comment
  | later {old new : Value} {rest : List (Value × Value)} {comment next : List Char}
      (made : replaceIn old new comment = .ok next) (puts : PutsBreak rest next) :
      PutsBreak ((old, new) :: rest) comment

def KeysOnOneLine (replacements : List (Value × Value)) : Prop :=
  ∀ e ∈ replacements, ∀ s, e.1 = .text s → IsOneLine s

theorem exists_of_replaceIn {old new : Value} {comment made : List Char}
    (h : replaceIn old new comment = .ok made) : ∃ s t parts, old = .text s ∧ new = .text t ∧
      template t.toList = .ok parts ∧ made = replaceAlike s.toList parts comment := by
  unfold replaceIn at h
  split at h
  · next s t =>
    split at h
    · next parts hparts =>
      cases h
      exact ⟨s, t, parts, rfl, rfl, hparts, rfl⟩
    · cases h
    · cases h
  · cases h

theorem putsBreak_cons_iff {s t : String} {parts : List TemplatePart}
    (hparts : template t.toList = .ok parts) {rest : List (Value × Value)} {comment : List Char} :
    PutsBreak ((.text s, .text t) :: rest) comment ↔
      WritesBreak parts ∧ Finds s.toList comment ∨
        PutsBreak rest (replaceAlike s.toList parts comment) := by
  have hmade : replaceIn (.text s) (.text t) comment =
      .ok (replaceAlike s.toList parts comment) := by
    rw [replaceIn, hparts]
  constructor
  · intro h
    cases h with
    | here reads writes finds =>
      cases hparts.symm.trans reads
      exact .inl ⟨writes, finds⟩
    | later made puts =>
      cases hmade.symm.trans made
      exact .inr puts
  · rintro (⟨writes, finds⟩ | puts)
    · exact .here hparts writes finds
    · exact .later hmade puts

theorem holdsBreak_replaceAllIn {replacements : List (Value × Value)}
    (plain : KeysOnOneLine replacements) {comment cleaned : List Char}
    (h : replaceAllIn replacements comment = .ok cleaned) :
    HoldsBreak cleaned ↔ HoldsBreak comment ∨ PutsBreak replacements comment := by
  induction replacements generalizing comment with
  | nil =>
    cases h
    exact (or_iff_left nofun).symm
  | cons replacement rest ih =>
    obtain ⟨old, new⟩ := replacement
    obtain ⟨made, hmade, hrest⟩ := bind_eq_ok.mp h
    obtain ⟨s, t, parts, rfl, rfl, hparts, rfl⟩ := exists_of_replaceIn hmade
    have hkey : ¬ HoldsBreak s.toList := isOneLine_iff.mp (plain _ List.mem_cons_self s rfl)
    rw [ih (fun e he => plain e (List.mem_cons_of_mem _ he)) hrest,
      holdsBreak_replaceAlike hkey, putsBreak_cons_iff hparts, or_assoc]

def commentChars : Value → List Char
  | .text s => s.toList
  | _ => []

/-- A comment that is not on one line when it is cleaned: a lone return is left in it, or a
replacement puts a line end into it. -/
def BreaksLine (replacements : List (Value × Value)) (cs : List Char) : Prop :=
  HasLoneReturn cs ∨ PutsBreak replacements (trim (withoutBreaks cs))

theorem cleanComment_eq_ok {text : Value} {replacements : List (Value × Value)} {r : String}
    (h : cleanComment text replacements = .ok r) :
    replaceAllIn replacements (trim (withoutBreaks (commentChars text))) = .ok r.toList := by
  have hrun {cs : List Char} (hcs : (do
      let cleaned ← replaceAllIn replacements (trim (withoutBreaks cs))
      pure (String.ofList cleaned)) = Except.ok r) :
      replaceAllIn replacements (trim (withoutBreaks cs)) = .ok r.toList := by
    obtain ⟨cleaned, hcleaned, hr⟩ := bind_eq_ok.mp hcs
    cases hr
    rw [hcleaned, String.toList_ofList]
  unfold cleanComment at h
  cases text with
  | text s => exact hrun h
  | _ =>
    dsimp only at h
    split at h
    · cases h
    · exact hrun h

theorem isOneLine_cleanComment {replacements : List (Value × Value)}
    (plain : KeysOnOneLine replacements) {text : Value} {r : String}
    (h : cleanComment text replacements = .ok r) :
    IsOneLine r ↔ ¬ BreaksLine replacements (commentChars text) := by
  rw [isOneLine_iff, holdsBreak_replaceAllIn plain (cleanComment_eq_ok h), holdsBreak_trim_iff,
    BreaksLine]

/-- Replacements without backslashes and line ends, which are put in as they are. -/
def AreLiteral (replacements : List (Value × Value)) : Prop :=
  ∀ e ∈ replacements, ∀ s, e.2 = .text s → '\\' ∉ s.toList ∧ IsOneLine s

theorem not_putsBreak_of_literal {replacements : List (Value × Value)}
    (literal : AreLiteral replacements) {comment : List Char} :
    ¬ PutsBreak replacements comment := by
  intro puts
  induction puts with
  | @here _ new _ _ _ reads writes _ =>
    obtain ⟨hslash, hline⟩ := literal _ List.mem_cons_self new rfl
    have hcontains : new.toList.contains '\\' = false := by simpa using hslash
    rw [template, hcontains] at reads
    cases reads
    obtain ⟨c, hc, ends⟩ := writes
    obtain ⟨d, hd, heq⟩ := List.mem_map.mp hc
    cases heq
    exact isOneLine_iff.mp hline ⟨c, hd, ends⟩
  | later _ _ ih => exact ih fun e he => literal e (List.mem_cons_of_mem _ he)

/-- With literal replacements only a lone return breaks a line. -/
theorem breaksLine_iff_of_literal {replacements : List (Value × Value)}
    (literal : AreLiteral replacements) {cs : List Char} :
    BreaksLine replacements cs ↔ HasLoneReturn cs :=
  or_iff_left (not_putsBreak_of_literal literal)

end Naming

/-! ## Lines of pages -/

open Text
open Package (fieldLines methodLines modelText groupText fileText quotes)

theorem Docstring.holdsBreak_escape (cs : List Char) : HoldsBreak (escape cs) ↔ HoldsBreak cs := by
  induction cs using quoteInduction with
  | nil => rfl
  | last => exact iff_of_false (by decide) (by decide)
  | lastTriple => exact iff_of_false (by decide) (by decide)
  | backslash cs ih =>
    rw [escape_backslash]
    simp [endsLine, ih]
  | plain c cs hslash hquote ih =>
    rw [escape_cons hslash hquote]
    simp [ih]
  | triple cs ne ih =>
    rw [escape_triple ne]
    simp [Text.TripleQuoted.quotes, escapedTriple, endsLine, ih]
  | quote cs ne opens ih =>
    rw [escape_quote ne opens]
    simp [endsLine, ih]

def FieldLine.commentLine (f : FieldLine) : String := "    #: " ++ f.description

def MethodPart.summaryLine (m : MethodPart) : String :=
  "        " ++ quotes ++ Docstring.ofString m.summary

theorem ModelPage.commentLine_mem {page : ModelPage} {f : FieldLine} (hf : f ∈ page.fields)
    (h : f.description ≠ "") :
    ∃ lines, modelText page = fileText lines ∧ f.commentLine ∈ lines := by
  have hmem : f.commentLine ∈ page.fields.flatMap fieldLines := by
    refine List.mem_flatMap.mpr ⟨f, hf, ?_⟩
    simp [fieldLines, Package.linesIf, h, FieldLine.commentLine]
  refine ⟨_, rfl, ?_⟩
  simp only [List.mem_append]
  exact .inl (.inl (.inr hmem))

theorem GroupPage.summaryLine_mem {page : GroupPage} {m : MethodPart} (hm : m ∈ page.methods)
    (h : m.summary ≠ "") : ∃ lines, groupText page = fileText lines ∧ m.summaryLine ∈ lines := by
  have hmem : m.summaryLine ∈ page.methods.flatMap methodLines := by
    refine List.mem_flatMap.mpr ⟨m, hm, ?_⟩
    simp [methodLines, Package.orText, h, MethodPart.summaryLine]
  exact ⟨_, rfl, List.mem_append_right _ hmem⟩

theorem FieldLine.isOneLine_commentLine (f : FieldLine) :
    IsOneLine f.commentLine ↔ IsOneLine f.description := by
  have hstart : ¬ HoldsBreak "    #: ".toList := by decide
  rw [isOneLine_iff, isOneLine_iff, commentLine, String.toList_append, holdsBreak_append,
    or_iff_right hstart]

theorem MethodPart.isOneLine_summaryLine (m : MethodPart) :
    IsOneLine m.summaryLine ↔ IsOneLine m.summary := by
  have hstart : ¬ HoldsBreak ("        " ++ quotes).toList := by decide
  rw [isOneLine_iff, isOneLine_iff, summaryLine, String.toList_append, holdsBreak_append,
    or_iff_right hstart, Docstring.ofString, String.toList_ofList, Docstring.holdsBreak_escape]

/-! ## Packages -/

namespace Package

open Naming

/-- A line of code for the comment that a part of a document has under a key: it is one line unless
the comment breaks it. -/
def IsCommentOf (p : Profile) (node : Value) (key line : String) : Prop :=
  ∃ v, node.part? key = some v ∧
    (IsOneLine line ↔ ¬ BreaksLine p.commentReplacements (commentChars v))

/-- The comments of a model page: one for each property, and those that are not empty are lines of
its file. -/
structure CommentsFields (p : Profile) (doc : Document) (page : ModelPage) : Prop where
  comments : ∃ schema properties, (.text page.name, schema) ∈ doc.definitions ∧
    Model.properties? (orEmpty schema) = some properties ∧
    List.Forall₂ (fun property f => IsCommentOf p property.2 "description" f.commentLine)
      properties page.fields
  lines : ∀ f ∈ page.fields, f.description ≠ "" →
    ∃ lines, modelText page = fileText lines ∧ f.commentLine ∈ lines

/-- The summaries of a group page: one for each method, from an entry of its path, and those that
are not empty are lines of its file. -/
structure SumsUpMethods (p : Profile) (doc : Document) (page : GroupPage) : Prop where
  comments : ∀ m ∈ page.methods, ∃ e ∈ pathEntries doc.paths, e.1 = .text m.path ∧
    m.httpMethod = Text.upperString (Text.lowerString e.2.1) ∧
    IsCommentOf p (orEmpty e.2.2) "summary" m.summaryLine
  lines : ∀ m ∈ page.methods, m.summary ≠ "" →
    ∃ lines, groupText page = fileText lines ∧ m.summaryLine ∈ lines

variable {p : Profile}

theorem cleanComment_of_comment {v : Value} {s : String}
    (h : (Model.comment p v).result = .ok s) : cleanComment v p.commentReplacements = .ok s := by
  unfold Model.comment at h
  split at h
  · next s' hs =>
    cases h
    exact hs
  · cases h
  · cases h

theorem isCommentOf_commentLine (plain : KeysOnOneLine p.commentReplacements) {owner : Value}
    {required : List Value} {earlier : List Field} {property schema : Value} {f : Field}
    (h : f.Steps p owner required earlier property schema) {line : FieldLine}
    (hline : FieldLine.of? p f = some line) :
    IsCommentOf p schema "description" line.commentLine := by
  obtain ⟨text, htext, hdescription⟩ := h.description
  obtain ⟨_, -, hmade⟩ := Option.bind_eq_some_iff.mp hline
  cases hmade
  refine ⟨text, htext, ?_⟩
  rw [FieldLine.isOneLine_commentLine]
  exact isOneLine_cleanComment plain (cleanComment_of_comment hdescription)

theorem summary_of_isOf {op : Operation} {m : MethodPart} (h : MethodPart.IsOf p op m) :
    m.summary = op.summary := by
  obtain ⟨name, h⟩ := h
  simp only [MethodPart.of?, Option.pure_def, Option.bind_eq_bind, Option.bind_eq_some_iff,
    Option.some.injEq] at h
  obtain ⟨_, -, _, -, rfl⟩ := h
  rfl

theorem isCommentOf_summaryLine (plain : KeysOnOneLine p.commentReplacements) {shared path : Value}
    {method : String} {operation : Value} {op : Operation}
    (h : op.Steps p shared path method operation) {m : MethodPart} (hm : MethodPart.IsOf p op m) :
    IsCommentOf p operation "summary" m.summaryLine := by
  obtain ⟨text, htext, hsummary⟩ := h.summary
  refine ⟨text, htext, ?_⟩
  rw [MethodPart.isOneLine_summaryLine, summary_of_isOf hm]
  exact isOneLine_cleanComment plain (cleanComment_of_comment hsummary)

variable {doc : Document} {pkg : Package}

theorem commentsFields_of_build (plain : KeysOnOneLine p.commentReplacements)
    (h : (build p doc).result = .ok pkg) {page : ModelPage} (hpage : page ∈ pkg.models) :
    CommentsFields p doc page := by
  obtain ⟨m, ⟨schema, hschema, hcompiled⟩, hof⟩ := exists_isOf h hpage
  obtain ⟨required, properties, hsteps⟩ := Model.steps_of_compile hcompiled
  have hlines := mapM_eq_some_iff.mp (ModelPage.prints_of? hof).fields
  refine ⟨⟨schema, properties, hschema, hsteps.properties?_eq, ?_⟩,
    fun f => ModelPage.commentLine_mem⟩
  exact forall₂_through hsteps.rows hlines fun _ _ _ ⟨_, hf⟩ => isCommentOf_commentLine plain hf

theorem sumsUpMethods_of_build (plain : KeysOnOneLine p.commentReplacements)
    (h : (build p doc).result = .ok pkg) {page : GroupPage} (hpage : page ∈ pkg.groups) :
    SumsUpMethods p doc page := by
  refine ⟨fun m hm => ?_, fun m => GroupPage.summaryLine_mem⟩
  obtain ⟨e, he, hshows⟩ := exists_of_mem_forall₂ ((accounts_of_build h).methods page hpage) hm
  obtain ⟨op, hop, hof⟩ := hshows.operation
  have hfound := toOption_eq_some.mpr hop
  rw [result_compileOperation, Option.filter_eq_some_iff, toOption_eq_some] at hfound
  exact ⟨e, List.mem_of_mem_filter (List.mem_of_mem_filter he), hshows.origin.1, hshows.origin.2,
    isCommentOf_summaryLine plain (Operation.steps_of_compile hfound.1) hof⟩

/-- When comments stay on one line. A cleaned comment does not exactly if it has a return with no
line feed behind it between characters that are not blank, or if a replacement that is found in it
is a template that writes a line end; literal replacements never do. The comments over the fields of
a model, and the summaries of the methods of a group, are lines of its file exactly then. -/
theorem comments_on_one_line_iff (plain : KeysOnOneLine p.commentReplacements) :
    (∀ v r, cleanComment v p.commentReplacements = .ok r →
      (IsOneLine r ↔ ¬ BreaksLine p.commentReplacements (commentChars v))) ∧
    (AreLiteral p.commentReplacements →
      ∀ cs, BreaksLine p.commentReplacements cs ↔ HasLoneReturn cs) ∧
    ∀ doc pkg, (build p doc).result = .ok pkg →
      (∀ page ∈ pkg.models, CommentsFields p doc page) ∧
        ∀ page ∈ pkg.groups, SumsUpMethods p doc page := by
  refine ⟨fun _ _ => isOneLine_cleanComment plain,
    fun literal _ => breaksLine_iff_of_literal literal, fun doc pkg h => ⟨fun page hpage => ?_,
      fun page hpage => ?_⟩⟩
  · exact commentsFields_of_build plain h hpage
  · exact sumsUpMethods_of_build plain h hpage

/-- Comments are shortened, by a template that writes a line feed. -/
def shorteningProfile : Profile :=
  { Profile.common with commentReplacements := [(.text "psb", .text "bank\\n")] }

/-- A return in a description, a name that is replaced, and a return in a summary. -/
def cardDocument : Document where
  definitions := [(.text "Card", .map [(.text "properties", .map [
    (.text "number", .map [(.text "type", .text "string"),
      (.text "description", .text "Card number\rimport os")]),
    (.text "code", .map [(.text "type", .text "string"),
      (.text "description", .text "Code of the PSB card")]),
    (.text "holder", .map [(.text "type", .text "string"),
      (.text "description", .text "Its\r\n holder\r\n")])])])]
  distinct := by decide +kernel
  paths := [(.text "/card", [("get", .map [(.text "summary", .text "A card\rpass"),
    (.text "responses", .map [(.text "200", .map [(.text "schema",
      .map [(.text "type", .text "integer")])])])])])]
  parameters := []
  title := .text "Bank"
  version := "1"

theorem comments_on_one_line_iff_of_card :
    KeysOnOneLine shorteningProfile.commentReplacements ∧
    cleanComment (.text "Code of the PSB card") shorteningProfile.commentReplacements =
      .ok "Code of the bank\n card" ∧
    BreaksLine shorteningProfile.commentReplacements "Code of the PSB card".toList ∧
    ∃ pkg, (build shorteningProfile cardDocument).result = .ok pkg ∧
      pkg.models.map (fun page => page.fields.map FieldLine.commentLine) =
        [["    #: Card number\rimport os", "    #: Code of the bank\n card", "    #: Its holder"]] ∧
      pkg.groups.map (fun page => page.methods.map MethodPart.summaryLine) =
        [["        \"\"\"A card\rpass"]] ∧
      (∀ page ∈ pkg.models, CommentsFields shorteningProfile cardDocument page) ∧
      ∀ page ∈ pkg.groups, SumsUpMethods shorteningProfile cardDocument page := by
  have hkeys : KeysOnOneLine shorteningProfile.commentReplacements := by
    intro e he s hs
    cases List.mem_singleton.mp he
    cases hs
    decide
  have hclean : cleanComment (.text "Code of the PSB card") shorteningProfile.commentReplacements =
      .ok "Code of the bank\n card" := by
    decide +kernel
  have hlines : (build shorteningProfile cardDocument).result.toOption.map (fun pkg =>
      (pkg.models.map (fun page => page.fields.map FieldLine.commentLine),
        pkg.groups.map (fun page => page.methods.map MethodPart.summaryLine))) =
      some ([["    #: Card number\rimport os", "    #: Code of the bank\n card",
        "    #: Its holder"]], [["        \"\"\"A card\rpass"]]) := by
    decide +kernel
  obtain ⟨pkg, hpkg, hlines⟩ := Option.map_eq_some_iff.mp hlines
  rw [toOption_eq_some] at hpkg
  obtain ⟨hmodels, hgroups⟩ := Prod.mk.inj hlines
  obtain ⟨hcleaned, -, hbuilt⟩ := comments_on_one_line_iff hkeys
  obtain ⟨hcomments, hsummaries⟩ := hbuilt _ _ hpkg
  have hbroken : ¬ IsOneLine "Code of the bank\n card" := by decide
  exact ⟨hkeys, hclean, not_not.mp fun h => hbroken ((hcleaned _ _ hclean).mpr h), pkg, hpkg,
    hmodels, hgroups, hcomments, hsummaries⟩

end Package

end ApiSmith
