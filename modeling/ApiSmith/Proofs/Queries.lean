import ApiSmith.Payload.Encoding
import ApiSmith.Proofs.Forms
import ApiSmith.Proofs.Keys
import ApiSmith.Proofs.Moments

/-!
# Queries of arguments

The query behind a URL is a form that is read as the arguments again: a pair for each argument that
is not null, and of a list one for each of its elements, null elements with an empty text. Without a
pair the URL stays as it is (`withQuery_reads_arguments`).

What an argument stands for is said by itself (`Value.argumentTexts?`), one kind of value at a time.
Scalars become these texts in two steps, first as a value and then as its text; the rows of entries
and of pairs follow by induction over the arguments, whose keys differ, so none of them is merged.
-/

namespace ApiSmith

open Number Text Time

/-! ## Texts of arguments -/

/-- The text that a scalar is sent as: truth values in small letters, moments to the second with
their offset, enum members as their values, null as nothing. Other values have no text. -/
def Value.argumentText? : Value → Option String
  | .null => some ""
  | .bool b => some (if b then "true" else "false")
  | .int n => some (intString n)
  | .text s => some s
  | .decimal d => some d.string
  | .moment m => m.offset.map fun o => String.ofList (m.secondsText ++ Moment.sentOffset o)
  | .member _ _ (.int n) _ => some (intString n)
  | .member _ _ (.text s) _ => some s
  | _ => none

/-- The texts that an argument is sent as: none for null, one for each element of a list, and one
for any other scalar. -/
def Value.argumentTexts? : Value → Option (List String)
  | .null => some []
  | .list items => items.mapM Value.argumentText?
  | v => v.argumentText?.map fun t => [t]

def argumentPairs? : List (String × Value) → Option (List (String × String))
  | [] => some []
  | (key, v) :: rest => do
    let texts ← v.argumentTexts?
    let more ← argumentPairs? rest
    pure (texts.map (fun t => (key, t)) ++ more)

def argumentEntries (args : List (String × Value)) : List (Value × Value) :=
  args.map fun a => (.text a.1, a.2)

/-! ## Values in a query -/

variable {zone : Zone}

theorem queryText_int (n : Int) : queryText (.int n) = intString n := by
  rw [queryText, Value.display, Value.literal] <;> (intros; contradiction)

theorem queryValue_of_argumentText? {v : Value} {t : String} (h : v.argumentText? = some t) :
    ∃ x, queryValue zone v = .ok x ∧ queryText x = t ∧ queryTexts x = [queryText x] := by
  cases v with
  | moment m =>
    obtain ⟨o, ho, rfl⟩ := Option.map_eq_some_iff.mp h
    have hvalue : queryValue zone (.moment m) =
        .ok (.text (String.ofList (m.secondsText ++ Moment.sentOffset o))) := by
      rw [queryValue, encodeMoment, Moment.sendText?_of_offset zone ho]
    exact ⟨_, hvalue, rfl, rfl⟩
  | member type name value integral =>
    rw [queryValue]
    cases value with
    | int n =>
      obtain rfl := Option.some.inj h
      exact ⟨.int n, rfl, queryText_int n, rfl⟩
    | text s =>
      obtain rfl := Option.some.inj h
      exact ⟨.text s, rfl, rfl, rfl⟩
    | _ => cases h
  | int n =>
    obtain rfl := Option.some.inj h
    exact ⟨.int n, rfl, queryText_int n, rfl⟩
  | decimal d =>
    obtain rfl := Option.some.inj h
    exact ⟨.text d.string, rfl, rfl, rfl⟩
  | null | bool b | text s =>
    obtain rfl := Option.some.inj h
    exact ⟨_, rfl, rfl, rfl⟩
  | float | bytes | date | list | tuple | map | object | model | foreign => cases h

theorem queryValues_of_mapM {items : List Value} {texts : List String}
    (h : items.mapM Value.argumentText? = some texts) :
    ∃ xs, queryValues zone items = .ok xs ∧ xs.map queryText = texts := by
  have hrow := mapM_eq_some_iff.mp h
  clear h
  induction hrow with
  | nil => exact ⟨[], rfl, rfl⟩
  | cons hv _ ih =>
    obtain ⟨x, hx, ht, -⟩ := queryValue_of_argumentText? hv
    obtain ⟨xs, hxs, hts⟩ := ih
    exact ⟨x :: xs, bind_eq_ok.mpr ⟨x, hx, bind_eq_ok.mpr ⟨xs, hxs, rfl⟩⟩, by simp [ht, hts]⟩

theorem queryValue_of_argumentTexts? {v : Value} {texts : List String}
    (h : v.argumentTexts? = some texts) (hnull : v.isNull = false) :
    ∃ x, queryValue zone v = .ok x ∧ queryTexts x = texts := by
  have hscalar : ∀ {w : Value}, w.argumentText?.map (fun t => [t]) = some texts →
      ∃ x, queryValue zone w = .ok x ∧ queryTexts x = texts := by
    intro w hw
    obtain ⟨t, ht, rfl⟩ := Option.map_eq_some_iff.mp hw
    obtain ⟨x, hx, rfl, htexts⟩ := queryValue_of_argumentText? ht
    exact ⟨x, hx, htexts⟩
  cases v with
  | null => cases hnull
  | list items =>
    obtain ⟨xs, hxs, hts⟩ := queryValues_of_mapM h
    exact ⟨.list xs, by rw [queryValue, hxs]; rfl, hts⟩
  | _ => exact hscalar h

/-! ## Rows of pairs -/

/-- The entries of a query are under keys of the arguments, in order, and hold their pairs. -/
theorem queryEntries_of_argumentPairs? {args : List (String × Value)}
    {pairs : List (String × String)} (h : argumentPairs? args = some pairs) :
    ∃ entries, queryEntries zone (argumentEntries args) = .ok entries ∧
      (entries.map (·.1)).Sublist (args.map fun a => .text a.1) ∧
      (entries.flatMap fun e => e.2.map fun t => (e.1.display, t)) = pairs := by
  induction args generalizing pairs with
  | nil =>
    cases h
    exact ⟨[], rfl, .slnil, rfl⟩
  | cons a rest ih =>
    obtain ⟨key, v⟩ := a
    obtain ⟨texts, htexts, h⟩ := Option.bind_eq_some_iff.mp h
    obtain ⟨more, hmore, h⟩ := Option.bind_eq_some_iff.mp h
    cases h
    obtain ⟨entries, hentries, hkeys, hpairs⟩ := ih hmore
    cases hnull : v.isNull with
    | true =>
      have hv : v = .null := by cases v <;> first | rfl | cases hnull
      subst hv
      cases htexts
      exact ⟨entries, hentries, hkeys.cons _, hpairs⟩
    | false =>
      obtain ⟨x, hx, rfl⟩ := queryValue_of_argumentTexts? htexts hnull
      refine ⟨(.text key, queryTexts x) :: entries, ?_, hkeys.cons_cons _, ?_⟩
      · show queryEntries zone ((.text key, v) :: argumentEntries rest) = _
        rw [queryEntries, hnull]
        exact bind_eq_ok.mpr ⟨x, hx, bind_eq_ok.mpr ⟨entries, hentries, rfl⟩⟩
      · rw [List.flatMap_cons, hpairs]
        rfl

theorem queryPairs_of_argumentPairs? {args : List (String × Value)}
    {pairs : List (String × String)} (keys : (args.map (·.1)).Nodup)
    (h : argumentPairs? args = some pairs) : queryPairs zone (argumentEntries args) = .ok pairs := by
  obtain ⟨entries, hentries, hkeys, hpairs⟩ := queryEntries_of_argumentPairs? h
  have htexts : HasTextKeys entries := by
    intro e he
    obtain ⟨a, -, ha⟩ := List.mem_map.mp (hkeys.subset (List.mem_map_of_mem he))
    exact ⟨a.1, ha.symm⟩
  have hdistinct : (args.map fun a => Value.text a.1).Nodup := by
    have hinj : Function.Injective Value.text := fun _ _ heq => Value.text.inj heq
    rw [← Function.comp_def, ← List.map_map]
    exact keys.map hinj
  refine bind_eq_ok.mpr ⟨entries, hentries, ?_⟩
  rw [overlay_nil htexts (hkeys.nodup hdistinct), hpairs]
  rfl

/-- Arguments are found again in the URL: without a pair it stays as it is, and else the form behind
its question mark is read as the pairs of the arguments, in order and with none lost, merged or
split. -/
theorem withQuery_reads_arguments (zone : Zone) {url : String} {args : List (String × Value)}
    {pairs : List (String × String)} (keys : (args.map (·.1)).Nodup)
    (texts : argumentPairs? args = some pairs) (plain : '?' ∉ url.toList ∧ '#' ∉ url.toList) :
    ∃ u, withQuery zone url (argumentEntries args) = .ok u ∧ (u = url ↔ pairs = []) ∧
      (pairs ≠ [] → ∃ q, u = url ++ "?" ++ String.ofList q ∧ Form.read? q = some pairs ∧
        cutAtChar '?' u.toList = (url.toList, some q) ∧ '#' ∉ u.toList) := by
  have hpairs : queryPairs zone (argumentEntries args) = .ok pairs :=
    queryPairs_of_argumentPairs? keys texts
  by_cases hnil : pairs = []
  · refine ⟨url, bind_eq_ok.mpr ⟨pairs, hpairs, by rw [hnil]; rfl⟩, by simp [hnil],
      fun h => absurd hnil h⟩
  · obtain ⟨q, hq⟩ : ∃ q, q = Percent.formPairs pairs := ⟨_, rfl⟩
    have hlist : (url ++ "?" ++ String.ofList q).toList = url.toList ++ '?' :: q := by
      simp [String.toList_append]
    have hquery : withQuery zone url (argumentEntries args) = .ok (url ++ "?" ++ String.ofList q) := by
      refine bind_eq_ok.mpr ⟨pairs, hpairs, ?_⟩
      rw [if_neg (by simpa using hnil), hq]
      rfl
    refine ⟨_, hquery, iff_of_false (fun heq => ?_) hnil, fun _ => ⟨q, rfl, ?_, ?_, ?_⟩⟩
    · refine plain.1 ?_
      rw [← heq, hlist]
      exact List.mem_append_right _ List.mem_cons_self
    · rw [hq, Form.read?_formPairs]
    · rw [hlist]
      exact cutAtChar_eq_some.mpr ⟨rfl, plain.1⟩
    · rw [hlist, hq, List.mem_append, List.mem_cons, not_or, not_or]
      exact ⟨plain.2, by decide, Form.not_mem_formPairs (by decide) pairs⟩

/-- Arguments of most kinds; their names and texts hold the signs of forms. -/
def mixedArguments : List (String × Value) :=
  [("a&b", .text "x=1&y #é"), ("none", .null), ("", .bool true),
    ("ids", .list [.int (-7), .null, .member "Color" "red" (.text "r+d") false]), ("no", .list []),
    ("sum", .decimal (.finite false 150 (-2))),
    ("on", .moment ⟨2024, 1, 31, 9, 30, 0, 500000, some 0, by decide⟩)]

theorem withQuery_reads_arguments_of_mixed :
    argumentPairs? mixedArguments = some [("a&b", "x=1&y #é"), ("", "true"), ("ids", "-7"),
      ("ids", ""), ("ids", "r+d"), ("sum", "1.50"), ("on", "2024-01-31T09:30:00Z")] ∧
    ∃ u, withQuery .utc "/card/list" (argumentEntries mixedArguments) = .ok u ∧ u ≠ "/card/list" ∧
      ∃ q, u = "/card/list" ++ "?" ++ String.ofList q ∧
        Form.read? q = argumentPairs? mixedArguments := by
  have hpairs : argumentPairs? mixedArguments = some [("a&b", "x=1&y #é"), ("", "true"),
      ("ids", "-7"), ("ids", ""), ("ids", "r+d"), ("sum", "1.50"),
      ("on", "2024-01-31T09:30:00Z")] := by
    decide +kernel
  have hplain : '?' ∉ "/card/list".toList ∧ '#' ∉ "/card/list".toList := by decide
  obtain ⟨u, hu, hsame, hform⟩ := withQuery_reads_arguments .utc (by decide +kernel) hpairs hplain
  obtain ⟨q, hq, hread, -, -⟩ := hform (List.cons_ne_nil _ _)
  exact ⟨hpairs, u, hu, fun h => List.cons_ne_nil _ _ (hsame.mp h), q, hq, hread.trans hpairs.symm⟩

end ApiSmith
