import ImportClosure.Proofs.PrintedText
import ImportClosure.Proofs.ReportJson
/-!
The renderings of a report agree.

The faults of a run are told three times: counted in a summary, listed in a JSON object, and shown
line by line. Each is made from the three maps of the report by code of its own. Here the other two
are read off the JSON object alone: which categories there are, the line that shows an item of a
list (`Category.line`), what is counted of an item (`Category.faults`), and from these the lines of
the report (`reportLines`) and the summary (`summary`). What the report and the summary say is what
is read off in this way (`report_renders`), so none of the three tells a fault that the others do
not tell.
-/

namespace ImportClosure

/-! ## Fields -/

namespace Json

/-- The text in a field. -/
def textAt (name : Text) (j : Json) : Text :=
  match j.field? name with
  | some (.text t) => t
  | _ => []

/-- The items of the list in a field. -/
def itemsAt (name : Text) (j : Json) : List Json :=
  match j.field? name with
  | some (.list items) => items
  | _ => []

/-- The text that a value is. -/
def text? : Json → Option Text
  | .text t => some t
  | _ => none

/-- The texts in the list in a field. -/
def textsAt (name : Text) (j : Json) : List Text := (j.itemsAt name).filterMap text?

theorem itemsAt_eq {name : Text} {j : Json} {items : List Json}
    (h : j.field? name = some (.list items)) : j.itemsAt name = items := by
  unfold itemsAt
  rw [h]

/-- The last field counts. -/
theorem field?_last (fields : List (Text × Json)) (name : Text) (j : Json) :
    (object (fields ++ [(name, j)])).field? name = some j := by
  dsimp only [field?]
  rw [List.reverse_append, List.reverse_singleton, List.singleton_append, List.find?_cons_of_pos]
  · rfl
  · exact decide_eq_true rfl

/-- An item holds its texts beside the path. -/
theorem textsAt_beside (first name : Text) (j : Json) (ts : List Text) :
    (object [(first, j), (name, texts ts)]).textsAt name = ts := by
  have hfield : (object [(first, j), (name, texts ts)]).field? name = some (.list (ts.map text)) :=
    field?_last [(first, j)] name _
  unfold textsAt
  rw [itemsAt_eq hfield, List.filterMap_map]
  exact List.filterMap_some

end Json

namespace FaultReport

/-! ## Categories -/

/-- A category of faults. -/
inductive Category where
  /-- Paths that could not be found. -/
  | missing
  /-- Files that could not be parsed. -/
  | unparsed
  /-- Files that use packages that are not provided. -/
  | unsupported
deriving DecidableEq

namespace Category

/-- The categories in the order in which they are shown. -/
def all : List Category := [missing, unparsed, unsupported]

/-- The field that lists the faults. -/
def field : Category → Text
  | missing => "missing_files"
  | unparsed => "parsing_errors"
  | unsupported => "unsupported_dependencies"

/-- The heading above the lines. -/
def heading : Category → Text
  | missing => "  Missing files:"
  | unparsed => "  Syntax errors:"
  | unsupported => "  Unsupported dependencies:"

/-- What the summary counts. -/
def counted : Category → Text
  | missing => " missing file(s)"
  | unparsed => " file(s) with syntax errors"
  | unsupported => " unsupported dependency(ies)"

/-- The line that shows an item: the path, with all that refer to it, the reason, or all names. -/
def line (k : Category) (item : Json) : Text :=
  match k with
  | missing =>
    match item.textsAt "referenced_by" with
    | [] => "    - " ++ item.textAt "file"
    | referrers =>
      "    - " ++ item.textAt "file" ++ " (referenced by " ++ Text.joinWith ", " referrers ++ ")"
  | unparsed => "    - " ++ item.textAt "file" ++ ": " ++ item.textAt "error"
  | unsupported =>
    "    - " ++ item.textAt "file" ++ ": " ++ Text.joinWith ", " (item.textsAt "dependencies")

/-- What the summary counts of an item: the path, or the names. -/
def faults (k : Category) (item : Json) : List Text :=
  match k with
  | missing | unparsed => [item.textAt "file"]
  | unsupported => item.textsAt "dependencies"

/-- The items of a category. -/
def items (k : Category) (j : Json) : List Json := j.itemsAt k.field

/-- The categories that are not empty. -/
def present (j : Json) : List Category := all.filter fun k => !(k.items j).isEmpty

theorem mem_present {k : Category} {j : Json} : k ∈ present j ↔ k.items j ≠ [] := by
  have hall : k ∈ all := by cases k <;> decide
  unfold present
  rw [List.mem_filter, and_iff_right hall, Bool.not_eq_true', ← Bool.not_eq_true,
    List.isEmpty_iff]

end Category

/-- The lines of a report, read off the JSON object. -/
def reportLines (j : Json) : List Text :=
  ("❌ " ++ j.textAt "message")
    :: (Category.present j).flatMap fun k => k.heading :: (k.items j).map k.line

/-- The summary, read off the JSON object. -/
def summary (j : Json) : Text :=
  "Encountered an error parsing check files for " ++ j.textAt "entrypoint" ++ ": "
    ++ Text.joinWith ", " ((Category.present j).map fun k =>
      Text.ofNat ((k.items j).flatMap k.faults).length ++ k.counted)

/-! ## What a report holds -/

variable {r : FaultReport} {k : Category} {t : Text}

/-- The number of entries of a category. -/
def entryCount (r : FaultReport) : Category → Nat
  | .missing => r.missing.size
  | .unparsed => r.unparsed.size
  | .unsupported => r.unsupported.size

/-- The pairs of a file and a package that it may not use. -/
def unsupportedPairs (r : FaultReport) : List (Text × Text) :=
  r.unsupported.entries.flatMap fun e => e.2.map fun name => (e.1, name)

/-- The number of faults of a category: the paths that are missing, the files that could not be
parsed, or the pairs of a file and a package. -/
def faultCount (r : FaultReport) : Category → Nat
  | .missing => r.missing.size
  | .unparsed => r.unparsed.size
  | .unsupported => r.unsupportedPairs.length

theorem unsupportedCount_eq (r : FaultReport) : r.unsupportedCount = r.unsupportedPairs.length := by
  unfold unsupportedCount unsupportedPairs
  rw [List.length_flatMap, List.sum_eq_foldl, List.foldl_map]
  simp only [List.length_map]

/-- The items that list the entries of a category. -/
def itemsOf (r : FaultReport) : Category → List Json
  | .missing => r.missing.entries.map fun e =>
    .object [("file", .text e.1), ("referenced_by", .texts e.2)]
  | .unparsed => r.unparsed.entries.map fun e =>
    .object [("file", .text e.1), ("error", .text e.2)]
  | .unsupported => r.unsupported.entries.map fun e =>
    .object [("file", .text e.1), ("dependencies", .texts e.2)]

/-- The lines that show the entries of a category. -/
def linesOf (r : FaultReport) : Category → List Text
  | .missing => r.missing.entries.map missingLine
  | .unparsed => r.unparsed.entries.map unparsedLine
  | .unsupported => r.unsupported.entries.map unsupportedLine

theorem field?_toJson (r : FaultReport) (k : Category) :
    (ResolutionError.faulty r).toJson.field? k.field = some (.list (r.itemsOf k)) := by
  cases k <;> rfl

theorem items_toJson (r : FaultReport) (k : Category) :
    k.items (ResolutionError.faulty r).toJson = r.itemsOf k :=
  Json.itemsAt_eq (field?_toJson r k)

theorem length_itemsOf (r : FaultReport) (k : Category) :
    (r.itemsOf k).length = r.entryCount k := by
  cases k <;> exact List.length_map _

/-- The items of a category are shown by its lines, one by one. -/
theorem map_line_itemsOf (r : FaultReport) (k : Category) :
    (r.itemsOf k).map k.line = r.linesOf k := by
  cases k with
  | missing =>
    unfold itemsOf linesOf
    rw [List.map_map]
    apply List.map_congr_left
    rintro ⟨path, referrers⟩ -
    rw [Function.comp_apply, Category.line, missingLine]
    dsimp only
    rw [Json.textsAt_beside]
    rfl
  | unparsed =>
    unfold itemsOf linesOf
    rw [List.map_map]
    rfl
  | unsupported =>
    unfold itemsOf linesOf
    rw [List.map_map]
    apply List.map_congr_left
    rintro ⟨path, names⟩ -
    rw [Function.comp_apply, Category.line, unsupportedLine]
    dsimp only
    rw [Json.textsAt_beside]
    rfl

/-- What is counted of the items of a category are its faults. -/
theorem length_flatMap_faults (r : FaultReport) (k : Category) :
    ((r.itemsOf k).flatMap k.faults).length = r.faultCount k := by
  cases k with
  | missing | unparsed =>
    unfold itemsOf faultCount OrderedMap.size
    rw [List.flatMap_map]
    simp [Category.faults]
  | unsupported =>
    unfold itemsOf faultCount unsupportedPairs
    rw [List.flatMap_map, List.length_flatMap, List.length_flatMap]
    congr 1
    apply List.map_congr_left
    rintro ⟨path, names⟩ -
    rw [Category.faults, Json.textsAt_beside, List.length_map]

/-! ## The lines and the summary -/

/-- What a filtered list is mapped to, element by element. -/
theorem flatMap_filter {α β : Type} (p : α → Bool) (f : α → List β) (l : List α) :
    (l.filter p).flatMap f = l.flatMap fun a => if p a then f a else [] := by
  induction l with
  | nil => rfl
  | cons a l ih =>
    rw [List.flatMap_cons, ← ih]
    by_cases ha : p a = true
    · rw [List.filter_cons_of_pos ha, if_pos ha, List.flatMap_cons]
    · rw [List.filter_cons_of_neg ha, if_neg ha, List.nil_append]

/-- The categories that are not empty, as the maps tell them. -/
theorem flatMap_present {β : Type} (r : FaultReport) (f : Category → List β) :
    (Category.present (ResolutionError.faulty r).toJson).flatMap f
      = (if r.missing.isEmpty then [] else f .missing)
        ++ (if r.unparsed.isEmpty then [] else f .unparsed)
        ++ (if r.unsupported.isEmpty then [] else f .unsupported) := by
  have hempty : ∀ {b : Bool} {l : List β}, (if !b then l else []) = if b then [] else l := by
    intro b l
    cases b <;> rfl
  unfold Category.present Category.all
  simp only [flatMap_filter, items_toJson, List.flatMap_cons, List.flatMap_nil, List.append_nil,
    itemsOf, List.isEmpty_map, hempty, List.append_assoc]
  rfl

/-- The lines below the first are those that are read off the object. -/
theorem detailLines_eq (r : FaultReport) :
    r.detailLines = (Category.present (ResolutionError.faulty r).toJson).flatMap fun k =>
      k.heading :: (k.items (ResolutionError.faulty r).toJson).map k.line := by
  simp only [flatMap_present, items_toJson, map_line_itemsOf]
  rfl

/-- The parts of the summary are those that are read off the object. -/
theorem counts_eq (r : FaultReport) :
    r.counts = (Category.present (ResolutionError.faulty r).toJson).map fun k =>
      Text.ofNat ((k.items (ResolutionError.faulty r).toJson).flatMap k.faults).length
        ++ k.counted := by
  rw [List.map_eq_flatMap]
  simp only [flatMap_present, items_toJson, length_flatMap_faults]
  unfold counts
  rw [unsupportedCount_eq]
  rfl

theorem message_eq_summary (r : FaultReport) :
    r.message = summary (ResolutionError.faulty r).toJson := by
  unfold message summary
  rw [counts_eq]
  rfl

/-! ## Lines -/

theorem lineFeed_not_mem_joinWith {ts : List Text} (h : ∀ t ∈ ts, CodePoint.ofChar '\n' ∉ t) :
    CodePoint.ofChar '\n' ∉ Text.joinWith ", " ts := by
  intro hmem
  have hall : ∀ c ∈ Text.joinWith ", " ts, c ≠ CodePoint.ofChar '\n' := by
    refine Text.forall_mem_joinWith ?_ ?_
    · rintro c hc rfl
      exact absurd hc (by decide)
    · rintro t ht c hc rfl
      exact h t ht hc
  exact hall _ hmem rfl

/-- The summary is one line. -/
theorem lineFeed_not_mem_message (h : CodePoint.ofChar '\n' ∉ r.entrypoint) :
    CodePoint.ofChar '\n' ∉ r.message := by
  have hcounts : CodePoint.ofChar '\n' ∉ Text.joinWith ", " r.counts := by
    apply lineFeed_not_mem_joinWith
    rw [counts_eq]
    intro t ht
    obtain ⟨k, -, rfl⟩ := List.mem_map.1 ht
    rw [List.mem_append, not_or]
    refine ⟨(Text.isPrintable_ofNat _).isOneLine.lineFeed_not_mem, ?_⟩
    cases k <;> decide
  unfold message
  simp only [List.mem_append, not_or]
  exact ⟨⟨⟨by decide +kernel, h⟩, by decide⟩, hcounts⟩

/-- Each entry is shown on one line. -/
theorem lineFeed_not_mem_linesOf (h : ∀ t ∈ r.texts, CodePoint.ofChar '\n' ∉ t) (k : Category) :
    ∀ l ∈ r.linesOf k, CodePoint.ofChar '\n' ∉ l := by
  obtain ⟨-, hmissing, hunparsed, hunsupported⟩ := forall_mem_texts_iff.1 h
  have hdash : CodePoint.ofChar '\n' ∉ Text.ofString "    - " := by decide
  have hcolon : CodePoint.ofChar '\n' ∉ Text.ofString ": " := by decide
  cases k with
  | missing =>
    refine List.forall_mem_map.2 ?_
    rintro ⟨path, referrers⟩ he
    obtain ⟨hpath, hreferrers⟩ := hmissing _ he
    -- without a file that refers to it, the path stands alone
    cases referrers with
    | nil => exact fun hmem => (List.mem_append.1 hmem).elim hdash hpath
    | cons referrer referrers =>
      unfold missingLine
      simp only [List.mem_append, not_or]
      exact ⟨⟨⟨⟨hdash, hpath⟩, by decide⟩, lineFeed_not_mem_joinWith hreferrers⟩, by decide⟩
  | unparsed =>
    refine List.forall_mem_map.2 ?_
    intro e he
    unfold unparsedLine
    simp only [List.mem_append, not_or]
    exact ⟨⟨⟨hdash, (hunparsed e he).1⟩, hcolon⟩, (hunparsed e he).2⟩
  | unsupported =>
    refine List.forall_mem_map.2 ?_
    intro e he
    unfold unsupportedLine
    simp only [List.mem_append, not_or]
    exact ⟨⟨⟨hdash, (hunsupported e he).1⟩, hcolon⟩,
      lineFeed_not_mem_joinWith (hunsupported e he).2⟩

/-- The report of an error is a line for the summary and the lines that are read off the object. -/
theorem splitOn_report (h : ∀ t ∈ r.texts, CodePoint.ofChar '\n' ∉ t) :
    Text.splitOn '\n' (ResolutionError.faulty r).report
      = reportLines (ResolutionError.faulty r).toJson := by
  have hlines : reportLines (ResolutionError.faulty r).toJson
      = (Text.ofString "❌ " ++ r.message) :: r.detailLines := by
    unfold reportLines
    rw [detailLines_eq]
    rfl
  have hfirst : CodePoint.ofChar '\n' ∉ Text.ofString "❌ " ++ r.message := by
    rw [List.mem_append, not_or]
    exact ⟨by decide, lineFeed_not_mem_message (forall_mem_texts_iff.1 h).1⟩
  have hbelow : ∀ l ∈ r.detailLines, CodePoint.ofChar '\n' ∉ l := by
    rw [detailLines_eq]
    intro l hl
    obtain ⟨k, -, hl⟩ := List.mem_flatMap.1 hl
    rw [items_toJson, map_line_itemsOf] at hl
    rcases List.mem_cons.1 hl with rfl | hl
    · cases k <;> decide
    · exact lineFeed_not_mem_linesOf h k l hl
  rw [hlines]
  exact Text.splitOn_joinWith (List.forall_mem_cons.2 ⟨hfirst, hbelow⟩) (List.cons_ne_nil _ _)

theorem length_reportLines (j : Json) :
    (reportLines j).length = 1 + (Category.present j).length
      + ((Category.present j).flatMap fun k => k.items j).length := by
  unfold reportLines
  rw [List.length_cons]
  induction Category.present j with
  | nil => rfl
  | cons k ks ih =>
    simp only [List.flatMap_cons, List.length_append, List.length_cons, List.length_map] at ih ⊢
    omega

theorem mem_present_toJson_iff :
    k ∈ Category.present (ResolutionError.faulty r).toJson ↔ r.entryCount k ≠ 0 := by
  rw [Category.mem_present, items_toJson, ← length_itemsOf, ne_eq, ne_eq, List.length_eq_zero_iff]

/-- **Renderings.** The JSON object of a report lists all entries of each category in their order,
each with its path and with the files that refer to it, the reason, or the names. If no path, name
or reason holds a line feed, the report has one line for the summary, and for each category that is
not empty a heading and one line for each item of the list in the object, which shows the path and
everything else that the item holds. The summary names exactly the categories that are not empty,
with the number of paths that are missing, of files that could not be parsed, and of pairs of a file
and a package that it may not use. -/
theorem report_renders (r : FaultReport) (h : ∀ t ∈ r.texts, CodePoint.ofChar '\n' ∉ t) :
    ∃ j, (ResolutionError.faulty r).toJson = j
      ∧ (∀ k : Category, j.field? k.field = some (.list (r.itemsOf k)) ∧ k.items j = r.itemsOf k
        ∧ (k.items j).length = r.entryCount k)
      ∧ Text.splitOn '\n' (ResolutionError.faulty r).report = reportLines j
      ∧ (reportLines j).length = 1 + (Category.present j).length
        + ((Category.present j).flatMap fun k => k.items j).length
      ∧ (∀ k, k ∈ Category.present j ↔ r.entryCount k ≠ 0)
      ∧ j.field? "entrypoint" = some (.text r.entrypoint)
      ∧ j.field? "message" = some (.text (ResolutionError.faulty r).message)
      ∧ (ResolutionError.faulty r).message = summary j
      ∧ ∀ k : Category, ((k.items j).flatMap k.faults).length = r.faultCount k := by
  refine ⟨_, rfl, ?_, splitOn_report h, length_reportLines _, fun k => mem_present_toJson_iff, rfl,
    rfl, message_eq_summary r, ?_⟩
  · intro k
    rw [items_toJson]
    exact ⟨field?_toJson r k, rfl, length_itemsOf r k⟩
  · intro k
    rw [items_toJson, length_flatMap_faults]

/-- Two paths are missing, one of which nothing refers to, and a file uses two packages that are not
provided. -/
def twoCategories : FaultReport where
  entrypoint := "a"
  missing := .ofList [("x", []), ("y", ["a", "b"])]
  unparsed := .empty
  unsupported := .ofList [("a", ["p", "q"])]

/-- The report has a heading for each of the two categories, and no other. -/
theorem twoCategories_renders :
    (∀ t ∈ twoCategories.texts, CodePoint.ofChar '\n' ∉ t)
      ∧ (Text.splitOn '\n' (ResolutionError.faulty twoCategories).report).tail
        = ["  Missing files:", "    - x", "    - y (referenced by a, b)",
          "  Unsupported dependencies:", "    - a: p, q"]
      ∧ twoCategories.faultCount .missing = 2 ∧ twoCategories.faultCount .unsupported = 2 := by
  have htexts : ∀ t ∈ twoCategories.texts, CodePoint.ofChar '\n' ∉ t := by
    rw [forall_mem_texts_iff]
    decide
  obtain ⟨_, rfl, -, hlines, -⟩ := report_renders twoCategories htexts
  exact ⟨htexts, (congrArg List.tail hlines).trans (by decide +kernel), rfl, rfl⟩

end FaultReport

end ImportClosure
