import ImportClosure.Proofs.PrintedText
import ImportClosure.Proofs.ReportJson
/-!
Errors read back from their JSON.

An error may hold any texts, lone halves of surrogate pairs among them: its JSON object has names of
the program's own and no number but a whole one. So it is written in ASCII, and from every layout
the same object is read back, in which a text is another one only if UTF-16 cannot tell the two
apart (`ResolutionError.toJson_round_trip`).
-/

namespace ImportClosure

namespace Json

theorem mapTexts_texts (f : Text → Text) (ts : List Text) :
    (texts ts).mapTexts f = texts (ts.map f) := by
  unfold texts
  rw [mapTexts_list, List.map_map, List.map_map]
  rfl

/-- Objects that have a text and something else each are mapped one by one. -/
theorem mapTexts_entries {ν : Type} (g : Text → Text) (entries : List (Text × ν))
    (file other : Text) (f : ν → Json) :
    (list (entries.map fun e => object [(file, text e.1), (other, f e.2)])).mapTexts g
      = list (entries.map fun e => object [(file, text (g e.1)), (other, (f e.2).mapTexts g)]) := by
  rw [mapTexts_list, List.map_map]
  rfl

end Json

namespace FaultReport

/-- The three lists of faults with their texts mapped: all entries are there, in their order. -/
theorem mapTexts_jsonFields (r : FaultReport) (f : Text → Text) :
    r.jsonFields.map (fun field => (field.1, field.2.mapTexts f))
      = [(Text.ofString "missing_files", Json.list (r.missing.entries.map fun e =>
          .object [("file", .text (f e.1)), ("referenced_by", .texts (e.2.map f))])),
        ("parsing_errors", .list (r.unparsed.entries.map fun e =>
          .object [("file", .text (f e.1)), ("error", .text (f e.2))])),
        ("unsupported_dependencies", .list (r.unsupported.entries.map fun e =>
          .object [("file", .text (f e.1)), ("dependencies", .texts (e.2.map f))]))] := by
  unfold jsonFields
  simp only [List.map_cons, List.map_nil, Json.mapTexts_entries, Json.mapTexts_texts]
  rfl

end FaultReport

namespace ResolutionError

open Json (parse print mapTexts)

/-- Whatever texts an error holds, there are no other numbers in its JSON than whole ones. -/
theorem isPlain_toJson_any (e : ResolutionError) : e.toJson.IsPlain fun _ => True :=
  isPlain_toJson trivial trivial fun _ _ => trivial

/-! ## A report with halves of pairs -/

/-- A file whose name is a pair of surrogates is missing. It is needed by a file whose name is the
first half alone, and by one whose name is a quote, a control character and U+007F. -/
def halvesReport : FaultReport where
  entrypoint := "a.js"
  missing := .ofList [([CodePoint.ofNat 0xD83D, CodePoint.ofNat 0xDE00],
    [[CodePoint.ofNat 0xD83D], ['"', CodePoint.ofNat 0x1F, CodePoint.ofNat 0x7F]])]
  unparsed := .empty
  unsupported := .empty

/-- **JSON of errors.** Whatever its paths, names and reasons are made of, an error is written in
ASCII, and from every layout the same value is read back: its JSON object with the same fields and
items in the same order, the same whole numbers, and each text with its pairs of surrogates joined.
Such a text has the units of the text that was written, and it is that text exactly if no first half
of a pair is directly followed by a second one in it. Of a report, all faults are read back, in
their order. -/
theorem toJson_round_trip (e : ResolutionError) :
    (∀ layout, (print layout e.toJson).IsAscii
        ∧ parse (print layout e.toJson) = some (e.toJson.mapTexts Text.joinPairs))
      ∧ (∀ t : Text, t.joinPairs.units = t.units ∧ (t.joinPairs = t ↔ ¬t.HasPair))
      ∧ ∀ r, e = .faulty r → ∀ layout, ∃ j, parse (print layout e.toJson) = some j
        ∧ j.field? "missing_files" = some (.list (r.missing.entries.map fun fault => .object
            [("file", .text fault.1.joinPairs),
              ("referenced_by", .texts (fault.2.map Text.joinPairs))]))
        ∧ j.field? "parsing_errors" = some (.list (r.unparsed.entries.map fun fault => .object
            [("file", .text fault.1.joinPairs), ("error", .text fault.2.joinPairs)]))
        ∧ j.field? "unsupported_dependencies" = some (.list (r.unsupported.entries.map
            fun fault => .object [("file", .text fault.1.joinPairs),
              ("dependencies", .texts (fault.2.map Text.joinPairs))])) := by
  have hread : ∀ layout,
      parse (print layout e.toJson) = some (e.toJson.mapTexts Text.joinPairs) := by
    intro layout
    rw [← List.append_nil (print layout e.toJson)]
    exact Json.parse_print_joinPairs e.isPlain_toJson_any layout (List.forall_mem_nil _)
  refine ⟨fun layout => ⟨Json.isAscii_print e.isPlain_toJson_any layout, hread layout⟩,
    fun t => ⟨Text.units_joinPairs t, Text.joinPairs_eq_self_iff⟩, ?_⟩
  rintro r rfl layout
  -- the lists of faults are the last three fields, and no other field has their names
  refine ⟨_, hread layout, ?_⟩
  unfold toJson jsonFields
  rw [Json.mapTexts_object, List.map_append, FaultReport.mapTexts_jsonFields]
  exact ⟨rfl, rfl, rfl⟩

/-- The name that is a pair is read back as the one code point, and the other names as they were. -/
theorem halvesReport_round_trip :
    ∃ j, parse (print (some 2) (ResolutionError.faulty halvesReport).toJson) = some j
      ∧ j.field? "missing_files" = some (.list [.object
        [("file", .text [CodePoint.ofNat 0x1F600]),
          ("referenced_by", .texts
            [[CodePoint.ofNat 0xD83D], ['"', CodePoint.ofNat 0x1F, CodePoint.ofNat 0x7F]])]]) := by
  obtain ⟨-, -, hfaults⟩ := toJson_round_trip (.faulty halvesReport)
  obtain ⟨j, hread, hmissing, -⟩ := hfaults halvesReport rfl (some 2)
  exact ⟨j, hread, hmissing⟩

end ResolutionError

end ImportClosure
