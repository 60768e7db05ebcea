import ImportClosure.Proofs.Encoding
import ImportClosure.Proofs.Memory
import ImportClosure.Proofs.Termination
import ImportClosure.Resolution.Configured
/-!
When an extraction answers.

Parsers read bytes, so a text is encoded before it is parsed, and that is the one step of an
extraction that can fail: whatever the parser makes of the bytes, be it a tree with errors, becomes
an answer. So an extractor of a grammar answers on a text exactly if the text has bytes, and a text
with a lone surrogate is not answered with a fault but breaks the extraction off
(`extract_returns_iff`). Where a grammar is not installed nothing is parsed, and every text is
answered with the reason. The grammars are parameters here, each with its parser or with the reason
why there is none, and nothing is assumed of the trees that parsers give. A run over files in memory
inherits both: it comes to files or to one of four errors, unless it meets a text without bytes, and
then it breaks off with nothing to report.
-/

namespace ImportClosure

/-! ## The extractors of the grammars -/

namespace SyntaxNode

/-- A tree with an error gives its description and nothing else, any other tree no fault. -/
theorem extract_cases (v : Variant) (root : SyntaxNode) :
    (∃ m, root.extract v = .found m) ∨ ∃ reason, root.extract v = .refused reason := by
  unfold extract
  split
  · exact Or.inr ⟨_, rfl⟩
  · exact Or.inl ⟨_, rfl⟩

end SyntaxNode

namespace Extractor

variable {v : Variant} {parse : Text → SyntaxNode} {content : Text} {x : Extraction}

theorem extract_ofParser (h : content.IsEncodable) :
    (ofParser v parse).extract content = .ok ((parse content).extract v) := by
  have hbytes := Utf8.encode_eq_ok h
  unfold ofParser
  dsimp only
  rw [hbytes]
  rfl

theorem isEncodable_of_extract (h : (ofParser v parse).extract content = .ok x) :
    content.IsEncodable ∧ x = (parse content).extract v := by
  have hencodable : content.IsEncodable := by
    rw [← Utf8.exists_encode_iff]
    unfold ofParser at h
    cases hbytes : Utf8.encode content with
    | ok bytes => exact ⟨bytes, rfl⟩
    | error why =>
      dsimp only at h
      rw [hbytes] at h
      cases h
  rw [extract_ofParser hencodable] at h
  exact ⟨hencodable, (Except.ok.inj h).symm⟩

/-- The extractor of a grammar, made from its parser, or from the reason why it is not installed. -/
def ofGrammar (v : Variant) : Except Text (Text → SyntaxNode) → Extractor
  | .ok parse => ofParser v parse
  | .error why => withoutGrammar v why

variable {grammar : Except Text (Text → SyntaxNode)}

/-- **Extractors of grammars.** Whatever the parser, exactly the texts that have bytes are answered,
and without a grammar every text is. -/
theorem exists_extract_ofGrammar_iff : (∃ x, (ofGrammar v grammar).extract content = .ok x)
    ↔ (∃ why, grammar = .error why) ∨ content.IsEncodable := by
  cases grammar with
  | error why => exact iff_of_true ⟨_, rfl⟩ (Or.inl ⟨why, rfl⟩)
  | ok parse =>
    constructor
    · exact fun ⟨_, h⟩ => Or.inr (isEncodable_of_extract h).1
    · rintro (⟨_, h⟩ | h)
      · cases h
      · exact ⟨_, extract_ofParser h⟩

/-- An answer is specifiers, or a reason. -/
theorem extract_ofGrammar_cases (h : (ofGrammar v grammar).extract content = .ok x) :
    (∃ m, x = .found m) ∨ ∃ reason, x = .refused reason := by
  cases grammar with
  | error why => exact Or.inr ⟨_, (Except.ok.inj h).symm⟩
  | ok parse =>
    rw [(isEncodable_of_extract h).2]
    exact SyntaxNode.extract_cases v _

end Extractor

/-! ## The registry of both -/

/-- The grammars: of each its parser, or why it is not installed. -/
abbrev Grammars := Variant → Except Text (Text → SyntaxNode)

/-- Parsers, one for each grammar. -/
abbrev Parsers := Variant → Text → SyntaxNode

/-- All grammars are installed, and these are their parsers. -/
def Parsers.grammars (parsers : Parsers) : Grammars := fun v => .ok (parsers v)

namespace Registry

/-- The registry of the extractors of some grammars. -/
def ofGrammars (grammars : Grammars) : Registry :=
  ofList ([Variant.javascript, Variant.typescript].map fun v => Extractor.ofGrammar v (grammars v))

variable {grammars : Grammars} {content name : Text} {x : Extraction}

theorem get?_ofGrammars (grammars : Grammars) (name : Text) :
    (ofGrammars grammars).get? name
      = (Variant.ofName? name).map fun v => Extractor.ofGrammar v (grammars v) := by
  have hentries : (ofGrammars grammars).extractors.entries
      = [(Variant.javascript.name, Extractor.ofGrammar .javascript (grammars .javascript)),
        (Variant.typescript.name, Extractor.ofGrammar .typescript (grammars .typescript))] := by
    unfold ofGrammars
    rw [List.map_cons, List.map_cons, List.map_nil]
    -- an extractor is registered for the same grammar, whether this is installed or not
    cases grammars .javascript <;> cases grammars .typescript <;> rfl
  unfold get? OrderedMap.get?
  rw [hentries]
  unfold Entries.lookup Entries.lookup Entries.lookup Variant.ofName?
  simp only [eq_comm (a := name)]
  split_ifs <;> rfl

/-- A name of no grammar is answered with a reason, and a name of a grammar by its extractor. -/
theorem extract_ofGrammars (grammars : Grammars) (content name : Text) :
    (ofGrammars grammars).extract content name
      = match Variant.ofName? name with
        | none => .ok (.refused ("Unsupported source variant: " ++ name))
        | some v => (Extractor.ofGrammar v (grammars v)).extract content := by
  unfold extract
  rw [get?_ofGrammars]
  cases Variant.ofName? name <;> rfl

/-- What is answered is specifiers, or a reason and no specifiers. -/
theorem specifiers_eq_empty_of_fault (h : (ofGrammars grammars).extract content name = .ok x)
    (hfault : x.fault ≠ none) : x.specifiers = ∅ := by
  have hcases : (∃ m, x = .found m) ∨ ∃ reason, x = .refused reason := by
    rw [extract_ofGrammars] at h
    cases hname : Variant.ofName? name with
    | none =>
      rw [hname] at h
      exact Or.inr ⟨_, (Except.ok.inj h).symm⟩
    | some v =>
      rw [hname] at h
      exact Extractor.extract_ofGrammar_cases h
  rcases hcases with ⟨m, rfl⟩ | ⟨reason, rfl⟩
  · exact absurd rfl hfault
  · rfl

end Registry

/-! ## Runs -/

namespace Resolution

variable {s : Settings} {r : Reader} {e f : SourceFile} {entrypoint : Text}

/-- The outcomes that are about the files: these themselves, or one of four errors. -/
inductive Answers (s : Settings) (entrypoint : Text) :
    Except Failure (OrderedMap Text Text) → Prop
  /-- The files needed. -/
  | files (files : OrderedMap Text Text) : Answers s entrypoint (.ok files)
  /-- The entrypoint is of an unsupported kind. -/
  | unsupportedEntrypoint :
    Answers s entrypoint (.error (.reported (.unsupportedEntrypoint entrypoint)))
  /-- The entrypoint cannot be read. -/
  | unreadableEntrypoint (why : Option Text) :
    Answers s entrypoint (.error (.reported (.unreadableEntrypoint entrypoint why)))
  /-- There are too many files. -/
  | limitExceeded (path : Text) :
    Answers s entrypoint (.error (.reported (.limitExceeded path s.maxFiles)))
  /-- Something is wrong with the files. -/
  | faulty (report : FaultReport) : Answers s entrypoint (.error (.reported (.faulty report)))

/-- Over a finite storage a run answers, or breaks off at a file that cannot be looked at. -/
theorem answers_or_unencodable (s : Settings) (hr : r.IsFinite) (entrypoint : Text) :
    Answers s entrypoint (resolve s r entrypoint).outcome
      ∨ ∃ e f why, IsEntry r entrypoint e ∧ Reachable s r e f ∧ examine s r f = .error why
        ∧ (resolve s r entrypoint).outcome = .error (.unencodable why) := by
  by_cases hentry : ∃ e, IsEntry r entrypoint e
  · obtain ⟨e, he⟩ := hentry
    rcases resolve_ends_of_isFinite (s := s) hr he with
      ⟨done, _, _, _, hout⟩ | ⟨_, hout⟩ | ⟨f, why, hf, hx, hout⟩
    · rw [hout]
      unfold verdict
      split
      · exact Or.inl (Answers.faulty _)
      · exact Or.inl (Answers.files _)
    · rw [hout]
      exact Or.inl (Answers.limitExceeded _)
    · exact Or.inr ⟨e, f, why, he, hf, hx, hout⟩
  · have hnone := (resolve_of_not_isEntry (s := s) fun e he => hentry ⟨e, he⟩).1
    rcases hnone with hout | ⟨why, hout⟩
    · rw [hout]
      exact Or.inl Answers.unsupportedEntrypoint
    · rw [hout]
      exact Or.inl (Answers.unreadableEntrypoint why)

/-- The settings of a run with the extractors of some grammars. -/
def grammarSettings (grammars : Grammars) (allowed : List Text) (maxFiles : Int) : Settings where
  allowed := allowed
  extract := fun content v => (Registry.ofGrammars grammars).extract content v.name
  maxFiles := maxFiles

variable {grammars : Grammars} {allowed : List Text} {maxFiles : Int}

theorem extract_grammarSettings (content : Text) (v : Variant) :
    (grammarSettings grammars allowed maxFiles).extract content v
      = (Extractor.ofGrammar v (grammars v)).extract content := by
  have hname : Variant.ofName? v.name = some v := by cases v <;> decide
  unfold grammarSettings
  dsimp only
  rw [Registry.extract_ofGrammars, hname]

/-- A file that cannot be looked at has a text without bytes. -/
theorem not_isEncodable_of_examine {why : Text.Unencodable}
    (h : examine (grammarSettings grammars allowed maxFiles) r f = .error why) :
    ¬ f.content.IsEncodable := by
  obtain ⟨v, _, hx⟩ := examine_eq_error_iff.1 h
  rw [extract_grammarSettings] at hx
  intro hencodable
  obtain ⟨x, hok⟩ := Extractor.exists_extract_ofGrammar_iff.2 (Or.inr hencodable)
  rw [hx] at hok
  cases hok

/-- Over files in memory, a run that does not answer has met a text without bytes. -/
theorem answers_or_unencodable_memory (m : MemoryFiles) (allowed : List Text) (maxFiles : Int)
    (entrypoint : Text) :
    Answers (grammarSettings grammars allowed maxFiles) entrypoint
        (resolve (grammarSettings grammars allowed maxFiles) m.reader entrypoint).outcome
      ∨ ∃ path content why, m.files.get? path = some content ∧ ¬ content.IsEncodable
        ∧ (resolve (grammarSettings grammars allowed maxFiles) m.reader entrypoint).outcome
          = .error (.unencodable why) := by
  refine (answers_or_unencodable _ m.isFinite_reader entrypoint).imp_right ?_
  rintro ⟨e, f, why, he, hf, hx, hout⟩
  have hget : m.files.get? f.path = some f.content :=
    (MemoryFiles.read_eq_ok_iff (hf.isNormal he.isNormal)).1 (hf.stored he.stored).read
  exact ⟨f.path, f.content, why, hget, not_isEncodable_of_examine hx, hout⟩

end Resolution

namespace Registry

/-- Parsers of grammars in which nothing is a sentence. -/
def refusingParsers : Parsers :=
  fun _ _ => ⟨"program", none, none, true, false, true, 0, 0, []⟩

/-- **Extraction.** The extractor of a grammar that is installed answers on a text exactly if the
text has bytes, and that of one that is not answers on every text with the reason. The registry does
so for every name of a grammar, while every other name is answered with a reason. An answer with a
reason has no specifiers. So a run over files in memory comes to files or to one of four errors,
unless one of the files has a text without bytes. -/
theorem extract_returns_iff (grammars : Grammars) :
    (∀ v content parse, grammars v = .ok parse →
        ((∃ x, (Extractor.ofGrammar v (grammars v)).extract content = .ok x)
          ↔ content.IsEncodable))
      ∧ (∀ v content why, grammars v = .error why →
        ∃ reason, (Extractor.ofGrammar v (grammars v)).extract content = .ok (.refused reason))
      ∧ (∀ name content, (∃ x, (ofGrammars grammars).extract content name = .ok x)
        ↔ (∀ v, Variant.ofName? name = some v → ∃ why, grammars v = .error why)
          ∨ content.IsEncodable)
      ∧ (∀ name content x, (ofGrammars grammars).extract content name = .ok x → x.fault ≠ none →
        x.specifiers = ∅)
      ∧ ∀ (m : MemoryFiles) allowed maxFiles entrypoint,
        Resolution.Answers (Resolution.grammarSettings grammars allowed maxFiles) entrypoint
            (resolve (Resolution.grammarSettings grammars allowed maxFiles) m.reader
              entrypoint).outcome
          ∨ ∃ path content why, m.files.get? path = some content ∧ ¬ content.IsEncodable
            ∧ (resolve (Resolution.grammarSettings grammars allowed maxFiles) m.reader
                entrypoint).outcome = .error (.unencodable why) := by
  refine ⟨?_, ?_, ?_, ?_, ?_⟩
  · intro v content parse hinstalled
    rw [Extractor.exists_extract_ofGrammar_iff, hinstalled]
    exact or_iff_right nofun
  · intro v content why hmissing
    rw [hmissing]
    exact ⟨_, rfl⟩
  · intro name content
    rw [extract_ofGrammars]
    cases hname : Variant.ofName? name with
    | none => exact iff_of_true ⟨_, rfl⟩ (Or.inl nofun)
    | some v => simpa using Extractor.exists_extract_ofGrammar_iff
  · exact fun _ _ _ h hfault => specifiers_eq_empty_of_fault h hfault
  · exact Resolution.answers_or_unencodable_memory

/-- A text that does not parse is answered with a reason and no specifiers. -/
theorem extract_returns_refusal :
    ∃ x, (ofGrammars refusingParsers.grammars).extract [')'] Variant.javascript.name = .ok x
        ∧ x.fault ≠ none ∧ x.specifiers = ∅ := by
  obtain ⟨-, -, -, hempty, -⟩ := extract_returns_iff refusingParsers.grammars
  exact ⟨_, rfl, nofun, hempty Variant.javascript.name [')'] _ rfl nofun⟩

/-- A lone surrogate is not answered by the extractor of the plain grammar. -/
theorem extract_loneSurrogate :
    (ofList standardExtractors).extract [CodePoint.ofNat 0xD800] Variant.javascript.name
      = .error ⟨CodePoint.ofNat 0xD800, 0, 1⟩ := rfl

end Registry

end ImportClosure
