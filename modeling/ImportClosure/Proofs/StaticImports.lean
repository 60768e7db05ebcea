import ImportClosure.Proofs.SpecifierOrder
import ImportClosure.Proofs.TreeWalk
import ImportClosure.Syntax.Specifiers
/-!
The specifiers of a tree.

What counts is said here of single nodes, without the functions that look for it: an import or a
re-export with a literal source (`Imports`), and a call that spells out what it requires
(`Requires`). Both grammars walk the same way and visit the same nodes. So of a tree without errors
the typed grammar registers what is imported at the nodes that are reached, and plain scripts what
is imported or required there (`extract_exact`): the two differ by what is required, and by nothing
else. A template is spelled out if no substitution is among its named parts; a substitution that is
not named does not count (`bareCall_registered`).
-/

namespace ImportClosure

/-! ## Local specifiers -/

/-- The specifier begins like a path. -/
def Text.IsLocal (s : Text) : Prop :=
  ∃ start ∈ ["/", "./", "../"], Text.ofString start <+: s

theorem Text.isLocalSpecifier_iff {s : Text} : s.isLocalSpecifier = true ↔ s.IsLocal := by
  unfold Text.isLocalSpecifier Text.IsLocal
  simp only [Bool.or_eq_true, List.isPrefixOf_iff_prefix, List.mem_cons, List.not_mem_nil, or_false,
    exists_eq_or_imp, exists_eq_left, or_assoc]
  exact Iff.rfl

namespace Specifiers

/-- Exactly these specifiers are registered, each on its own side; the empty one is not. -/
structure Registers (m : Specifiers) (found : Text → Prop) : Prop where
  /-- Those that name files. -/
  mem_files : ∀ s, s ∈ m.files ↔ found s ∧ s ≠ [] ∧ s.IsLocal
  /-- Those that name packages. -/
  mem_packages : ∀ s, s ∈ m.packages ↔ found s ∧ s ≠ [] ∧ ¬ s.IsLocal
  /-- No specifier is on both sides. -/
  disjoint : ∀ s ∈ m.files, s ∉ m.packages
  /-- The empty specifier is on neither side. -/
  nonempty : [] ∉ m.files ∧ [] ∉ m.packages

theorem registers_registerAll (found : List (Option Text)) :
    (none.registerAll found).Registers fun s => some s ∈ found := by
  have hside : ∀ (s : Text) (isLocal : Bool), s ∈ (none.registerAll found).side isLocal
      ↔ some s ∈ found ∧ s ≠ [] ∧ s.isLocalSpecifier = isLocal := by
    intro s isLocal
    have hempty : s ∉ none.side isLocal := by cases isLocal <;> exact TextSet.not_mem_empty
    exact mem_side_registerAll.trans (or_iff_right hempty)
  have hfiles : ∀ s, s ∈ (none.registerAll found).files
      ↔ some s ∈ found ∧ s ≠ [] ∧ s.IsLocal := by
    intro s
    rw [← Text.isLocalSpecifier_iff]
    exact hside s true
  have hpackages : ∀ s, s ∈ (none.registerAll found).packages
      ↔ some s ∈ found ∧ s ≠ [] ∧ ¬ s.IsLocal := by
    intro s
    rw [← Text.isLocalSpecifier_iff, Bool.not_eq_true]
    exact hside s false
  refine ⟨hfiles, hpackages, ?_, ?_, ?_⟩
  · intro s hf hp
    exact ((hpackages s).1 hp).2.2 ((hfiles s).1 hf).2.2
  · exact fun h => ((hfiles []).1 h).2.1 rfl
  · exact fun h => ((hpackages []).1 h).2.1 rfl

theorem Registers.congr {m : Specifiers} {found found' : Text → Prop} (h : m.Registers found)
    (hiff : ∀ s, found s ↔ found' s) : m.Registers found' := by
  obtain rfl : found = found' := funext fun s => propext (hiff s)
  exact h

end Specifiers

namespace SyntaxNode

variable {root n c : SyntaxNode} {s : Text} {role : String}

/-! ## What a node introduces -/

/-- The first part with a role. -/
def HasField (n : SyntaxNode) (role : String) (c : SyntaxNode) : Prop :=
  ∃ before after, n.children = before ++ c :: after ∧ c.role = some role
    ∧ ∀ b ∈ before, b.role ≠ some role

/-- The first named part that is no comment. -/
def HasFirst (n c : SyntaxNode) : Prop :=
  ∃ before after, n.children = before ++ c :: after ∧ c.isNamed = true ∧ c.kind ≠ "comment"
    ∧ ∀ b ∈ before, b.isNamed = true → b.kind = "comment"

/-- The node is an import or a re-export whose source is a string with this value. -/
def Imports (n : SyntaxNode) (s : Text) : Prop :=
  (n.kind = "import_statement" ∨ n.kind = "export_statement")
    ∧ ∃ source, n.HasField "source" source ∧ source.kind = "string" ∧ source.stringValue = s

/-- The callee is `require` or `module.require`. -/
def NamesRequire (callee : SyntaxNode) : Prop :=
  (callee.kind = "identifier" ∧ callee.text = "require")
    ∨ callee.kind = "member_expression"
      ∧ ∃ object property, callee.HasField "object" object ∧ callee.HasField "property" property
        ∧ object.kind = "identifier" ∧ object.text = "module" ∧ property.text = "require"

/-- The argument is a string with this value, or a template with this value that has no substitution
among its parts. -/
def Spells (parts : SyntaxNode → List SyntaxNode) (argument : SyntaxNode) (s : Text) : Prop :=
  (argument.kind = "string" ∨ argument.kind = "template_string"
      ∧ ∀ c ∈ parts argument, c.kind ≠ "template_substitution")
    ∧ argument.stringValue = s

/-- The node is a call of `require` that spells out this specifier, where the parts of a template
are those that are given. -/
def Requires (parts : SyntaxNode → List SyntaxNode) (n : SyntaxNode) (s : Text) : Prop :=
  n.kind = "call_expression"
    ∧ ∃ arguments callee argument, n.HasField "arguments" arguments ∧ arguments.kind = "arguments"
      ∧ n.HasField "function" callee ∧ callee.NamesRequire
      ∧ arguments.HasFirst argument ∧ Spells parts argument s

theorem child?_eq_some_iff : n.child? role = some c ↔ n.HasField role c := by
  unfold child? HasField
  rw [List.find?_eq_some_iff_append]
  simp only [decide_eq_true_eq, Bool.not_eq_true', decide_eq_false_iff_not]
  grind

theorem sourceSpecifier?_eq_some_iff :
    n.sourceSpecifier? = some s ↔
      ∃ source, n.HasField "source" source ∧ source.kind = "string" ∧ source.stringValue = s := by
  simp only [← child?_eq_some_iff]
  unfold sourceSpecifier?
  cases n.child? "source" with
  | none => simp
  | some source => simp

theorem isRequire_iff : n.isRequire = true ↔ n.NamesRequire := by
  unfold NamesRequire
  simp only [← child?_eq_some_iff]
  unfold isRequire
  split_ifs with hid hmember
  · simp [hid]
  · cases n.child? "object" <;> cases n.child? "property" <;> simp [hmember, and_assoc]
  · simp [hid, hmember]

theorem templateValue?_eq_some_iff :
    n.templateValue? = some s
      ↔ (∀ c ∈ n.namedChildren, c.kind ≠ "template_substitution") ∧ n.stringValue = s := by
  unfold templateValue?
  split
  case isTrue hsubst =>
    obtain ⟨c, hc, hkind⟩ := List.any_eq_true.1 hsubst
    exact ⟨nofun, fun h => absurd (of_decide_eq_true hkind) (h.1 c hc)⟩
  case isFalse hsubst =>
    have hnone : ∀ c ∈ n.namedChildren, c.kind ≠ "template_substitution" := by
      intro c hc hkind
      exact hsubst (List.any_eq_true.2 ⟨c, hc, decide_eq_true hkind⟩)
    rw [Option.some_inj, and_iff_right hnone]

theorem argumentSpecifier?_eq_some_iff :
    n.argumentSpecifier? = some s ↔ Spells namedChildren n s := by
  unfold argumentSpecifier? Spells
  split_ifs with hstring htemplate
  · rw [Option.some_inj, and_iff_right (Or.inl hstring)]
  · rw [templateValue?_eq_some_iff, or_iff_right hstring, and_iff_right htemplate]
  · simp [hstring, htemplate]

/-- What is left of the named parts without comments begins with the first one that is none. -/
theorem hasFirst_iff :
    n.HasFirst c ↔ (n.namedChildren.filter (fun c => c.kind ≠ "comment")).head? = some c := by
  unfold HasFirst namedChildren
  rw [List.filter_filter, List.head?_filter, List.find?_eq_some_iff_append]
  simp only [ne_eq, decide_not, Bool.and_eq_true, Bool.not_eq_true', decide_eq_false_iff_not,
    Bool.and_eq_false_imp]
  grind

theorem callSpecifier?_eq_some_iff (hcall : n.kind = "call_expression") :
    n.callSpecifier? = some s ↔ Requires namedChildren n s := by
  unfold Requires
  simp only [← child?_eq_some_iff, ← isRequire_iff, ← argumentSpecifier?_eq_some_iff, hasFirst_iff]
  unfold callSpecifier?
  cases n.child? "arguments" with
  | none => simp
  | some arguments =>
    cases n.child? "function" with
    | none => simp
    | some callee =>
      simp only [hcall, true_and, Option.some_inj, exists_and_left, exists_eq_left']
      split
      case isFalse hno =>
        constructor
        · intro h
          cases h
        · rintro ⟨harguments, hcallee, -⟩
          exact absurd ⟨harguments, hcallee⟩ hno
      case isTrue hyes =>
        cases arguments.namedChildren.filter (fun c => c.kind ≠ "comment") with
        | nil => simp
        | cons argument rest => simp [hyes]

/-- What a node introduces in either grammar. -/
def Introduces (n : SyntaxNode) : Variant → Text → Prop
  | .javascript, s => n.Imports s ∨ Requires namedChildren n s
  | .typescript, s => n.Imports s

theorem specifier?_eq_some_iff {v : Variant} : n.specifier? v = some s ↔ n.Introduces v s := by
  unfold specifier?
  by_cases himport : n.kind = "import_statement" ∨ n.kind = "export_statement"
  · have himports : n.sourceSpecifier? = some s ↔ n.Imports s :=
      sourceSpecifier?_eq_some_iff.trans (and_iff_right himport).symm
    have hno : ¬ Requires namedChildren n s := by
      rintro ⟨hcall, -⟩
      rw [hcall] at himport
      exact absurd himport (by decide)
    rw [if_pos himport, himports]
    cases v with
    | javascript => exact (or_iff_left hno).symm
    | typescript => exact Iff.rfl
  · have hno : ¬ n.Imports s := fun h => himport h.1
    rw [if_neg himport]
    cases v with
    | javascript =>
      by_cases hcall : n.kind = "call_expression"
      · rw [if_pos ⟨hcall, rfl⟩, callSpecifier?_eq_some_iff hcall]
        exact (or_iff_right hno).symm
      · rw [if_neg fun h => hcall h.1]
        exact ⟨nofun, fun h => h.elim (absurd · hno) fun h => absurd h.1 hcall⟩
    | typescript =>
      rw [if_neg fun h => absurd h.2 nofun]
      exact ⟨nofun, fun h => absurd h hno⟩

/-! ## What a tree gives -/

theorem extract_eq (h : root.hasError = false) (v : Variant) :
    root.extract v = .found (Specifiers.none.registerAll (root.visited.map (specifier? v))) := by
  unfold extract
  rw [if_neg (Bool.eq_false_iff.1 h)]

/-- The nodes that are reached are registered for, in either grammar. -/
theorem registers_visited (root : SyntaxNode) (v : Variant) :
    (Specifiers.none.registerAll (root.visited.map (specifier? v))).Registers
      fun s => ∃ n, root.Reaches n ∧ n.Introduces v s := by
  refine (Specifiers.registers_registerAll _).congr fun s => ?_
  rw [List.mem_map]
  simp only [mem_visited, specifier?_eq_some_iff]

/-- **The specifiers of a tree.** Of a tree without errors either grammar registers node by node,
each place once. So the typed grammar registers exactly what is imported at the nodes that are
reached, plain scripts what is imported or required there, and plain scripts have besides what the
typed grammar has exactly what is required. -/
theorem extract_exact (h : root.hasError = false) :
    ∃ js ts : Specifiers,
      root.extract .javascript = .found js ∧ root.extract .typescript = .found ts
      ∧ (∃ placed, root.Enumerates placed
          ∧ js = Specifiers.none.registerAll (placed.map fun x => x.2.specifier? .javascript)
          ∧ ts = Specifiers.none.registerAll (placed.map fun x => x.2.specifier? .typescript))
      ∧ ts.Registers (fun s => ∃ n, root.Reaches n ∧ n.Imports s)
      ∧ js.Registers (fun s => ∃ n, root.Reaches n ∧ (n.Imports s ∨ Requires namedChildren n s))
      ∧ (∀ s, s ∈ js.files ↔ s ∈ ts.files
          ∨ (∃ n, root.Reaches n ∧ Requires namedChildren n s) ∧ s ≠ [] ∧ s.IsLocal)
      ∧ ∀ s, s ∈ js.packages ↔ s ∈ ts.packages
          ∨ (∃ n, root.Reaches n ∧ Requires namedChildren n s) ∧ s ≠ [] ∧ ¬ s.IsLocal := by
  obtain ⟨placed, hplaced, hvisited⟩ := visited_enumerates root
  have hjs := registers_visited root .javascript
  have hts := registers_visited root .typescript
  have hmore : ∀ s, (∃ n, root.Reaches n ∧ n.Introduces .javascript s)
      ↔ (∃ n, root.Reaches n ∧ n.Introduces .typescript s)
        ∨ ∃ n, root.Reaches n ∧ Requires namedChildren n s := by
    intro s
    simp only [Introduces, and_or_left, exists_or]
  refine ⟨_, _, extract_eq h .javascript, extract_eq h .typescript, ⟨placed, hplaced, ?_, ?_⟩,
    hts, hjs, ?_, ?_⟩
  · rw [← hvisited, List.map_map]
    rfl
  · rw [← hvisited, List.map_map]
    rfl
  · intro s
    rw [hjs.mem_files, hts.mem_files, hmore, or_and_right]
  · intro s
    rw [hjs.mem_packages, hts.mem_packages, hmore, or_and_right]

/-- A named node that covers some text. -/
def named (kind text : String) (role : Option String) (children : List SyntaxNode) : SyntaxNode :=
  ⟨kind, some (Utf8.encodeAll text), role, true, false, false, 0, 0, children⟩

/-- The tree of a script that imports a file, and requires a package behind a comment. -/
def mixedTree : SyntaxNode :=
  named "program" "import './a'; require(/* */ 'p')" none
    [named "import_statement" "import './a'" none [named "string" "'./a'" (some "source") []],
      named "call_expression" "require(/* */ 'p')" none
        [named "identifier" "require" (some "function") [],
          named "arguments" "(/* */ 'p')" (some "arguments")
            [named "comment" "/* */" none [], named "string" "'p'" none []]]]

theorem mixedTree_exact :
    mixedTree.hasError = false
      ∧ ∃ js ts : Specifiers,
        mixedTree.extract .javascript = .found js ∧ mixedTree.extract .typescript = .found ts
        ∧ js.files.toList = ["./a"] ∧ js.packages.toList = ["p"]
        ∧ ts.files.toList = ["./a"] ∧ ts.packages.toList = []
        ∧ (∃ n, mixedTree.Reaches n ∧ n.Imports "./a")
        ∧ ∃ n, mixedTree.Reaches n ∧ Requires namedChildren n "p" := by
  have herror : mixedTree.hasError = false := by decide +kernel
  obtain ⟨js, ts, hjs, hts, -, himports, -, -, hpackages⟩ := extract_exact herror
  have hjsval : js = (mixedTree.extract .javascript).specifiers := by rw [hjs]; rfl
  have htsval : ts = (mixedTree.extract .typescript).specifiers := by rw [hts]; rfl
  have hjsp : js.packages.toList = ["p"] := by rw [hjsval]; decide +kernel
  have htsf : ts.files.toList = ["./a"] := by rw [htsval]; decide +kernel
  have htsp : ts.packages.toList = [] := by rw [htsval]; decide +kernel
  refine ⟨herror, js, ts, hjs, hts, by rw [hjsval]; decide +kernel, hjsp, htsf, htsp, ?_, ?_⟩
  · have hmem : Text.ofString "./a" ∈ ts.files := by
      rw [← TextSet.mem_toList, htsf]
      exact List.mem_singleton_self _
    exact ((himports.mem_files _).1 hmem).1
  · have hmem : Text.ofString "p" ∈ js.packages := by
      rw [← TextSet.mem_toList, hjsp]
      exact List.mem_singleton_self _
    rcases (hpackages _).1 hmem with hts' | ⟨hrequires, -⟩
    · rw [← TextSet.mem_toList, htsp] at hts'
      exact absurd hts' List.not_mem_nil
    · exact hrequires

/-- The call of `require` with a template whose only part is a substitution that is not named. -/
def bareCall : SyntaxNode :=
  named "call_expression" "require(`p`)" none
    [named "identifier" "require" (some "function") [],
      named "arguments" "(`p`)" (some "arguments")
        [named "template_string" "`p`" none
          [{ named "template_substitution" "p" none [] with isNamed := false }]]]

/-- Substitutions that are not named do not count: it is not so that templates are registered for
exactly if they have no substitution of any sort. -/
theorem bareCall_registered :
    ¬ ∀ root : SyntaxNode, root.hasError = false →
      ∃ js : Specifiers, root.extract .javascript = .found js
        ∧ js.Registers fun s => ∃ n, root.Reaches n ∧ (n.Imports s ∨ Requires children n s) := by
  intro h
  obtain ⟨js, hjs, hregisters⟩ := h bareCall rfl
  have hpackages : js.packages.toList = ["p"] := by
    have hval : js = (bareCall.extract .javascript).specifiers := by rw [hjs]; rfl
    rw [hval]
    decide +kernel
  have hmem : Text.ofString "p" ∈ js.packages := by
    rw [← TextSet.mem_toList, hpackages]
    exact List.mem_singleton_self _
  obtain ⟨⟨n, hn, hfound⟩, -⟩ := (hregisters.mem_packages _).1 hmem
  -- no node that is visited is an import, or has an argument other than the template
  have hvisited : ∀ n ∈ bareCall.visited,
      ¬ (n.kind = "import_statement" ∨ n.kind = "export_statement")
        ∧ ∀ arguments ∈ n.child? "arguments",
          ∀ argument ∈ (arguments.namedChildren.filter (fun c => c.kind ≠ "comment")).head?,
            argument.kind ≠ "string"
              ∧ ∃ c ∈ argument.children, c.kind = "template_substitution" := by
    decide +kernel
  obtain ⟨himport, hargument⟩ := hvisited n (mem_visited.2 hn)
  rcases hfound with ⟨hkind, -⟩ | ⟨-, arguments, callee, argument, hfield, -, -, -, hfirst, hspells⟩
  · exact himport hkind
  · obtain ⟨hstring, c, hc, hsubst⟩ :=
      hargument arguments (child?_eq_some_iff.2 hfield) argument (hasFirst_iff.1 hfirst)
    rcases hspells.1 with hkind | ⟨-, hnone⟩
    · exact hstring hkind
    · exact hnone c hc hsubst

end SyntaxNode

end ImportClosure
