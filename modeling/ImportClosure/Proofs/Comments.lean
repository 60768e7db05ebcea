import ImportClosure.Proofs.StaticImports
import ImportClosure.Proofs.TreeEdits
/-!
What comments change.

The parts that are looked up by role are not changed by comments that are put into a tree, nor is the
first argument of a call if comments of both kinds are passed over. So what is imported is the same
(`Edit.sourceSpecifier?`), and what is required would be the same too (`Edit.callSpecifierPast?`).

The walk passes over comments of one kind only. A call of `require` in which one of the other kind
stands before the arguments is not read, and it cannot be brought back by further comments. So
comments add nothing to what is found, and what they may take away is only what such calls spell
(`extract_commented`); that they may is shown by `markupCall_lost`.
-/

namespace ImportClosure.SyntaxNode

variable {root root' n n' c x : SyntaxNode} {s : Text} {v : Variant}

/-! ## What is imported -/

theorem Edit.sourceSpecifier? (h : Edit n n') : n'.sourceSpecifier? = n.sourceSpecifier? := by
  have hbind : ∀ m : SyntaxNode, m.sourceSpecifier? = (m.child? "source").bind fun source =>
      if source.kind = "string" then some source.stringValue else none := by
    intro m
    unfold SyntaxNode.sourceSpecifier?
    cases m.child? "source" <;> rfl
  rw [hbind, hbind]
  apply h.bind_child?
  intro c c' _ hedit
  rw [hedit.head.kind]
  by_cases hkind : c.kind = "string"
  · have hworded : c.IsWorded := Or.inl (by rw [hkind]; decide)
    rw [if_pos hkind, if_pos hkind, hedit.head.stringValue hworded]
  · rw [if_neg hkind, if_neg hkind]

/-! ## What is required -/

/-- A named part that is no comment of these kinds. -/
def isArgument (comments : List String) (c : SyntaxNode) : Bool :=
  c.isNamed && !comments.contains c.kind

/-- The specifier of a call of `require`, if comments of these kinds are passed over. -/
def callSpecifierPast? (comments : List String) (n : SyntaxNode) : Option Text :=
  (n.child? "arguments").bind fun arguments =>
    (n.child? "function").bind fun callee =>
      if arguments.kind = "arguments" ∧ callee.isRequire then
        (arguments.children.find? (isArgument comments)).bind argumentSpecifier?
      else none

/-- The node is a call that spells out this specifier, but a comment in the manner of markup is the
first thing that is looked at. -/
def Obscures (n : SyntaxNode) (s : Text) : Prop :=
  n.kind = "call_expression" ∧ n.callSpecifierPast? commentKinds = some s
    ∧ ∃ arguments c, n.HasField "arguments" arguments ∧ arguments.HasFirst c
      ∧ c.kind = "html_comment"

theorem isBlind_isArgument : IsBlind (isArgument commentKinds) where
  head c c' h := by
    unfold isArgument
    rw [h.isNamed, h.kind]
  comment x hx := by
    unfold isArgument
    rw [List.contains_iff_mem.2 hx.kind, Bool.not_true, Bool.and_false]

theorem Edit.isRequire (h : Edit n n') : n'.isRequire = n.isRequire := by
  -- a member is told by two of its parts
  have hmember : ∀ m : SyntaxNode, m.kind = "member_expression" → m.isRequire
      = (((m.child? "object").bind fun object =>
          some (object.kind == "identifier" && object.text == Text.ofString "module")).any id
        && ((m.child? "property").bind fun property => some property.text).any
          (· == Text.ofString "require")) := by
    intro m hm
    unfold SyntaxNode.isRequire
    rw [hm]
    cases m.child? "object" <;> cases m.child? "property" <;> simp
  by_cases hm : n.kind = "member_expression"
  · have hm' : n'.kind = "member_expression" := h.head.kind.trans hm
    rw [hmember n hm, hmember n' hm', h.bind_child?, h.bind_child?]
    · intro c c' hrole hedit
      rw [hedit.head.text (Or.inr hrole)]
    · intro c c' _ hedit
      rw [hedit.head.kind]
      by_cases hkind : c.kind = "identifier"
      · rw [hedit.head.text (Or.inl (by rw [hkind]; decide))]
      · rw [beq_false_of_ne hkind, Bool.false_and, Bool.false_and]
  · unfold SyntaxNode.isRequire
    rw [h.head.kind, if_neg hm, if_neg hm]
    by_cases hid : n.kind = "identifier"
    · rw [if_pos hid, if_pos hid, h.head.text (Or.inl (by rw [hid]; decide))]
    · rw [if_neg hid, if_neg hid]

/-- A template has the same substitutions after an edit. -/
theorem Edit.templateValue? (h : Edit n n') (hn : n.IsWorded) :
    n'.templateValue? = n.templateValue? := by
  have hblind : IsBlind fun c => c.isNamed && c.kind = "template_substitution" := by
    constructor
    · intro c c' hhead
      rw [hhead.isNamed, hhead.kind]
    · intro x hx
      have hkind : x.kind ≠ "template_substitution" := by
        intro hsubst
        have hmem := hx.kind
        rw [hsubst] at hmem
        exact absurd hmem (by decide)
      rw [decide_eq_false hkind, Bool.and_false]
  have hany : ∀ m : SyntaxNode, m.namedChildren.any (fun c => c.kind = "template_substitution")
      = (m.children.find? fun c => c.isNamed && c.kind = "template_substitution").isSome := by
    intro m
    unfold namedChildren
    rw [List.any_filter, Bool.eq_iff_iff, List.any_eq_true, List.find?_isSome]
  unfold SyntaxNode.templateValue?
  rw [hany, hany, h.head.stringValue hn]
  rcases h.find? hblind with heq | ⟨c, c', hc, hc', -⟩
  · rw [heq]
  · rw [hc, hc']
    rfl

theorem Edit.argumentSpecifier? (h : Edit n n') :
    n'.argumentSpecifier? = n.argumentSpecifier? := by
  unfold SyntaxNode.argumentSpecifier?
  rw [h.head.kind]
  by_cases hstring : n.kind = "string"
  · rw [if_pos hstring, if_pos hstring, h.head.stringValue (Or.inl (by rw [hstring]; decide))]
  · rw [if_neg hstring, if_neg hstring]
    by_cases htemplate : n.kind = "template_string"
    · rw [if_pos htemplate, if_pos htemplate,
        h.templateValue? (Or.inl (by rw [htemplate]; decide))]
    · rw [if_neg htemplate, if_neg htemplate]

/-- If comments of both kinds are passed over, an edit does not change what a call spells. -/
theorem Edit.callSpecifierPast? (h : Edit n n') :
    n'.callSpecifierPast? commentKinds = n.callSpecifierPast? commentKinds := by
  have hfirst : ∀ arguments arguments', Edit arguments arguments' →
      (arguments'.children.find? (isArgument commentKinds)).bind SyntaxNode.argumentSpecifier?
        = (arguments.children.find? (isArgument commentKinds)).bind
            SyntaxNode.argumentSpecifier? := by
    intro arguments arguments' hedit
    exact hedit.bind_find? isBlind_isArgument _ fun _ _ _ hargument => hargument.argumentSpecifier?
  unfold SyntaxNode.callSpecifierPast?
  rw [h.bind_child? "arguments"]
  · congr 1
    funext arguments
    apply h.bind_child?
    intro callee callee' _ hedit
    rw [hedit.isRequire]
  · intro arguments arguments' _ hedit
    rw [hedit.head.kind, hfirst arguments arguments' hedit]

/-! ## What is not read -/

/-- The first part that the walk takes for an argument is one, or it is a comment in the manner of
markup. -/
theorem find?_isArgument_cases (cs : List SyntaxNode) :
    cs.find? (isArgument ["comment"]) = cs.find? (isArgument commentKinds)
      ∨ ∃ c, cs.find? (isArgument ["comment"]) = some c ∧ c.kind = "html_comment" := by
  induction cs with
  | nil => exact Or.inl rfl
  | cons c cs ih =>
    rw [List.find?_cons, List.find?_cons]
    cases hone : isArgument ["comment"] c with
    | true =>
      by_cases hmarkup : c.kind = "html_comment"
      · exact Or.inr ⟨c, rfl, hmarkup⟩
      · have hboth : isArgument commentKinds c = true := by
          unfold isArgument at hone ⊢
          simp_all [commentKinds]
        rw [hboth]
        exact Or.inl rfl
    | false =>
      have hboth : isArgument commentKinds c = false := by
        unfold isArgument at hone ⊢
        simp_all [commentKinds]
      rw [hboth]
      exact ih

theorem hasFirst_iff_find? :
    n.HasFirst c ↔ n.children.find? (isArgument ["comment"]) = some c := by
  rw [hasFirst_iff]
  unfold namedChildren
  rw [List.filter_filter, List.head?_filter]
  have htest : (fun c : SyntaxNode => decide (c.kind ≠ "comment") && c.isNamed)
      = isArgument ["comment"] := by
    funext c
    simp [isArgument, Bool.and_comm]
  rw [htest]

theorem callSpecifierPast?_eq_some_iff {comments : List String} :
    n.callSpecifierPast? comments = some s
      ↔ ∃ arguments callee argument, n.child? "arguments" = some arguments
        ∧ arguments.kind = "arguments" ∧ n.child? "function" = some callee
        ∧ callee.isRequire = true ∧ arguments.children.find? (isArgument comments) = some argument
        ∧ argument.argumentSpecifier? = some s := by
  unfold callSpecifierPast?
  simp only [Option.bind_eq_some_iff]
  constructor
  · rintro ⟨arguments, harguments, callee, hcallee, h⟩
    split at h
    case isFalse => cases h
    case isTrue hcall =>
      obtain ⟨argument, hargument, hs⟩ := Option.bind_eq_some_iff.1 h
      exact ⟨arguments, callee, argument, harguments, hcall.1, hcallee, hcall.2, hargument, hs⟩
  · rintro ⟨arguments, callee, argument, harguments, hkind, hcallee, hrequire, hargument, hs⟩
    refine ⟨arguments, harguments, callee, hcallee, ?_⟩
    rw [if_pos ⟨hkind, hrequire⟩]
    exact Option.bind_eq_some_iff.2 ⟨argument, hargument, hs⟩

/-- The walk passes over comments of one kind. -/
theorem callSpecifier?_eq_some_iff_past (hcall : n.kind = "call_expression") :
    n.callSpecifier? = some s ↔ n.callSpecifierPast? ["comment"] = some s := by
  rw [callSpecifier?_eq_some_iff hcall, callSpecifierPast?_eq_some_iff]
  unfold Requires
  simp only [hasFirst_iff_find?, ← child?_eq_some_iff, ← isRequire_iff,
    ← argumentSpecifier?_eq_some_iff, hcall, true_and]

theorem kind_of_argumentSpecifier? (h : n.argumentSpecifier? = some s) :
    n.kind ≠ "html_comment" := by
  intro hkind
  unfold argumentSpecifier? at h
  rw [hkind, if_neg (by decide), if_neg (by decide)] at h
  cases h

/-- What a call is read for it spells, and then nothing obscures it. -/
theorem past_of_callSpecifier? (hcall : n.kind = "call_expression")
    (h : n.callSpecifier? = some s) :
    n.callSpecifierPast? commentKinds = some s ∧ ¬ n.Obscures s := by
  rw [callSpecifier?_eq_some_iff_past hcall, callSpecifierPast?_eq_some_iff] at h
  obtain ⟨arguments, callee, argument, harguments, hkind, hcallee, hrequire, hargument, hs⟩ := h
  have hmarkup : ∀ c, arguments.children.find? (isArgument ["comment"]) = some c →
      c.kind ≠ "html_comment" := by
    intro c hc
    obtain rfl := Option.some.inj (hargument.symm.trans hc)
    exact kind_of_argumentSpecifier? hs
  constructor
  · have hboth : arguments.children.find? (isArgument commentKinds) = some argument := by
      rcases find?_isArgument_cases arguments.children with heq | ⟨c, hc, hckind⟩
      · exact heq.symm.trans hargument
      · exact absurd hckind (hmarkup c hc)
    exact callSpecifierPast?_eq_some_iff.2
      ⟨arguments, callee, argument, harguments, hkind, hcallee, hrequire, hboth, hs⟩
  · rintro ⟨-, -, arguments', c, harguments', hc, hckind⟩
    obtain rfl := Option.some.inj (harguments.symm.trans (child?_eq_some_iff.2 harguments'))
    exact hmarkup c (hasFirst_iff_find?.1 hc) hckind

/-- What a call spells it is read for, unless something obscures it. -/
theorem callSpecifier?_or_obscures (hcall : n.kind = "call_expression")
    (h : n.callSpecifierPast? commentKinds = some s) :
    n.callSpecifier? = some s ∨ n.Obscures s := by
  obtain ⟨arguments, callee, argument, harguments, hkind, hcallee, hrequire, hargument, hs⟩ :=
    callSpecifierPast?_eq_some_iff.1 h
  rcases find?_isArgument_cases arguments.children with heq | ⟨c, hc, hckind⟩
  · left
    rw [callSpecifier?_eq_some_iff_past hcall, callSpecifierPast?_eq_some_iff]
    exact ⟨arguments, callee, argument, harguments, hkind, hcallee, hrequire,
      heq.trans hargument, hs⟩
  · right
    exact ⟨hcall, h, arguments, c, child?_eq_some_iff.1 harguments, hasFirst_iff_find?.2 hc, hckind⟩

/-- Of these parts, the first that the walk takes for an argument is a comment in the manner of
markup. -/
def MarkupFirst (cs : List SyntaxNode) : Prop :=
  ∃ c, cs.find? (isArgument ["comment"]) = some c ∧ c.kind = "html_comment"

/-- Parts in front make no difference between two lists of parts. -/
theorem MarkupFirst.append {before cs cs' : List SyntaxNode}
    (hcs : MarkupFirst cs → MarkupFirst cs') (h : MarkupFirst (before ++ cs)) :
    MarkupFirst (before ++ cs') := by
  unfold MarkupFirst at hcs h ⊢
  rw [List.find?_append] at h ⊢
  cases hbefore : before.find? (isArgument ["comment"]) with
  | some b =>
    rw [hbefore] at h
    exact h
  | none =>
    rw [hbefore] at h
    exact hcs h

/-- A comment in the manner of markup that stands before the arguments stays in front of them: only
another one can come before it. -/
theorem Edit.markupFirst (h : Edit n n') (hn : MarkupFirst n.children) :
    MarkupFirst n'.children := by
  cases h with
  | insert before inserted after _ parts parts' comments =>
    rw [parts] at hn
    rw [parts', List.append_assoc]
    refine hn.append ?_
    rintro ⟨c, hc, hmarkup⟩
    unfold MarkupFirst
    rw [List.find?_append, hc]
    cases hinserted : inserted.find? (isArgument ["comment"]) with
    | none => exact ⟨c, rfl, hmarkup⟩
    | some x =>
      have hx := (comments x (List.mem_of_find?_eq_some hinserted)).kind
      have hargument := List.find?_some hinserted
      refine ⟨x, rfl, ?_⟩
      simp_all [isArgument, commentKinds]
  | @within _ _ d d' before after _ parts parts' edit =>
    rw [parts] at hn
    rw [parts']
    refine hn.append ?_
    have htest : isArgument ["comment"] d' = isArgument ["comment"] d := by
      unfold isArgument
      rw [edit.head.isNamed, edit.head.kind]
    unfold MarkupFirst
    rw [List.find?_cons, List.find?_cons, htest]
    cases isArgument ["comment"] d with
    | false => exact id
    | true =>
      rintro ⟨c, hc, hmarkup⟩
      obtain rfl := Option.some.inj hc
      exact ⟨d', rfl, edit.head.kind.trans hmarkup⟩

theorem Edit.obscures (h : Edit n n') (hn : n.Obscures s) : n'.Obscures s := by
  obtain ⟨hcall, hs, arguments, c, harguments, hc, hmarkup⟩ := hn
  have hchild := child?_eq_some_iff.2 harguments
  refine ⟨h.head.kind.trans hcall, h.callSpecifierPast?.trans hs, ?_⟩
  rcases h.find? (isBlind_role "arguments") with heq | ⟨d, d', hd, hd', hedit⟩
  · exact ⟨arguments, c, child?_eq_some_iff.1 (heq.trans hchild), hc, hmarkup⟩
  · obtain rfl := Option.some.inj (hd.symm.trans hchild)
    obtain ⟨c', hc', hmarkup'⟩ := hedit.markupFirst ⟨c, hasFirst_iff_find?.1 hc, hmarkup⟩
    exact ⟨d', c', child?_eq_some_iff.1 hd', hasFirst_iff_find?.2 hc', hmarkup'⟩

/-! ## What a tree is read for -/

/-- What the node introduces, if comments of both kinds are passed over. -/
def specifierPast? (v : Variant) (n : SyntaxNode) : Option Text :=
  if n.kind = "import_statement" ∨ n.kind = "export_statement" then n.sourceSpecifier?
  else if n.kind = "call_expression" ∧ v = .javascript then n.callSpecifierPast? commentKinds
  else none

theorem Edit.specifierPast? (h : Edit n n') (v : Variant) :
    n'.specifierPast? v = n.specifierPast? v := by
  unfold SyntaxNode.specifierPast?
  rw [h.head.kind, h.sourceSpecifier?, h.callSpecifierPast?]

/-- What a node introduces it introduces as well if more comments are passed over, and then nothing
obscures it. -/
theorem past_of_specifier? (h : n.specifier? v = some s) :
    n.specifierPast? v = some s ∧ ¬ n.Obscures s := by
  unfold specifier? at h
  unfold specifierPast?
  split_ifs at h ⊢ with himport hcall
  · exact ⟨h, fun hobscures => by rw [hobscures.1] at himport; exact absurd himport (by decide)⟩
  · exact past_of_callSpecifier? hcall.1 h

theorem specifier?_or_obscures (h : n.specifierPast? v = some s) :
    n.specifier? v = some s ∨ v = .javascript ∧ n.Obscures s := by
  unfold specifierPast? at h
  unfold specifier?
  split_ifs at h ⊢ with himport hcall
  · exact Or.inl h
  · exact (callSpecifier?_or_obscures hcall.1 h).imp_right fun hobscures => ⟨hcall.2, hobscures⟩

theorem IsComment.specifierPast? (hx : x.IsComment) (v : Variant) :
    x.specifierPast? v = none := by
  have hkinds : ∀ kind ∈ commentKinds, ¬ (kind = "import_statement" ∨ kind = "export_statement")
      ∧ kind ≠ "call_expression" := by decide
  obtain ⟨himport, hcall⟩ := hkinds x.kind hx.kind
  unfold SyntaxNode.specifierPast?
  rw [if_neg himport, if_neg fun h => hcall h.1]

/-- What an edit leaves to be read was read before. -/
theorem Edit.specifier?_of (h : Edit n n') (hs : n'.specifier? v = some s) :
    n.specifier? v = some s := by
  obtain ⟨hpast, hclear⟩ := past_of_specifier? hs
  rw [h.specifierPast? v] at hpast
  rcases specifier?_or_obscures hpast with hspecifier | ⟨-, hobscures⟩
  · exact hspecifier
  · exact absurd (h.obscures hobscures) hclear

namespace Commented

/-- A tree with comments spells what it spells without them, if all comments are passed over. -/
theorem exists_past_iff (h : root.Commented root') (v : Variant) (s : Text) :
    (∃ n, root'.Reaches n ∧ n.specifierPast? v = some s)
      ↔ ∃ n, root.Reaches n ∧ n.specifierPast? v = some s := by
  induction h with
  | refl => exact Iff.rfl
  | tail _ hedit ih =>
    rw [← ih]
    constructor
    · apply hedit.exists_reaches_of
      · intro n n' h hs
        exact (h.specifierPast? v).symm.trans hs
      · intro x hx hs
        rw [hx.specifierPast? v] at hs
        cases hs
    · apply hedit.exists_reaches
      intro n n' h hs
      exact (h.specifierPast? v).trans hs

/-- Comments bring nothing about that is read. -/
theorem exists_specifier?_of (h : root.Commented root')
    (hs : ∃ n, root'.Reaches n ∧ n.specifier? v = some s) :
    ∃ n, root.Reaches n ∧ n.specifier? v = some s := by
  induction h with
  | refl => exact hs
  | tail _ hedit ih =>
    apply ih
    apply hedit.exists_reaches_of _ _ hs
    · intro n n' h hs
      exact h.specifier?_of hs
    · intro x hx hs
      have hpast := (past_of_specifier? hs).1
      rw [hx.specifierPast? v] at hpast
      cases hpast

theorem hasError (h : root.Commented root') : root'.hasError = root.hasError := by
  induction h with
  | refl => rfl
  | tail _ hedit ih => exact hedit.head.hasError.trans ih

end Commented

theorem mem_side_visited {isLocal : Bool} :
    s ∈ (Specifiers.none.registerAll (root.visited.map (specifier? v))).side isLocal
      ↔ (∃ n, root.Reaches n ∧ n.specifier? v = some s) ∧ s ≠ []
        ∧ s.isLocalSpecifier = isLocal := by
  have hempty : s ∉ Specifiers.none.side isLocal := by
    cases isLocal <;> exact TextSet.not_mem_empty
  rw [Specifiers.mem_side_registerAll, or_iff_right hempty, List.mem_map]
  simp only [mem_visited]

/-- **Comments.** Comments put into a tree change nothing of what the typed grammar finds. They add
nothing to what plain scripts find, and what is missing afterwards is spelled by a call in which a
comment in the manner of markup stands before the arguments: without such a call nothing is. -/
theorem extract_commented (h : root.hasError = false) (hcommented : root.Commented root') :
    root'.extract .typescript = root.extract .typescript
      ∧ ∃ js js' : Specifiers,
        root.extract .javascript = .found js ∧ root'.extract .javascript = .found js'
        ∧ (∀ isLocal, ∀ s ∈ js'.side isLocal, s ∈ js.side isLocal)
        ∧ (∀ isLocal, ∀ s ∈ js.side isLocal, s ∉ js'.side isLocal →
            ∃ n, root'.Reaches n ∧ n.Obscures s)
        ∧ ((∀ n s, root'.Reaches n → ¬ n.Obscures s) → js' = js) := by
  have h' : root'.hasError = false := hcommented.hasError.trans h
  have hsubset : ∀ (v : Variant) isLocal,
      ∀ s ∈ (Specifiers.none.registerAll (root'.visited.map (specifier? v))).side isLocal,
        s ∈ (Specifiers.none.registerAll (root.visited.map (specifier? v))).side isLocal := by
    intro v isLocal s hs
    rw [mem_side_visited] at hs ⊢
    exact ⟨hcommented.exists_specifier?_of hs.1, hs.2⟩
  have hlost : ∀ (v : Variant) isLocal,
      ∀ s ∈ (Specifiers.none.registerAll (root.visited.map (specifier? v))).side isLocal,
        s ∈ (Specifiers.none.registerAll (root'.visited.map (specifier? v))).side isLocal
          ∨ v = .javascript ∧ ∃ n, root'.Reaches n ∧ n.Obscures s := by
    intro v isLocal s hs
    rw [mem_side_visited] at hs ⊢
    obtain ⟨⟨n, hn, hspecifier⟩, hside⟩ := hs
    have hpast := (past_of_specifier? hspecifier).1
    obtain ⟨n', hn', hpast'⟩ := (hcommented.exists_past_iff v s).2 ⟨n, hn, hpast⟩
    rcases specifier?_or_obscures hpast' with hspecifier' | ⟨hv, hobscures⟩
    · exact Or.inl ⟨⟨n', hn', hspecifier'⟩, hside⟩
    · exact Or.inr ⟨hv, n', hn', hobscures⟩
  refine ⟨?_, _, _, extract_eq h .javascript, extract_eq h' .javascript, hsubset .javascript,
    ?_, ?_⟩
  · rw [extract_eq h, extract_eq h']
    congr 1
    refine Specifiers.ext_side fun isLocal => TextSet.ext_mem fun s => ⟨hsubset _ isLocal s, ?_⟩
    intro hs
    exact (hlost _ isLocal s hs).resolve_right fun hjs => by cases hjs.1
  · intro isLocal s hs hmissing
    exact ((hlost _ isLocal s hs).resolve_left hmissing).2
  · intro hclear
    refine Specifiers.ext_side fun isLocal => TextSet.ext_mem fun s => ⟨hsubset _ isLocal s, ?_⟩
    intro hs
    apply (hlost _ isLocal s hs).resolve_right
    rintro ⟨-, n, hn, hobscures⟩
    exact hclear n s hn hobscures

theorem sameHead_named {kind text text' : String} {role : Option String}
    {cs cs' : List SyntaxNode} (hkind : kind ∉ ["string", "template_string", "identifier"])
    (hrole : role ≠ some "property") :
    SameHead (named kind text role cs) (named kind text' role cs') where
  kind := rfl
  role := rfl
  isNamed := rfl
  hasError := rfl
  bytes h := absurd h (not_or_intro hkind hrole)

/-- The tree of a script with comments of both kinds: before the import, and behind what is
required. -/
def remarkedTree : SyntaxNode :=
  named "program" "<!-- a\nimport './a'; require(/* */ 'p' /* */)" none
    [named "html_comment" "<!-- a" none [],
      named "import_statement" "import './a'" none [named "string" "'./a'" (some "source") []],
      named "call_expression" "require(/* */ 'p' /* */)" none
        [named "identifier" "require" (some "function") [],
          named "arguments" "(/* */ 'p' /* */)" (some "arguments")
            [named "comment" "/* */" none [], named "string" "'p'" none [],
              named "comment" "/* */" none []]]]

theorem remarkedTree_commented : mixedTree.Commented remarkedTree := by
  have hremark : ∀ {kind text : String}, kind ∈ commentKinds →
      (named kind text none []).IsComment := fun hkind => ⟨hkind, rfl, rfl, rfl⟩
  let markup := named "html_comment" "<!-- a" none []
  have hbegin : Edit mixedTree
      (named "program" "<!-- a\nimport './a'; require(/* */ 'p')" none
        (markup :: mixedTree.children)) := by
    refine .insert [] [markup] mixedTree.children (sameHead_named (by decide) nofun) rfl rfl ?_
    exact List.forall_mem_singleton.2 (hremark (by decide))
  refine .tail (.single hbegin) ?_
  -- the place of the other comment is two levels below
  refine .within (remarkedTree.children.take 2) [] (sameHead_named (by decide) nofun) rfl rfl ?_
  refine .within [named "identifier" "require" (some "function") []] []
    (sameHead_named (by decide) nofun) rfl rfl ?_
  refine .insert [named "comment" "/* */" none [], named "string" "'p'" none []]
    [named "comment" "/* */" none []] [] (sameHead_named (by decide) (by decide)) rfl rfl ?_
  exact List.forall_mem_singleton.2 (hremark (by decide))

theorem remarkedTree_extract :
    mixedTree.hasError = false ∧ mixedTree.Commented remarkedTree
      ∧ remarkedTree.extract .typescript = mixedTree.extract .typescript
      ∧ remarkedTree.extract .javascript = mixedTree.extract .javascript := by
  have herror : mixedTree.hasError = false := by decide +kernel
  obtain ⟨hts, js, js', hjs, hjs', -, -, hclear⟩ :=
    extract_commented herror remarkedTree_commented
  have hvisited : ∀ n ∈ remarkedTree.visited, ∀ arguments ∈ n.child? "arguments",
      ∀ c ∈ arguments.children.find? (isArgument ["comment"]), c.kind ≠ "html_comment" := by
    decide +kernel
  have heq : js' = js := by
    apply hclear
    rintro n s hn ⟨-, -, arguments, c, harguments, hc, hmarkup⟩
    exact hvisited n (mem_visited.2 hn) arguments (child?_eq_some_iff.2 harguments) c
      (hasFirst_iff_find?.1 hc) hmarkup
  exact ⟨herror, remarkedTree_commented, hts, by rw [hjs, hjs', heq]⟩

/-- The call of `require` with one string, behind these comments. -/
def callBehind (comments : List SyntaxNode) : SyntaxNode :=
  named "call_expression" "require('./a')" none
    [named "identifier" "require" (some "function") [],
      named "arguments" "('./a')" (some "arguments")
        (comments ++ [named "string" "'./a'" none []])]

/-- A comment in the manner of markup hides what is required: it is not so that comments change
nothing of what is found. -/
theorem markupCall_lost :
    ¬ ∀ root root' : SyntaxNode, root.hasError = false → root.Commented root' →
      ∀ v, root'.extract v = root.extract v := by
  intro h
  have hremark : (named "html_comment" "<!-- x" none []).IsComment := ⟨by decide, rfl, rfl, rfl⟩
  have hcommented : (callBehind []).Commented
      (callBehind [named "html_comment" "<!-- x" none []]) := by
    refine .single (.within [named "identifier" "require" (some "function") []] []
      (sameHead_named (by decide) nofun) rfl rfl ?_)
    refine .insert [] [named "html_comment" "<!-- x" none []] [named "string" "'./a'" none []]
      (sameHead_named (by decide) (by decide)) rfl rfl ?_
    exact List.forall_mem_singleton.2 hremark
  have heq := h _ _ rfl hcommented .javascript
  have hfound : ((callBehind []).extract .javascript).specifiers.files.toList = ["./a"] := by
    decide +kernel
  have hlost : ((callBehind [named "html_comment" "<!-- x" none []]).extract
      .javascript).specifiers.files.toList = [] := by
    decide +kernel
  rw [heq, hfound] at hlost
  cases hlost

end ImportClosure.SyntaxNode
