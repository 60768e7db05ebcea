import ImportClosure.Proofs.TreeWalk
import Mathlib.Logic.Relation
/-!
Comments put into a tree.

A comment may stand between any two parts of a node. Putting comments there is told step by step
(`Edit`): at one place of the tree comments are put between the parts of a node, and what the nodes
around them say of themselves may change with them, except for the texts that count. A part that is
looked up by a test which no comment passes is the same part after an edit, or the part in which the
edit is (`Edit.find?`). What edits keep at a node is kept somewhere below the root
(`Edit.exists_reaches`), and what they do not bring about at a node was there before
(`Edit.exists_reaches_of`).
-/

namespace ImportClosure.SyntaxNode

variable {n n' c x : SyntaxNode}

/-! ## Edits -/

/-- The kinds of comments that the grammars have. -/
def commentKinds : List String := ["comment", "html_comment"]

/-- A comment between the parts of a node: named, without a role and without parts. -/
structure IsComment (x : SyntaxNode) : Prop where
  kind : x.kind ∈ commentKinds
  isNamed : x.isNamed = true
  role : x.role = none
  children : x.children = []

/-- The text of the node counts: it is a literal, an identifier, or the name of a property. -/
def IsWorded (n : SyntaxNode) : Prop :=
  n.kind ∈ ["string", "template_string", "identifier"] ∨ n.role = some "property"

/-- The nodes agree in what they say of themselves; their texts may differ where these do not
count, and so may their places. -/
structure SameHead (n n' : SyntaxNode) : Prop where
  kind : n'.kind = n.kind
  role : n'.role = n.role
  isNamed : n'.isNamed = n.isNamed
  hasError : n'.hasError = n.hasError
  bytes : n.IsWorded → n'.bytes = n.bytes

/-- One place of the first tree has comments in the second one that it did not have. -/
inductive Edit : SyntaxNode → SyntaxNode → Prop
  /-- Comments are put between the parts of the node, or nothing but its text changes. -/
  | insert {n n' : SyntaxNode} (before inserted after : List SyntaxNode) (head : SameHead n n')
      (parts : n.children = before ++ after) (parts' : n'.children = before ++ inserted ++ after)
      (comments : ∀ x ∈ inserted, x.IsComment) : Edit n n'
  /-- The place is below a part of the node. -/
  | within {n n' c c' : SyntaxNode} (before after : List SyntaxNode) (head : SameHead n n')
      (parts : n.children = before ++ c :: after) (parts' : n'.children = before ++ c' :: after)
      (edit : Edit c c') : Edit n n'

/-- The second tree is the first one with comments put into it, any number at any places. -/
def Commented : SyntaxNode → SyntaxNode → Prop := Relation.ReflTransGen Edit

theorem Edit.head (h : Edit n n') : SameHead n n' := by
  cases h with
  | insert _ _ _ head => exact head
  | within _ _ head => exact head

theorem SameHead.stringValue (h : SameHead n n') (hn : n.IsWorded) :
    n'.stringValue = n.stringValue := by
  unfold SyntaxNode.stringValue text
  rw [h.bytes hn]

theorem SameHead.text (h : SameHead n n') (hn : n.IsWorded) : n'.text = n.text := by
  unfold SyntaxNode.text
  rw [h.bytes hn]

/-! ## Parts that are looked up -/

/-- A test of nodes that an edit cannot change, and that no comment passes. -/
structure IsBlind (p : SyntaxNode → Bool) : Prop where
  head : ∀ c c', SameHead c c' → p c' = p c
  comment : ∀ x, IsComment x → p x = false

/-- The first part that passes such a test is the same part after an edit, or the part below which
the edit is. -/
theorem Edit.find? (h : Edit n n') {p : SyntaxNode → Bool} (hp : IsBlind p) :
    n'.children.find? p = n.children.find? p
      ∨ ∃ c c', n.children.find? p = some c ∧ n'.children.find? p = some c' ∧ Edit c c' := by
  cases h with
  | insert before inserted after _ parts parts' comments =>
    have hnone : inserted.find? p = none := by
      rw [List.find?_eq_none]
      intro x hx
      rw [hp.comment x (comments x hx)]
      exact Bool.false_ne_true
    left
    rw [parts, parts', List.find?_append, List.find?_append, List.find?_append, hnone,
      Option.or_none]
  | @within _ _ c c' before after _ parts parts' edit =>
    have hc : p c' = p c := hp.head c c' edit.head
    rw [parts, parts', List.find?_append, List.find?_append, List.find?_cons, List.find?_cons, hc]
    cases before.find? p with
    | some b => exact Or.inl rfl
    | none =>
      cases p c with
      | true => exact Or.inr ⟨c, c', rfl, rfl, edit⟩
      | false => exact Or.inl rfl

/-- What is read off that part is not changed by an edit if it is read off alike after one. -/
theorem Edit.bind_find? {α : Type} (h : Edit n n') {p : SyntaxNode → Bool} (hp : IsBlind p)
    (f : SyntaxNode → Option α)
    (hf : ∀ c c', n.children.find? p = some c → Edit c c' → f c' = f c) :
    (n'.children.find? p).bind f = (n.children.find? p).bind f := by
  rcases h.find? hp with heq | ⟨c, c', hc, hc', hedit⟩
  · rw [heq]
  · rw [hc, hc', Option.bind_some, Option.bind_some, hf c c' hc hedit]

theorem isBlind_role (role : String) : IsBlind fun c => c.role = some role where
  head c c' h := by rw [h.role]
  comment x hx := by rw [hx.role]; rfl

theorem Edit.bind_child? {α : Type} (h : Edit n n') (role : String) (f : SyntaxNode → Option α)
    (hf : ∀ c c', c.role = some role → Edit c c' → f c' = f c) :
    (n'.child? role).bind f = (n.child? role).bind f := by
  refine h.bind_find? (isBlind_role role) f fun c c' hc hedit => hf c c' ?_ hedit
  simpa using List.find?_some hc

/-! ## Parts further down -/

theorem mem_namedChildren : c ∈ n.namedChildren ↔ c ∈ n.children ∧ c.isNamed = true :=
  List.mem_filter

theorem exists_reaches_iff {P : SyntaxNode → Prop} :
    (∃ m, n.Reaches m ∧ P m) ↔ P n ∨ ∃ c ∈ n.namedChildren, ∃ m, c.Reaches m ∧ P m := by
  constructor
  · rintro ⟨m, hm, hP⟩
    rcases hm.cases_head with rfl | ⟨c, hc, hcm⟩
    · exact Or.inl hP
    · exact Or.inr ⟨c, hc, m, hcm, hP⟩
  · rintro (hP | ⟨c, hc, m, hcm, hP⟩)
    · exact ⟨n, .refl, hP⟩
    · exact ⟨m, .head hc hcm, hP⟩

/-- A named part is still there, or it has been edited. -/
theorem Edit.exists_part (h : Edit n n') (hc : c ∈ n.namedChildren) :
    ∃ c' ∈ n'.namedChildren, c' = c ∨ Edit c c' := by
  rw [mem_namedChildren] at hc
  obtain ⟨hc, hnamed⟩ := hc
  cases h with
  | insert before inserted after _ parts parts' =>
    refine ⟨c, mem_namedChildren.2 ⟨?_, hnamed⟩, Or.inl rfl⟩
    rw [parts, List.mem_append] at hc
    rw [parts', List.mem_append, List.mem_append]
    exact hc.imp_left Or.inl
  | @within _ _ d d' before after _ parts parts' edit =>
    rw [parts, List.mem_append, List.mem_cons] at hc
    simp only [mem_namedChildren, parts', List.mem_append, List.mem_cons]
    rcases hc with hbefore | rfl | hafter
    · exact ⟨c, ⟨Or.inl hbefore, hnamed⟩, Or.inl rfl⟩
    · exact ⟨d', ⟨Or.inr (Or.inl rfl), edit.head.isNamed.trans hnamed⟩, Or.inr edit⟩
    · exact ⟨c, ⟨Or.inr (Or.inr hafter), hnamed⟩, Or.inl rfl⟩

/-- A named part was there, perhaps before an edit, or it is a comment. -/
theorem Edit.exists_part_of {c' : SyntaxNode} (h : Edit n n') (hc : c' ∈ n'.namedChildren) :
    c'.IsComment ∨ ∃ c ∈ n.namedChildren, c' = c ∨ Edit c c' := by
  rw [mem_namedChildren] at hc
  obtain ⟨hc, hnamed⟩ := hc
  cases h with
  | insert before inserted after _ parts parts' comments =>
    rw [parts', List.mem_append, List.mem_append] at hc
    simp only [mem_namedChildren, parts, List.mem_append]
    rcases hc with (hbefore | hinserted) | hafter
    · exact Or.inr ⟨c', ⟨Or.inl hbefore, hnamed⟩, Or.inl rfl⟩
    · exact Or.inl (comments c' hinserted)
    · exact Or.inr ⟨c', ⟨Or.inr hafter, hnamed⟩, Or.inl rfl⟩
  | @within _ _ d d' before after _ parts parts' edit =>
    rw [parts', List.mem_append, List.mem_cons] at hc
    simp only [mem_namedChildren, parts, List.mem_append, List.mem_cons]
    right
    rcases hc with hbefore | rfl | hafter
    · exact ⟨c', ⟨Or.inl hbefore, hnamed⟩, Or.inl rfl⟩
    · exact ⟨d, ⟨Or.inr (Or.inl rfl), edit.head.isNamed.symm.trans hnamed⟩, Or.inr edit⟩
    · exact ⟨c', ⟨Or.inr (Or.inr hafter), hnamed⟩, Or.inl rfl⟩

/-- What edits keep at a node is still there, somewhere below the root. -/
theorem Edit.exists_reaches {P : SyntaxNode → Prop} (hP : ∀ n n', Edit n n' → P n → P n')
    (h : Edit n n') (hn : ∃ m, n.Reaches m ∧ P m) : ∃ m, n'.Reaches m ∧ P m := by
  induction n using of_children generalizing n' with
  | h n ih =>
    rw [exists_reaches_iff] at hn ⊢
    refine hn.imp (hP n n' h) ?_
    rintro ⟨c, hc, hm⟩
    obtain ⟨c', hc', rfl | hedit⟩ := h.exists_part hc
    · exact ⟨c', hc', hm⟩
    · exact ⟨c', hc', ih c (mem_namedChildren.1 hc).1 hedit hm⟩

/-- What edits cannot bring about at a node, and what no comment is, was there before. -/
theorem Edit.exists_reaches_of {P : SyntaxNode → Prop} (hP : ∀ n n', Edit n n' → P n' → P n)
    (hcomment : ∀ x, IsComment x → ¬ P x) (h : Edit n n') (hn : ∃ m, n'.Reaches m ∧ P m) :
    ∃ m, n.Reaches m ∧ P m := by
  induction n using of_children generalizing n' with
  | h n ih =>
    rw [exists_reaches_iff] at hn ⊢
    refine hn.imp (hP n n' h) ?_
    rintro ⟨c', hc', hm⟩
    rcases h.exists_part_of hc' with hx | ⟨c, hc, rfl | hedit⟩
    · -- there is nothing below a comment
      rw [exists_reaches_iff] at hm
      rcases hm with hself | ⟨d, hd, -⟩
      · exact absurd hself (hcomment c' hx)
      · rw [mem_namedChildren, hx.children] at hd
        exact absurd hd.1 List.not_mem_nil
    · exact ⟨c', hc, hm⟩
    · exact ⟨c, hc, ih c (mem_namedChildren.1 hc).1 hedit hm⟩

end ImportClosure.SyntaxNode
