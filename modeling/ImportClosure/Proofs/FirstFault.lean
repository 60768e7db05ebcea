import ImportClosure.Proofs.TreeWalk
import ImportClosure.Syntax.Fault
/-!
The first error of a tree.

The search takes nodes off a stack, and the parts of a node are put there only if the node is marked
as holding an error. What it looks for is told here by the nodes in document order, each with the
nodes that it is part of (`inContext`): an error is within reach if all of these are marked
(`IsWithinReach`), and the search finds the first one that is. A search that leaves parts out may
also come to an error that is not the first one of the tree. It does not if the marks are right
(`IsMarked`), for then every error is within reach, so that the first one in document order is found
whenever there is one (`firstFault?_exact`).
-/

namespace ImportClosure

/-- The first item of a list that has a property. -/
def IsFirst {α : Type} (P : α → Prop) (xs : List α) (x : α) : Prop :=
  ∃ before after, xs = before ++ x :: after ∧ P x ∧ ∀ y ∈ before, ¬ P y

theorem isFirst_iff {α : Type} {P : α → Prop} {p : α → Bool} (hp : ∀ x, p x = true ↔ P x)
    {xs : List α} {x : α} : IsFirst P xs x ↔ xs.find? p = some x := by
  unfold IsFirst
  rw [List.find?_eq_some_iff_append]
  simp only [← hp, Bool.not_eq_true, Bool.not_eq_true']
  constructor
  · rintro ⟨before, after, hxs, hx, hbefore⟩
    exact ⟨hx, before, after, hxs, hbefore⟩
  · rintro ⟨hx, before, after, hxs, hbefore⟩
    exact ⟨before, after, hxs, hx, hbefore⟩

namespace SyntaxNode

variable {root n c : SyntaxNode} {above : List SyntaxNode} {x : List SyntaxNode × SyntaxNode}

/-! ## Document order -/

mutual

/-- The nodes of a tree in document order, each with the nodes that it is part of, the outermost
first; the tree is itself part of some nodes. -/
def inContext : List SyntaxNode → SyntaxNode → List (List SyntaxNode × SyntaxNode)
  | above, n@⟨_, _, _, _, _, _, _, _, children⟩ =>
    (above, n) :: inContextAmong (above ++ [n]) children

/-- The nodes of some trees in document order, each with the nodes that it is part of. -/
def inContextAmong : List SyntaxNode → List SyntaxNode → List (List SyntaxNode × SyntaxNode)
  | _, [] => []
  | above, c :: cs => inContext above c ++ inContextAmong above cs

end

/-- The nodes of a tree in document order. -/
def documentOrder (root : SyntaxNode) : List SyntaxNode := (inContext [] root).map Prod.snd

theorem inContextAmong_eq (above cs : List SyntaxNode) :
    inContextAmong above cs = cs.flatMap (inContext above) := by
  induction cs with
  | nil => rw [inContextAmong, List.flatMap_nil]
  | cons c cs ih => rw [inContextAmong, ih, List.flatMap_cons]

theorem inContext_eq (above : List SyntaxNode) (n : SyntaxNode) :
    inContext above n = (above, n) :: n.children.flatMap (inContext (above ++ [n])) := by
  rw [← inContextAmong_eq]
  cases n
  rw [inContext]

/-- What a tree is part of does not matter for the order of its nodes. -/
theorem map_snd_inContext (above : List SyntaxNode) (n : SyntaxNode) :
    (inContext above n).map Prod.snd = n.documentOrder := by
  induction n using of_children generalizing above with
  | h n ih =>
    have hparts : ∀ above', (n.children.flatMap (inContext above')).map Prod.snd
        = n.children.flatMap documentOrder := by
      intro above'
      rw [List.map_flatMap]
      exact List.flatMap_congr fun c hc => ih c hc above'
    rw [documentOrder, inContext_eq, inContext_eq, List.map_cons, List.map_cons, hparts, hparts]

/-- A node stands before its parts, and all that belongs to a part before the next one. -/
theorem documentOrder_eq (n : SyntaxNode) :
    n.documentOrder = n :: n.children.flatMap documentOrder := by
  rw [documentOrder, inContext_eq, List.map_cons, List.map_flatMap]
  simp only [map_snd_inContext]

theorem subset_of_mem_inContext (h : x ∈ inContext above n) : above ⊆ x.1 := by
  induction n using of_children generalizing above with
  | h n ih =>
    rw [inContext_eq, List.mem_cons, List.mem_flatMap] at h
    rcases h with rfl | ⟨c, hc, hx⟩
    · exact List.Subset.refl above
    · exact List.Subset.trans (List.subset_append_left above [n]) (ih c hc hx)

theorem self_mem_documentOrder (n : SyntaxNode) : n ∈ n.documentOrder := by
  rw [documentOrder_eq]
  exact List.mem_cons_self

theorem mem_documentOrder_of_mem_children {m : SyntaxNode} (hc : c ∈ n.children)
    (hm : m ∈ c.documentOrder) : m ∈ n.documentOrder := by
  rw [documentOrder_eq]
  exact List.mem_cons_of_mem n (List.mem_flatMap.2 ⟨c, hc, hm⟩)

theorem mem_documentOrder_of_mem_inContext (h : x ∈ inContext above n) : x.2 ∈ n.documentOrder := by
  rw [← map_snd_inContext above]
  exact List.mem_map_of_mem h

/-- The nodes that a node of the tree is part of are nodes of the tree, and it is one of theirs. -/
theorem mem_documentOrder_above (h : x ∈ inContext above n) {m : SyntaxNode} (hm : m ∈ x.1) :
    m ∈ above ∨ m ∈ n.documentOrder ∧ x.2 ∈ m.documentOrder := by
  induction n using of_children generalizing above with
  | h n ih =>
    have hx := mem_documentOrder_of_mem_inContext h
    rw [inContext_eq, List.mem_cons, List.mem_flatMap] at h
    rcases h with rfl | ⟨c, hc, hxc⟩
    · exact Or.inl hm
    · rcases ih c hc hxc with hmem | ⟨hmc, hxm⟩
      · rcases List.mem_append.1 hmem with habove | hself
        · exact Or.inl habove
        · obtain rfl := List.mem_singleton.1 hself
          exact Or.inr ⟨self_mem_documentOrder m, hx⟩
      · exact Or.inr ⟨mem_documentOrder_of_mem_children hc hmc, hxm⟩

/-! ## Errors and marks -/

/-- The node did not parse, or had to be supplied. -/
def IsFault (n : SyntaxNode) : Prop := n.kind = "ERROR" ∨ n.isMissing = true

instance (n : SyntaxNode) : Decidable n.IsFault :=
  inferInstanceAs (Decidable (n.kind = "ERROR" ∨ n.isMissing = true))

/-- The node is an error, and every node that it is part of is marked as holding one. -/
def IsWithinReach (x : List SyntaxNode × SyntaxNode) : Prop :=
  x.2.IsFault ∧ ∀ m ∈ x.1, m.hasError = true

/-- The marks are right: exactly the nodes are marked that are errors or hold one, through parts of
any sort. -/
def IsMarked (root : SyntaxNode) : Prop :=
  ∀ n ∈ root.documentOrder, n.hasError = true ↔ ∃ m ∈ n.documentOrder, m.IsFault

instance (root : SyntaxNode) : Decidable root.IsMarked :=
  inferInstanceAs (Decidable (∀ n ∈ root.documentOrder,
    n.hasError = true ↔ ∃ m ∈ n.documentOrder, m.IsFault))

theorem isFault_iff : n.isFault = true ↔ n.IsFault := by
  unfold isFault IsFault
  rw [Bool.or_eq_true, decide_eq_true_eq]

/-- The test for an error within reach. -/
def isWithinReach (x : List SyntaxNode × SyntaxNode) : Bool :=
  x.2.isFault && x.1.all (·.hasError)

theorem isWithinReach_iff : isWithinReach x = true ↔ IsWithinReach x := by
  unfold isWithinReach IsWithinReach
  rw [Bool.and_eq_true, isFault_iff, List.all_eq_true]

/-- Where the marks are right, every error is within reach. -/
theorem IsMarked.isWithinReach_eq (h : root.IsMarked) (hx : x ∈ inContext [] root) :
    isWithinReach x = x.2.isFault := by
  rw [Bool.eq_iff_iff, isWithinReach_iff, isFault_iff]
  refine and_iff_left_of_imp fun hfault m hm => ?_
  obtain hnone | ⟨hroot, hbelow⟩ := mem_documentOrder_above hx hm
  · exact absurd hnone List.not_mem_nil
  · exact (h m hroot).2 ⟨x.2, hbelow, hfault⟩

/-! ## The search -/

theorem firstFaultFrom?_cons (n : SyntaxNode) (pending : List SyntaxNode) :
    firstFaultFrom? (n :: pending)
      = if n.isFault then some n
        else if n.hasError then firstFaultFrom? (n.children ++ pending)
        else firstFaultFrom? pending := by
  rw [firstFaultFrom?]

/-- What is further down the stack counts only if nothing is found before. -/
theorem firstFaultFrom?_append (ms ns : List SyntaxNode) :
    firstFaultFrom? (ms ++ ns) = (firstFaultFrom? ms).or (firstFaultFrom? ns) := by
  induction ms using firstFaultFrom?.induct with
  | case1 => rw [List.nil_append, firstFaultFrom?, Option.none_or]
  | case2 n pending hfault =>
    rw [List.cons_append, firstFaultFrom?_cons, firstFaultFrom?_cons, if_pos hfault, if_pos hfault,
      Option.some_or]
  | case3 n pending hfault hmark ih =>
    rw [List.cons_append, firstFaultFrom?_cons, firstFaultFrom?_cons, if_neg hfault, if_neg hfault,
      if_pos hmark, if_pos hmark, ← List.append_assoc, ih]
  | case4 n pending hfault hmark ih =>
    rw [List.cons_append, firstFaultFrom?_cons, firstFaultFrom?_cons, if_neg hfault, if_neg hfault,
      if_neg hmark, if_neg hmark, ih]

theorem firstFaultFrom?_eq_findSome? (ns : List SyntaxNode) :
    firstFaultFrom? ns = ns.findSome? firstFault? := by
  induction ns with
  | nil => rw [firstFaultFrom?, List.findSome?_nil]
  | cons n ns ih =>
    calc firstFaultFrom? (n :: ns)
      _ = (firstFaultFrom? [n]).or (firstFaultFrom? ns) := firstFaultFrom?_append [n] ns
      _ = n.firstFault?.or (ns.findSome? firstFault?) := by rw [ih, firstFault?]
      _ = (n :: ns).findSome? firstFault? := by
        rw [List.findSome?_cons]
        cases n.firstFault? <;> rfl

/-- **The search is a recursion.** The error is the node itself, or the first one of its parts if
the node is marked. -/
theorem firstFault?_eq (n : SyntaxNode) :
    n.firstFault? = if n.isFault then some n
      else if n.hasError then n.children.findSome? firstFault? else none := by
  have hnil : firstFaultFrom? [] = none := by rw [firstFaultFrom?]
  rw [firstFault?, firstFaultFrom?_cons, List.append_nil, firstFaultFrom?_eq_findSome?, hnil]

/-- Below marked nodes, the search finds the first error within reach. -/
theorem map_find?_inContext (h : ∀ m ∈ above, m.hasError = true) (n : SyntaxNode) :
    ((inContext above n).find? isWithinReach).map Prod.snd = n.firstFault? := by
  induction n using of_children generalizing above with
  | h n ih =>
    have hself : isWithinReach (above, n) = n.isFault := by
      unfold isWithinReach
      rw [List.all_eq_true.2 h, Bool.and_true]
    rw [inContext_eq, firstFault?_eq, List.find?_cons, hself]
    cases n.isFault with
    | true => rfl
    | false =>
      rw [if_neg Bool.false_ne_true, List.find?_flatMap]
      dsimp only
      by_cases hmark : n.hasError = true
      · have habove : ∀ m ∈ above ++ [n], m.hasError = true := by
          rw [List.forall_mem_append, List.forall_mem_singleton]
          exact ⟨h, hmark⟩
        rw [if_pos hmark, List.map_findSome?]
        rw [← List.head?_filterMap, ← List.head?_filterMap]
        exact congrArg List.head? (List.filterMap_congr fun c hc => ih c hc habove)
      · -- the node itself keeps its parts out of reach
        have hnone : n.children.findSome?
            (fun c => (inContext (above ++ [n]) c).find? isWithinReach) = none := by
          rw [List.findSome?_eq_none_iff]
          intro c _
          rw [List.find?_eq_none]
          intro x hx hreach
          have hn : n ∈ x.1 := subset_of_mem_inContext hx (by simp)
          exact hmark ((isWithinReach_iff.1 hreach).2 n hn)
        rw [if_neg hmark, hnone, Option.map_none]

/-- **The first error.** The search finds the first error in document order among those that the
marks lead to, and nothing only if they lead to none. Where the marks are right, it finds the first
error of the tree, and nothing only if there is none. -/
theorem firstFault?_exact (root : SyntaxNode) :
    (∀ n, root.firstFault? = some n
        ↔ ∃ above, IsFirst IsWithinReach (inContext [] root) (above, n))
      ∧ (root.firstFault? = none ↔ ∀ x ∈ inContext [] root, ¬ IsWithinReach x)
      ∧ (root.IsMarked →
          (∀ n, root.firstFault? = some n ↔ IsFirst IsFault root.documentOrder n)
            ∧ (root.firstFault? = none ↔ ∀ n ∈ root.documentOrder, ¬ n.IsFault)) := by
  have hfind : ((inContext [] root).find? isWithinReach).map Prod.snd = root.firstFault? :=
    map_find?_inContext (fun _ hm => absurd hm List.not_mem_nil) root
  refine ⟨fun n => ?_, ?_, fun hmarked => ?_⟩
  · simp only [isFirst_iff fun _ => isWithinReach_iff]
    rw [← hfind, Option.map_eq_some_iff]
    constructor
    · rintro ⟨⟨above, m⟩, hx, rfl⟩
      exact ⟨above, hx⟩
    · rintro ⟨above, hx⟩
      exact ⟨(above, n), hx, rfl⟩
  · simp only [← hfind, Option.map_eq_none_iff, List.find?_eq_none, isWithinReach_iff]
  · have horder : root.documentOrder.find? isFault = root.firstFault? := by
      have hfilter : (inContext [] root).filter (isFault ∘ Prod.snd)
          = (inContext [] root).filter isWithinReach :=
        List.filter_congr fun x hx => (hmarked.isWithinReach_eq hx).symm
      rw [← hfind, documentOrder, List.find?_map, ← List.head?_filter, hfilter, List.head?_filter]
    refine ⟨fun n => ?_, ?_⟩
    · rw [isFirst_iff fun _ => isFault_iff, horder]
    · simp only [← horder, List.find?_eq_none, isFault_iff]

/-- A node without a text of its own. -/
def bare (kind : String) (isNamed isMissing hasError : Bool) (children : List SyntaxNode) :
    SyntaxNode :=
  ⟨kind, none, none, isNamed, isMissing, hasError, 0, 0, children⟩

/-- An error that holds another one. -/
def nestedFault : SyntaxNode := bare "ERROR" true false true [bare "ERROR" true false true []]

/-- A tree with an error below a node that is not named, and a bracket that was supplied. -/
def brokenTree : SyntaxNode :=
  bare "program" true false true
    [bare ";" false false false [], bare "(" false false true [nestedFault],
      bare ")" false true true []]

theorem brokenTree_firstFault :
    brokenTree.IsMarked ∧ brokenTree.firstFault? = some nestedFault := by
  have hmarked : brokenTree.IsMarked := by decide +kernel
  have hfirst : IsFirst IsFault brokenTree.documentOrder nestedFault := by
    refine ⟨[brokenTree, bare ";" false false false [], bare "(" false false true [nestedFault]],
      [bare "ERROR" true false true [], bare ")" false true true []], rfl, Or.inl rfl, ?_⟩
    decide +kernel
  exact ⟨hmarked, (((firstFault?_exact brokenTree).2.2 hmarked).1 nestedFault).2 hfirst⟩

end SyntaxNode

end ImportClosure
