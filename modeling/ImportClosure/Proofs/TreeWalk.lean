import ImportClosure.Syntax.Node
import Mathlib.Data.List.Basic
import Mathlib.Logic.Relation
/-!
The walk over a tree.

The walk takes nodes off a stack and puts their named parts on it, so a visit leaves something to be
done that belongs to other nodes. Still the nodes below a node are all visited before the walk turns
to the next one that was pending (`visitedFrom_append`), and so the walk is the recursion over the
tree that it does not look like (`visited_eq`). A named part has a number among its siblings, and a
node has a place, the numbers on the way to it. The walk comes to each place once, in ascending
order: to a node before its parts, and to all that is below a part before the next part
(`visited_enumerates`). Two nodes may be alike, their places are not.
-/

namespace ImportClosure.SyntaxNode

variable {root n c : SyntaxNode} {k : Nat} {p : List Nat}
variable {placed : List (List Nat × SyntaxNode)}

/-! ## Parts -/

theorem size_lt_of_mem_children (h : c ∈ n.children) : c.size < n.size := by
  obtain ⟨before, after, hsplit⟩ := List.append_of_mem h
  rw [n.size_eq, hsplit, sizeAmong_append, sizeAmong]
  omega

/-- What holds of a node if it holds of its parts holds of every node. -/
theorem of_children {P : SyntaxNode → Prop} (h : ∀ n, (∀ c ∈ n.children, P c) → P n)
    (n : SyntaxNode) : P n := by
  induction hsize : n.size using Nat.strongRecOn generalizing n with
  | ind size ih =>
    refine h n fun c hc => ?_
    have hlt := size_lt_of_mem_children hc
    rw [hsize] at hlt
    exact ih c.size hlt c rfl

/-! ## The stack -/

theorem visitedFrom_nil : visitedFrom [] = [] := by
  rw [visitedFrom]

theorem visitedFrom_cons (n : SyntaxNode) (pending : List SyntaxNode) :
    visitedFrom (n :: pending) = n :: visitedFrom (n.namedChildren ++ pending) := by
  rw [visitedFrom]

/-- What is further down the stack has to wait. -/
theorem visitedFrom_append (ms ns : List SyntaxNode) :
    visitedFrom (ms ++ ns) = visitedFrom ms ++ visitedFrom ns := by
  induction ms using visitedFrom.induct with
  | case1 => rw [visitedFrom_nil, List.nil_append, List.nil_append]
  | case2 n pending ih =>
    rw [List.cons_append, visitedFrom_cons, visitedFrom_cons, ← List.append_assoc, ih,
      List.cons_append]

theorem visitedFrom_eq_flatMap (ns : List SyntaxNode) : visitedFrom ns = ns.flatMap visited := by
  induction ns with
  | nil => rw [visitedFrom_nil, List.flatMap_nil]
  | cons n ns ih =>
    calc visitedFrom (n :: ns)
      _ = visitedFrom [n] ++ visitedFrom ns := visitedFrom_append [n] ns
      _ = visited n ++ ns.flatMap visited := by rw [ih, visited]

/-- **The walk is a recursion.** A node is visited, and then all that its named parts are visited
for, part by part. -/
theorem visited_eq (n : SyntaxNode) : n.visited = n :: n.namedChildren.flatMap visited := by
  rw [visited, visitedFrom_cons, List.append_nil, visitedFrom_eq_flatMap]

/-! ## Places -/

/-- The node at a place, which is told by the numbers of the named parts on the way. -/
def at? (n : SyntaxNode) : List Nat → Option SyntaxNode
  | [] => some n
  | i :: p => n.namedChildren[i]?.bind (fun c => c.at? p)

/-- The nodes of a tree with their places, in ascending order of these. -/
structure Enumerates (root : SyntaxNode) (placed : List (List Nat × SyntaxNode)) : Prop where
  /-- Each place stands before those that are greater. -/
  ascending : (placed.map Prod.fst).Pairwise (· < ·)
  /-- At a listed place is the listed node, and all places are listed. -/
  mem_iff : ∀ p n, (p, n) ∈ placed ↔ root.at? p = some n

/-- The nodes below the part with this number, with their places seen from the node above. -/
def inPart (k : Nat) (placed : List (List Nat × SyntaxNode)) : List (List Nat × SyntaxNode) :=
  placed.map fun x => (k :: x.1, x.2)

theorem mem_inPart : (p, n) ∈ inPart k placed ↔ ∃ q, p = k :: q ∧ (q, n) ∈ placed := by
  unfold inPart
  rw [List.mem_map]
  constructor
  · rintro ⟨⟨q, m⟩, hq, heq⟩
    obtain ⟨rfl, rfl⟩ := Prod.mk.inj heq
    exact ⟨q, rfl, hq⟩
  · rintro ⟨q, rfl, hq⟩
    exact ⟨(q, n), hq, rfl⟩

theorem map_snd_inPart : (inPart k placed).map Prod.snd = placed.map Prod.snd := by
  unfold inPart
  rw [List.map_map]
  rfl

theorem ascending_inPart (h : (placed.map Prod.fst).Pairwise (· < ·)) :
    ((inPart k placed).map Prod.fst).Pairwise (· < ·) := by
  have hfst : (inPart k placed).map Prod.fst = (placed.map Prod.fst).map (k :: ·) := by
    simp [inPart, Function.comp_def]
  rw [hfst, List.pairwise_map]
  exact h.imp fun hlt => List.cons_lt_cons_iff.2 (Or.inr ⟨rfl, hlt⟩)

/-- The nodes below several parts, of which the first has the number `k`, can be listed with their
places if those below each of the parts can. -/
theorem exists_placed_among (cs : List SyntaxNode) (k : Nat)
    (h : ∀ c ∈ cs, ∃ placed, c.Enumerates placed ∧ placed.map Prod.snd = c.visited) :
    ∃ placed : List (List Nat × SyntaxNode),
      (placed.map Prod.fst).Pairwise (· < ·)
        ∧ (∀ p n, (p, n) ∈ placed
            ↔ ∃ i q c, p = (k + i) :: q ∧ cs[i]? = some c ∧ c.at? q = some n)
        ∧ placed.map Prod.snd = cs.flatMap visited := by
  induction cs generalizing k with
  | nil => exact ⟨[], .nil, by simp, rfl⟩
  | cons c cs ih =>
    obtain ⟨⟨below, hbelow, hvisited⟩, hcs⟩ := List.forall_mem_cons.1 h
    obtain ⟨placed, hascending, hmem, hrest⟩ := ih (k + 1) hcs
    refine ⟨inPart k below ++ placed, ?_, ?_, ?_⟩
    · rw [List.map_append, List.pairwise_append]
      refine ⟨ascending_inPart hbelow.ascending, hascending, ?_⟩
      -- a place below the first part and one below a later part
      intro p hp q hq
      obtain ⟨⟨p, n⟩, hpn, rfl⟩ := List.mem_map.1 hp
      obtain ⟨⟨q, m⟩, hqm, rfl⟩ := List.mem_map.1 hq
      obtain ⟨p, rfl, -⟩ := mem_inPart.1 hpn
      obtain ⟨i, q, -, rfl, -⟩ := (hmem q m).1 hqm
      exact List.cons_lt_cons_iff.2 (Or.inl (by omega))
    · intro p n
      rw [List.mem_append, mem_inPart, hmem]
      constructor
      · rintro (⟨q, rfl, hq⟩ | ⟨i, q, d, rfl, hd, hq⟩)
        · exact ⟨0, q, c, rfl, rfl, (hbelow.mem_iff q n).1 hq⟩
        · exact ⟨i + 1, q, d, by rw [Nat.add_assoc, Nat.add_comm 1], hd, hq⟩
      · rintro ⟨i, q, d, rfl, hd, hq⟩
        cases i with
        | zero =>
          obtain rfl := Option.some.inj hd
          exact Or.inl ⟨q, rfl, (hbelow.mem_iff q n).2 hq⟩
        | succ i =>
          exact Or.inr ⟨i, q, d, by rw [Nat.add_assoc, Nat.add_comm 1], hd, hq⟩
    · rw [List.map_append, map_snd_inPart, List.flatMap_cons, hvisited, hrest]

theorem size_lt_of_mem_namedChildren (h : c ∈ n.namedChildren) : c.size < n.size :=
  size_lt_of_mem_children (List.mem_of_mem_filter h)

/-- **Each place once.** The nodes visited from a root are those at its places, in ascending order
of the places. -/
theorem visited_enumerates (root : SyntaxNode) :
    ∃ placed, root.Enumerates placed ∧ placed.map Prod.snd = root.visited := by
  induction hsize : root.size using Nat.strongRecOn generalizing root with
  | ind size ih =>
    have hparts : ∀ c ∈ root.namedChildren,
        ∃ placed, c.Enumerates placed ∧ placed.map Prod.snd = c.visited := by
      intro c hc
      have hlt := size_lt_of_mem_namedChildren hc
      rw [hsize] at hlt
      exact ih c.size hlt c rfl
    obtain ⟨placed, hascending, hmem, hrest⟩ := exists_placed_among root.namedChildren 0 hparts
    refine ⟨([], root) :: placed, ⟨?_, ?_⟩, ?_⟩
    · refine List.pairwise_cons.2 ⟨?_, hascending⟩
      intro p hp
      obtain ⟨⟨p, n⟩, hpn, rfl⟩ := List.mem_map.1 hp
      obtain ⟨i, q, -, rfl, -⟩ := (hmem p n).1 hpn
      exact List.nil_lt_cons _ _
    · intro p n
      rw [List.mem_cons, hmem]
      cases p with
      | nil => simp [at?, eq_comm]
      | cons i p =>
        simp only [Prod.mk.injEq, reduceCtorEq, false_and, false_or, Nat.zero_add, List.cons.injEq,
          at?, Option.bind_eq_some_iff]
        constructor
        · rintro ⟨_, _, c, ⟨rfl, rfl⟩, hc, hq⟩
          exact ⟨c, hc, hq⟩
        · rintro ⟨c, hc, hq⟩
          exact ⟨i, p, c, ⟨rfl, rfl⟩, hc, hq⟩
    · rw [List.map_cons, hrest, visited_eq]

/-! ## What is reached -/

/-- The node is reached from a root through named parts. -/
def Reaches : SyntaxNode → SyntaxNode → Prop :=
  Relation.ReflTransGen fun n c => c ∈ n.namedChildren

theorem reaches_iff_exists_at? : root.Reaches n ↔ ∃ p, root.at? p = some n := by
  constructor
  · intro h
    induction h using Relation.ReflTransGen.head_induction_on with
    | refl => exact ⟨[], rfl⟩
    | head hstep _ ih =>
      obtain ⟨p, hp⟩ := ih
      obtain ⟨i, hi⟩ := List.mem_iff_getElem?.1 hstep
      exact ⟨i :: p, Option.bind_eq_some_iff.2 ⟨_, hi, hp⟩⟩
  · rintro ⟨p, hp⟩
    induction p generalizing root with
    | nil =>
      obtain rfl := Option.some.inj hp
      exact .refl
    | cons i p ih =>
      obtain ⟨c, hi, hc⟩ := Option.bind_eq_some_iff.1 hp
      exact .head (List.mem_of_getElem? hi) (ih hc)

/-- The nodes visited are those that are reached. -/
theorem mem_visited : n ∈ root.visited ↔ root.Reaches n := by
  obtain ⟨placed, hplaced, hvisited⟩ := visited_enumerates root
  rw [← hvisited, reaches_iff_exists_at?]
  constructor
  · intro hn
    obtain ⟨⟨p, n⟩, hpn, rfl⟩ := List.mem_map.1 hn
    exact ⟨p, (hplaced.mem_iff p n).1 hpn⟩
  · rintro ⟨p, hp⟩
    exact List.mem_map.2 ⟨(p, n), (hplaced.mem_iff p n).2 hp, rfl⟩

end ImportClosure.SyntaxNode
