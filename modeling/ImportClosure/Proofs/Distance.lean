import ImportClosure.Proofs.BreadthFirst
import Mathlib.Data.Nat.Find
import Mathlib.Order.Bounds.Basic
/-!
Distances in a graph, along its breadth-first order.

The distance of a vertex is the number of edges of the shortest chain that leads there. The
vertices up to some distance are an initial part of the breadth-first order, whatever the distance
(`BreadthFirst.exists_prefix_within`): what an initial part mentions is again an initial part, and
mentioning goes one edge further. So distances never decrease along the order.
-/

namespace ImportClosure

variable {α : Type}

/-! ## Chains of edges -/

/-- A chain of so many edges leads from `start` to a vertex. -/
inductive Chain (R : α → α → Prop) (start : α) : Nat → α → Prop
  /-- No edge is needed to stay. -/
  | refl : Chain R start 0 start
  /-- One more edge. -/
  | tail {n : Nat} {a b : α} (h : Chain R start n a) (hab : R a b) : Chain R start (n + 1) b

/-- The shortest chain from `start` to the vertex `a` has so many edges. -/
def IsDistance (R : α → α → Prop) (start a : α) (n : Nat) : Prop :=
  IsLeast {m | Chain R start m a} n

variable {R : α → α → Prop} {start a : α}

theorem exists_chain (h : Relation.ReflTransGen R start a) : ∃ n, Chain R start n a := by
  induction h with
  | refl => exact ⟨0, Chain.refl⟩
  | tail _ hab ih =>
    obtain ⟨n, hn⟩ := ih
    exact ⟨n + 1, hn.tail hab⟩

/-- Whatever can be reached has a distance. -/
theorem exists_isDistance (h : Relation.ReflTransGen R start a) : ∃ n, IsDistance R start a n := by
  classical
  have hchain := exists_chain h
  exact ⟨Nat.find hchain, Nat.find_spec hchain, fun _ hm => Nat.find_min' hchain hm⟩

/-! ## Distances along the breadth-first order -/

namespace BreadthFirst

variable [DecidableEq α] {next : α → List α} {order : List α}

/-- The vertices up to a distance are an initial part of the order. -/
theorem exists_prefix_within (h : BreadthFirst next start order) (n : Nat) :
    ∃ p, p <+: order ∧ ∀ a, a ∈ p ↔ ∃ m ≤ n, Chain (fun a b => b ∈ next a) start m a := by
  induction n with
  | zero =>
    -- nothing but the start is mentioned before any vertex is looked at
    refine ⟨_, h.mentioned_prefix List.nil_prefix, ?_⟩
    intro a
    rw [List.mem_eraseDups, List.flatMap_nil, List.mem_singleton]
    constructor
    · rintro rfl
      exact ⟨0, Nat.le_refl 0, Chain.refl⟩
    · rintro ⟨m, hm, hchain⟩
      obtain rfl : m = 0 := Nat.le_zero.1 hm
      cases hchain
      rfl
  | succ n ih =>
    obtain ⟨p, hp, hmem⟩ := ih
    refine ⟨_, h.mentioned_prefix hp, ?_⟩
    intro a
    rw [List.mem_eraseDups, List.mem_cons, List.mem_flatMap]
    constructor
    · rintro (rfl | ⟨b, hb, hab⟩)
      · exact ⟨0, Nat.zero_le _, Chain.refl⟩
      · obtain ⟨m, hm, hchain⟩ := (hmem b).1 hb
        exact ⟨m + 1, Nat.succ_le_succ hm, hchain.tail hab⟩
    · rintro ⟨m, hm, hchain⟩
      cases hchain with
      | refl => exact Or.inl rfl
      | tail hchain hab =>
        exact Or.inr ⟨_, (hmem _).2 ⟨_, Nat.le_of_succ_le_succ hm, hchain⟩, hab⟩

/-- **Distances.** The distance from the start never decreases along the order. -/
theorem pairwise_distance (h : BreadthFirst next start order) :
    order.Pairwise fun a b => ∃ m n, IsDistance (fun a b => b ∈ next a) start a m
      ∧ IsDistance (fun a b => b ∈ next a) start b n ∧ m ≤ n := by
  rw [List.pairwise_iff_getElem]
  intro i j hi hj hij
  obtain ⟨m, hm⟩ := exists_isDistance (h.reached _ (List.getElem_mem hi))
  obtain ⟨n, hn⟩ := exists_isDistance (h.reached _ (List.getElem_mem hj))
  refine ⟨m, n, hm, hn, ?_⟩
  -- the later vertex is in the part up to its distance, and so is everything before it
  obtain ⟨p, hp, hmem⟩ := h.exists_prefix_within n
  have hjp : order[j] ∈ p := (hmem _).2 ⟨n, Nat.le_refl n, hn.1⟩
  obtain ⟨k, hk, hkj⟩ := List.mem_iff_getElem.1 hjp
  rw [hp.getElem hk, h.nodup.getElem_inj_iff] at hkj
  have hip : order[i] ∈ p := by
    rw [← hp.getElem (show i < p.length by omega)]
    exact List.getElem_mem _
  obtain ⟨m', hm', hchain⟩ := (hmem _).1 hip
  exact (hm.2 hchain).trans hm'

end BreadthFirst

end ImportClosure
