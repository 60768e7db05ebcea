import ImportClosure.Proofs.FirstOccurrences
import Mathlib.Data.List.Perm.Subperm
import Mathlib.Logic.Relation
/-!
Breadth-first orders of a graph.

A graph is given by the list of successors of each vertex. The vertices that can be reached from
a start have one canonical list: the start, then the successors of the first vertex listed, then
those of the second, and so on, each vertex only where it is mentioned first. `BreadthFirst` says
this without a queue, as an equation that the list satisfies, and `BreadthFirst.unique` shows
that the equation has one solution among the lists of reachable vertices.

A walk with a queue produces such a list; whatever it produces is therefore determined by the
graph alone, which is how two walks are compared.
-/

namespace ImportClosure

variable {α : Type} [DecidableEq α]

/-- The vertices reachable from `start`, in the order in which they are first mentioned. -/
structure BreadthFirst (next : α → List α) (start : α) (order : List α) : Prop where
  /-- The start and the successors of the vertices listed, each where it stands first. -/
  order_eq : order = (start :: order.flatMap next).eraseDups
  /-- Only reachable vertices are listed. -/
  reached : ∀ a ∈ order, Relation.ReflTransGen (fun a b => b ∈ next a) start a

namespace BreadthFirst

variable {next next' : α → List α} {start : α} {order order' : List α}

/-! ## What is listed -/

theorem nodup (h : BreadthFirst next start order) : order.Nodup := by
  rw [h.order_eq]
  exact nodup_eraseDups _

theorem start_mem (h : BreadthFirst next start order) : start ∈ order := by
  rw [h.order_eq, List.mem_eraseDups]
  exact List.mem_cons_self

theorem next_mem (h : BreadthFirst next start order) {a b : α} (ha : a ∈ order)
    (hb : b ∈ next a) : b ∈ order := by
  rw [h.order_eq, List.mem_eraseDups]
  exact List.mem_cons_of_mem _ (List.mem_flatMap.2 ⟨a, ha, hb⟩)

/-- The vertices listed are the reachable ones. -/
theorem mem_iff (h : BreadthFirst next start order) {a : α} :
    a ∈ order ↔ Relation.ReflTransGen (fun a b => b ∈ next a) start a := by
  constructor
  · exact h.reached a
  · intro hr
    induction hr with
    | refl => exact h.start_mem
    | tail _ hb ih => exact h.next_mem ih hb

/-! ## There is only one order -/

/-- What the vertices of an initial part mention is an initial part too. -/
theorem mentioned_prefix (h : BreadthFirst next start order) {p : List α} (hp : p <+: order) :
    (start :: p.flatMap next).eraseDups <+: order := by
  obtain ⟨r, rfl⟩ := hp
  have heq : start :: (p ++ r).flatMap next = (start :: p.flatMap next) ++ r.flatMap next := by
    rw [List.flatMap_append, List.cons_append]
  rw [h.order_eq, heq]
  exact eraseDups_prefix _ _

/-- An initial part that mentions nothing outside itself is the whole list. -/
theorem eq_of_closed (h : BreadthFirst next start order) {p : List α} (hp : p <+: order)
    (hc : ∀ a ∈ (start :: p.flatMap next).eraseDups, a ∈ p) : p = order := by
  have hsub : order ⊆ p := by
    intro a ha
    have hr := h.reached a ha
    clear ha
    induction hr with
    | refl => exact hc _ (List.mem_eraseDups.2 List.mem_cons_self)
    | tail _ hb ih =>
      apply hc
      rw [List.mem_eraseDups]
      exact List.mem_cons_of_mem _ (List.mem_flatMap.2 ⟨_, ih, hb⟩)
  exact hp.eq_of_length_le (List.subperm_of_subset h.nodup hsub).length_le

/-- An initial part of one order is an initial part of any other. The induction extends the part
by one vertex: the part already mentions that vertex, since otherwise it would be the whole. -/
theorem prefix_of_prefix (h : BreadthFirst next start order)
    (h' : BreadthFirst next start order') {p : List α} (hp : p <+: order) : p <+: order' := by
  induction p using List.reverseRecOn with
  | nil => exact List.nil_prefix
  | append_singleton p a ih =>
    have hp₀ : p <+: order := (List.prefix_append p [a]).trans hp
    have hm := h.mentioned_prefix hp₀
    have hm' := h'.mentioned_prefix (ih hp₀)
    -- what `p` mentions is an initial part of both orders; either it holds `a`, or `p` is closed
    by_cases hlen : (p ++ [a]).length ≤ (start :: p.flatMap next).eraseDups.length
    · exact (List.prefix_of_prefix_length_le hp hm hlen).trans hm'
    · exfalso
      rw [List.length_append, List.length_singleton] at hlen
      have hback : (start :: p.flatMap next).eraseDups <+: p :=
        List.prefix_of_prefix_length_le hm hp₀ (by omega)
      have hall : p = order := h.eq_of_closed hp₀ (fun b hb => hback.subset hb)
      have hle := hp.length_le
      rw [← hall, List.length_append, List.length_singleton] at hle
      omega

/-- **One order.** The graph and the start determine the order. -/
theorem unique (h : BreadthFirst next start order) (h' : BreadthFirst next start order') :
    order = order' :=
  have hp := h.prefix_of_prefix h' List.prefix_rfl
  hp.eq_of_length_le (h'.prefix_of_prefix h List.prefix_rfl).length_le

/-- Only the successors of the vertices listed matter. -/
theorem congr (h : BreadthFirst next start order) (hn : ∀ a ∈ order, next' a = next a) :
    BreadthFirst next' start order where
  order_eq := by
    have hmap : order.flatMap next' = order.flatMap next := List.flatMap_congr hn
    rw [hmap]
    exact h.order_eq
  reached := by
    intro a ha
    have hr := h.reached a ha
    clear ha
    induction hr with
    | refl => exact Relation.ReflTransGen.refl
    | tail hab hb ih =>
      refine ih.tail ?_
      rw [hn _ (h.mem_iff.2 hab)]
      exact hb

end BreadthFirst

end ImportClosure
