/-
# `ContainerDROP.expirationDate` over a tree of containers

A DROP's `expirationDate` is `-1` unless a `lifespan` was given, and then the creation time
plus the lifespan (`drop.py`, lines 186-192).  A `ContainerDROP` reports instead the
largest of its children's, `heapq.nlargest(1, ...)[0]`, and `-1` when it has none (lines
954-958).  `-1` stands for "never expires", but the container takes the numeric maximum,
as the specification's "maximum `expirationDate` of its children" has it:

* a container holding a DROP that never expires next to one that does reports the finite
  date, so it expires before the DROP it holds (`never_expiring_child_outlives_container`);
* what holds is the numeric order: over every finite tree, a container's date is at least
  the date of every DROP it contains, directly or through nested containers
  (`expirationDate_is_largest_contained`).

Dates are the values of Python floats, taken as rationals: only their order matters here.
Not modelled: dates that are NaN or infinite (a `lifespan` of `float('nan')` or
`float('inf')`).  NaN compares false with every date, so what `heapq.nlargest` returns then
depends on the children's order; every date here is a finite number.
-/
import Mathlib.Algebra.Order.Ring.Rat

namespace Dfms.Expiration

/-- A tree of DROPs: a leaf with the date `__init__` computed, or a `ContainerDROP` with
its children in `_children`'s order. -/
inductive Node
  | leaf (expirationDate : ℚ)
  | container (children : List Node)
  deriving Repr

mutual

/-- The `expirationDate` property. -/
def Node.expirationDate : Node → ℚ
  | .leaf d => d
  | .container children => (Node.largest children).getD (-1)

/-- `heapq.nlargest(1, [c.expirationDate for c in children])[0]`, `none` for no children. -/
def Node.largest : List Node → Option ℚ
  | [] => none
  | c :: cs => some ((Node.largest cs).elim c.expirationDate (max c.expirationDate))

end

mutual

/-- The DROPs a node contains, directly or through nested containers. -/
def Node.contained : Node → List Node
  | .leaf _ => []
  | .container children => Node.containedIn children

/-- The children, and the DROPs they contain. -/
def Node.containedIn : List Node → List Node
  | [] => []
  | c :: cs => c :: c.contained ++ Node.containedIn cs

end

/-! ## 1. A never-expiring DROP inside an expiring container -/

/-- **A container expires before the never-expiring DROP it holds.**  Its children are a
DROP created without a `lifespan` (date `-1`) and one expiring at `100`: the container
reports `100`. -/
theorem never_expiring_child_outlives_container :
    Node.leaf (-1) ∈ (Node.container [.leaf (-1), .leaf 100]).contained ∧
      (Node.container [.leaf (-1), .leaf 100]).expirationDate = 100 := by
  constructor
  · simp [Node.contained, Node.containedIn]
  · simp only [Node.expirationDate, Node.largest, Option.elim_none, Option.elim_some,
      Option.getD_some]
    exact max_eq_right (by decide)

/-! ## 2. Every tree: the numeric maximum -/

/-- One more child: the largest date is at least the child's and every earlier largest. -/
theorem Node.largest_cons (c : Node) (cs : List Node) :
    ∃ y, Node.largest (c :: cs) = some y ∧ c.expirationDate ≤ y ∧
      ∀ x ∈ Node.largest cs, x ≤ y := by
  cases h : Node.largest cs with
  | none => simp [Node.largest, h]
  | some x => simp [Node.largest, h]

/-- The largest date is some child's. -/
theorem Node.largest_mem : ∀ {cs : List Node} {x : ℚ}, Node.largest cs = some x →
    ∃ c ∈ cs, c.expirationDate = x
  | [], _, h => by simp [Node.largest] at h
  | c :: cs, x, h => by
    cases h' : Node.largest cs with
    | none =>
      simp only [Node.largest, h', Option.elim_none, Option.some.injEq] at h
      exact ⟨c, List.mem_cons_self c cs, h⟩
    | some x' =>
      simp only [Node.largest, h', Option.elim_some, Option.some.injEq] at h
      rcases max_choice c.expirationDate x' with hm | hm
      · exact ⟨c, List.mem_cons_self c cs, hm ▸ h⟩
      · obtain ⟨c', hc', hx'⟩ := Node.largest_mem h'
        exact ⟨c', List.mem_cons_of_mem c hc', hx'.trans (hm ▸ h)⟩

mutual

/-- Every DROP a node contains has a date at most the node's. -/
theorem Node.le_expirationDate_of_mem_contained :
    ∀ (n : Node) {d : Node}, d ∈ n.contained → d.expirationDate ≤ n.expirationDate
  | .leaf _, _, h => by simp [Node.contained] at h
  | .container cs, _, h => by
    obtain ⟨x, hx, hle⟩ := Node.le_largest_of_mem_containedIn cs h
    simpa [Node.expirationDate, hx] using hle

/-- Every DROP in a list of children, or inside one, has a date at most the largest. -/
theorem Node.le_largest_of_mem_containedIn :
    ∀ (cs : List Node) {d : Node}, d ∈ Node.containedIn cs →
      ∃ x, Node.largest cs = some x ∧ d.expirationDate ≤ x
  | [], _, h => by simp [Node.containedIn] at h
  | c :: cs, d, h => by
    obtain ⟨y, hy, hc, hcs⟩ := Node.largest_cons c cs
    refine ⟨y, hy, ?_⟩
    simp only [Node.containedIn, List.cons_append, List.mem_cons, List.mem_append] at h
    rcases h with rfl | h | h
    · exact hc
    · exact (Node.le_expirationDate_of_mem_contained c h).trans hc
    · obtain ⟨x, hx, hle⟩ := Node.le_largest_of_mem_containedIn cs h
      exact hle.trans (hcs x hx)

end

/-- **A container's date is the largest of what it contains.**  For every container with at
least one child, `expirationDate` is the date of one of its children, and at least the date
of every DROP it contains, directly or through nested containers. -/
theorem expirationDate_is_largest_contained (children : List Node) (h : children ≠ []) :
    (∃ c ∈ children, c.expirationDate = (Node.container children).expirationDate) ∧
      ∀ d ∈ (Node.container children).contained,
        d.expirationDate ≤ (Node.container children).expirationDate := by
  obtain ⟨c, cs, rfl⟩ := List.exists_cons_of_ne_nil h
  obtain ⟨y, hy, -, -⟩ := Node.largest_cons c cs
  obtain ⟨c', hc', hdate⟩ := Node.largest_mem hy
  refine ⟨⟨c', hc', ?_⟩, fun d hd => Node.le_expirationDate_of_mem_contained _ hd⟩
  simp [Node.expirationDate, hy, hdate]

/-- The children of `never_expiring_child_outlives_container`. -/
theorem expirationDate_is_largest_contained_mixed :
    [Node.leaf (-1), .leaf 100] ≠ [] ∧
      (∃ c ∈ [Node.leaf (-1), .leaf 100],
        c.expirationDate = (Node.container [.leaf (-1), .leaf 100]).expirationDate) ∧
      ∀ d ∈ (Node.container [.leaf (-1), .leaf 100]).contained,
        d.expirationDate ≤ (Node.container [.leaf (-1), .leaf 100]).expirationDate :=
  ⟨List.cons_ne_nil _ _, expirationDate_is_largest_contained _ (List.cons_ne_nil _ _)⟩

end Dfms.Expiration
