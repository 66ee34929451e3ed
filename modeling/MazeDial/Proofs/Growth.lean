import Mathlib.Combinatorics.SimpleGraph.Acyclic
import Mathlib.Data.Set.Card

/-!
# Graphs that grow without closing loops

Two ways for a graph to grow by one edge at a time. In the first, each edge joins
two vertices that could not reach each other; in the second, it joins a vertex
without edges to another one, so that nothing but the vertex itself becomes
reachable. The second is a case of the first. Neither closes a loop: each edge
that is added is a bridge and stays one.

Carving grows the graph of a maze in the second way and repair in the first.
-/

namespace MazeDial

open SimpleGraph

variable {V : Type} {base middle graph : SimpleGraph V}

/-- An edge between vertices that could not reach each other joins them. -/
theorem adj_sup_edge_of_apart {first second : V} (apart : ¬ graph.Reachable first second) :
    (graph ⊔ edge first second).Adj first second := by
  have different : first ≠ second := fun same => apart (same ▸ Reachable.refl first)
  exact .inr ((edge_adj ..).mpr ⟨.inl ⟨rfl, rfl⟩, different⟩)

/-- A graph grows from another one by so many edges, each between two vertices
    that could not reach each other when it was added. -/
inductive Linking (base : SimpleGraph V) : Nat → SimpleGraph V → Prop
  | start : Linking base 0 base
  | link {count : Nat} {graph : SimpleGraph V} {first second : V}
      (grown : Linking base count graph) (apart : ¬ graph.Reachable first second) :
      Linking base (count + 1) (graph ⊔ edge first second)

namespace Linking

variable {count : Nat}

theorem le (grown : Linking base count graph) : base ≤ graph := by
  induction grown with
  | start => exact le_refl base
  | link _ _ inductionHypothesis => exact le_trans inductionHypothesis le_sup_left

/-- A graph that has grown goes on growing. -/
theorem trans {further : Nat} (first : Linking base count middle)
    (second : Linking middle further graph) : Linking base (count + further) graph := by
  induction second with
  | start => exact first
  | link _ apart inductionHypothesis => exact inductionHypothesis.link apart

/-- A graph that grew by no edges is as it was. -/
theorem eq_of_count_eq_zero (grown : Linking base count graph) (none : count = 0) :
    graph = base := by
  cases grown with
  | start => rfl
  | link => exact absurd none (Nat.succ_ne_zero _)

/-- Each edge that was added is a bridge of the final graph: adding an edge between
    vertices that are apart makes a bridge and leaves the bridges there are. -/
theorem isBridge (grown : Linking base count graph) {first second : V}
    (adjacent : graph.Adj first second) (added : ¬ base.Adj first second) :
    graph.IsBridge s(first, second) := by
  induction grown with
  | start => exact absurd adjacent added
  | @link _ graph one other _ apart inductionHypothesis =>
    by_cases before : graph.Adj first second
    · exact IsBridge.sup_edge_of_not_reachable_of_isBridge apart (inductionHypothesis before) before
    · have new : (edge one other).Adj first second := adjacent.resolve_left before
      rw [← (adj_edge one other).mp new |>.1, isBridge_sup_edge]
      exact IsBridge.of_not_reachable apart

/-- An edge that was added joins vertices that could not reach each other in the
    beginning: it is a bridge, and a way from the beginning would lead around it. -/
theorem not_reachable_of_added (grown : Linking base count graph) {first second : V}
    (adjacent : graph.Adj first second) (added : ¬ base.Adj first second) :
    ¬ base.Reachable first second := by
  intro reachable
  have around : base ≤ graph.deleteEdges {s(first, second)} := by
    intro one other before
    rw [deleteEdges_adj]
    refine ⟨grown.le before, fun same => added ?_⟩
    have pair : s(first, second) ∈ base.edgeSet := same ▸ base.mem_edgeSet.mpr before
    exact base.mem_edgeSet.mp pair
  exact isBridge_iff.mp (grown.isBridge adjacent added) (reachable.mono around)

/-- A graph that has grown has no cycles exactly if it had none before. -/
theorem isAcyclic_iff (grown : Linking base count graph) : graph.IsAcyclic ↔ base.IsAcyclic := by
  induction grown with
  | start => rfl
  | link _ apart inductionHypothesis =>
    rw [isAcyclic_add_edge_iff_of_not_reachable _ _ apart, inductionHypothesis]

/-- What grows from a graph without edges has no cycles. -/
theorem isAcyclic (grown : Linking ⊥ count graph) : graph.IsAcyclic :=
  grown.isAcyclic_iff.mpr isAcyclic_bot

/-- There are as many edges more as were added. -/
theorem ncard_edgeSet (grown : Linking base count graph) (finite : base.edgeSet.Finite) :
    graph.edgeSet.Finite ∧ graph.edgeSet.ncard = base.edgeSet.ncard + count := by
  induction grown with
  | start => exact ⟨finite, rfl⟩
  | @link count graph one other _ apart inductionHypothesis =>
    obtain ⟨finiteBefore, counted⟩ := inductionHypothesis
    have different : one ≠ other := fun same => apart (same ▸ Reachable.refl one)
    have edges : (graph ⊔ edge one other).edgeSet = insert s(one, other) graph.edgeSet := by
      rw [edgeSet_sup, edgeSet_edge_of_ne different, Set.union_singleton]
    have absent : s(one, other) ∉ graph.edgeSet := fun present =>
      apart (Adj.reachable (graph.mem_edgeSet.mp present))
    rw [edges, Set.ncard_insert_of_notMem absent finiteBefore, counted]
    exact ⟨finiteBefore.insert _, rfl⟩

/-- Where all vertices of a region could reach each other before, and edges are
    added in the region only, none can be added. -/
theorem count_eq_zero {region : Set V} (grown : Linking base count graph)
    (joined : ∀ first ∈ region, ∀ second ∈ region, base.Reachable first second)
    (within : ∀ first second, graph.Adj first second → first ∈ region ∧ second ∈ region) :
    count = 0 := by
  cases grown with
  | start => rfl
  | @link _ graph one other grown apart =>
    obtain ⟨inOne, inOther⟩ := within one other (adj_sup_edge_of_apart apart)
    exact absurd ((joined one inOne other inOther).mono grown.le) apart

end Linking

/-- A graph grows from another one by attaching the listed vertices, the last one
    first: each has no edge until it is joined to another vertex. -/
inductive Sprouting (base : SimpleGraph V) : List V → SimpleGraph V → Prop
  | start : Sprouting base [] base
  | sprout {leaves : List V} {graph : SimpleGraph V} {leaf stem : V}
      (grown : Sprouting base leaves graph) (bare : graph.IsIsolated leaf)
      (different : leaf ≠ stem) : Sprouting base (leaf :: leaves) (graph ⊔ edge leaf stem)

/-- A vertex without edges reaches only itself. -/
theorem eq_of_reachable_of_isIsolated {leaf other : V} (bare : graph.IsIsolated leaf)
    (reachable : graph.Reachable leaf other) : leaf = other := by
  by_contra different
  exact not_reachable_of_neighborSet_left_eq_empty different bare.neighborSet_eq_empty reachable

/-- If neighbours are sent to places that reach each other, so are places that
    reach each other. -/
theorem reachable_of_sent (send : V → V)
    (sent : ∀ first second, graph.Adj first second → base.Reachable (send first) (send second))
    {first second : V} (reachable : graph.Reachable first second) :
    base.Reachable (send first) (send second) := by
  rw [reachable_iff_reflTransGen] at reachable
  induction reachable with
  | refl => exact Reachable.refl _
  | tail _ adjacent inductionHypothesis => exact inductionHypothesis.trans (sent _ _ adjacent)

/-- An edge makes no difference between vertices that do not reach the one end of it. A way
    that comes to what this end reaches can be taken without it, as one waits at the other. -/
theorem reachable_sup_edge_iff_of_apart {joined stem first second : V}
    (firstApart : ¬ graph.Reachable first joined) (secondApart : ¬ graph.Reachable second joined) :
    (graph ⊔ edge joined stem).Reachable first second ↔ graph.Reachable first second := by
  classical
  constructor
  · intro reachable
    have sent : graph.Reachable (if graph.Reachable first joined then stem else first)
        (if graph.Reachable second joined then stem else second) :=
      reachable_of_sent (fun place => if graph.Reachable place joined then stem else place) ?_
        reachable
    · simpa only [firstApart, secondApart, if_false] using sent
    · rintro one other (adjacent | new)
      · have alike : graph.Reachable one joined ↔ graph.Reachable other joined :=
          ⟨adjacent.reachable.symm.trans, adjacent.reachable.trans⟩
        by_cases reaches : graph.Reachable other joined
        · simp only [alike, reaches, if_true, Reachable.refl]
        · simpa only [alike, reaches, if_false] using adjacent.reachable
      · rcases ((edge_adj ..).mp new).1 with ⟨rfl, rfl⟩ | ⟨rfl, rfl⟩ <;> simp
  · exact fun reachable => reachable.mono le_sup_left

/-- Attaching a vertex does not change which others reach each other. -/
theorem reachable_sup_edge_iff {leaf stem first second : V} (bare : graph.IsIsolated leaf)
    (firstOther : first ≠ leaf) (secondOther : second ≠ leaf) :
    (graph ⊔ edge leaf stem).Reachable first second ↔ graph.Reachable first second := by
  have apart {other : V} (different : other ≠ leaf) : ¬ graph.Reachable other leaf := by
    intro reachable
    exact different (eq_of_reachable_of_isIsolated bare reachable.symm).symm
  exact reachable_sup_edge_iff_of_apart (apart firstOther) (apart secondOther)

namespace Sprouting

variable {leaves : List V}

/-- Attaching single vertices closes no loops. -/
theorem linking (grown : Sprouting base leaves graph) : Linking base leaves.length graph := by
  induction grown with
  | start => exact .start
  | sprout _ bare different inductionHypothesis =>
    exact inductionHypothesis.link fun reachable =>
      different (eq_of_reachable_of_isIsolated bare reachable)

theorem trans {further : List V} (first : Sprouting base leaves middle)
    (second : Sprouting middle further graph) : Sprouting base (further ++ leaves) graph := by
  induction second with
  | start => exact first
  | sprout _ bare different inductionHypothesis => exact inductionHypothesis.sprout bare different

/-- Vertices that were not attached reach each other exactly as before. -/
theorem reachable_iff (grown : Sprouting base leaves graph) {first second : V}
    (firstOther : first ∉ leaves) (secondOther : second ∉ leaves) :
    graph.Reachable first second ↔ base.Reachable first second := by
  induction grown with
  | start => rfl
  | sprout _ bare _ inductionHypothesis =>
    rw [List.mem_cons, not_or] at firstOther secondOther
    rw [reachable_sup_edge_iff bare firstOther.1 secondOther.1,
      inductionHypothesis firstOther.2 secondOther.2]

/-- An attached vertex has an edge. -/
theorem not_isIsolated (grown : Sprouting base leaves graph) {leaf : V} (attached : leaf ∈ leaves) :
    ¬ graph.IsIsolated leaf := by
  induction grown with
  | start => exact absurd attached List.not_mem_nil
  | @sprout _ graph one stem _ _ different inductionHypothesis =>
    rcases List.mem_cons.mp attached with rfl | before
    · exact fun isolated =>
        isolated stem (.inr ((edge_adj ..).mpr ⟨.inl ⟨rfl, rfl⟩, different⟩))
    · exact fun isolated =>
        inductionHypothesis before fun other adjacent => isolated other (.inl adjacent)

/-- An attached vertex reaches one that was not attached. Its stem does, or was not
    attached itself; and the way there cannot end in a vertex still without edges. -/
theorem rooted (grown : Sprouting base leaves graph) {leaf : V} (attached : leaf ∈ leaves) :
    ∃ root, root ∉ leaves ∧ graph.Reachable leaf root := by
  induction grown generalizing leaf with
  | start => exact absurd attached List.not_mem_nil
  | @sprout leaves graph one stem grown bare different inductionHypothesis =>
    have old {place : V} (present : place ∈ leaves) :
        ∃ root, root ∉ one :: leaves ∧ (graph ⊔ edge one stem).Reachable place root := by
      obtain ⟨root, absent, reachable⟩ := inductionHypothesis present
      have other : root ≠ one := by
        intro same
        have back : one = place := eq_of_reachable_of_isIsolated bare (same ▸ reachable.symm)
        exact grown.not_isIsolated present (back ▸ bare)
      exact ⟨root, List.not_mem_cons_of_ne_of_not_mem other absent, reachable.mono le_sup_left⟩
    rcases List.mem_cons.mp attached with rfl | before
    · have toStem : (graph ⊔ edge leaf stem).Reachable leaf stem :=
        Adj.reachable (.inr ((edge_adj ..).mpr ⟨.inl ⟨rfl, rfl⟩, different⟩))
      by_cases attachedStem : stem ∈ leaves
      · obtain ⟨root, absent, reachable⟩ := old attachedStem
        exact ⟨root, absent, toStem.trans reachable⟩
      · exact ⟨stem, List.not_mem_cons_of_ne_of_not_mem different.symm attachedStem, toStem⟩
    · exact old before

end Sprouting

end MazeDial
