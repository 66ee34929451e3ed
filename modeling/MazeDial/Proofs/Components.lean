import MazeDial.Proofs.Growth

/-!
# Counting components

How many components of a graph a set of vertices lies in, and how that number changes
as the graph grows. An edge between vertices that could not reach each other makes one
component of two. Vertices that reach the set bring no component of their own.

The set holds all vertices with edges, but the graph may have others: they are those
left out. Counted in this way, a graph whose vertices in the set all reach each other
has no cycle exactly if it has one edge less than the set has vertices.
-/

namespace MazeDial

open SimpleGraph

variable {V : Type} {base graph : SimpleGraph V} {region : Set V}

/-- A walk from a vertex of the set stays in it, as every vertex it comes to has an edge. -/
theorem mem_of_mem_support (within : graph.support ⊆ region) {first second : V}
    (walk : graph.Walk first second) (inside : first ∈ region) :
    ∀ place ∈ walk.support, place ∈ region := by
  induction walk with
  | nil => simpa using inside
  | cons adjacent rest inductionHypothesis =>
    intro place member
    rw [Walk.support_cons, List.mem_cons] at member
    rcases member with rfl | later
    · exact inside
    · exact inductionHypothesis (within ⟨_, adjacent.symm⟩) place later

/-- The other vertices do not matter for which of the set reach each other. -/
theorem reachable_induce_iff (within : graph.support ⊆ region) {first second : region} :
    (graph.induce region).Reachable first second ↔ graph.Reachable first second := by
  constructor
  · exact fun reachable => reachable.map (Embedding.induce region).toHom
  · rintro ⟨walk⟩
    exact ⟨walk.induce region (mem_of_mem_support within walk first.2)⟩

/-- Nor do they for cycles. -/
theorem isAcyclic_induce_iff (within : graph.support ⊆ region) :
    (graph.induce region).IsAcyclic ↔ graph.IsAcyclic := by
  constructor
  · intro acyclic start cycle isCycle
    have inside : start ∈ region := by
      cases cycle with
      | nil => exact absurd isCycle Walk.not_isCycle_nil
      | cons adjacent rest => exact within ⟨_, adjacent⟩
    apply acyclic (cycle.induce region (mem_of_mem_support within cycle inside))
    apply Walk.IsCycle.of_map (f := (Embedding.induce region).toHom)
    rwa [Walk.map_induce]
  · exact fun acyclic => acyclic.induce region

/-- Nor do they for edges. -/
theorem card_edgeSet_induce (within : graph.support ⊆ region) :
    Nat.card (graph.induce region).edgeSet = graph.edgeSet.ncard := by
  have whole : (graph.induce region).spanningCoe = graph :=
    (spanningCoe_induce_eq_self graph region).mpr within
  have edges : graph.edgeSet =
      (Function.Embedding.subtype region).sym2Map '' (graph.induce region).edgeSet := by
    rw [← edgeSet_map]
    exact congrArg edgeSet whole.symm
  rw [edges, Set.ncard_image_of_injective _ (Function.Embedding.injective _), Nat.card_coe_set_eq]

/-- A graph whose vertices in the set all reach each other has no cycle exactly if it has
    one edge less than the set has vertices. -/
theorem isAcyclic_iff_ncard_edgeSet (within : graph.support ⊆ region) (finite : region.Finite)
    (some : region.Nonempty)
    (whole : ∀ first ∈ region, ∀ second ∈ region, graph.Reachable first second) :
    graph.IsAcyclic ↔ graph.edgeSet.ncard + 1 = region.ncard := by
  have : Finite region := finite
  have : Nonempty region := some.to_subtype
  have connected : (graph.induce region).Connected :=
    ⟨fun first second => (reachable_induce_iff within).mpr (whole _ first.2 _ second.2)⟩
  have tree : (graph.induce region).IsAcyclic ↔ (graph.induce region).IsTree :=
    ⟨fun acyclic => ⟨connected, acyclic⟩, IsTree.isAcyclic⟩
  rw [← isAcyclic_induce_iff within, tree, isTree_iff_connected_and_card, card_edgeSet_induce within,
    Nat.card_coe_set_eq, and_iff_right connected]

/-- The components of a graph that a set of vertices lies in. -/
def componentsOf (graph : SimpleGraph V) (region : Set V) : Set graph.ConnectedComponent :=
  graph.connectedComponentMk '' region

/-- Different components of the graph on the set are parts of different components. -/
theorem map_induce_injective (within : graph.support ⊆ region) :
    Function.Injective (ConnectedComponent.map (Embedding.induce (G := graph) region).toHom) := by
  intro first second same
  induction first, second using ConnectedComponent.ind₂ with
  | h first second =>
    have reachable : graph.Reachable first second := ConnectedComponent.exact same
    exact ConnectedComponent.sound ((reachable_induce_iff within).mpr reachable)

/-- If the set holds all vertices with edges, these are the components of the graph on it. -/
theorem ncard_componentsOf (within : graph.support ⊆ region) :
    (componentsOf graph region).ncard = Nat.card (graph.induce region).ConnectedComponent := by
  have covered : componentsOf graph region =
      Set.range (ConnectedComponent.map (Embedding.induce (G := graph) region).toHom) := by
    apply Set.Subset.antisymm
    · rintro _ ⟨place, inside, rfl⟩
      exact ⟨(graph.induce region).connectedComponentMk ⟨place, inside⟩, rfl⟩
    · rintro _ ⟨component, rfl⟩
      induction component using ConnectedComponent.ind with
      | h place => exact ⟨place, place.2, rfl⟩
  rw [covered, Set.ncard_range_of_injective (map_induce_injective within)]

/-- Vertices that reach a set lie in no other components. -/
theorem componentsOf_eq {larger : Set V} (part : region ⊆ larger)
    (reaches : ∀ place ∈ larger, ∃ other ∈ region, graph.Reachable place other) :
    componentsOf graph larger = componentsOf graph region := by
  apply Set.Subset.antisymm
  · rintro _ ⟨place, inside, rfl⟩
    obtain ⟨other, member, reachable⟩ := reaches place inside
    exact ⟨other, member, ConnectedComponent.sound reachable.symm⟩
  · exact Set.image_mono part

/-- A set whose vertices all reach each other lies in one component. -/
theorem ncard_componentsOf_eq_one (some : region.Nonempty)
    (whole : ∀ first ∈ region, ∀ second ∈ region, graph.Reachable first second) :
    (componentsOf graph region).ncard = 1 := by
  obtain ⟨root, inside⟩ := some
  rw [Set.ncard_eq_one]
  refine ⟨graph.connectedComponentMk root, ?_⟩
  apply Set.Subset.antisymm
  · rintro _ ⟨place, member, rfl⟩
    exact ConnectedComponent.sound (whole place member root inside)
  · rintro _ rfl
    exact ⟨root, inside, rfl⟩

/-- The component of a graph that one of a smaller graph has become part of. -/
def widen (smaller : base ≤ graph) : base.ConnectedComponent → graph.ConnectedComponent :=
  ConnectedComponent.map (Hom.ofLE smaller)

theorem componentsOf_eq_image_widen (smaller : base ≤ graph) (region : Set V) :
    componentsOf graph region = widen smaller '' componentsOf base region := by
  rw [componentsOf, componentsOf, Set.image_image]
  rfl

/-- If vertices of a set reach each other in a larger graph only where they did before, the
    set lies in as many components as before. -/
theorem ncard_componentsOf_congr (smaller : base ≤ graph)
    (same : ∀ first ∈ region, ∀ second ∈ region,
      graph.Reachable first second → base.Reachable first second) :
    (componentsOf graph region).ncard = (componentsOf base region).ncard := by
  rw [componentsOf_eq_image_widen smaller]
  apply Set.InjOn.ncard_image
  rintro _ ⟨first, inFirst, rfl⟩ _ ⟨second, inSecond, rfl⟩ joined
  exact ConnectedComponent.sound (same first inFirst second inSecond (ConnectedComponent.exact joined))

/-- An edge between vertices of the set that were apart makes one component of two. All
    components but the one where the edge starts stay different, and that one becomes part of
    the one where it ends. -/
theorem ncard_componentsOf_sup_edge {joined stem : V} (finite : region.Finite)
    (apart : ¬ graph.Reachable joined stem) (inJoined : joined ∈ region) (inStem : stem ∈ region) :
    (componentsOf (graph ⊔ edge joined stem) region).ncard + 1 =
      (componentsOf graph region).ncard := by
  have smaller : graph ≤ graph ⊔ edge joined stem := le_sup_left
  have adjacent := adj_sup_edge_of_apart apart
  have covered : componentsOf (graph ⊔ edge joined stem) region =
      widen smaller '' (componentsOf graph region \ {graph.connectedComponentMk joined}) := by
    rw [componentsOf_eq_image_widen smaller]
    apply Set.Subset.antisymm
    · rintro _ ⟨_, ⟨place, inside, rfl⟩, rfl⟩
      by_cases there : graph.Reachable place joined
      · refine ⟨_, ⟨⟨stem, inStem, rfl⟩, fun same => apart (ConnectedComponent.exact same).symm⟩, ?_⟩
        exact ConnectedComponent.sound ((there.mono smaller).trans adjacent.reachable).symm
      · exact ⟨_, ⟨⟨place, inside, rfl⟩, fun same => there (ConnectedComponent.exact same)⟩, rfl⟩
    · exact Set.image_mono Set.sdiff_subset
  have injective : Set.InjOn (widen smaller)
      (componentsOf graph region \ {graph.connectedComponentMk joined}) := by
    rintro _ ⟨⟨first, -, rfl⟩, firstOther⟩ _ ⟨⟨second, -, rfl⟩, secondOther⟩ same
    have firstApart : ¬ graph.Reachable first joined :=
      fun reachable => firstOther (ConnectedComponent.sound reachable)
    have secondApart : ¬ graph.Reachable second joined :=
      fun reachable => secondOther (ConnectedComponent.sound reachable)
    apply ConnectedComponent.sound
    exact (reachable_sup_edge_iff_of_apart firstApart secondApart).mp (ConnectedComponent.exact same)
  rw [covered, injective.ncard_image]
  exact Set.ncard_sdiff_singleton_add_one ⟨joined, inJoined, rfl⟩ (finite.image _)

/-- Each edge that was added in the set has made one component of two. -/
theorem Linking.ncard_componentsOf {count : Nat} (grown : Linking base count graph)
    (within : graph.support ⊆ region) (finite : region.Finite) :
    (componentsOf graph region).ncard + count = (componentsOf base region).ncard := by
  induction grown with
  | start => rfl
  | @link count graph joined stem _ apart inductionHypothesis =>
    have adjacent := adj_sup_edge_of_apart apart
    have earlier : graph.support ⊆ region := (support_mono le_sup_left).trans within
    have merged := ncard_componentsOf_sup_edge finite apart (within ⟨_, adjacent⟩)
      (within ⟨_, adjacent.symm⟩)
    rw [← inductionHypothesis earlier, ← merged]
    omega

end MazeDial
