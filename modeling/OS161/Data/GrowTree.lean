import Mathlib.Combinatorics.SimpleGraph.Acyclic

namespace OS161.Data

/-! A tree grown inside a graph, one leaf at a time. -/

variable {V : Type*} {G : SimpleGraph V} {S : Set V}

/-- The graph is a tree on the set, and has no edge elsewhere. -/
structure GrownTree (G : SimpleGraph V) (S : Set V) : Prop where
  acyclic : G.IsAcyclic
  connected : ∀ u ∈ S, ∀ v ∈ S, G.Reachable u v
  within : ∀ u v, G.Adj u v → u ∈ S

namespace GrownTree

theorem singleton (root : V) : GrownTree (⊥ : SimpleGraph V) {root} where
  acyclic := SimpleGraph.isAcyclic_bot
  connected u hu v hv := by
    rw [Set.mem_singleton_iff] at hu hv
    rw [hu, hv]
  within u v hadj := hadj.elim

/-- Nothing outside the set is reached from anywhere else. -/
theorem eq_of_reachable (htree : GrownTree G S) (hv : v ∉ S) (hreach : G.Reachable u v) :
    u = v := by
  obtain ⟨walk⟩ := hreach.symm
  cases walk with
  | nil => rfl
  | cons hadj _ => exact absurd (htree.within _ _ hadj) hv

theorem leaf (htree : GrownTree G S) (hu : u ∈ S) (hv : v ∉ S) :
    GrownTree (G ⊔ SimpleGraph.edge u v) (insert v S) := by
  have hne : u ≠ v := by
    rintro rfl
    exact hv hu
  have hold {a b : V} (hreach : G.Reachable a b) :
      (G ⊔ SimpleGraph.edge u v).Reachable a b :=
    hreach.mono le_sup_left
  have hnew : (G ⊔ SimpleGraph.edge u v).Reachable u v := by
    apply SimpleGraph.Adj.reachable
    rw [SimpleGraph.sup_adj, SimpleGraph.edge_adj]
    exact .inr ⟨.inl ⟨rfl, rfl⟩, hne⟩
  have hroot {a : V} (ha : a ∈ insert v S) : (G ⊔ SimpleGraph.edge u v).Reachable u a := by
    rcases ha with rfl | ha
    · exact hnew
    · exact hold (htree.connected u hu a ha)
  constructor
  · apply htree.acyclic.sup_edge_of_not_reachable
    intro hreach
    exact hne (htree.eq_of_reachable hv hreach)
  · intro a ha b hb
    exact (hroot ha).symm.trans (hroot hb)
  · intro a b hadj
    rw [SimpleGraph.sup_adj, SimpleGraph.edge_adj] at hadj
    rcases hadj with hadj | ⟨⟨rfl, rfl⟩ | ⟨rfl, rfl⟩, -⟩
    · exact .inr (htree.within a b hadj)
    · exact .inr hu
    · exact .inl rfl

theorem isTree [Nonempty V] (htree : GrownTree G S) (hall : ∀ v, v ∈ S) : G.IsTree where
  connected := ⟨fun u v => htree.connected u (hall u) v (hall v)⟩
  isAcyclic := htree.acyclic

end GrownTree

end OS161.Data
