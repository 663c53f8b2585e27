import OS161.Mazewar.Maze

namespace OS161.Mazewar

open OS161.Data

/-! The maze that the constructor builds is a spanning tree of the grid. -/

/-- The cells of the grid. -/
abbrev Place (maxX maxY : Nat) := Fin maxX × Fin maxY

def Place.point (v : Place maxX maxY) : Point := ⟨v.1, v.2⟩

def InGrid (maxX maxY : Nat) (p : Point) : Prop :=
  0 ≤ p.x ∧ 0 ≤ p.y ∧ p.x < maxX ∧ p.y < maxY

section Grid

variable {maxX maxY : Nat}

theorem Place.inGrid (v : Place maxX maxY) : InGrid maxX maxY v.point := by
  have hx := v.1.isLt
  have hy := v.2.isLt
  refine ⟨?_, ?_, ?_, ?_⟩ <;> simp only [Place.point] <;> omega

theorem Place.point_injective : Function.Injective (Place.point : Place maxX maxY → Point) := by
  intro u v heq
  simp only [Place.point, Point.mk.injEq] at heq
  apply Prod.ext <;> apply Fin.ext <;> omega

theorem InGrid.exists_point {p : Point} (hp : InGrid maxX maxY p) :
    ∃ v : Place maxX maxY, v.point = p := by
  obtain ⟨hx, hy, hx', hy'⟩ := hp
  refine ⟨(⟨p.x.toNat, by omega⟩, ⟨p.y.toNat, by omega⟩), ?_⟩
  simp only [Place.point, Point.ext_iff]
  omega

/-- A set of cells that holds a corner and all the neighbours of its cells is
the whole grid. -/
theorem grid_induction (holds : Point → Prop) (hcorner : holds ⟨0, 0⟩)
    (hmove : ∀ p d, InGrid maxX maxY p → InGrid maxX maxY (p.move d) → holds p →
      holds (p.move d)) {p : Point} (hp : InGrid maxX maxY p) : holds p := by
  have hrow (i : Nat) (hi : i < maxX) (hy : 0 < maxY) : holds ⟨i, 0⟩ := by
    induction i with
    | zero => exact hcorner
    | succ i ih =>
        have hnext := hmove ⟨i, 0⟩ .east ⟨by simp, by simp, by simp; omega, by simp; omega⟩
          ⟨by simp [Point.move]; omega, by simp [Point.move], by simp [Point.move]; omega,
            by simp [Point.move]; omega⟩ (ih (by omega))
        simpa [Point.move] using hnext
  have hcolumn (i j : Nat) (hi : i < maxX) (hj : j < maxY) : holds ⟨i, j⟩ := by
    induction j with
    | zero => exact hrow i hi hj
    | succ j ih =>
        have hnext := hmove ⟨i, j⟩ .north ⟨by simp, by simp, by simp; omega, by simp; omega⟩
          ⟨by simp [Point.move], by simp [Point.move]; omega, by simp [Point.move]; omega,
            by simp [Point.move]; omega⟩ (ih (by omega))
        simpa [Point.move] using hnext
  obtain ⟨v, rfl⟩ := hp.exists_point
  exact hcolumn v.1 v.2 v.1.isLt v.2.isLt

end Grid

namespace MazeImpl

/-- The wall from the one cell to the other is open. -/
def Opening (m : MazeImpl) (p q : Point) : Prop :=
  ∃ d, q = p.move d ∧ m.isWall p d = false

/-- The graph of the openings. -/
def openings (maxX maxY : Nat) (m : MazeImpl) : SimpleGraph (Place maxX maxY) :=
  SimpleGraph.fromRel fun u v => m.Opening u.point v.point

def visitedPlaces (maxX maxY : Nat) (m : MazeImpl) : Set (Place maxX maxY) :=
  {v | m.visited v.point = true}

/-- What holds of the walls at every moment of the construction. -/
structure Walls (maxX maxY : Nat) (m : MazeImpl) : Prop where
  maxX_eq : m.maxX = maxX
  maxY_eq : m.maxY = maxY
  symmetric : ∀ p d, InGrid maxX maxY p → InGrid maxX maxY (p.move d) →
    m.isWall (p.move d) d.invert = m.isWall p d
  outer : ∀ p d, InGrid maxX maxY p → ¬ InGrid maxX maxY (p.move d) → m.isWall p d = true

section Openings

variable {maxX maxY : Nat} {m m' : MazeImpl}

theorem Walls.checkBounds_iff (hwalls : Walls maxX maxY m) (p : Point) :
    m.checkBounds p = true ↔ InGrid maxX maxY p := by
  rw [checkBounds, hwalls.maxX_eq, hwalls.maxY_eq, decide_eq_true_eq]
  rfl

theorem openings_congr (hwall : ∀ p d, m'.isWall p d = m.isWall p d) :
    openings maxX maxY m' = openings maxX maxY m := by
  have hopening (p q : Point) : m'.Opening p q ↔ m.Opening p q := by
    simp only [Opening, hwall]
  ext u v
  simp only [openings, SimpleGraph.fromRel_adj, hopening]

theorem opening_opened_iff (p : Point) (d : Direction) (x y : Point) :
    (m.opened p d).Opening x y ↔
      m.Opening x y ∨ (x = p ∧ y = p.move d) ∨ (x = p.move d ∧ y = p) := by
  simp only [Opening, isWall_opened_eq_false_iff]
  constructor
  · rintro ⟨e, rfl, hold | ⟨rfl, rfl⟩ | ⟨rfl, rfl⟩⟩
    · exact .inl ⟨e, rfl, hold⟩
    · exact .inr (.inl ⟨rfl, rfl⟩)
    · exact .inr (.inr ⟨rfl, Point.move_move_invert p d⟩)
  · rintro (⟨e, rfl, hold⟩ | ⟨rfl, rfl⟩ | ⟨rfl, rfl⟩)
    · exact ⟨e, rfl, .inl hold⟩
    · exact ⟨d, rfl, .inr (.inl ⟨rfl, rfl⟩)⟩
    · exact ⟨d.invert, (Point.move_move_invert y d).symm, .inr (.inr ⟨rfl, rfl⟩)⟩

theorem openings_opened {u v : Place maxX maxY} (hv : v.point = u.point.move d) :
    openings maxX maxY (m.opened u.point d) = openings maxX maxY m ⊔ SimpleGraph.edge u v := by
  have hedge (a b : Place maxX maxY) : (m.opened u.point d).Opening a.point b.point ↔
      m.Opening a.point b.point ∨ (a = u ∧ b = v) ∨ (a = v ∧ b = u) := by
    rw [opening_opened_iff, ← hv]
    simp only [Place.point_injective.eq_iff]
  ext a b
  simp only [openings, SimpleGraph.fromRel_adj, SimpleGraph.sup_adj, SimpleGraph.edge_adj,
    hedge]
  tauto

theorem Walls.opened (hwalls : Walls maxX maxY m) {p : Point} (hp : InGrid maxX maxY p)
    (hmove : InGrid maxX maxY (p.move d)) : Walls maxX maxY (m.opened p d) where
  maxX_eq := hwalls.maxX_eq
  maxY_eq := hwalls.maxY_eq
  symmetric q e hq hqe := by
    have hback : (q.move e = p ∧ e.invert = d) ↔ (q = p.move d ∧ e = d.invert) := by
      constructor
      · rintro ⟨rfl, rfl⟩
        exact ⟨(Point.move_move_invert q e).symm, (Direction.invert_invert e).symm⟩
      · rintro ⟨rfl, rfl⟩
        exact ⟨Point.move_move_invert p d, Direction.invert_invert d⟩
    have hthere : (q.move e = p.move d ∧ e.invert = d.invert) ↔ (q = p ∧ e = d) := by
      constructor
      · rintro ⟨hpoint, hdir⟩
        have he : e = d := by
          rw [← Direction.invert_invert e, hdir, Direction.invert_invert]
        subst he
        have hq' := congrArg (Point.move · e.invert) hpoint
        simp only [Point.move_move_invert] at hq'
        exact ⟨hq', rfl⟩
      · rintro ⟨rfl, rfl⟩
        exact ⟨rfl, rfl⟩
    have hsame : (m.opened p d).isWall (q.move e) e.invert = false ↔
        (m.opened p d).isWall q e = false := by
      rw [isWall_opened_eq_false_iff, isWall_opened_eq_false_iff, hwalls.symmetric q e hq hqe,
        hback, hthere]
      tauto
    rwa [Bool.eq_iff_iff, ← not_iff_not, Bool.not_eq_true, Bool.not_eq_true]
  outer q e hq hqe := by
    by_contra hopen
    rw [Bool.not_eq_true, isWall_opened_eq_false_iff] at hopen
    rcases hopen with hold | ⟨rfl, rfl⟩ | ⟨rfl, rfl⟩
    · rw [hwalls.outer q e hq hqe] at hold
      cases hold
    · exact hqe hmove
    · rw [Point.move_move_invert] at hqe
      exact hqe hp

end Openings

/-! Growing the maze. -/

/-- The walls are sound and the openings are a tree on the given cells. -/
structure Carved (maxX maxY : Nat) (m : MazeImpl) (carved : Set (Place maxX maxY)) :
    Prop where
  walls : Walls maxX maxY m
  tree : GrownTree (openings maxX maxY m) carved

/-- All the neighbours of the cell are visited. -/
def Closed (maxX maxY : Nat) (m : MazeImpl) (p : Point) : Prop :=
  ∀ d, InGrid maxX maxY (p.move d) → m.visited (p.move d) = true

/-- Only cells without an unvisited neighbour have been added. -/
structure Grows (maxX maxY : Nat) (m m' : MazeImpl) : Prop where
  keeps : ∀ p, m.visited p = true → m'.visited p = true
  closed : ∀ p, InGrid maxX maxY p → m'.visited p = true → m.visited p = false →
    Closed maxX maxY m' p

def unvisited (maxX maxY : Nat) (m : MazeImpl) : Nat :=
  (Finset.univ.filter fun v : Place maxX maxY => m.visited v.point = false).card

section Growing

variable {maxX maxY : Nat} {m mid m' : MazeImpl}

theorem Grows.refl (m : MazeImpl) : Grows maxX maxY m m where
  keeps _ h := h
  closed p _ hvisited hnot := by
    rw [hvisited] at hnot
    cases hnot

theorem Grows.trans (hfirst : Grows maxX maxY m mid) (hsecond : Grows maxX maxY mid m') :
    Grows maxX maxY m m' where
  keeps p h := hsecond.keeps p (hfirst.keeps p h)
  closed p hp hvisited hnot := by
    cases hmid : mid.visited p with
    | true =>
        intro d hd
        exact hsecond.keeps _ (hfirst.closed p hp hmid hnot d hd)
    | false => exact hsecond.closed p hp hvisited hmid

theorem Grows.of_visited (hsame : ∀ p, m'.visited p = m.visited p) : Grows maxX maxY m m' where
  keeps p h := (hsame p).trans h
  closed p _ hvisited hnot := by
    rw [hsame, hnot] at hvisited
    cases hvisited

theorem SameCells.carved (hsame : SameCells m m') {carved : Set (Place maxX maxY)}
    (hcarved : Carved maxX maxY m carved) : Carved maxX maxY m' carved where
  walls := {
    maxX_eq := hsame.maxX_eq.trans hcarved.walls.maxX_eq
    maxY_eq := hsame.maxY_eq.trans hcarved.walls.maxY_eq
    symmetric := by
      simp only [hsame.isWall]
      exact hcarved.walls.symmetric
    outer := by
      simp only [hsame.isWall]
      exact hcarved.walls.outer }
  tree := by
    rw [openings_congr hsame.isWall]
    exact hcarved.tree

theorem visitedPlaces_congr (hsame : ∀ p, m'.visited p = m.visited p) :
    visitedPlaces maxX maxY m' = visitedPlaces maxX maxY m := by
  ext v
  simp only [visitedPlaces, Set.mem_ofPred_eq, hsame]

theorem visitedPlaces_visit (v : Place maxX maxY) :
    visitedPlaces maxX maxY (m.visit v.point) = insert v (visitedPlaces maxX maxY m) := by
  ext u
  simp only [visitedPlaces, Set.mem_ofPred_eq, Set.mem_insert_iff, visited_visit, Bool.or_eq_true,
    decide_eq_true_eq, Place.point_injective.eq_iff]

theorem Carved.visit {carved : Set (Place maxX maxY)} (hcarved : Carved maxX maxY m carved)
    (p : Point) : Carved maxX maxY (m.visit p) carved where
  walls := {
    maxX_eq := hcarved.walls.maxX_eq
    maxY_eq := hcarved.walls.maxY_eq
    symmetric := by
      simp only [isWall_visit]
      exact hcarved.walls.symmetric
    outer := by
      simp only [isWall_visit]
      exact hcarved.walls.outer }
  tree := by
    rw [openings_congr (isWall_visit (m := m) (p := p))]
    exact hcarved.tree

theorem Carved.opened {carved : Set (Place maxX maxY)} (hcarved : Carved maxX maxY m carved)
    {u v : Place maxX maxY} (hv : v.point = u.point.move d) (hin : u ∈ carved)
    (hout : v ∉ carved) : Carved maxX maxY (m.opened u.point d) (insert v carved) where
  walls := hcarved.walls.opened u.inGrid (hv ▸ v.inGrid)
  tree := by
    rw [openings_opened hv]
    exact hcarved.tree.leaf hin hout

theorem unvisited_mono (hgrows : Grows maxX maxY m m') :
    unvisited maxX maxY m' ≤ unvisited maxX maxY m := by
  apply Finset.card_le_card
  intro v hv
  simp only [Finset.mem_filter, Finset.mem_univ, true_and] at hv ⊢
  cases hvisited : m.visited v.point with
  | true =>
      rw [hgrows.keeps _ hvisited] at hv
      cases hv
  | false => rfl

theorem unvisited_visit_lt {v : Place maxX maxY} (hnot : m.visited v.point = false) :
    unvisited maxX maxY (m.visit v.point) < unvisited maxX maxY m := by
  apply Finset.card_lt_card
  rw [Finset.ssubset_iff_of_subset]
  · refine ⟨v, ?_, ?_⟩ <;> simp [hnot, visited_visit]
  · intro u hu
    simp only [Finset.mem_filter, Finset.mem_univ, true_and, visited_visit,
      Bool.or_eq_false_iff] at hu ⊢
    exact hu.2

/-- What a part of the construction leaves behind. -/
structure Made (maxX maxY : Nat) (m m' : MazeImpl) : Prop where
  carved : Carved maxX maxY m' (visitedPlaces maxX maxY m')
  grows : Grows maxX maxY m m'

theorem Made.after (hmade : Made maxX maxY mid m') (hgrows : Grows maxX maxY m mid) :
    Made maxX maxY m m' where
  carved := hmade.carved
  grows := hgrows.trans hmade.grows

theorem SameCells.made (hsame : SameCells m m')
    (hcarved : Carved maxX maxY m (visitedPlaces maxX maxY m)) : Made maxX maxY m m' where
  carved := by
    rw [visitedPlaces_congr hsame.visited]
    exact hsame.carved hcarved
  grows := .of_visited hsame.visited

theorem mem_options_iff' (hwalls : Walls maxX maxY m) {p : Point} :
    d ∈ m.options p ↔ InGrid maxX maxY (p.move d) ∧ m.visited (p.move d) = false := by
  rw [mem_options_iff, hwalls.checkBounds_iff]

theorem closed_of_options_nil (hwalls : Walls maxX maxY m) {p : Point}
    (hnone : m.options p = []) : Closed maxX maxY m p := by
  intro d hd
  have hnot : d ∉ m.options p := by simp [hnone]
  rw [mem_options_iff' hwalls, not_and, Bool.not_eq_false] at hnot
  exact hnot hd

/-- The choice that has been taken is no longer there. -/
theorem length_options_lt (hwalls : Walls maxX maxY m) (hwalls' : Walls maxX maxY m')
    (hgrows : Grows maxX maxY m m') {p : Point} (hchoice : d ∈ m.options p)
    (htaken : m'.visited (p.move d) = true) :
    (m'.options p).length < (m.options p).length := by
  have hsub : (m'.options p).Sublist (m.options p) := by
    apply List.monotone_filter_right
    intro e he
    rw [Bool.and_eq_true, Bool.not_eq_true', hwalls'.checkBounds_iff] at he
    rw [Bool.and_eq_true, Bool.not_eq_true', hwalls.checkBounds_iff]
    refine ⟨he.1, ?_⟩
    cases hvisited : (m.cell (p.move e)).visited with
    | true =>
        have hkept := hgrows.keeps _ hvisited
        rw [visited, he.2] at hkept
        cases hkept
    | false => rfl
  refine Nat.lt_of_le_of_ne hsub.length_le fun heq => ?_
  have hstill : d ∈ m'.options p := by
    rw [hsub.eq_of_length heq]
    exact hchoice
  rw [mem_options_iff' hwalls', htaken] at hstill
  cases hstill.2

/-- A call of `buildMaze` for a cell that hangs on the tree but is not visited. -/
def Builds (maxX maxY : Nat) (depth : Nat) (build : Point → Op Unit) : Prop :=
  ∀ (m : MazeImpl) (u : Place maxX maxY),
    Carved maxX maxY m (insert u (visitedPlaces maxX maxY m)) →
    m.visited u.point = false → unvisited maxX maxY m ≤ depth →
    (build u.point).Returns
      (fun _ m' => Made maxX maxY m m' ∧ m'.visited u.point = true) m

theorem carve_returns {build : Point → Op Unit} (hbuild : Builds maxX maxY depth build)
    {u : Place maxX maxY} (hcarved : Carved maxX maxY m (visitedPlaces maxX maxY m))
    (hu : m.visited u.point = true) (hdepth : unvisited maxX maxY m ≤ depth)
    (hturns : (m.options u.point).length ≤ turns) (hpicked : m.Picked u.point picked) :
    (carve build u.point turns picked).Returns
      (fun _ m' => Made maxX maxY m m' ∧ m'.options u.point = []) m := by
  induction turns generalizing m picked with
  | zero =>
      have hnone : m.options u.point = [] :=
        List.eq_nil_of_length_eq_zero (Nat.le_zero.mp hturns)
      cases picked with
      | none => exact ⟨⟨hcarved, .refl m⟩, hnone⟩
      | some d =>
          rw [Picked, hnone] at hpicked
          cases hpicked
  | succ turns ih =>
      cases picked with
      | none => exact ⟨⟨hcarved, .refl m⟩, hpicked⟩
      | some d =>
          have hd := (mem_options_iff' hcarved.walls).mp hpicked
          obtain ⟨v, hv⟩ := hd.1.exists_point
          have hnew : v ∉ visitedPlaces maxX maxY m := by
            rw [visitedPlaces, Set.mem_ofPred_eq, hv, hd.2]
            simp
          have hopened : Carved maxX maxY (m.opened u.point d)
              (insert v (visitedPlaces maxX maxY (m.opened u.point d))) := by
            rw [visitedPlaces_congr (visited_opened (m := m))]
            exact hcarved.opened hv hu hnew
          have hgrows : Grows maxX maxY m (m.opened u.point d) := .of_visited visited_opened
          have hbounds := (hcarved.walls.checkBounds_iff u.point).mpr u.inGrid
          have hmove := (hcarved.walls.checkBounds_iff _).mpr hd.1
          simp only [carve, Prog.Returns, ↓Prog.wp_bind]
          refine (removeWall_returns hbounds hmove).mono ?_
          rintro _ mid rfl
          rw [← hv]
          refine (hbuild _ v hopened ?_ ?_).mono ?_
          · rw [visited_opened, hv]
            exact hd.2
          · exact (unvisited_mono hgrows).trans hdepth
          rintro _ mid ⟨hmid, htaken⟩
          refine (pickNeighbor_returns mid u.point).mono ?_
          rintro picked next ⟨hnext, hsame⟩
          have hmade : Made maxX maxY m next :=
            (hsame.made hmid.carved).after (hgrows.trans hmid.grows)
          have hshorter : (next.options u.point).length < (m.options u.point).length := by
            apply length_options_lt hcarved.walls hmade.carved.walls hmade.grows hpicked
            rw [hsame.visited, ← hv]
            exact htaken
          have hpicked' : next.Picked u.point picked := by
            cases picked with
            | none => exact (hsame.options _).trans hnext
            | some d' =>
                rw [Picked, hsame.options]
                exact hnext
          refine (ih hmade.carved (hmade.grows.keeps _ hu)
            ((unvisited_mono hmade.grows).trans hdepth) (by omega) hpicked').mono ?_
          rintro _ m' ⟨hm', hnone⟩
          exact ⟨hm'.after hmade.grows, hnone⟩

theorem buildMaze_returns (depth : Nat) : Builds maxX maxY depth (buildMaze depth) := by
  induction depth with
  | zero =>
      intro m u _ hnot hdepth
      have hless := unvisited_visit_lt hnot
      omega
  | succ depth ih =>
      intro m u hcarved hnot hdepth
      have hless := unvisited_visit_lt hnot
      have hvisit : Carved maxX maxY (m.visit u.point)
          (visitedPlaces maxX maxY (m.visit u.point)) := by
        rw [visitedPlaces_visit]
        exact hcarved.visit u.point
      have hu : (m.visit u.point).visited u.point = true := by simp [visited_visit]
      simp only [buildMaze, Prog.Returns, ↓Prog.wp_bind]
      refine (setVisited_returns ((hcarved.walls.checkBounds_iff _).mpr u.inGrid)).mono ?_
      rintro _ mid rfl
      refine (pickNeighbor_returns _ u.point).mono ?_
      rintro picked next ⟨hpicked, hsame⟩
      have hmade := hsame.made hvisit
      have hpicked' : next.Picked u.point picked := by
        cases picked with
        | none => exact (hsame.options _).trans hpicked
        | some d =>
            rw [Picked, hsame.options]
            exact hpicked
      have hfour : (next.options u.point).length ≤ 4 :=
        List.length_filter_le _ _
      have hfewer := unvisited_mono hmade.grows
      refine (carve_returns ih hmade.carved (hmade.grows.keeps _ hu) (by omega) hfour
        hpicked').mono ?_
      rintro _ m' ⟨hm', hnone⟩
      have hgrows := hmade.grows.trans hm'.grows
      refine ⟨⟨hm'.carved, ?_, ?_⟩, hgrows.keeps _ hu⟩
      · intro p hp
        apply hgrows.keeps
        rw [visited_visit, hp, Bool.or_true]
      · intro p hp hvisited hold
        by_cases hhere : p = u.point
        · subst hhere
          exact closed_of_options_nil hm'.carved.walls hnone
        · apply hgrows.closed p hp hvisited
          rw [visited_visit, hold, Bool.or_false, decide_eq_false hhere]

end Growing

/-- A perfect maze. -/
structure Perfect (maxX maxY : Nat) (m : MazeImpl) : Prop where
  walls : Walls maxX maxY m
  visited : ∀ p, InGrid maxX maxY p → m.visited p = true
  tree : (openings maxX maxY m).IsTree
  count : (openings maxX maxY m).edgeSet.ncard = maxX * maxY - 1

theorem fresh_carved {maxX maxY : Nat} (draws : Nat → Nat) (corner : Place maxX maxY) :
    Carved maxX maxY (fresh maxX maxY draws)
      (insert corner (visitedPlaces maxX maxY (fresh maxX maxY draws))) where
  walls := {
    maxX_eq := rfl
    maxY_eq := rfl
    symmetric := fun _ _ _ _ => rfl
    outer := fun _ _ _ _ => rfl }
  tree := by
    have hnone : visitedPlaces maxX maxY (fresh maxX maxY draws) = ∅ := by
      ext v
      simp [visitedPlaces, MazeImpl.visited, fresh]
    have hbot : openings maxX maxY (fresh maxX maxY draws) = ⊥ := by
      ext u v
      simp [openings, Opening, isWall, fresh]
    rw [hnone, hbot, insert_empty_eq]
    exact .singleton corner

theorem ncard_edgeSet_of_isTree {maxX maxY : Nat} {G : SimpleGraph (Place maxX maxY)}
    (htree : G.IsTree) : G.edgeSet.ncard = maxX * maxY - 1 := by
  classical
  have hcard := htree.card_edgeFinset
  rw [Fintype.card_prod, Fintype.card_fin, Fintype.card_fin] at hcard
  rw [← SimpleGraph.coe_edgeFinset, Set.ncard_coe_finset]
  omega

theorem unvisited_le {maxX maxY : Nat} (m : MazeImpl) :
    unvisited maxX maxY m ≤ maxX * maxY := by
  have hle := Finset.card_filter_le (Finset.univ : Finset (Place maxX maxY))
    fun v => m.visited v.point = false
  rwa [Finset.card_univ, Fintype.card_prod, Fintype.card_fin, Fintype.card_fin] at hle

theorem construct_returns {maxX maxY : Nat} (hmaxX : 1 ≤ maxX) (hmaxY : 1 ≤ maxY)
    (draws : Nat → Nat) :
    construct.Returns (fun _ m => Perfect maxX maxY m) (fresh maxX maxY draws) := by
  let corner : Place maxX maxY := (⟨0, hmaxX⟩, ⟨0, hmaxY⟩)
  have hnew (p : Point) : (fresh maxX maxY draws).visited p = false := rfl
  have hwidth : 0 < (fresh maxX maxY draws).maxX := hmaxX
  have hheight : 0 < (fresh maxX maxY draws).maxY := hmaxY
  simp only [construct, Prog.Returns, ↓Prog.wp_bind, ↓Prog.wp_get, ↓Prog.wp_assert]
  rw [if_pos hwidth, if_pos hheight]
  refine (buildMaze_returns (maxX * maxY) _ corner (fresh_carved draws corner) (hnew _)
    (unvisited_le _)).mono ?_
  intro _ m hm
  obtain ⟨⟨hcarved, hgrows⟩, hcorner⟩ := hm
  have hall (p : Point) (hp : InGrid maxX maxY p) : m.visited p = true := by
    refine grid_induction (fun p => m.visited p = true) hcorner ?_ hp
    intro q d hq hmove hvisited
    exact hgrows.closed q hq hvisited (hnew q) d hmove
  have htree : (openings maxX maxY m).IsTree := by
    have : Nonempty (Place maxX maxY) := ⟨corner⟩
    exact hcarved.tree.isTree fun v => hall v.point v.inGrid
  exact ⟨hcarved.walls, hall, htree, ncard_edgeSet_of_isTree htree⟩

/-- Whatever is drawn, the construction ends, and its maze is perfect. -/
theorem perfect_maze {maxX maxY : Nat} (hmaxX : 1 ≤ maxX) (hmaxY : 1 ≤ maxY)
    (draws : Nat → Nat) :
    ∃ m, construct (fresh maxX maxY draws) = .ok () m ∧ Perfect maxX maxY m := by
  obtain ⟨_, m, hrun, hperfect⟩ := (construct_returns hmaxX hmaxY draws).exists_ok
  exact ⟨m, hrun, hperfect⟩

theorem perfect_maze_two_by_three :
    ∃ m, construct (fresh 2 3 fun i => i * 7) = .ok () m ∧ Perfect 2 3 m :=
  perfect_maze (show 1 ≤ 2 by decide) (show 1 ≤ 3 by decide) fun i => i * 7

end MazeImpl

end OS161.Mazewar
