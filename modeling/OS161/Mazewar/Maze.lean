import Mathlib.Data.Fintype.Prod
import OS161.Data.GrowTree
import OS161.Data.Prog

namespace OS161.Mazewar

open OS161.Data

/-! The construction of a maze in `mazewar/MazeImpl.java`. -/

inductive Direction where
  | north
  | east
  | south
  | west
  deriving DecidableEq, Repr

namespace Direction

def invert : Direction → Direction
  | north => south
  | east => west
  | south => north
  | west => east

@[simp] theorem invert_invert (d : Direction) : d.invert.invert = d := by
  cases d <;> rfl

end Direction

@[ext]
structure Point where
  x : Int
  y : Int
  deriving DecidableEq, Repr

namespace Point

def move (p : Point) : Direction → Point
  | .north => ⟨p.x, p.y + 1⟩
  | .east => ⟨p.x + 1, p.y⟩
  | .south => ⟨p.x, p.y - 1⟩
  | .west => ⟨p.x - 1, p.y⟩

@[simp] theorem move_move_invert (p : Point) (d : Direction) :
    (p.move d).move d.invert = p := by
  cases d <;> simp [move, Direction.invert]

end Point

structure CellImpl where
  visited : Bool
  walls : Direction → Bool

/-- An exception or a failed assertion; `endless` stands for a run that takes
more turns or deeper calls than the model allows. -/
inductive Trouble where
  | outOfBounds
  | size
  | endless
  deriving DecidableEq, Repr

structure MazeImpl where
  maxX : Nat
  maxY : Nat
  cell : Point → CellImpl
  /-- What `randomGen` will draw. -/
  draws : Nat → Nat

namespace MazeImpl

abbrev Op := Prog Empty Trouble MazeImpl

def checkBounds (m : MazeImpl) (p : Point) : Bool :=
  decide (0 ≤ p.x ∧ 0 ≤ p.y ∧ p.x < m.maxX ∧ p.y < m.maxY)

def getCellImpl (p : Point) : Op CellImpl := do
  let m ← Prog.get
  Prog.assert (m.checkBounds p = true) .outOfBounds
  pure (m.cell p)

def setCell (p : Point) (c : CellImpl) : Op Unit :=
  Prog.modify fun m => { m with cell := Function.update m.cell p c }

/-- `randomGen.nextInt(n)` is some number below `n`. -/
def nextInt (n : Nat) : Op Nat := fun m =>
  .ok (m.draws 0 % n) { m with draws := fun i => m.draws (i + 1) }

def setVisited (p : Point) : Op Unit := do
  let cell ← getCellImpl p
  setCell p { cell with visited := true }

def dropWall (p : Point) (d : Direction) : Op Unit := do
  let cell ← getCellImpl p
  setCell p { cell with walls := Function.update cell.walls d false }

def removeWall (p : Point) (d : Direction) : Op Unit := do
  dropWall p d
  dropWall (p.move d) d.invert

/-- The directions in which `pickNeighbor` finds a cell that is not visited. -/
def options (m : MazeImpl) (p : Point) : List Direction :=
  [.north, .east, .west, .south].filter fun d =>
    m.checkBounds (p.move d) && !(m.cell (p.move d)).visited

def pickNeighbor (p : Point) : Op (Option Direction) := do
  let m ← Prog.get
  let options := m.options p
  if options.length = 0 then
    pure none
  else do
    let n ← nextInt options.length
    match options[n]? with
    | some d => pure (some d)
    | none => Prog.panic .outOfBounds

/-- `while(d != null)`, with the recursive call that it makes. -/
def carve (buildMaze : Point → Op Unit) (p : Point) : (turns : Nat) → Option Direction → Op Unit
  | _, none => pure ()
  | 0, some _ => Prog.panic .endless
  | turns + 1, some d => do
      removeWall p d
      buildMaze (p.move d)
      let d ← pickNeighbor p
      carve buildMaze p turns d

/-- A cell has four neighbours, so the loop takes at most four turns. -/
def buildMaze : (depth : Nat) → Point → Op Unit
  | 0, _ => Prog.panic .endless
  | depth + 1, p => do
      setVisited p
      let d ← pickNeighbor p
      carve (buildMaze depth) p 4 d

/-- The cells that the constructor puts into `mazeVector`. -/
def fresh (maxX maxY : Nat) (draws : Nat → Nat) : MazeImpl where
  maxX := maxX
  maxY := maxY
  cell _ := ⟨false, fun _ => true⟩
  draws := draws

/-- The constructor.  Calls of `buildMaze` are nested at most once for each
cell. -/
def construct : Op Unit := do
  let m ← Prog.get
  Prog.assert (0 < m.maxX) .size
  Prog.assert (0 < m.maxY) .size
  buildMaze (m.maxX * m.maxY) ⟨0, 0⟩

def isWall (m : MazeImpl) (p : Point) (d : Direction) : Bool :=
  (m.cell p).walls d

def visited (m : MazeImpl) (p : Point) : Bool :=
  (m.cell p).visited

/-! What the parts of the construction do to the cells. -/

section Cells

variable {m m' : MazeImpl} {p q : Point}

/-- Only the draws may differ. -/
structure SameCells (m m' : MazeImpl) : Prop where
  maxX_eq : m'.maxX = m.maxX
  maxY_eq : m'.maxY = m.maxY
  cell_eq : m'.cell = m.cell

def visit (m : MazeImpl) (p : Point) : MazeImpl :=
  { m with cell := Function.update m.cell p { m.cell p with visited := true } }

def openWall (m : MazeImpl) (p : Point) (d : Direction) : MazeImpl :=
  { m with
    cell := Function.update m.cell p
      { m.cell p with walls := Function.update (m.cell p).walls d false } }

/-- Both sides of a wall taken away. -/
def opened (m : MazeImpl) (p : Point) (d : Direction) : MazeImpl :=
  (m.openWall p d).openWall (p.move d) d.invert

@[simp] theorem maxX_visit : (m.visit p).maxX = m.maxX := rfl

@[simp] theorem maxY_visit : (m.visit p).maxY = m.maxY := rfl

@[simp] theorem maxX_opened : (m.opened p d).maxX = m.maxX := rfl

@[simp] theorem maxY_opened : (m.opened p d).maxY = m.maxY := rfl

theorem visited_visit (q : Point) :
    (m.visit p).visited q = (decide (q = p) || m.visited q) := by
  by_cases hq : q = p
  · subst hq
    simp [visit, visited]
  · simp [visit, visited, hq]

@[simp] theorem isWall_visit (q : Point) (e : Direction) :
    (m.visit p).isWall q e = m.isWall q e := by
  by_cases hq : q = p
  · subst hq
    simp [visit, isWall]
  · simp [visit, isWall, hq]

@[simp] theorem visited_openWall (q : Point) :
    (m.openWall p d).visited q = m.visited q := by
  by_cases hq : q = p
  · subst hq
    simp [openWall, visited]
  · simp [openWall, visited, hq]

theorem isWall_openWall (q : Point) (e : Direction) :
    (m.openWall p d).isWall q e = (m.isWall q e && !decide (q = p ∧ e = d)) := by
  by_cases hq : q = p
  · subst hq
    by_cases he : e = d
    · subst he
      simp [openWall, isWall]
    · simp [openWall, isWall, he]
  · simp [openWall, isWall, hq]

@[simp] theorem visited_opened (q : Point) : (m.opened p d).visited q = m.visited q := by
  rw [opened, visited_openWall, visited_openWall]

theorem isWall_opened_eq_false_iff (q : Point) (e : Direction) :
    (m.opened p d).isWall q e = false ↔
      m.isWall q e = false ∨ (q = p ∧ e = d) ∨ (q = p.move d ∧ e = d.invert) := by
  rw [opened, isWall_openWall, isWall_openWall]
  simp only [Bool.and_eq_false_iff, Bool.not_eq_false', decide_eq_true_eq]
  tauto

theorem setVisited_returns (hbounds : m.checkBounds p = true) :
    (setVisited p).Returns (fun _ next => next = m.visit p) m := by
  simp only [setVisited, getCellImpl, setCell, Prog.Returns, ↓Prog.wp_bind, ↓Prog.wp_get,
    ↓Prog.wp_assert, ↓Prog.wp_pure, ↓Prog.wp_modify]
  rw [if_pos hbounds]
  rfl

theorem dropWall_returns (hbounds : m.checkBounds p = true) (d : Direction) :
    (dropWall p d).Returns (fun _ next => next = m.openWall p d) m := by
  simp only [dropWall, getCellImpl, setCell, Prog.Returns, ↓Prog.wp_bind, ↓Prog.wp_get,
    ↓Prog.wp_assert, ↓Prog.wp_pure, ↓Prog.wp_modify]
  rw [if_pos hbounds]
  rfl

theorem removeWall_returns (hbounds : m.checkBounds p = true)
    (hmove : m.checkBounds (p.move d) = true) :
    (removeWall p d).Returns (fun _ next => next = m.opened p d) m := by
  simp only [removeWall, Prog.Returns, ↓Prog.wp_bind]
  refine (dropWall_returns hbounds d).mono ?_
  rintro _ next rfl
  have hmove' : (m.openWall p d).checkBounds (p.move d) = true := hmove
  exact dropWall_returns hmove' d.invert

theorem mem_options_iff :
    d ∈ m.options p ↔ m.checkBounds (p.move d) = true ∧ m.visited (p.move d) = false := by
  have hall : d ∈ [Direction.north, .east, .west, .south] := by
    cases d <;> simp
  rw [options, List.mem_filter, Bool.and_eq_true, Bool.not_eq_true']
  exact and_iff_right hall

/-- A cell next to none that is left offers no choice. -/
def Picked (m : MazeImpl) (p : Point) : Option Direction → Prop
  | none => m.options p = []
  | some d => d ∈ m.options p

theorem pickNeighbor_returns (m : MazeImpl) (p : Point) :
    (pickNeighbor p).Returns (fun picked next => m.Picked p picked ∧ SameCells m next) m := by
  simp only [pickNeighbor, Prog.Returns, ↓Prog.wp_bind, ↓Prog.wp_get, ↓Prog.wp_ite,
    ↓Prog.wp_pure]
  split
  case isTrue hnone => exact ⟨List.eq_nil_of_length_eq_zero hnone, rfl, rfl, rfl⟩
  case isFalse hsome =>
    have hlt : m.draws 0 % (m.options p).length < (m.options p).length :=
      Nat.mod_lt _ (by omega)
    simp only [nextInt, Prog.wp, Result.Sat, List.getElem?_eq_getElem hlt]
    exact ⟨List.getElem_mem hlt, rfl, rfl, rfl⟩

theorem SameCells.visited (hsame : SameCells m m') (q : Point) :
    m'.visited q = m.visited q := by
  rw [MazeImpl.visited, hsame.cell_eq]
  rfl

theorem SameCells.isWall (hsame : SameCells m m') (q : Point) (d : Direction) :
    m'.isWall q d = m.isWall q d := by
  rw [MazeImpl.isWall, hsame.cell_eq]
  rfl

theorem SameCells.checkBounds (hsame : SameCells m m') (q : Point) :
    m'.checkBounds q = m.checkBounds q := by
  rw [MazeImpl.checkBounds, hsame.maxX_eq, hsame.maxY_eq]
  rfl

theorem SameCells.options (hsame : SameCells m m') (q : Point) :
    m'.options q = m.options q := by
  rw [MazeImpl.options, hsame.cell_eq]
  simp only [hsame.checkBounds]
  rfl

end Cells

end MazeImpl

end OS161.Mazewar
