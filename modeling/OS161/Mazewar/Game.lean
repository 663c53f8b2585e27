import OS161.Data.Related
import OS161.Data.Runs
import OS161.Mazewar.Maze

namespace OS161.Mazewar

open OS161.Data

/-! The players and the projectiles of `mazewar/MazeImpl.java`.  The program is
started without `-ea`, so that its assertions are not checked.  The listeners
of the maze draw it and keep the score; they are left out. -/

namespace Direction

def turnLeft : Direction → Direction
  | north => west
  | east => north
  | south => east
  | west => south

def turnRight : Direction → Direction
  | north => east
  | east => south
  | south => west
  | west => north

end Direction

@[ext]
structure DirectedPoint extends Point where
  direction : Direction
  deriving DecidableEq, Repr

/-- A projectile is an object, told apart from the others by its number. -/
structure Projectile (Client : Type) where
  owner : Client
  serial : Nat
  deriving DecidableEq, Repr

inductive Contents (Client : Type) where
  | client (client : Client)
  | projectile (prj : Projectile Client)
  deriving DecidableEq, Repr

inductive Thrown where
  | nullPointer
  | arrayIndexOutOfBounds
  | concurrentModification
  | noSuchElement
  deriving DecidableEq, Repr

/-- Where the thread of the projectiles is in its pass over `projectileMap`. -/
inductive Pass (Client : Type) where
  | sleeping
  /-- What the iterator has still to give, and whether keys were added since it
  was made. -/
  | moving (rest deadPrj : List (Projectile Client)) (modified : Bool)
  | removing (deadPrj : List (Projectile Client))
  | ended
  deriving DecidableEq, Repr

/-- An iterator that is still in use notices that a key was added. -/
def Pass.modify : Pass Client → Pass Client
  | moving rest deadPrj _ => moving rest deadPrj true
  | sleeping => sleeping
  | removing deadPrj => removing deadPrj
  | ended => ended

/-- The projectile that the iterator gives next. -/
def Pass.next : Pass Client → Option (Projectile Client)
  | moving (prj :: _) _ false => some prj
  | _ => none

structure Game (Client : Type) extends MazeImpl where
  contents : Point → Option (Contents Client)
  clientMap : Client → Option DirectedPoint
  /-- The entries, in no order that means anything. -/
  projectileMap : List (Projectile Client × DirectedPoint)
  clientFired : Client → Bool
  /-- The client knows the maze, and the maze listens to the client. -/
  registered : Client → Bool
  /-- The number of the next projectile. -/
  serial : Nat
  /-- What `Direction.random` will return; its generator has no seed. -/
  directions : Nat → Direction
  pass : Pass Client

namespace Game

variable {Client : Type} [DecidableEq Client]

abbrev Op (Client : Type) := Prog Thrown Trouble (Game Client)

/-- The point stands for the reference to its cell. -/
def getCellImpl (point : Point) : Op Client Point := do
  let g ← Prog.get
  if g.checkBounds point then
    pure point
  else
    Prog.fail .arrayIndexOutOfBounds

def isWall (cell : Point) (d : Direction) : Op Client Bool :=
  Prog.read fun g => g.toMazeImpl.isWall cell d

def getContents (cell : Point) : Op Client (Option (Contents Client)) :=
  Prog.read fun g => g.contents cell

def setContents (cell : Point) (contents : Option (Contents Client)) : Op Client Unit :=
  Prog.modify fun g => { g with contents := Function.update g.contents cell contents }

def putClient (client : Client) (point : DirectedPoint) : Op Client Unit :=
  Prog.modify fun g =>
    { g with clientMap := Function.update g.clientMap client (some point) }

def dropClient (client : Client) : Op Client Unit :=
  Prog.modify fun g => { g with clientMap := Function.update g.clientMap client none }

/-- The entries of all the other projectiles. -/
def others (g : Game Client) (prj : Projectile Client) :
    List (Projectile Client × DirectedPoint) :=
  g.projectileMap.filter fun entry => entry.1 ≠ prj

def putProjectile (prj : Projectile Client) (point : DirectedPoint) : Op Client Unit :=
  Prog.modify fun g => { g with projectileMap := (prj, point) :: g.others prj }

/-- What the map lacks is `null`, and its first use throws. -/
def notNull : Option α → Op Client α
  | some value => pure value
  | none => Prog.fail .nullPointer

def getClientPoint (client : Client) : Op Client DirectedPoint := do
  let g ← Prog.get
  notNull (g.clientMap client)

def getClientOrientation (client : Client) : Op Client Direction := do
  let dp ← getClientPoint client
  pure dp.direction

/-- `randomGen.nextInt(n)` is some number below `n`. -/
def nextInt (n : Nat) : Op Client Nat := fun g =>
  .ok (g.draws 0 % n) { g with draws := fun i => g.draws (i + 1) }

def randomDirection : Op Client Direction := fun g =>
  .ok (g.directions 0) { g with directions := fun i => g.directions (i + 1) }

def randomPoint : Op Client Point := do
  let g ← Prog.get
  let x ← nextInt g.maxX
  let y ← nextInt g.maxY
  pure ⟨x, y⟩

/-- Draw points until one is found whose cell is empty. -/
def emptyPoint : (turns : Nat) → Op Client Point
  | 0 => Prog.panic .endless
  | turns + 1 => do
      let point ← randomPoint
      let cell ← getCellImpl point
      let contents ← getContents cell
      if contents = none then
        pure point
      else
        emptyPoint turns

/-- Draw directions until one is found that has no wall. -/
def openDirection (cell : Point) : (turns : Nat) → Op Client Direction
  | 0 => Prog.panic .endless
  | turns + 1 => do
      let d ← randomDirection
      let wall ← isWall cell d
      if wall = true then
        openDirection cell turns
      else
        pure d

/-- The internal `addClient(client, point)`; its last line stands for
`registerMaze` and `addClientListener`. -/
def addClientPoint (turns : Nat) (client : Client) (point : Point) : Op Client Unit := do
  let cell ← getCellImpl point
  let d ← openDirection cell turns
  setContents cell (some (.client client))
  putClient client ⟨point, d⟩
  Prog.modify fun g => { g with registered := Function.update g.registered client true }

def addClient (turns : Nat) (client : Client) : Op Client Unit := do
  let point ← emptyPoint turns
  addClientPoint turns client point

/-- `addClient(client, x, y, d)`.  The direction is put into the point that is
handed on as a `Point`. -/
def addClientAt (turns : Nat) (client : Client) (x y : Int) (d : Direction) :
    Op Client Unit :=
  let point : DirectedPoint := ⟨⟨x, y⟩, d⟩
  addClientPoint turns client point.toPoint

def removeClient (client : Client) : Op Client Unit := do
  let point ← getClientPoint client
  dropClient client
  let cell ← getCellImpl point.toPoint
  setContents cell none
  Prog.modify fun g => { g with registered := Function.update g.registered client false }

/-- The second half of `killClient`. -/
def respawn (turns : Nat) (target : Client) : Op Client Unit := do
  let point ← emptyPoint turns
  let cell ← getCellImpl point
  let d ← openDirection cell turns
  setContents cell (some (.client target))
  putClient target ⟨point, d⟩

/-- The killer only goes into the message and to the listeners. -/
def killClient (turns : Nat) (target : Client) : Op Client Unit := do
  let point ← getClientPoint target
  dropClient target
  let cell ← getCellImpl point.toPoint
  setContents cell none
  respawn turns target

/-- `clientFired.add(client)`, the new projectile and its cell. -/
def launch (client : Client) (point : DirectedPoint) : Op Client Unit := do
  let g ← Prog.get
  let prj : Projectile Client := ⟨client, g.serial⟩
  Prog.modify fun g =>
    { g with
      clientFired := Function.update g.clientFired client true
      serial := g.serial + 1
      pass := g.pass.modify }
  putProjectile prj point
  setContents point.toPoint (some (.projectile prj))

def clientFire (turns : Nat) (client : Client) : Op Client Bool := do
  let g ← Prog.get
  if g.clientFired client = true then
    pure false
  else do
    let point ← getClientPoint client
    let d ← getClientOrientation client
    let cell ← getCellImpl point.toPoint
    let wall ← isWall cell d
    if wall = true then
      pure false
    else do
      let newPoint : DirectedPoint := ⟨point.move d, d⟩
      let newCell ← getCellImpl newPoint.toPoint
      let contents ← getContents newCell
      match contents with
      | some (.client target) => do
          killClient turns target
          pure true
      | some (.projectile _) => pure false
      | none => do
          launch client newPoint
          pure true

def moveClient (client : Client) (d : Direction) : Op Client Bool := do
  let oldPoint ← getClientPoint client
  let oldCell ← getCellImpl oldPoint.toPoint
  let wall ← isWall oldCell d
  if wall = true then do
    putClient client oldPoint
    pure false
  else do
    let orientation ← getClientOrientation client
    let newPoint : DirectedPoint := ⟨oldPoint.move d, orientation⟩
    let newCell ← getCellImpl newPoint.toPoint
    let contents ← getContents newCell
    if contents ≠ none then do
      putClient client oldPoint
      pure false
    else do
      putClient client newPoint
      setContents newCell (some (.client client))
      setContents oldCell none
      pure true

def moveClientForward (client : Client) : Op Client Bool := do
  let dp ← getClientPoint client
  moveClient client dp.direction

def moveClientBackward (client : Client) : Op Client Bool := do
  let dp ← getClientPoint client
  moveClient client dp.direction.invert

def rotateClient (turn : Direction → Direction) (client : Client) : Op Client Unit := do
  let dp ← getClientPoint client
  putClient client ⟨dp.toPoint, turn dp.direction⟩

def rotateClientLeft (client : Client) : Op Client Unit :=
  rotateClient Direction.turnLeft client

def rotateClientRight (client : Client) : Op Client Unit :=
  rotateClient Direction.turnRight client

/-- `clientUpdate`, which hears of the turns of the clients that are registered. -/
def clientUpdate (rotate : Client → Op Client Unit) (client : Client) : Op Client Unit := do
  let g ← Prog.get
  Prog.when (g.registered client = true) (rotate client)

/-- The projectiles that are dead after this one has moved. -/
def moveProjectile (turns : Nat) (prj : Projectile Client) :
    Op Client (List (Projectile Client)) := do
  let g ← Prog.get
  let dp ← notNull (g.projectileMap.lookup prj)
  let d := dp.direction
  let cell ← getCellImpl dp.toPoint
  let wall ← isWall cell d
  if wall = true then do
    setContents cell none
    pure [prj]
  else do
    let newPoint : DirectedPoint := ⟨dp.move d, d⟩
    let newCell ← getCellImpl newPoint.toPoint
    let contents ← getContents newCell
    match contents with
    | some (.client target) => do
        killClient turns target
        setContents cell none
        pure [prj]
    | some (.projectile other) => do
        setContents newCell none
        setContents cell none
        pure [prj, other]
    | none => do
        setContents cell none
        putProjectile prj newPoint
        setContents newCell (some (.projectile prj))
        pure []

def setPass (pass : Pass Client) : Op Client Unit :=
  Prog.modify fun g => { g with pass := pass }

/-- One turn of the loop over the keys of `projectileMap`.  An exception ends
the thread. -/
def nextProjectile (turns : Nat) : Op Client Unit := do
  let g ← Prog.get
  match g.pass with
  | .moving [] deadPrj _ => setPass (.removing deadPrj)
  | .moving (_ :: _) _ true => setPass .ended
  | .moving (prj :: rest) deadPrj false => do
      let moved ← Prog.attempt (moveProjectile turns prj)
      match moved with
      | .ok dead => setPass (.moving rest (deadPrj ++ dead) false)
      | .error _ => setPass .ended
  | _ => pure ()

/-- One turn of the loop over `deadPrj`. -/
def removeDead : Op Client Unit := do
  let g ← Prog.get
  match g.pass with
  | .removing [] => setPass .sleeping
  | .removing (prj :: rest) =>
      Prog.modify fun g =>
        { g with
          projectileMap := g.others prj
          clientFired := Function.update g.clientFired prj.owner false
          pass := .removing rest }
  | _ => pure ()

/-- A pass begins.  The iterator gives the keys of the map in any order. -/
def startPass (order : List (Projectile Client)) : Op Client Unit := do
  let g ← Prog.get
  if g.pass = .sleeping ∧ order ≠ [] ∧ order.Perm (g.projectileMap.map Prod.fst) then
    setPass (.moving order [] false)
  else
    pure ()

/-- The maze is built, and nobody is in it. -/
def start (m : MazeImpl) (directions : Nat → Direction) : Game Client where
  toMazeImpl := m
  contents _ := none
  clientMap _ := none
  projectileMap := []
  clientFired _ := false
  registered _ := false
  serial := 0
  directions := directions
  pass := .sleeping

end Game

end OS161.Mazewar
