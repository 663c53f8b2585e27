import Mathlib.Data.Fintype.Basic
import OS161.Mazewar.Server

namespace OS161.Mazewar

open OS161.Data

/-! The replicas of the game: `mazewar/Client.java`, and the threads of
`mazewar/GUIClient.java` and `mazewar/Mazewar.java` over one maze each. -/

namespace Game

variable {Client : Type} [DecidableEq Client]

/-- What a client does to its maze, which is `null` before it is added. -/
def inMaze (body : Op Client Bool) (client : Client) : Op Client Unit := do
  let g ← Prog.get
  if g.registered client = true then do
    let _ ← body
    pure ()
  else
    Prog.fail .nullPointer

def forward (client : Client) : Op Client Unit :=
  inMaze (moveClientForward client) client

def backup (client : Client) : Op Client Unit :=
  inMaze (moveClientBackward client) client

def fire (turns : Nat) (client : Client) : Op Client Unit :=
  inMaze (clientFire turns client) client

def turnLeft (client : Client) : Op Client Unit :=
  clientUpdate rotateClientLeft client

def turnRight (client : Client) : Op Client Unit :=
  clientUpdate rotateClientRight client

/-- What a packet makes the client of its player do. -/
def act (turns : Nat) (event : Event) (client : Client) : Op Client Unit :=
  match event with
  | .forward => forward client
  | .backward => backup client
  | .left => turnLeft client
  | .right => turnRight client
  | .fire => fire turns client
  | _ => pure ()

end Game

/-- A client object of one replica: the player it stands for, and how many
objects of that player came before it. -/
structure Member where
  player : Int
  serial : Nat
  deriving DecidableEq, Repr

structure OpponentClient where
  client : Member
  name : Option String
  added : Bool
  deriving DecidableEq, Repr

structure GUIClient where
  playerId : Int
  name : Option String
  opponentList : List OpponentClient
  maze : Game Member
  /-- What went out to the server. -/
  out : List MazeWarPkt
  /-- The thread `processEvent` has not ended with an exception. -/
  processing : Bool

namespace GUIClient

abbrev Op := Prog Thrown Trouble GUIClient

def self (r : GUIClient) : Member := ⟨r.playerId, 0⟩

def onMaze (body : Game.Op Member α) : Op α :=
  Prog.zoom GUIClient.maze (fun r g => { r with maze := g }) body

def sendCoordinates : Op Unit := do
  let r ← Prog.get
  if r.maze.registered r.self = true then do
    let dp ← onMaze (Game.getClientPoint r.self)
    Prog.modify fun r =>
      { r with
        out := r.out ++
          [{ event := .coordinates
             player := r.playerId
             playerName := r.name
             spawnX := dp.x
             spawnY := dp.y
             spawnD := some dp.direction }] }
  else
    Prog.fail .nullPointer

/-- `for (OpponentClient opponent : opponentList)`. -/
def forEach (body : OpponentClient → Op Unit) : List OpponentClient → Op Unit
  | [] => pure ()
  | opponent :: rest => do
      body opponent
      forEach body rest

def newOpponent (pkt : MazeWarPkt) (r : GUIClient) : OpponentClient where
  client :=
    ⟨pkt.player, (r.opponentList.filter fun o => o.client.player = pkt.player).length⟩
  name := pkt.playerName
  added := false

def addOpponent (pkt : MazeWarPkt) : Op Unit :=
  Prog.modify fun r => { r with opponentList := r.opponentList ++ [r.newOpponent pkt] }

/-- `opponent.added = true`. -/
def markAdded (client : Member) : Op Unit :=
  Prog.modify fun r =>
    { r with
      opponentList := r.opponentList.map fun o =>
        if o.client = client then { o with added := true } else o }

/-- The direction may be `null`, which nothing looks at. -/
def placeOpponent (turns : Nat) (pkt : MazeWarPkt) (opponent : OpponentClient) : Op Unit :=
  if opponent.client.player = pkt.player ∧ opponent.added = false then do
    markAdded opponent.client
    onMaze (Game.addClientAt turns opponent.client pkt.spawnX pkt.spawnY
      (pkt.spawnD.getD .north))
  else
    pure ()

/-- The list that the loop goes through is as it was when the loop began. -/
def placeOpponents (turns : Nat) (pkt : MazeWarPkt) : Op Unit := do
  let r ← Prog.get
  forEach (placeOpponent turns pkt) r.opponentList

def actRemote (turns : Nat) (pkt : MazeWarPkt) (opponent : OpponentClient) : Op Unit :=
  if opponent.client.player = pkt.player then
    onMaze (Game.act turns pkt.event opponent.client)
  else
    pure ()

def findRemoteClient (turns : Nat) (pkt : MazeWarPkt) : Op Unit := do
  let r ← Prog.get
  forEach (actRemote turns pkt) r.opponentList

/-- What a packet of another player changes before that player is looked
for. -/
def introduce (turns : Nat) (pkt : MazeWarPkt) : Op Unit :=
  if pkt.event = .spawn then
    addOpponent pkt
  else if pkt.event = .coordinates then
    placeOpponents turns pkt
  else if pkt.event = .clientListReq then
    sendCoordinates
  else
    pure ()

/-- The thread `processEvent` with a packet from its queue. -/
def processEvent (turns : Nat) (pkt : MazeWarPkt) : Op Unit := do
  let r ← Prog.get
  if pkt.player = r.playerId then
    onMaze (Game.act turns pkt.event r.self)
  else do
    introduce turns pkt
    findRemoteClient turns pkt

/-- The packet stays in the queue of a thread that has ended. -/
def deliver (turns : Nat) (pkt : MazeWarPkt) (r : GUIClient) : Option GUIClient :=
  if r.processing = true then
    match processEvent turns pkt r with
    | .ok _ next => some next
    | .error _ next => some { next with processing := false }
    | .panic _ => none
  else
    none

/-- What the constructor of `Mazewar` does at its end. -/
def join (turns : Nat) : Op Unit := do
  let r ← Prog.get
  onMaze (Game.addClient turns r.self)
  sendCoordinates

/-- What a replica's other threads do. -/
inductive Local where
  | join
  | startPass (order : List (Projectile Member))
  | nextProjectile
  | removeDead
  deriving DecidableEq

def Local.op (turns : Nat) : Local → Op Unit
  | join => GUIClient.join turns
  | startPass order => onMaze (Game.startPass order)
  | nextProjectile => onMaze (Game.nextProjectile turns)
  | removeDead => onMaze Game.removeDead

/-- An exception ends the thread that made the step. -/
def step (turns : Nat) (act : Local) (r : GUIClient) : Option GUIClient :=
  (act.op turns r).leaves

/-- The replica before its player has joined. -/
def start (m : MazeImpl) (playerId : Int) (name : Option String)
    (directions : Nat → Direction) : GUIClient where
  playerId := playerId
  name := name
  opponentList := []
  maze := Game.start m directions
  out := []
  processing := true

end GUIClient

/-- All the replicas at once. -/
abbrev Session (R : Type) := R → GUIClient

namespace Session

variable {R : Type} [Fintype R]

/-- A step of each of them, when all have come to its end. -/
def together (parts : R → Option α) : Option (R → α) :=
  if hall : ∀ r, (parts r).isSome = true then
    some fun r => (parts r).get (hall r)
  else
    none

/-- Either the next packet of the common sequence goes through all the
replicas, or some of them do something on their own before it. -/
inductive Act (R : Type) where
  | deliver (turns : Nat) (pkt : MazeWarPkt)
  | alone (turns : Nat) (step : R → Option GUIClient.Local)

def run : Act R → Session R → Option (Session R)
  | .deliver turns pkt, s => together fun r => (s r).deliver turns pkt
  | .alone turns step, s => together fun r =>
      match step r with
      | some act => (s r).step turns act
      | none => some (s r)

def start (m : MazeImpl) (playerId : R → Int) (name : R → Option String)
    (directions : R → Nat → Direction) : Session R :=
  fun r => GUIClient.start m (playerId r) (name r) (directions r)

theorem together_eq_some_iff {parts : R → Option α} {all : R → α} :
    together parts = some all ↔ ∀ r, parts r = some (all r) := by
  rw [together]
  split
  case isTrue hall =>
    rw [Option.some.injEq]
    constructor
    · rintro rfl r
      exact (Option.some_get (hall r)).symm
    · intro heq
      funext r
      exact Option.get_of_eq_some _ (heq r)
  case isFalse hnone =>
    refine iff_of_false (by simp) ?_
    intro heq
    refine hnone fun r => ?_
    rw [heq r]
    rfl

end Session

end OS161.Mazewar
