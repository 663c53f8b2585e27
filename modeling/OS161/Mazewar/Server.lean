import OS161.Data.Runs
import OS161.Mazewar.Game

namespace OS161.Mazewar

open OS161.Data

/-! The packets of `mazewar/MazeWarPkt.java` and the threads of
`mazewar/MazeWarServer.java`. -/

inductive Event where
  | forward
  | backward
  | left
  | right
  | fire
  | coordinates
  | clientListReq
  | clientListResp
  | quit
  | spawn
  | tick
  deriving DecidableEq, Repr

structure ClientInfo where
  player : Int
  playerName : Option String
  spawnX : Int
  spawnY : Int
  spawnD : Option Direction
  deriving DecidableEq, Repr

/-- The fields that a constructor leaves out are `0` and `null`. -/
structure MazeWarPkt where
  event : Event
  player : Int
  playerName : Option String
  spawnX : Int := 0
  spawnY : Int := 0
  spawnD : Option Direction := none
  clientList : List ClientInfo := []
  deriving DecidableEq, Repr

/-- What `write` puts into the stream, told apart by who calls it. -/
inductive Written where
  | broadcast (pkt : MazeWarPkt)
  | answer (pkt : MazeWarPkt)
  deriving DecidableEq, Repr

structure ConnectionToClient where
  player : Int
  playerName : Option String
  spawnX : Int
  spawnY : Int
  spawnD : Option Direction
  toClient : List Written
  /-- The reader has put this packet into `eventQ`, and has not looked at its
  fields yet. -/
  enqueued : Option MazeWarPkt

/-- Where the thread `broadcastMessages` is. -/
inductive Broadcaster where
  | waiting
  | taken (eventPkt : MazeWarPkt)
  | listing (eventPkt : MazeWarPkt) (i : Nat) (requestingClient : Option Nat)
      (clientList : List ClientInfo)
  /-- The loop of `sendToAll` with its iterator. -/
  | sending (eventPkt : MazeWarPkt) (cursor expectedModCount : Nat)
  | ended (thrown : Thrown)
  deriving DecidableEq, Repr

structure MazeWarServer where
  connections : Nat → ConnectionToClient
  /-- How many connections have been made. -/
  count : Nat
  /-- The connection that the accepting thread has made and not added. -/
  accepted : Option Nat
  clientList : List Nat
  modCount : Nat
  eventQ : List MazeWarPkt
  broadcaster : Broadcaster
  /-- What was taken for all, and who was in `clientList` when its broadcast
  began.  Nothing in the code looks at it. -/
  history : List (MazeWarPkt × List Nat)

namespace ConnectionToClient

/-- What the reader keeps of a packet. -/
def noted (c : ConnectionToClient) (pkt : MazeWarPkt) : ConnectionToClient :=
  if pkt.event = .spawn then
    { c with player := pkt.player, playerName := pkt.playerName, enqueued := none }
  else if pkt.event = .coordinates then
    { c with
      spawnX := pkt.spawnX
      spawnY := pkt.spawnY
      spawnD := pkt.spawnD
      enqueued := none }
  else
    { c with enqueued := none }

def info (c : ConnectionToClient) : ClientInfo :=
  ⟨c.player, c.playerName, c.spawnX, c.spawnY, c.spawnD⟩

end ConnectionToClient

namespace MazeWarServer

def start : MazeWarServer where
  connections _ := ⟨0, none, 0, 0, none, [], none⟩
  count := 0
  accepted := none
  clientList := []
  modCount := 0
  eventQ := []
  broadcaster := .waiting
  history := []

inductive Step where
  /-- The connection is made, and its reader is started. -/
  | accept
  | add
  | enqueue (conn : Nat) (packetFromClient : MazeWarPkt)
  | note (conn : Nat)
  | broadcast

def accept (s : MazeWarServer) : Option MazeWarServer :=
  match s.accepted with
  | some _ => none
  | none => some { s with count := s.count + 1, accepted := some s.count }

/-- `clientList.add`. -/
def add (s : MazeWarServer) : Option MazeWarServer :=
  match s.accepted with
  | none => none
  | some conn =>
      some { s with
        accepted := none
        clientList := s.clientList ++ [conn]
        modCount := s.modCount + 1 }

def setConnection (s : MazeWarServer) (conn : Nat) (c : ConnectionToClient) :
    MazeWarServer :=
  { s with connections := Function.update s.connections conn c }

def enqueue (conn : Nat) (packetFromClient : MazeWarPkt) (s : MazeWarServer) :
    Option MazeWarServer :=
  if conn < s.count ∧ (s.connections conn).enqueued = none then
    some { s.setConnection conn
        { s.connections conn with enqueued := some packetFromClient } with
      eventQ := s.eventQ ++ [packetFromClient] }
  else
    none

def note (conn : Nat) (s : MazeWarServer) : Option MazeWarServer :=
  match (s.connections conn).enqueued with
  | none => none
  | some pkt => some (s.setConnection conn ((s.connections conn).noted pkt))

def write (conn : Nat) (written : Written) (s : MazeWarServer) : MazeWarServer :=
  let c := s.connections conn
  s.setConnection conn { c with toClient := c.toClient ++ [written] }

/-- `eventQ.take()` waits for a packet. -/
def take (s : MazeWarServer) : Option MazeWarServer :=
  match s.eventQ with
  | [] => none
  | eventPkt :: eventQ => some { s with eventQ := eventQ, broadcaster := .taken eventPkt }

/-- The loop over the connections begins, or the iterator is made. -/
def dispatch (eventPkt : MazeWarPkt) (s : MazeWarServer) : MazeWarServer :=
  if eventPkt.event = .clientListReq then
    { s with broadcaster := .listing eventPkt 0 none [] }
  else
    { s with
      broadcaster := .sending eventPkt 0 s.modCount
      history := s.history ++ [(eventPkt, s.clientList)] }

/-- `sendToOne`, with `-1` for a requesting client that was not found. -/
def sendToOne (requestingClient : Option Nat) (pkt : MazeWarPkt) (s : MazeWarServer) :
    MazeWarServer :=
  match requestingClient.bind fun i => s.clientList[i]? with
  | some conn => { s.write conn (.answer pkt) with broadcaster := .waiting }
  | none => { s with broadcaster := .ended .arrayIndexOutOfBounds }

/-- One turn of the loop that lists the other clients, or what comes after
it. -/
def list (eventPkt : MazeWarPkt) (i : Nat) (requestingClient : Option Nat)
    (clientList : List ClientInfo) (s : MazeWarServer) : MazeWarServer :=
  match s.clientList[i]? with
  | some conn =>
      let client := s.connections conn
      if client.player ≠ eventPkt.player then
        { s with
          broadcaster :=
            .listing eventPkt (i + 1) requestingClient (clientList ++ [client.info]) }
      else
        { s with broadcaster := .listing eventPkt (i + 1) (some i) clientList }
  | none =>
      if clientList = [] then
        { s with broadcaster := .waiting }
      else
        s.sendToOne requestingClient
          { event := .clientListResp
            player := eventPkt.player
            playerName := eventPkt.playerName
            clientList := clientList }

/-- One turn of the loop in `sendToAll`: `hasNext`, `next` and `write`. -/
def send (eventPkt : MazeWarPkt) (cursor expectedModCount : Nat) (s : MazeWarServer) :
    MazeWarServer :=
  if cursor = s.clientList.length then
    { s with broadcaster := .waiting }
  else if s.modCount ≠ expectedModCount then
    { s with broadcaster := .ended .concurrentModification }
  else
    match s.clientList[cursor]? with
    | some conn =>
        { s.write conn (.broadcast eventPkt) with
          broadcaster := .sending eventPkt (cursor + 1) expectedModCount }
    | none => { s with broadcaster := .ended .noSuchElement }

def broadcastMessages (s : MazeWarServer) : Option MazeWarServer :=
  match s.broadcaster with
  | .waiting => s.take
  | .taken eventPkt => some (s.dispatch eventPkt)
  | .listing eventPkt i requestingClient clientList =>
      some (s.list eventPkt i requestingClient clientList)
  | .sending eventPkt cursor expectedModCount =>
      some (s.send eventPkt cursor expectedModCount)
  | .ended _ => none

def run : Step → MazeWarServer → Option MazeWarServer
  | .accept, s => s.accept
  | .add, s => s.add
  | .enqueue conn pkt, s => s.enqueue conn pkt
  | .note conn, s => s.note conn
  | .broadcast, s => s.broadcastMessages

end MazeWarServer

end OS161.Mazewar
