import OS161.Mazewar.Changes

namespace OS161.Mazewar

open OS161.Data

/-! Where the cells and where `clientMap` say that the clients are. -/

/-- A cell holds a client exactly if the map has the client at its point. -/
def Located (contents : Point → Option (Contents Client))
    (clientMap : Client → Option DirectedPoint) : Prop :=
  ∀ p c, contents p = some (.client c) ↔ (clientMap c).map DirectedPoint.toPoint = some p

def NoClient : Option (Contents Client) → Prop
  | some (.client _) => False
  | some (.projectile _) => True
  | none => True

instance : ∀ held : Option (Contents Client), Decidable (NoClient held)
  | some (.client _) => inferInstanceAs (Decidable False)
  | some (.projectile _) => inferInstanceAs (Decidable True)
  | none => inferInstanceAs (Decidable True)

theorem NoClient.ne {held : Option (Contents Client)} (hheld : NoClient held) (c : Client) :
    held ≠ some (.client c) := by
  rintro rfl
  exact hheld

theorem NoClient.of_empty {held : Option (Contents Client)} (hheld : held = none) :
    NoClient held := by
  rw [hheld]
  exact trivial

theorem NoClient.of_projectile {held : Option (Contents Client)}
    (hheld : held = some (.projectile prj)) : NoClient held := by
  rw [hheld]
  exact trivial

section Located

variable {Client : Type}
  {contents : Point → Option (Contents Client)} {clientMap : Client → Option DirectedPoint}
  {held : Option (Contents Client)} {p : Point} {c : Client} {dp dp' : DirectedPoint}

theorem Located.contents_eq (hlocated : Located contents clientMap)
    (hat : clientMap c = some dp) : contents dp.toPoint = some (.client c) := by
  rw [hlocated dp.toPoint c, hat]
  rfl

/-- No two clients are at one point. -/
theorem Located.apart {c' : Client} (hlocated : Located contents clientMap)
    (hat : clientMap c = some dp) (hat' : clientMap c' = some dp')
    (hpoint : dp.toPoint = dp'.toPoint) : c = c' := by
  have hheld := hlocated.contents_eq hat
  rw [hpoint, hlocated.contents_eq hat'] at hheld
  cases hheld
  rfl

/-- A projectile comes into a cell, or what is there and is no client goes. -/
theorem Located.other (held : Option (Contents Client)) (hlocated : Located contents clientMap)
    (hbefore : NoClient (contents p)) (hafter : NoClient held) :
    Located (Function.update contents p held) clientMap := by
  intro q c
  by_cases hq : q = p
  · subst hq
    rw [Function.update_self, ← hlocated q c]
    exact iff_of_false (hafter.ne c) (hbefore.ne c)
  · rw [Function.update_of_ne hq]
    exact hlocated q c

theorem NoClient.update {q : Point} (hclear : NoClient (contents p)) (hheld : NoClient held) :
    NoClient (Function.update contents q held p) := by
  by_cases hp : p = q
  · rw [hp, Function.update_self]
    exact hheld
  · rw [Function.update_of_ne hp]
    exact hclear

variable [DecidableEq Client]

theorem Located.turn (hlocated : Located contents clientMap)
    (hat : clientMap c = some dp) (hpoint : dp'.toPoint = dp.toPoint) :
    Located contents (Function.update clientMap c (some dp')) := by
  intro q c'
  by_cases hc : c' = c
  · subst hc
    rw [Function.update_self, hlocated q c', hat, Option.map_some, Option.map_some, hpoint]
  · rw [Function.update_of_ne hc]
    exact hlocated q c'

theorem Located.remove (hlocated : Located contents clientMap)
    (hat : clientMap c = some dp) :
    Located (Function.update contents dp.toPoint none) (Function.update clientMap c none) := by
  intro q c'
  have hheld := hlocated.contents_eq hat
  by_cases hc : c' = c
  · subst hc
    rw [Function.update_self, Option.map_none]
    refine iff_of_false ?_ (by simp)
    by_cases hq : q = dp.toPoint
    · subst hq
      rw [Function.update_self]
      simp
    · rw [Function.update_of_ne hq, hlocated q c', hat, Option.map_some]
      intro heq
      exact hq (Option.some.inj heq).symm
  · rw [Function.update_of_ne hc, ← hlocated q c']
    by_cases hq : q = dp.toPoint
    · subst hq
      rw [Function.update_self, hheld]
      refine iff_of_false (by simp) ?_
      intro heq
      cases heq
      exact hc rfl
    · rw [Function.update_of_ne hq]

theorem Located.place (dp : DirectedPoint) (hlocated : Located contents clientMap)
    (hnew : clientMap c = none) (hfree : NoClient (contents dp.toPoint)) :
    Located (Function.update contents dp.toPoint (some (.client c)))
      (Function.update clientMap c (some dp)) := by
  intro q c'
  by_cases hc : c' = c
  · subst hc
    rw [Function.update_self, Option.map_some]
    by_cases hq : q = dp.toPoint
    · subst hq
      rw [Function.update_self]
      exact iff_of_true rfl rfl
    · rw [Function.update_of_ne hq, hlocated q c', hnew]
      refine iff_of_false (by simp) ?_
      intro heq
      exact hq (Option.some.inj heq).symm
  · rw [Function.update_of_ne hc, ← hlocated q c']
    by_cases hq : q = dp.toPoint
    · subst hq
      rw [Function.update_self]
      refine iff_of_false ?_ (hfree.ne c')
      intro heq
      cases heq
      exact hc rfl
    · rw [Function.update_of_ne hq]

/-- The map has every client in a cell of the maze. -/
def Inside (inside : Point → Prop) (clientMap : Client → Option DirectedPoint) : Prop :=
  ∀ c dp, clientMap c = some dp → inside dp.toPoint

theorem Inside.put {inside : Point → Prop} (hinside : Inside inside clientMap)
    (hpoint : inside dp.toPoint) :
    Inside inside (Function.update clientMap c (some dp)) := by
  intro c' dp' hat
  by_cases hc : c' = c
  · subst hc
    rw [Function.update_self] at hat
    cases hat
    exact hpoint
  · rw [Function.update_of_ne hc] at hat
    exact hinside c' dp' hat

theorem Inside.drop {inside : Point → Prop} (hinside : Inside inside clientMap) :
    Inside inside (Function.update clientMap c none) := by
  intro c' dp' hat
  by_cases hc : c' = c
  · subst hc
    rw [Function.update_self] at hat
    cases hat
  · rw [Function.update_of_ne hc] at hat
    exact hinside c' dp' hat

end Located

namespace Game

def Occupancy (g : Game Client) : Prop :=
  Located g.contents g.clientMap

structure Placed (g : Game Client) : Prop where
  occupancy : g.Occupancy
  inside : Inside (fun p => g.checkBounds p = true) g.clientMap

section Calls

variable {Client : Type} {g mid next : Game Client} {c : Client} {dp dp' : DirectedPoint}

theorem Placed.same (hplaced : g.Placed) (hsize : next.toMazeImpl = g.toMazeImpl)
    (hcontents : next.contents = g.contents) (hmap : next.clientMap = g.clientMap) :
    next.Placed := by
  refine ⟨?_, ?_⟩
  · rw [Occupancy, hcontents, hmap]
    exact hplaced.occupancy
  · rw [hmap, hsize]
    exact hplaced.inside

theorem Drawn.placed (hdrawn : g.Drawn next) (hplaced : g.Placed) : next.Placed := by
  obtain ⟨draws, directions, rfl⟩ := hdrawn
  exact ⟨hplaced.occupancy, hplaced.inside⟩

/-- However the call ends, the cells and the map agree. -/
abbrev KeepsPlaced (body : Op Client α) (g : Game Client) : Prop :=
  Prog.wp body (fun _ next => next.Placed) (fun _ next => next.Placed) (fun _ => True) g

/-- A client may be put into the cell: it is not in the maze and no other is in
the cell, or it is in this very cell. -/
def Free (g : Game Client) (client : Client) (point : Point) : Prop :=
  (g.clientMap client = none ∧ NoClient (g.contents point)) ∨
    g.contents point = some (.client client)

variable [DecidableEq Client]

theorem Free.located (hfree : g.Free c p) (hoccupancy : g.Occupancy) (d : Direction) :
    Located (Function.update g.contents p (some (.client c)))
      (Function.update g.clientMap c (some ⟨p, d⟩)) := by
  rcases hfree with ⟨hnew, hclear⟩ | hheld
  · exact Located.place ⟨p, d⟩ hoccupancy hnew hclear
  · have hat := (hoccupancy p c).mp hheld
    rw [Option.map_eq_some_iff] at hat
    obtain ⟨dp, hat, hpoint⟩ := hat
    have hsame : Function.update g.contents p (some (.client c)) = g.contents := by
      rw [← hheld, Function.update_eq_self]
    rw [hsame]
    exact Located.turn hoccupancy hat hpoint.symm

theorem Placed.change (hplaced : g.Placed) (hchange : Change g next) : next.Placed := by
  cases hchange with
  | draw hdrawn => exact hdrawn.placed hplaced
  | register registered => exact hplaced.same rfl rfl rfl
  | turn hat hpoint =>
      refine ⟨hplaced.occupancy.turn hat hpoint, hplaced.inside.put ?_⟩
      rw [hpoint]
      exact hplaced.inside _ _ hat
  | leave hat => exact ⟨hplaced.occupancy.remove hat, hplaced.inside.drop⟩
  | lose hat hout => exact absurd (hplaced.inside _ _ hat) hout
  | come dp hgone hempty hbounds =>
      exact ⟨hplaced.occupancy.place dp hgone (.of_empty hempty), hplaced.inside.put hbounds⟩

theorem Placed.changes (hplaced : g.Placed) (hchanges : Changes g next) : next.Placed := by
  induction hchanges with
  | refl => exact hplaced
  | tail _ hchange ih => exact ih.change hchange

theorem OnlyChanges.placed {body : Op Client α} (hbody : OnlyChanges body g)
    (hplaced : g.Placed) : KeepsPlaced body g := by
  refine Prog.wp_mono hbody ?_ ?_ (fun _ h => h)
  · intro _ next hchanges
    exact hplaced.changes hchanges
  · intro _ next hchanges
    exact hplaced.changes hchanges

/-- The cells that hold a projectile still do. -/
def ProjectilesStay (g next : Game Client) : Prop :=
  ∀ p prj, g.contents p = some (.projectile prj) → next.contents p = some (.projectile prj)

/-- Only clients come and go. -/
theorem Changes.projectilesStay (hchanges : Changes g next) (hplaced : g.Placed) :
    g.ProjectilesStay next := by
  intro p prj hheld
  induction hchanges with
  | refl => exact hheld
  | tail hbefore hchange ih =>
      have hplaced := hplaced.changes hbefore
      cases hchange with
      | draw hdrawn =>
          obtain ⟨draws, directions, rfl⟩ := hdrawn
          exact ih
      | register registered => exact ih
      | turn hat hpoint => exact ih
      | leave hat =>
          refine (Function.update_of_ne ?_ _ _).trans ih
          rintro rfl
          rw [hplaced.occupancy.contents_eq hat] at ih
          cases ih
      | lose hat hout => exact ih
      | come dp hgone hempty hbounds =>
          refine (Function.update_of_ne ?_ _ _).trans ih
          rintro rfl
          rw [hempty] at ih
          cases ih

theorem addClientPoint_wp (turns : Nat) (hplaced : g.Placed) (hfree : g.Free c p) :
    KeepsPlaced (addClientPoint turns c p) g := by
  refine Prog.wp_mono (addClientPoint_joins turns c p g) ?_ ?_ (fun _ h => h)
  · intro _ next ⟨d, _, hbounds, hdrawn⟩
    exact hdrawn.placed ⟨hfree.located hplaced.occupancy d, hplaced.inside.put hbounds⟩
  · rintro _ _ ⟨_, rfl⟩
    exact hplaced

theorem addClient_wp (turns : Nat) (hplaced : g.Placed) (hnew : g.clientMap c = none) :
    KeepsPlaced (addClient turns c) g := by
  rw [KeepsPlaced, addClient, Prog.wp_bind]
  refine Prog.wp_mono (emptyPoint_wp turns g) ?_ ?_ (fun _ h => h)
  · rintro p next ⟨hempty, _, hdrawn⟩
    refine addClientPoint_wp turns (hdrawn.placed hplaced) ?_
    obtain ⟨draws, directions, rfl⟩ := hdrawn
    exact .inl ⟨hnew, .of_empty hempty⟩
  · intro _ next hdrawn
    exact hdrawn.placed hplaced

theorem clientFire_wp (turns : Nat) (hplaced : g.Placed) :
    KeepsPlaced (clientFire turns c) g := by
  refine Prog.wp_mono (clientFire_changes turns c g) ?_ ?_ (fun _ h => h)
  · rintro _ next (hchanges | ⟨dp, _, hempty, rfl⟩)
    · exact hplaced.changes hchanges
    · exact ⟨hplaced.occupancy.other _ (.of_empty hempty) trivial, hplaced.inside⟩
  · intro _ next hchanges
    exact hplaced.changes hchanges

/-- The cell that the map has for the projectile still holds it. -/
def Stands (g : Game Client) (prj : Projectile Client) : Prop :=
  ∀ dp ∈ g.projectileMap.lookup prj, g.contents dp.toPoint = some (.projectile prj)

instance (g : Game Client) (prj : Projectile Client) : Decidable (g.Stands prj) :=
  inferInstanceAs (Decidable (∀ _ ∈ _, _))

theorem Flight.placed {prj : Projectile Client} (hflight : Flight g prj dp dead next)
    (hplaced : g.Placed) (hstands : g.contents dp.toPoint = some (.projectile prj)) :
    next.Placed := by
  have hclear := NoClient.of_projectile hstands
  cases hflight with
  | wall hwall => exact ⟨hplaced.occupancy.other _ hclear trivial, hplaced.inside⟩
  | kills hopen hheld hkill =>
      have hmid := hplaced.changes hkill
      have hclear' := NoClient.of_projectile (hkill.projectilesStay hplaced _ _ hstands)
      exact ⟨hmid.occupancy.other _ hclear' trivial, hmid.inside⟩
  | meets hopen hheld =>
      have hone := hplaced.occupancy.other none (.of_projectile hheld) trivial
      exact ⟨hone.other _ (hclear.update trivial) trivial, hplaced.inside⟩
  | flies hopen hempty =>
      have hone := hplaced.occupancy.other none hclear trivial
      exact ⟨hone.other _ ((NoClient.of_empty hempty).update trivial) trivial, hplaced.inside⟩

theorem moveProjectile_wp (turns : Nat) {prj : Projectile Client} (hplaced : g.Placed)
    (hstands : g.Stands prj) : KeepsPlaced (moveProjectile turns prj) g := by
  refine Prog.wp_mono (moveProjectile_flight turns prj g) ?_ ?_ (fun _ h => h)
  · intro dead next ⟨dp, hdp, hflight⟩
    exact hflight.placed hplaced (hstands dp hdp)
  · intro _ next hchanges
    exact hplaced.changes hchanges

/-- The projectile that the pass comes to is where the map has it. -/
def NextStands (g : Game Client) : Prop :=
  ∀ prj ∈ g.pass.next, g.Stands prj

instance (g : Game Client) : Decidable g.NextStands :=
  inferInstanceAs (Decidable (∀ _ ∈ _, _))

theorem nextProjectile_wp (turns : Nat) (hplaced : g.Placed) (hstands : g.NextStands) :
    KeepsPlaced (nextProjectile turns) g := by
  rw [KeepsPlaced, nextProjectile, Prog.wp_bind, Prog.wp_get]
  split
  case h_1 => exact hplaced.same rfl rfl rfl
  case h_2 => exact hplaced.same rfl rfl rfl
  case h_3 prj rest deadPrj hpass =>
    have hnext : g.pass.next = some prj := by
      rw [hpass]
      rfl
    rw [Prog.wp_bind, Prog.wp_attempt]
    refine Prog.wp_mono (moveProjectile_wp turns hplaced (hstands prj hnext)) ?_ ?_
      (fun _ h => h)
    · intro dead next hnext
      exact hnext.same rfl rfl rfl
    · intro _ next hnext
      exact hnext.same rfl rfl rfl
  case h_4 => exact hplaced

theorem removeDead_wp (hplaced : g.Placed) : KeepsPlaced removeDead g := by
  rw [KeepsPlaced, removeDead, Prog.wp_bind, Prog.wp_get]
  split
  case h_1 => exact hplaced.same rfl rfl rfl
  case h_2 => exact hplaced.same rfl rfl rfl
  case h_3 => exact hplaced

theorem startPass_wp (order : List (Projectile Client)) (hplaced : g.Placed) :
    KeepsPlaced (startPass order) g := by
  rw [KeepsPlaced, startPass, Prog.wp_bind, Prog.wp_get, Prog.wp_ite]
  split
  case isTrue => exact hplaced.same rfl rfl rfl
  case isFalse => exact hplaced

end Calls

end Game

/-- What is done to the maze in one step: the calls of the players, and the
steps of the thread that moves the projectiles. -/
inductive Call (Client : Type) where
  | addClient (client : Client)
  | addClientAt (client : Client) (x y : Int) (d : Direction)
  | removeClient (client : Client)
  | moveClientForward (client : Client)
  | moveClientBackward (client : Client)
  | turnLeft (client : Client)
  | turnRight (client : Client)
  | clientFire (client : Client)
  | killClient (target : Client)
  | startPass (order : List (Projectile Client))
  | nextProjectile
  | removeDead

namespace Call

variable {Client : Type} [DecidableEq Client] {g next : Game Client}

open Game

/-- The loops that draw take at most the given number of turns. -/
def op (turns : Nat) : Call Client → Op Client Unit
  | addClient client => Game.addClient turns client
  | addClientAt client x y d => Game.addClientAt turns client x y d
  | removeClient client => Game.removeClient client
  | moveClientForward client => do
      let _ ← Game.moveClientForward client
  | moveClientBackward client => do
      let _ ← Game.moveClientBackward client
  | turnLeft client => clientUpdate rotateClientLeft client
  | turnRight client => clientUpdate rotateClientRight client
  | clientFire client => do
      let _ ← Game.clientFire turns client
  | killClient target => Game.killClient turns target
  | startPass order => Game.startPass order
  | nextProjectile => Game.nextProjectile turns
  | removeDead => Game.removeDead

/-- The state that a call leaves, also where it throws.  A call that is still
drawing has left none. -/
def run (call : Call Client × Nat) (g : Game Client) : Option (Game Client) :=
  (call.1.op call.2 g).leaves

/-- The point of `addClient(client, x, y, d)` is one of the maze. -/
def InBounds (call : Call Client × Nat) (g : Game Client) : Prop :=
  match call.1 with
  | addClientAt _ x y _ => g.checkBounds ⟨x, y⟩ = true
  | _ => True

/-- A client that is added is not in the maze, and no other is in the cell that
is asked for; a projectile that is moved is still in its cell. -/
def Fits (call : Call Client × Nat) (g : Game Client) : Prop :=
  match call.1 with
  | addClient client => g.clientMap client = none
  | addClientAt client x y _ => g.Free client ⟨x, y⟩
  | nextProjectile => g.NextStands
  | _ => True

instance : ∀ (call : Call Client × Nat) (g : Game Client), Decidable (InBounds call g)
  | (addClientAt _ x y _, _), g => inferInstanceAs (Decidable (g.checkBounds ⟨x, y⟩ = true))
  | (addClient _, _), _ => inferInstanceAs (Decidable True)
  | (removeClient _, _), _ => inferInstanceAs (Decidable True)
  | (moveClientForward _, _), _ => inferInstanceAs (Decidable True)
  | (moveClientBackward _, _), _ => inferInstanceAs (Decidable True)
  | (turnLeft _, _), _ => inferInstanceAs (Decidable True)
  | (turnRight _, _), _ => inferInstanceAs (Decidable True)
  | (clientFire _, _), _ => inferInstanceAs (Decidable True)
  | (killClient _, _), _ => inferInstanceAs (Decidable True)
  | (startPass _, _), _ => inferInstanceAs (Decidable True)
  | (nextProjectile, _), _ => inferInstanceAs (Decidable True)
  | (removeDead, _), _ => inferInstanceAs (Decidable True)

instance : ∀ (call : Call Client × Nat) (g : Game Client), Decidable (Fits call g)
  | (addClient client, _), g => inferInstanceAs (Decidable (g.clientMap client = none))
  | (addClientAt _ _ _ _, _), _ => inferInstanceAs (Decidable (_ ∧ _ ∨ _))
  | (nextProjectile, _), g => inferInstanceAs (Decidable g.NextStands)
  | (removeClient _, _), _ => inferInstanceAs (Decidable True)
  | (moveClientForward _, _), _ => inferInstanceAs (Decidable True)
  | (moveClientBackward _, _), _ => inferInstanceAs (Decidable True)
  | (turnLeft _, _), _ => inferInstanceAs (Decidable True)
  | (turnRight _, _), _ => inferInstanceAs (Decidable True)
  | (clientFire _, _), _ => inferInstanceAs (Decidable True)
  | (killClient _, _), _ => inferInstanceAs (Decidable True)
  | (startPass _, _), _ => inferInstanceAs (Decidable True)
  | (removeDead, _), _ => inferInstanceAs (Decidable True)

theorem op_wp (call : Call Client × Nat) (hplaced : g.Placed) (hfits : Fits call g) :
    KeepsPlaced (call.1.op call.2) g := by
  obtain ⟨call, turns⟩ := call
  cases call with
  | addClient client => exact addClient_wp turns hplaced hfits
  | addClientAt client x y d => exact addClientPoint_wp turns hplaced hfits
  | removeClient client => exact (removeClient_changes client g).placed hplaced
  | moveClientForward client =>
      rw [KeepsPlaced, op, Prog.wp_bind]
      exact (moveClientForward_changes client g).placed hplaced
  | moveClientBackward client =>
      rw [KeepsPlaced, op, Prog.wp_bind]
      exact (moveClientBackward_changes client g).placed hplaced
  | turnLeft client => exact (clientUpdate_changes Direction.turnLeft client g).placed hplaced
  | turnRight client => exact (clientUpdate_changes Direction.turnRight client g).placed hplaced
  | clientFire client =>
      rw [KeepsPlaced, op, Prog.wp_bind]
      exact clientFire_wp turns hplaced
  | killClient target => exact (killClient_changes turns target g).placed hplaced
  | startPass order => exact startPass_wp order hplaced
  | nextProjectile => exact nextProjectile_wp turns hplaced hfits
  | removeDead => exact removeDead_wp hplaced

theorem run_placed {call : Call Client × Nat} (hplaced : g.Placed) (hfits : Fits call g)
    (hrun : run call g = some next) : next.Placed :=
  (op_wp call hplaced hfits).leaves hrun

end Call

namespace Game

variable {Client : Type}

theorem start_placed (m : MazeImpl) (directions : Nat → Direction) :
    (start m directions : Game Client).Placed := by
  refine ⟨?_, ?_⟩
  · intro p c
    exact iff_of_false (by simp [start]) (by simp [start])
  · intro c dp hat
    cases hat

variable [DecidableEq Client] {g : Game Client}

/-- In a run in which no client is added that is in the maze, or where another
client is, and no projectile is moved that has left its cell, the cells and the
map agree. -/
theorem occupancy_of_runs (m : MazeImpl) (directions : Nat → Direction)
    (hruns : Runs Call.run Call.Fits (start m directions) g) :
    g.Occupancy ∧ ∀ c c' dp dp', g.clientMap c = some dp → g.clientMap c' = some dp' →
      dp.toPoint = dp'.toPoint → c = c' := by
  have hplaced : g.Placed := by
    refine hruns.preserves ?_ (start_placed m directions)
    intro call s next hs hfits hrun
    exact Call.run_placed hs hfits hrun
  refine ⟨hplaced.occupancy, ?_⟩
  intro c c' dp dp' hat hat' hpoint
  exact hplaced.occupancy.apart hat hat' hpoint

/-- Two cells side by side. -/
private def twoCells : Game Nat :=
  let fresh := MazeImpl.fresh 2 1 fun n => n / 2
  start ((MazeImpl.construct fresh).stateD fresh) fun n => if n % 2 = 0 then .east else .west

/-- One comes in, another is put beside it, is shot and comes back. -/
private def duel : List (Call Nat × Nat) :=
  [(.addClientAt 0 0 0 .north, 4), (.addClientAt 1 1 0 .east, 4), (.clientFire 0, 4),
    (.turnLeft 1, 4), (.moveClientForward 0, 4)]

theorem occupancy_of_duel :
    (runAll Call.run duel twoCells).clientMap 1 = some ⟨⟨1, 0⟩, .south⟩ ∧
      (runAll Call.run duel twoCells).Occupancy :=
  ⟨by decide +kernel,
    (occupancy_of_runs _ _ (runs_runAll duel twoCells (by decide))).1⟩

/-- The second client is put into the cell of the first. -/
theorem occupancy_fails_in_one_cell :
    ¬∀ (m : MazeImpl) (directions : Nat → Direction) (g : Game Nat),
      2 ≤ m.maxX * m.maxY → Runs Call.run Call.InBounds (start m directions) g →
      g.Occupancy := by
  intro hall
  let calls : List (Call Nat × Nat) :=
    [(.addClientAt 0 0 0 .east, 4), (.addClientAt 1 0 0 .east, 4)]
  have hruns : Runs Call.run Call.InBounds twoCells (runAll Call.run calls twoCells) :=
    runs_runAll calls twoCells (by decide)
  have hoccupancy := hall _ _ _ (by decide) hruns
  have hat : (runAll Call.run calls twoCells).clientMap 0 = some ⟨⟨0, 0⟩, .east⟩ := by
    decide
  have hheld : (runAll Call.run calls twoCells).contents ⟨0, 0⟩ = some (.client 1) := by
    decide
  rw [hoccupancy.contents_eq hat] at hheld
  cases hheld

end Game

end OS161.Mazewar
