import OS161.Mazewar.Lockstep

namespace OS161.Mazewar

open OS161.Data

/-! When the replicas show the same players at the same places. -/

namespace Event

/-- The packets that make the client of their player do something. -/
def acts : Event → Bool
  | forward => true
  | backward => true
  | left => true
  | right => true
  | fire => true
  | _ => false

end Event

theorem Game.act_quiet {Client : Type} [DecidableEq Client] {event : Event}
    (hquiet : event.acts = false) (turns : Nat) (client : Client) :
    Game.act turns event client = pure () := by
  cases event with
  | forward => cases hquiet
  | backward => cases hquiet
  | left => cases hquiet
  | right => cases hquiet
  | fire => cases hquiet
  | coordinates => rfl
  | clientListReq => rfl
  | clientListResp => rfl
  | quit => rfl
  | spawn => rfl
  | tick => rfl

namespace GUIClient

variable {r next : GUIClient} {pkt : MazeWarPkt}

/-- One object for each opponent, which is somebody else. -/
structure Listed (r : GUIClient) : Prop where
  first : ∀ o ∈ r.opponentList, o.client.serial = 0
  others : ∀ o ∈ r.opponentList, o.client.player ≠ r.playerId
  nodup : (r.opponentList.map fun o => o.client.player).Nodup

/-- The replica has an object for the player. -/
def Knows (r : GUIClient) (player : Int) : Prop :=
  player = r.playerId ∨ ∃ o ∈ r.opponentList, o.client.player = player

theorem forEach_skip {body : OpponentClient → Op Unit} {list : List OpponentClient}
    (hskip : ∀ o ∈ list, body o = pure ()) : forEach body list = pure () := by
  induction list with
  | nil => rfl
  | cons o rest ih =>
      have hrest := ih fun o' ho' => hskip o' (List.mem_cons_of_mem _ ho')
      rw [forEach, hskip o (List.mem_cons_self ..), hrest]
      rfl

/-- The loop does its work for one opponent only. -/
theorem forEach_single {body : OpponentClient → Op Unit}
    {before after : List OpponentClient} {o : OpponentClient}
    (hbefore : ∀ o ∈ before, body o = pure ()) (hafter : ∀ o ∈ after, body o = pure ()) :
    forEach body (before ++ o :: after) = body o := by
  induction before with
  | nil =>
      rw [List.nil_append, forEach, forEach_skip hafter]
      funext r
      simp only [Bind.bind, Prog.andThen]
      cases body o r <;> rfl
  | cons o' rest ih =>
      rw [List.cons_append, forEach, hbefore o' (List.mem_cons_self ..),
        ih fun o'' ho'' => hbefore o'' (List.mem_cons_of_mem _ ho'')]
      rfl

/-- The one opponent that stands for a player. -/
theorem Listed.split (hlisted : r.Listed) {o : OpponentClient} (ho : o ∈ r.opponentList) :
    o.client = ⟨o.client.player, 0⟩ ∧ ∃ before after,
      r.opponentList = before ++ o :: after ∧
        (∀ o' ∈ before, o'.client.player ≠ o.client.player) ∧
        ∀ o' ∈ after, o'.client.player ≠ o.client.player := by
  refine ⟨?_, ?_⟩
  · have hserial := hlisted.first o ho
    cases hclient : o.client with
    | mk player serial =>
      rw [hclient] at hserial
      cases hserial
      rfl
  · obtain ⟨before, after, heq⟩ := List.append_of_mem ho
    have hnodup := hlisted.nodup
    rw [heq, List.map_append, List.map_cons, List.nodup_append, List.nodup_cons] at hnodup
    refine ⟨before, after, heq, ?_, ?_⟩
    · intro o' ho' hsame
      exact hnodup.2.2 _ (List.mem_map_of_mem ho') _ (List.mem_cons_self ..) hsame
    · intro o' ho' hsame
      exact hnodup.2.1.1 (hsame ▸ List.mem_map_of_mem (f := fun o => o.client.player) ho')

theorem actRemote_other (turns : Nat) {o : OpponentClient}
    (hother : o.client.player ≠ pkt.player) : actRemote turns pkt o = pure () := by
  rw [actRemote, if_neg hother]

theorem findRemoteClient_quiet (hquiet : pkt.event.acts = false) (turns : Nat)
    (r : GUIClient) : findRemoteClient turns pkt r = .ok () r := by
  have hskip : ∀ o ∈ r.opponentList, actRemote turns pkt o = pure () := by
    intro o _
    rw [actRemote, Game.act_quiet hquiet]
    split <;> rfl
  change forEach (actRemote turns pkt) r.opponentList r = .ok () r
  rw [forEach_skip hskip]
  rfl

theorem findRemoteClient_known (hlisted : r.Listed) (turns : Nat)
    (hknown : ∃ o ∈ r.opponentList, o.client.player = pkt.player) :
    findRemoteClient turns pkt r =
      onMaze (Game.act turns pkt.event ⟨pkt.player, 0⟩) r := by
  obtain ⟨o, ho, hplayer⟩ := hknown
  obtain ⟨hclient, before, after, heq, hbefore, hafter⟩ := hlisted.split ho
  rw [hplayer] at hclient hbefore hafter
  have hloop : forEach (actRemote turns pkt) r.opponentList = actRemote turns pkt o := by
    rw [heq]
    exact forEach_single (fun o' ho' => actRemote_other turns (hbefore o' ho'))
      fun o' ho' => actRemote_other turns (hafter o' ho')
  have hbody : actRemote turns pkt o = onMaze (Game.act turns pkt.event ⟨pkt.player, 0⟩) := by
    rw [actRemote, if_pos hplayer, hclient]
  change forEach (actRemote turns pkt) r.opponentList r = _
  rw [hloop, hbody]

/-- The same is done for the own player as for an opponent. -/
theorem processEvent_acts (hlisted : r.Listed) (hacts : pkt.event.acts = true)
    (turns : Nat) (hknows : r.Knows pkt.player) :
    processEvent turns pkt r = onMaze (Game.act turns pkt.event ⟨pkt.player, 0⟩) r := by
  have hget (rest : GUIClient → Op Unit) : (Prog.get >>= rest) r = rest r r := rfl
  rw [processEvent, hget]
  rcases hknows with hown | hknown
  · rw [if_pos hown, self, ← hown]
  · obtain ⟨o, ho, hplayer⟩ := hknown
    have hother : pkt.player ≠ r.playerId := by
      rw [← hplayer]
      exact hlisted.others o ho
    have hspawn : pkt.event ≠ .spawn := by
      intro heq
      rw [heq] at hacts
      cases hacts
    have hcoordinates : pkt.event ≠ .coordinates := by
      intro heq
      rw [heq] at hacts
      cases hacts
    have hrequest : pkt.event ≠ .clientListReq := by
      intro heq
      rw [heq] at hacts
      cases hacts
    rw [if_neg hother, introduce, if_neg hspawn, if_neg hcoordinates, if_neg hrequest]
    exact findRemoteClient_known hlisted turns ⟨o, ho, hplayer⟩

/-- What packets do to the replica besides its maze. -/
structure Same (r next : GUIClient) : Prop where
  playerId_eq : next.playerId = r.playerId
  opponentList_eq : next.opponentList = r.opponentList

theorem Same.listed (hsame : r.Same next) (hlisted : r.Listed) : next.Listed := by
  refine ⟨?_, ?_, ?_⟩
  · rw [hsame.opponentList_eq]
    exact hlisted.first
  · rw [hsame.opponentList_eq, hsame.playerId_eq]
    exact hlisted.others
  · rw [hsame.opponentList_eq]
    exact hlisted.nodup

/-- A packet that is delivered has been processed, or has ended the thread. -/
theorem deliver_eq_some (hdeliver : r.deliver turns pkt = some next) :
    ∃ final, (processEvent turns pkt r).leaves = some final ∧ final.Same next ∧
      next.maze = final.maze := by
  rw [deliver] at hdeliver
  split at hdeliver
  case isFalse => cases hdeliver
  case isTrue =>
    cases hrun : processEvent turns pkt r with
    | ok value final =>
        rw [hrun] at hdeliver
        cases hdeliver
        exact ⟨_, rfl, ⟨rfl, rfl⟩, rfl⟩
    | error thrown final =>
        rw [hrun] at hdeliver
        cases hdeliver
        exact ⟨_, rfl, ⟨rfl, rfl⟩, rfl⟩
    | panic trouble =>
        rw [hrun] at hdeliver
        cases hdeliver

theorem onMaze_leaves {body : Game.Op Member α} (hleaves : (onMaze body r).leaves = some next) :
    (body r.maze).leaves = some next.maze ∧ r.Same next := by
  rw [onMaze, Prog.zoom] at hleaves
  cases hrun : body r.maze with
  | ok value g =>
      rw [hrun] at hleaves
      cases hleaves
      exact ⟨rfl, rfl, rfl⟩
  | error thrown g =>
      rw [hrun] at hleaves
      cases hleaves
      exact ⟨rfl, rfl, rfl⟩
  | panic trouble =>
      rw [hrun] at hleaves
      cases hleaves

theorem deliver_acts (hlisted : r.Listed) (hacts : pkt.event.acts = true)
    (hknows : r.Knows pkt.player) (hdeliver : r.deliver turns pkt = some next) :
    (Game.act turns pkt.event ⟨pkt.player, 0⟩ r.maze).leaves = some next.maze ∧
      r.Same next := by
  obtain ⟨final, hleaves, hfinal, hmaze⟩ := deliver_eq_some hdeliver
  rw [processEvent_acts hlisted hacts turns hknows] at hleaves
  obtain ⟨hact, hsame⟩ := onMaze_leaves hleaves
  refine ⟨hmaze ▸ hact, ?_, ?_⟩
  · rw [hfinal.playerId_eq, hsame.playerId_eq]
  · rw [hfinal.opponentList_eq, hsame.opponentList_eq]

theorem sendCoordinates_wp (r : GUIClient) :
    Prog.wp sendCoordinates (fun _ next => r.Same next ∧ next.maze = r.maze)
      (fun _ next => r.Same next ∧ next.maze = r.maze) (fun _ => True) r := by
  simp only [sendCoordinates, onMaze, ↓Prog.wp_bind, ↓Prog.wp_get, ↓Prog.wp_ite, ↓Prog.wp_fail,
    ↓Prog.wp_zoom, ↓Prog.wp_modify]
  split
  case isFalse => exact ⟨⟨rfl, rfl⟩, trivial⟩
  case isTrue =>
    refine Game.getClientPoint_wp ⟨⟨rfl, rfl⟩, rfl⟩ ?_
    intro dp _
    exact ⟨⟨rfl, rfl⟩, rfl⟩

/-- What a packet does that makes nobody move. -/
theorem processEvent_quiet {Q : GUIClient → Prop} (hquiet : pkt.event.acts = false)
    (turns : Nat) (hown : pkt.player = r.playerId → Q r)
    (hother : pkt.player ≠ r.playerId → Prog.wp (introduce turns pkt)
      (fun _ next => Q next) (fun _ next => Q next) (fun _ => True) r) :
    Prog.wp (processEvent turns pkt) (fun _ next => Q next) (fun _ next => Q next)
      (fun _ => True) r := by
  rw [processEvent, Prog.wp_bind, Prog.wp_get, Prog.wp_ite]
  split
  case isTrue heq =>
    rw [Game.act_quiet hquiet]
    exact hown heq
  case isFalse hne =>
    rw [Prog.wp_bind]
    refine Prog.wp_mono (hother hne) ?_ (fun _ _ h => h) (fun _ h => h)
    intro _ next hpost
    rw [Prog.wp, findRemoteClient_quiet hquiet]
    exact hpost

/-- What is true of the state that is left, true of it in the end. -/
theorem deliver_quiet {Q : GUIClient → Prop} (hquiet : pkt.event.acts = false)
    (hprocessing : ∀ final next : GUIClient, Q final → final.Same next →
      next.maze = final.maze → Q next)
    (hown : pkt.player = r.playerId → Q r)
    (hother : pkt.player ≠ r.playerId → Prog.wp (introduce turns pkt)
      (fun _ next => Q next) (fun _ next => Q next) (fun _ => True) r)
    (hdeliver : r.deliver turns pkt = some next) : Q next := by
  obtain ⟨final, hleaves, hfinal, hmaze⟩ := deliver_eq_some hdeliver
  exact hprocessing final next ((processEvent_quiet hquiet turns hown hother).leaves hleaves)
    hfinal hmaze

theorem Same.trans {mid : GUIClient} (hfirst : r.Same mid) (hrest : mid.Same next) :
    r.Same next :=
  ⟨hrest.playerId_eq.trans hfirst.playerId_eq,
    hrest.opponentList_eq.trans hfirst.opponentList_eq⟩

/-- The packets that leave the maze and the opponents alone. -/
theorem deliver_idle (hquiet : pkt.event.acts = false) (hspawn : pkt.event ≠ .spawn)
    (hcoordinates : pkt.event ≠ .coordinates) (hdeliver : r.deliver turns pkt = some next) :
    r.Same next ∧ next.maze = r.maze := by
  refine deliver_quiet (Q := fun next => r.Same next ∧ next.maze = r.maze) hquiet ?_ ?_ ?_
    hdeliver
  · intro final next hpost hsame hmaze
    exact ⟨hpost.1.trans hsame, hmaze.trans hpost.2⟩
  · intro _
    exact ⟨⟨rfl, rfl⟩, rfl⟩
  · intro _
    rw [introduce, if_neg hspawn, if_neg hcoordinates, Prog.wp_ite]
    split
    · exact sendCoordinates_wp r
    · exact ⟨⟨rfl, rfl⟩, rfl⟩

/-- The first packet of a player makes an object for it. -/
theorem deliver_spawn (hspawn : pkt.event = .spawn) (hlisted : r.Listed)
    (hnew : ∀ o ∈ r.opponentList, o.client.player ≠ pkt.player)
    (hdeliver : r.deliver turns pkt = some next) :
    next.Listed ∧ next.playerId = r.playerId ∧ next.maze = r.maze ∧
      ∀ o ∈ next.opponentList, o.added = true → o ∈ r.opponentList := by
  refine deliver_quiet (Q := fun next => next.Listed ∧ next.playerId = r.playerId ∧
    next.maze = r.maze ∧ ∀ o ∈ next.opponentList, o.added = true → o ∈ r.opponentList)
    (by rw [hspawn]; rfl) ?_ ?_ ?_ hdeliver
  · intro final next ⟨hlist, hid, hmaze, hold⟩ hsame hsameMaze
    refine ⟨hsame.listed hlist, hsame.playerId_eq.trans hid, hsameMaze.trans hmaze, ?_⟩
    rw [hsame.opponentList_eq]
    exact hold
  · intro _
    exact ⟨hlisted, rfl, rfl, fun _ ho _ => ho⟩
  · intro hother
    rw [introduce, if_pos hspawn, addOpponent, Prog.wp_modify]
    have hcount : r.opponentList.filter (fun o => o.client.player = pkt.player) = [] := by
      rw [List.filter_eq_nil_iff]
      intro o ho
      simpa using hnew o ho
    have hclient : (r.newOpponent pkt).client = ⟨pkt.player, 0⟩ := by
      rw [newOpponent, hcount]
      rfl
    have hmem (o : OpponentClient) (ho : o ∈ r.opponentList ++ [r.newOpponent pkt]) :
        o ∈ r.opponentList ∨ o = r.newOpponent pkt := by
      rwa [List.mem_append, List.mem_singleton] at ho
    refine ⟨⟨?_, ?_, ?_⟩, rfl, rfl, ?_⟩
    · intro o ho
      rcases hmem o ho with hold | rfl
      · exact hlisted.first o hold
      · rw [hclient]
    · intro o ho
      rcases hmem o ho with hold | rfl
      · exact hlisted.others o hold
      · rw [hclient]
        exact hother
    · rw [List.map_append, List.nodup_append]
      refine ⟨hlisted.nodup, List.nodup_singleton _, ?_⟩
      intro player hplayer player' hplayer'
      obtain ⟨o, ho, rfl⟩ := List.mem_map.mp hplayer
      rw [List.map_singleton, List.mem_singleton, hclient] at hplayer'
      rw [hplayer']
      exact hnew o ho
    · intro o ho hadded
      rcases hmem o ho with hold | rfl
      · exact hold
      · cases hadded

/-- Marking changes no object's player. -/
theorem Listed.marked (hlisted : r.Listed) (client : Member)
    (hid : next.playerId = r.playerId)
    (hlist : next.opponentList = r.opponentList.map fun o =>
      if o.client = client then { o with added := true } else o) : next.Listed := by
  have hsame (o : OpponentClient) :
      (if o.client = client then { o with added := true } else o).client = o.client := by
    split <;> rfl
  refine ⟨?_, ?_, ?_⟩
  · intro o ho
    rw [hlist] at ho
    obtain ⟨o', ho', rfl⟩ := List.mem_map.mp ho
    rw [hsame]
    exact hlisted.first o' ho'
  · intro o ho
    rw [hlist] at ho
    obtain ⟨o', ho', rfl⟩ := List.mem_map.mp ho
    rw [hsame, hid]
    exact hlisted.others o' ho'
  · rw [hlist, List.map_map]
    simp only [Function.comp_def, hsame]
    exact hlisted.nodup

theorem placeOpponent_skip (turns : Nat) {o : OpponentClient}
    (hskip : ¬(o.client.player = pkt.player ∧ o.added = false)) :
    placeOpponent turns pkt o = pure () := by
  rw [placeOpponent, if_neg hskip]

/-- Coordinates that everybody has are not looked at. -/
theorem deliver_known_coordinates (hcoordinates : pkt.event = .coordinates)
    (hadded : ∀ o ∈ r.opponentList, o.client.player = pkt.player → o.added = true)
    (hdeliver : r.deliver turns pkt = some next) : r.Same next ∧ next.maze = r.maze := by
  refine deliver_quiet (Q := fun next => r.Same next ∧ next.maze = r.maze)
    (by rw [hcoordinates]; rfl) ?_ ?_ ?_ hdeliver
  · intro final next hpost hsame hmaze
    exact ⟨hpost.1.trans hsame, hmaze.trans hpost.2⟩
  · intro _
    exact ⟨⟨rfl, rfl⟩, rfl⟩
  · intro _
    have hspawn : pkt.event ≠ .spawn := by
      rw [hcoordinates]
      exact Event.noConfusion
    rw [introduce, if_neg hspawn, if_pos hcoordinates, placeOpponents, Prog.wp_bind,
      Prog.wp_get, forEach_skip]
    · exact ⟨⟨rfl, rfl⟩, rfl⟩
    · intro o ho
      refine placeOpponent_skip turns ?_
      rintro ⟨hplayer, hnot⟩
      rw [hadded o ho hplayer] at hnot
      cases hnot

/-- The coordinates put the opponent into the maze, facing as the generator
says. -/
theorem deliver_coordinates (hcoordinates : pkt.event = .coordinates)
    (hlisted : r.Listed) (hother : pkt.player ≠ r.playerId)
    (hknown : ∃ o ∈ r.opponentList, o.client.player = pkt.player ∧ o.added = false)
    (hbounds : r.maze.checkBounds ⟨pkt.spawnX, pkt.spawnY⟩ = true)
    (hdeliver : r.deliver turns pkt = some next) :
    next.Listed ∧ next.playerId = r.playerId ∧
      ∃ d, Game.drawnDirection turns ⟨pkt.spawnX, pkt.spawnY⟩ r.maze = some d ∧
        (r.maze.joined ⟨pkt.player, 0⟩ ⟨⟨pkt.spawnX, pkt.spawnY⟩, d⟩).Drawn next.maze := by
  refine deliver_quiet (Q := fun next => next.Listed ∧ next.playerId = r.playerId ∧
      ∃ d, Game.drawnDirection turns ⟨pkt.spawnX, pkt.spawnY⟩ r.maze = some d ∧
        (r.maze.joined ⟨pkt.player, 0⟩ ⟨⟨pkt.spawnX, pkt.spawnY⟩, d⟩).Drawn next.maze)
    (by rw [hcoordinates]; rfl) ?_ ?_ ?_ hdeliver
  · intro final next ⟨hlist, hid, d, hdrawn, hjoined⟩ hsame hmaze
    refine ⟨hsame.listed hlist, hsame.playerId_eq.trans hid, d, hdrawn, ?_⟩
    rw [hmaze]
    exact hjoined
  · intro hown
    exact absurd hown hother
  · intro _
    have hspawn : pkt.event ≠ .spawn := by
      rw [hcoordinates]
      exact Event.noConfusion
    obtain ⟨o, ho, hplayer, hunadded⟩ := hknown
    obtain ⟨hclient, before, after, heq, hbefore, hafter⟩ := hlisted.split ho
    rw [hplayer] at hclient hbefore hafter
    have hloop : forEach (placeOpponent turns pkt) r.opponentList =
        placeOpponent turns pkt o := by
      rw [heq]
      exact forEach_single
        (fun o' ho' => placeOpponent_skip turns fun hboth => hbefore o' ho' hboth.1)
        fun o' ho' => placeOpponent_skip turns fun hboth => hafter o' ho' hboth.1
    rw [introduce, if_neg hspawn, if_pos hcoordinates, placeOpponents, Prog.wp_bind,
      Prog.wp_get, hloop, placeOpponent, if_pos ⟨hplayer, hunadded⟩, hclient]
    simp only [markAdded, onMaze, ↓Prog.wp_bind, ↓Prog.wp_modify, ↓Prog.wp_zoom,
      Game.addClientAt]
    refine Prog.wp_mono (Game.addClientPoint_joins turns ⟨pkt.player, 0⟩
      ⟨pkt.spawnX, pkt.spawnY⟩ r.maze) ?_ ?_ (fun _ h => h)
    · rintro _ g ⟨d, hdrawn, _, hjoined⟩
      exact ⟨hlisted.marked ⟨pkt.player, 0⟩ rfl rfl, trivial, d, hdrawn, hjoined⟩
    · rintro _ g ⟨hout, _⟩
      rw [hbounds] at hout
      cases hout

theorem join_wp (turns : Nat) (r : GUIClient) :
    Prog.wp (join turns)
      (fun _ next => r.Same next ∧ ∃ dp, r.maze.checkBounds dp.toPoint = true ∧
        (r.maze.joined r.self dp).Drawn next.maze)
      (fun _ next => r.Same next ∧ (r.maze.Drawn next.maze ∨
        ∃ dp, r.maze.checkBounds dp.toPoint = true ∧
          (r.maze.joined r.self dp).Drawn next.maze)) (fun _ => True) r := by
  simp only [join, onMaze, Game.addClient, ↓Prog.wp_bind, ↓Prog.wp_get, ↓Prog.wp_zoom]
  refine Prog.wp_mono (Game.emptyPoint_wp turns r.maze) ?_ ?_ (fun _ h => h)
  case refine_2 =>
    intro _ g hdrawn
    exact ⟨⟨rfl, rfl⟩, .inl hdrawn⟩
  rintro point g ⟨_, hbounds, hdrawn⟩
  refine Prog.wp_mono (Game.addClientPoint_joins turns r.self point g) ?_ ?_ (fun _ h => h)
  · rintro _ g' ⟨d, _, _, hjoined⟩
    have hmaze := (Game.joined_drawn hdrawn r.self ⟨point, d⟩).trans hjoined
    refine Prog.wp_mono (sendCoordinates_wp { r with maze := g' }) ?_ ?_ (fun _ h => h)
    · rintro _ next ⟨hsame, hnext⟩
      refine ⟨⟨hsame.playerId_eq, hsame.opponentList_eq⟩, ⟨point, d⟩, hbounds, ?_⟩
      rw [hnext]
      exact hmaze
    · rintro _ next ⟨hsame, hnext⟩
      refine ⟨⟨hsame.playerId_eq, hsame.opponentList_eq⟩, .inr ⟨⟨point, d⟩, hbounds, ?_⟩⟩
      rw [hnext]
      exact hmaze
  · rintro _ _ ⟨_, rfl⟩
    exact ⟨⟨rfl, rfl⟩, .inl hdrawn⟩

/-- The own player is in the maze, or the generators alone have changed. -/
theorem step_join (hstep : r.step turns .join = some next) :
    r.Same next ∧ (r.maze.Drawn next.maze ∨ ∃ dp, r.maze.checkBounds dp.toPoint = true ∧
      (r.maze.joined r.self dp).Drawn next.maze) := by
  have hwp := Prog.wp_mono (join_wp turns r)
    (fun _ next h => (⟨h.1, .inr h.2⟩ : r.Same next ∧ (r.maze.Drawn next.maze ∨
      ∃ dp, r.maze.checkBounds dp.toPoint = true ∧
        (r.maze.joined r.self dp).Drawn next.maze)))
    (fun _ _ h => h) (fun _ h => h)
  exact hwp.leaves hstep

/-- The own projectile thread makes the same step in both mazes. -/
theorem step_thread {r' next' : GUIClient} {act : Local} (hact : act ≠ .join)
    (hdrawn : r.maze.Drawn r'.maze)
    (hpick : act = .nextProjectile →
      Game.SamePick turns r.maze r'.maze r.maze.passVictim)
    (hstep : r.step turns act = some next) (hstep' : r'.step turns act = some next') :
    next.maze.Drawn next'.maze := by
  cases act with
  | join => exact absurd rfl hact
  | startPass order =>
      exact (Game.startPass_twin hdrawn order).leaves (onMaze_leaves hstep).1
        (onMaze_leaves hstep').1
  | nextProjectile =>
      exact (Game.nextProjectile_twin hdrawn (hpick rfl)).leaves (onMaze_leaves hstep).1
        (onMaze_leaves hstep').1
  | removeDead =>
      exact (Game.removeDead_twin hdrawn).leaves (onMaze_leaves hstep).1
        (onMaze_leaves hstep').1

theorem step_thread_same {act : Local} (hact : act ≠ .join)
    (hstep : r.step turns act = some next) : r.Same next := by
  cases act with
  | join => exact absurd rfl hact
  | startPass order => exact (onMaze_leaves hstep).2
  | nextProjectile => exact (onMaze_leaves hstep).2
  | removeDead => exact (onMaze_leaves hstep).2

/-- Where the replica shows the player. -/
def Shows (r : GUIClient) (player : Int) (dp : DirectedPoint) : Prop :=
  ∃ client, client.player = player ∧ r.maze.clientMap client = some dp

end GUIClient

namespace Session

variable {R : Type} {s t : Session R} {turns : Nat} {pkt : MazeWarPkt}

/-- All who have joined have been added by the others. -/
def Settled (s : Session R) : Prop :=
  ∀ r, (s r).maze.registered (s r).self = true → ∀ r', r' ≠ r →
    ∃ o ∈ (s r').opponentList, o.client.player = (s r).playerId ∧ o.added = true

/-- The packet is the first of its player. -/
def New (s : Session R) (pkt : MazeWarPkt) : Prop :=
  ∀ r, ∀ o ∈ (s r).opponentList, o.client.player ≠ pkt.player

/-- Every replica has added the player before. -/
def Added (s : Session R) (pkt : MazeWarPkt) : Prop :=
  ∀ r, ∀ o ∈ (s r).opponentList, o.client.player = pkt.player → o.added = true

/-- The packet says where the replica of its player shows it, and the others
draw the direction that is in the packet. -/
def Adds (turns : Nat) (s : Session R) (pkt : MazeWarPkt) (r₀ : R) : Prop :=
  (s r₀).playerId = pkt.player ∧
    (∀ d ∈ pkt.spawnD, (s r₀).maze.clientMap (s r₀).self =
      some ⟨⟨pkt.spawnX, pkt.spawnY⟩, d⟩) ∧
    ∀ r, r ≠ r₀ → (∃ o ∈ (s r).opponentList, o.client.player = pkt.player ∧
        o.added = false) ∧
      (s r).maze.clientMap ⟨pkt.player, 0⟩ = none ∧ pkt.spawnD ≠ none ∧
      Game.drawnDirection turns ⟨pkt.spawnX, pkt.spawnY⟩ (s r).maze = pkt.spawnD

/-- Every replica does the same for the packet. -/
def ActsAlike (turns : Nat) (s : Session R) (pkt : MazeWarPkt) : Prop :=
  (∀ r, (s r).Knows pkt.player) ∧
    (pkt.event = .fire → ∀ r r', Game.SamePick turns (s r).maze (s r').maze
      ((s r).maze.fireVictim ⟨pkt.player, 0⟩))

/-- One replica's player joins, which has not joined before. -/
def OneJoins (s : Session R) (step : R → Option GUIClient.Local) (r₀ : R) : Prop :=
  step r₀ = some .join ∧
    ∀ r, r ≠ r₀ → step r = none ∧ (s r).maze.clientMap (s r₀).self = none ∧
      ∀ o ∈ (s r).opponentList, o.client.player = (s r₀).playerId → o.added = false

/-- The threads of the projectiles make the same step everywhere. -/
def InTime (turns : Nat) (s : Session R) (step : R → Option GUIClient.Local) : Prop :=
  ∀ r r', step r = step r' ∧ step r ≠ some .join ∧
    (step r = some .nextProjectile →
      Game.SamePick turns (s r).maze (s r').maze (s r).maze.passVictim)

/-- What is asked of a step. -/
def Fits (act : Act R) (s : Session R) : Prop :=
  match act with
  | .deliver turns pkt =>
      (pkt.event = .spawn → s.New pkt) ∧
        (pkt.event = .coordinates → s.Added pkt ∨ ∃ r₀, s.Adds turns pkt r₀) ∧
        (pkt.event.acts = true → s.Settled ∧ s.ActsAlike turns pkt)
  | .alone turns step =>
      s.Settled ∧ (s.InTime turns step ∨ ∃ r₀, s.OneJoins step r₀)

def InStep (s : Session R) : Prop :=
  ∀ r r', (s r).maze.Drawn (s r').maze

/-- One replica's player has joined and the others have not added it. -/
structure Joining (s : Session R) (r₀ : R) (dp : DirectedPoint) : Prop where
  others : ∀ r r', r ≠ r₀ → r' ≠ r₀ → (s r).maze.Drawn (s r').maze
  ahead : ∀ r, r ≠ r₀ → ((s r).maze.joined (s r₀).self dp).Drawn (s r₀).maze
  unadded : ∀ r, r ≠ r₀ → ∀ o ∈ (s r).opponentList,
    o.client.player = (s r₀).playerId → o.added = false
  bounds : (s r₀).maze.checkBounds dp.toPoint = true

structure Agreeing (playerId : R → Int) (s : Session R) : Prop where
  ids : ∀ r, (s r).playerId = playerId r
  listed : ∀ r, (s r).Listed
  mazes : s.InStep ∨ ∃ r₀ dp, s.Joining r₀ dp

section Steps

variable {playerId : R → Int}

theorem Agreeing.inStep (hagreeing : Agreeing playerId s) (hsettled : s.Settled) :
    s.InStep := by
  rcases hagreeing.mazes with hinStep | ⟨r₀, dp, hjoining⟩
  · exact hinStep
  · -- Nobody has added the player that is joining, so there is nobody else.
    have halone : ∀ r, r = r₀ := by
      intro r
      by_contra hr
      have hregistered : (s r₀).maze.registered (s r₀).self = true := by
        rw [(hjoining.ahead r hr).registered_eq]
        exact Function.update_self ..
      obtain ⟨o, ho, hplayer, hadded⟩ := hsettled r₀ hregistered r hr
      rw [hjoining.unadded r hr o ho hplayer] at hadded
      cases hadded
    intro r r'
    rw [halone r, halone r']
    exact Game.Drawn.refl _

/-- A step that leaves every maze alone. -/
theorem Agreeing.same (hagreeing : Agreeing playerId s)
    (hids : ∀ r, (t r).playerId = (s r).playerId) (hlisted : ∀ r, (t r).Listed)
    (hmazes : ∀ r, (t r).maze = (s r).maze)
    (hadded : ∀ r, ∀ o ∈ (t r).opponentList, o.added = true → o ∈ (s r).opponentList) :
    Agreeing playerId t := by
  refine ⟨fun r => (hids r).trans (hagreeing.ids r), hlisted, ?_⟩
  rcases hagreeing.mazes with hinStep | ⟨r₀, dp, hjoining⟩
  · left
    intro r r'
    rw [hmazes, hmazes]
    exact hinStep r r'
  · right
    refine ⟨r₀, dp, ?_, ?_, ?_, ?_⟩
    · intro r r' hr hr'
      rw [hmazes, hmazes]
      exact hjoining.others r r' hr hr'
    · intro r hr
      have hself : (t r₀).self = (s r₀).self := by
        rw [GUIClient.self, hids]
        rfl
      rw [hmazes, hmazes, hself]
      exact hjoining.ahead r hr
    · intro r hr o ho hplayer
      cases hnot : o.added with
      | false => rfl
      | true =>
          rw [hids] at hplayer
          rw [hjoining.unadded r hr o (hadded r o ho hnot) hplayer] at hnot
          cases hnot
    · rw [hmazes]
      exact hjoining.bounds

theorem Agreeing.of_same (hagreeing : Agreeing playerId s)
    (hsame : ∀ r, (s r).Same (t r) ∧ (t r).maze = (s r).maze) : Agreeing playerId t := by
  refine hagreeing.same (fun r => (hsame r).1.playerId_eq)
    (fun r => (hsame r).1.listed (hagreeing.listed r)) (fun r => (hsame r).2) ?_
  intro r o ho _
  rw [(hsame r).1.opponentList_eq] at ho
  exact ho

theorem Agreeing.acts (hagreeing : Agreeing playerId s) (hacts : pkt.event.acts = true)
    (hsettled : s.Settled) (halike : s.ActsAlike turns pkt)
    (hdeliver : ∀ r, (s r).deliver turns pkt = some (t r)) : Agreeing playerId t := by
  have hinStep := hagreeing.inStep hsettled
  have heach (r : R) := GUIClient.deliver_acts (hagreeing.listed r) hacts (halike.1 r)
    (hdeliver r)
  refine ⟨fun r => (heach r).2.playerId_eq.trans (hagreeing.ids r),
    fun r => (heach r).2.listed (hagreeing.listed r), .inl ?_⟩
  intro r r'
  have htwin : Game.Twin (Game.act turns pkt.event ⟨pkt.player, 0⟩) (s r).maze (s r').maze :=
    Game.act_twin pkt.event (hinStep r r') fun hfire => halike.2 hfire r r'
  exact htwin.leaves (heach r).1 (heach r').1

/-- The packet is about the player that is joining. -/
theorem Agreeing.joiner (hagreeing : Agreeing playerId s)
    (hids : Function.Injective playerId) {r₀ r : R} (hadds : s.Adds turns pkt r₀)
    (hr : r ≠ r₀) : ∃ dp, s.Joining r₀ dp ∧
      pkt.spawnD = some dp.direction ∧ dp.toPoint = ⟨pkt.spawnX, pkt.spawnY⟩ := by
  obtain ⟨hplayer, hshown, hothers⟩ := hadds
  have hself : (s r₀).self = ⟨pkt.player, 0⟩ := by
    rw [GUIClient.self, hplayer]
  obtain ⟨_, hnone, hd, _⟩ := hothers r hr
  obtain ⟨d, hd⟩ := Option.ne_none_iff_exists'.mp hd
  have hat := hshown d hd
  rw [hself] at hat
  rcases hagreeing.mazes with hinStep | ⟨r₁, dp, hjoining⟩
  · rw [(hinStep r r₀).clientMap_eq, hnone] at hat
    cases hat
  · by_cases hsame : r₁ = r₀
    · subst hsame
      refine ⟨dp, hjoining, ?_⟩
      have hahead : (s r₁).maze.clientMap (s r₁).self = some dp := by
        rw [(hjoining.ahead r hr).clientMap_eq]
        exact Function.update_self ..
      rw [hself, hat] at hahead
      cases hahead
      exact ⟨hd, rfl⟩
    · -- Another player is joining, and its replica shows this one as well.
      obtain ⟨_, hnone₁, _⟩ := hothers r₁ hsame
      rw [(hjoining.ahead r₀ (Ne.symm hsame)).clientMap_eq] at hnone₁
      have hne : (⟨pkt.player, 0⟩ : Member) ≠ (s r₁).self := by
        intro heq
        have hid : pkt.player = (s r₁).playerId := congrArg Member.player heq
        rw [← hplayer, hagreeing.ids, hagreeing.ids] at hid
        exact hsame (hids hid).symm
      have hkeep := Function.update_of_ne hne (some dp) (s r₀).maze.clientMap
      have hnone' : (s r₀).maze.clientMap ⟨pkt.player, 0⟩ = none := hkeep.symm.trans hnone₁
      rw [hat] at hnone'
      cases hnone'

theorem Agreeing.adds (hagreeing : Agreeing playerId s)
    (hids : Function.Injective playerId) (hcoordinates : pkt.event = .coordinates)
    {r₀ : R} (hadds : s.Adds turns pkt r₀)
    (hdeliver : ∀ r, (s r).deliver turns pkt = some (t r)) : Agreeing playerId t := by
  have hplayer := hadds.1
  -- The replica of the player does nothing with its own packet.
  have hown : (s r₀).Same (t r₀) ∧ (t r₀).maze = (s r₀).maze := by
    refine GUIClient.deliver_known_coordinates hcoordinates ?_ (hdeliver r₀)
    intro o ho heq
    exact absurd (heq.trans hplayer.symm) ((hagreeing.listed r₀).others o ho)
  by_cases halone : ∀ r, r = r₀
  · refine hagreeing.of_same ?_
    intro r
    rw [halone r]
    exact hown
  · obtain ⟨r₁, hr₁⟩ := not_forall.mp halone
    obtain ⟨dp, hjoining, hspawnD, hpoint⟩ := hagreeing.joiner hids hadds hr₁
    have hself : (s r₀).self = ⟨pkt.player, 0⟩ := by
      rw [GUIClient.self, hplayer]
    have hadded (r : R) (hr : r ≠ r₀) : (t r).Listed ∧ (t r).playerId = (s r).playerId ∧
        ((s r).maze.joined (s r₀).self dp).Drawn (t r).maze := by
      obtain ⟨hknown, _, _, hdirection⟩ := hadds.2.2 r hr
      have hother : pkt.player ≠ (s r).playerId := by
        rw [← hplayer, hagreeing.ids, hagreeing.ids]
        intro heq
        exact hr (hids heq).symm
      have hbounds : (s r).maze.checkBounds ⟨pkt.spawnX, pkt.spawnY⟩ = true := by
        rw [← hpoint, ← hjoining.bounds, (hjoining.ahead r hr).checkBounds_eq]
        rfl
      obtain ⟨hlisted, hid, d, hdrawn, hjoined⟩ := GUIClient.deliver_coordinates hcoordinates
        (hagreeing.listed r) hother hknown hbounds (hdeliver r)
      refine ⟨hlisted, hid, ?_⟩
      have hd : d = dp.direction := by
        rw [hdirection, hspawnD] at hdrawn
        exact (Option.some.inj hdrawn).symm
      have hdp : dp = ⟨⟨pkt.spawnX, pkt.spawnY⟩, d⟩ := by
        rw [hd, ← hpoint]
      rw [hself, hdp]
      exact hjoined
    -- So every maze is the one of the player's own replica.
    have hall (r : R) : (s r₀).maze.Drawn (t r).maze := by
      by_cases hr : r = r₀
      · rw [hr, hown.2]
        exact Game.Drawn.refl _
      · exact (hjoining.ahead r hr).symm.trans (hadded r hr).2.2
    refine ⟨?_, ?_, .inl fun r r' => (hall r).symm.trans (hall r')⟩
    · intro r
      by_cases hr : r = r₀
      · rw [hr, hown.1.playerId_eq]
        exact hagreeing.ids r₀
      · rw [(hadded r hr).2.1]
        exact hagreeing.ids r
    · intro r
      by_cases hr : r = r₀
      · rw [hr]
        exact hown.1.listed (hagreeing.listed r₀)
      · exact (hadded r hr).1

theorem Agreeing.deliver (hagreeing : Agreeing playerId s)
    (hids : Function.Injective playerId) (hfits : Fits (.deliver turns pkt) s)
    (hdeliver : ∀ r, (s r).deliver turns pkt = some (t r)) : Agreeing playerId t := by
  obtain ⟨hnew, hcoordinates, hacts⟩ := hfits
  by_cases hevent : pkt.event.acts = true
  · obtain ⟨hsettled, halike⟩ := hacts hevent
    exact hagreeing.acts hevent hsettled halike hdeliver
  · have hquiet := Bool.eq_false_iff.mpr hevent
    by_cases hspawn : pkt.event = .spawn
    · have heach (r : R) := GUIClient.deliver_spawn hspawn (hagreeing.listed r)
        (hnew hspawn r) (hdeliver r)
      exact hagreeing.same (fun r => (heach r).2.1) (fun r => (heach r).1)
        (fun r => (heach r).2.2.1) fun r => (heach r).2.2.2
    · by_cases hplace : pkt.event = .coordinates
      · rcases hcoordinates hplace with hadded | ⟨r₀, hadds⟩
        · exact hagreeing.of_same fun r =>
            GUIClient.deliver_known_coordinates hplace (hadded r) (hdeliver r)
        · exact hagreeing.adds hids hplace hadds hdeliver
      · exact hagreeing.of_same fun r =>
          GUIClient.deliver_idle hquiet hspawn hplace (hdeliver r)

theorem Agreeing.joins (hagreeing : Agreeing playerId s) (hsettled : s.Settled)
    {step : R → Option GUIClient.Local} {r₀ : R} (hjoins : s.OneJoins step r₀)
    (hjoined : (s r₀).step turns .join = some (t r₀)) (hrest : ∀ r, r ≠ r₀ → t r = s r) :
    Agreeing playerId t := by
  have hinStep := hagreeing.inStep hsettled
  obtain ⟨hsame, hmaze⟩ := GUIClient.step_join hjoined
  have hself : (t r₀).self = (s r₀).self := by
    rw [GUIClient.self, hsame.playerId_eq]
    rfl
  refine ⟨?_, ?_, ?_⟩
  · intro r
    by_cases hr : r = r₀
    · rw [hr, hsame.playerId_eq]
      exact hagreeing.ids r₀
    · rw [hrest r hr]
      exact hagreeing.ids r
  · intro r
    by_cases hr : r = r₀
    · rw [hr]
      exact hsame.listed (hagreeing.listed r₀)
    · rw [hrest r hr]
      exact hagreeing.listed r
  · rcases hmaze with hdrawn | ⟨dp, hbounds, hdrawn⟩
    · left
      have hall (r : R) : (s r₀).maze.Drawn (t r).maze := by
        by_cases hr : r = r₀
        · rw [hr]
          exact hdrawn
        · rw [hrest r hr]
          exact hinStep r₀ r
      exact fun r r' => (hall r).symm.trans (hall r')
    · right
      refine ⟨r₀, dp, ?_, ?_, ?_, ?_⟩
      · intro r r' hr hr'
        rw [hrest r hr, hrest r' hr']
        exact hinStep r r'
      · intro r hr
        rw [hrest r hr, hself]
        exact (Game.joined_drawn (hinStep r r₀) _ dp).trans hdrawn
      · intro r hr o ho hplayer
        rw [hrest r hr] at ho
        rw [hsame.playerId_eq] at hplayer
        exact (hjoins.2 r hr).2.2 o ho hplayer
      · rw [hdrawn.checkBounds_eq]
        exact hbounds

theorem Agreeing.alone (hagreeing : Agreeing playerId s)
    {step : R → Option GUIClient.Local} (hfits : Fits (.alone turns step) s)
    (hstep : ∀ r, (match step r with
      | some act => (s r).step turns act
      | none => some (s r)) = some (t r)) : Agreeing playerId t := by
  obtain ⟨hsettled, hin | ⟨r₀, hjoins⟩⟩ := hfits
  · have heach (r : R) : (s r).Same (t r) := by
      have hr := hstep r
      cases hact : step r with
      | none =>
          rw [hact] at hr
          rw [← Option.some.inj hr]
          exact ⟨rfl, rfl⟩
      | some act =>
          rw [hact] at hr
          refine GUIClient.step_thread_same ?_ hr
          rintro rfl
          exact (hin r r).2.1 hact
    refine ⟨fun r => (heach r).playerId_eq.trans (hagreeing.ids r),
      fun r => (heach r).listed (hagreeing.listed r), .inl ?_⟩
    intro r r'
    have hdrawn := hagreeing.inStep hsettled r r'
    have hr := hstep r
    have hr' := hstep r'
    obtain ⟨hsame, hthread, hpick⟩ := hin r r'
    rw [← hsame] at hr'
    cases hact : step r with
    | none =>
        rw [hact] at hr hr'
        rw [← Option.some.inj hr, ← Option.some.inj hr']
        exact hdrawn
    | some act =>
        rw [hact] at hr hr' hthread hpick
        refine GUIClient.step_thread ?_ hdrawn ?_ hr hr'
        · rintro rfl
          exact hthread rfl
        · rintro rfl
          exact hpick rfl
  · have hfirst := hstep r₀
    rw [hjoins.1] at hfirst
    refine hagreeing.joins hsettled hjoins hfirst ?_
    intro r hr
    have hrest := hstep r
    rw [(hjoins.2 r hr).1] at hrest
    exact (Option.some.inj hrest).symm

end Steps

section Runs

variable [Fintype R] {playerId : R → Int}

theorem run_agreeing (act : Act R) (hids : Function.Injective playerId)
    (hagreeing : Agreeing playerId s) (hfits : Fits act s) (hrun : run act s = some t) :
    Agreeing playerId t := by
  cases act with
  | deliver turns pkt =>
      exact hagreeing.deliver hids hfits (together_eq_some_iff.mp hrun)
  | alone turns step => exact hagreeing.alone hfits (together_eq_some_iff.mp hrun)

omit [Fintype R] in
theorem start_agreeing (m : MazeImpl) (playerId : R → Int) (name : R → Option String)
    (directions : R → Nat → Direction) :
    Agreeing playerId (start m playerId name directions) := by
  refine ⟨fun _ => rfl, ?_, .inl fun r r' => ⟨m.draws, directions r', rfl⟩⟩
  intro r
  refine ⟨?_, ?_, List.nodup_nil⟩
  · intro o ho
    cases ho
  · intro o ho
    cases ho

/-- In a run in which the replicas draw what the packets say, and the threads of
the projectiles keep time, all show the same players when all joins are
complete. -/
theorem replicas_agree (m : MazeImpl) (playerId : R → Int) (name : R → Option String)
    (directions : R → Nat → Direction) (hids : Function.Injective playerId)
    (hruns : Runs run Fits (start m playerId name directions) s) (hsettled : s.Settled)
    (r r' : R) (player : Int) (dp : DirectedPoint) :
    (s r).Shows player dp ↔ (s r').Shows player dp := by
  have hagreeing : Agreeing playerId s := by
    refine hruns.preserves ?_ (start_agreeing m playerId name directions)
    intro act s t hs hfits hrun
    exact run_agreeing act hids hs hfits hrun
  rw [GUIClient.Shows, GUIClient.Shows, (hagreeing.inStep hsettled r r').clientMap_eq]

end Runs

section Instances

variable [Fintype R] [DecidableEq R]

instance (s : Session R) : Decidable s.Settled := by
  unfold Settled
  infer_instance

instance (s : Session R) (pkt : MazeWarPkt) : Decidable (s.New pkt) := by
  unfold New
  infer_instance

instance (s : Session R) (pkt : MazeWarPkt) : Decidable (s.Added pkt) := by
  unfold Added
  infer_instance

instance (turns : Nat) (s : Session R) (pkt : MazeWarPkt) (r₀ : R) :
    Decidable (s.Adds turns pkt r₀) := by
  unfold Adds
  infer_instance

instance {Client : Type} [DecidableEq Client] (turns : Nat) (g h : Game Client)
    (victim : Option Client) : Decidable (Game.SamePick turns g h victim) := by
  unfold Game.SamePick
  infer_instance

instance (r : GUIClient) (player : Int) : Decidable (r.Knows player) := by
  unfold GUIClient.Knows
  infer_instance

instance (turns : Nat) (s : Session R) (pkt : MazeWarPkt) :
    Decidable (s.ActsAlike turns pkt) := by
  unfold ActsAlike
  infer_instance

instance (s : Session R) (step : R → Option GUIClient.Local) (r₀ : R) :
    Decidable (s.OneJoins step r₀) := by
  unfold OneJoins
  infer_instance

instance (turns : Nat) (s : Session R) (step : R → Option GUIClient.Local) :
    Decidable (s.InTime turns step) := by
  unfold InTime
  infer_instance

instance : ∀ (act : Act R) (s : Session R), Decidable (Fits act s)
  | .deliver _ _, _ => inferInstanceAs (Decidable (_ ∧ _ ∧ _))
  | .alone _ _, _ => inferInstanceAs (Decidable (_ ∧ (_ ∨ _)))

end Instances

/-- Three cells in a row, and two replicas that face one way first. -/
private def corridor (first : Fin 2 → Direction) : Session (Fin 2) :=
  let fresh := MazeImpl.fresh 3 1 fun n => n / 2
  start ((MazeImpl.construct fresh).stateD fresh) (fun r => (r.val : Int) + 1)
    (fun _ => none) fun r n => if n % 2 = 0 then first r else (first r).invert

private def joinOf (r₀ : Fin 2) : Fin 2 → Option GUIClient.Local :=
  fun r => if r = r₀ then some .join else none

private def plain (event : Event) (player : Int) : MazeWarPkt :=
  { event := event, player := player, playerName := none }

/-- Both players join, one after the other, in the places that their own
replicas have drawn. -/
private def bothJoin : List (Act (Fin 2)) :=
  [.deliver 9 (plain .spawn 1), .deliver 9 (plain .spawn 2), .alone 9 (joinOf 0),
    .deliver 9 { plain .coordinates 1 with spawnX := 1, spawnD := some .east },
    .alone 9 (joinOf 1),
    .deliver 9 { plain .coordinates 2 with spawnX := 2, spawnD := some .west }]

private def bothMove : List (Act (Fin 2)) :=
  bothJoin ++ [.deliver 9 (plain .backward 1), .deliver 9 (plain .left 2),
    .deliver 9 (plain .clientListReq 1)]

theorem replicas_agree_after_moves :
    (runAll run bothMove (corridor fun _ => .east) 1).maze.clientMap ⟨1, 0⟩ =
        some ⟨⟨0, 0⟩, .east⟩ ∧
      ∀ r r' player dp, (runAll run bothMove (corridor fun _ => .east) r).Shows player dp ↔
        (runAll run bothMove (corridor fun _ => .east) r').Shows player dp :=
  ⟨by decide +kernel,
    replicas_agree _ _ _ _ (by decide)
      (runs_runAll bothMove (corridor fun _ => .east) (by decide +kernel))
      (by decide +kernel)⟩

/-- A packet that introduces a player or brings its coordinates for the first
time, or players that join. -/
def Joins (act : Act R) (s : Session R) : Prop :=
  match act with
  | .deliver _ pkt =>
      (pkt.event = .spawn ∧ s.New pkt) ∨ (pkt.event = .coordinates ∧
        ∀ r, pkt.player = (s r).playerId ∨
          (pkt.player ≠ (s r).playerId ∧
            (∃ o ∈ (s r).opponentList, o.client.player = pkt.player ∧ o.added = false) ∧
            (s r).maze.checkBounds ⟨pkt.spawnX, pkt.spawnY⟩ = true))
  | .alone _ step => ∀ r, step r = none ∨ step r = some .join

instance [Fintype R] : ∀ (act : Act R) (s : Session R), Decidable (Joins act s)
  | .deliver _ _, _ => inferInstanceAs (Decidable (_ ∧ _ ∨ _ ∧ _))
  | .alone _ _, _ => inferInstanceAs (Decidable (∀ _, _ ∨ _))

/-- Only the first object of a player comes into the maze. -/
structure FirstOnly (r : GUIClient) : Prop where
  listed : r.Listed
  none_of_serial : ∀ client, client.serial ≠ 0 → r.maze.clientMap client = none

theorem FirstOnly.joined {r next : GUIClient} (hfirst : FirstOnly r) (hlisted : next.Listed)
    {client : Member} (hclient : client.serial = 0)
    (hdrawn : (r.maze.joined client dp).Drawn next.maze) : FirstOnly next := by
  refine ⟨hlisted, ?_⟩
  intro other hother
  have hne : other ≠ client := by
    rintro rfl
    exact hother hclient
  rw [hdrawn.clientMap_eq]
  exact (Function.update_of_ne hne _ _).trans (hfirst.none_of_serial other hother)

theorem FirstOnly.same {r next : GUIClient} (hfirst : FirstOnly r) (hlisted : next.Listed)
    (hmaze : next.maze = r.maze) : FirstOnly next := by
  refine ⟨hlisted, ?_⟩
  rw [hmaze]
  exact hfirst.none_of_serial

theorem run_firstOnly [Fintype R] (act : Act R) (hfirst : ∀ r, FirstOnly (s r))
    (hjoins : Joins act s) (hrun : run act s = some t) (r : R) : FirstOnly (t r) := by
  cases act with
  | deliver turns pkt =>
      have hdeliver := together_eq_some_iff.mp hrun r
      rcases hjoins with ⟨hspawn, hnew⟩ | ⟨hcoordinates, hplayer⟩
      · have hr := GUIClient.deliver_spawn hspawn (hfirst r).listed (hnew r) hdeliver
        exact (hfirst r).same hr.1 hr.2.2.1
      · rcases hplayer r with hown | ⟨hother, hknown, hbounds⟩
        · have hr := GUIClient.deliver_known_coordinates hcoordinates
            (fun o ho heq => absurd (heq.trans hown) ((hfirst r).listed.others o ho)) hdeliver
          exact (hfirst r).same (hr.1.listed (hfirst r).listed) hr.2
        · obtain ⟨hlisted, _, d, _, hdrawn⟩ := GUIClient.deliver_coordinates hcoordinates
            (hfirst r).listed hother hknown hbounds hdeliver
          exact (hfirst r).joined hlisted rfl hdrawn
  | alone turns step =>
      have hstep := together_eq_some_iff.mp hrun r
      rcases hjoins r with hnone | hjoin
      · rw [hnone] at hstep
        rw [← Option.some.inj hstep]
        exact hfirst r
      · rw [hjoin] at hstep
        obtain ⟨hsame, hdrawn | ⟨dp, _, hdrawn⟩⟩ := GUIClient.step_join hstep
        · refine ⟨hsame.listed (hfirst r).listed, ?_⟩
          rw [hdrawn.clientMap_eq]
          exact (hfirst r).none_of_serial
        · exact (hfirst r).joined (hsame.listed (hfirst r).listed) rfl hdrawn

/-- The direction in the packet is not used: the second replica shows the first
player facing the other way. -/
theorem replicas_drift_at_join :
    ¬∀ (m : MazeImpl) (playerId : Fin 2 → Int) (name : Fin 2 → Option String)
      (directions : Fin 2 → Nat → Direction) (s : Session (Fin 2)),
      Function.Injective playerId →
      Runs run (fun _ _ => True) (start m playerId name directions) s → s.Settled →
      ∀ r r' player dp, (s r).Shows player dp ↔ (s r').Shows player dp := by
  intro hall
  let first : Fin 2 → Direction := fun r => if r = 0 then .east else .west
  have hagree := hall _ _ _ _ _ (by decide)
    (runs_runAll_free bothJoin (corridor first)) (by decide +kernel)
  have hown : (runAll run bothJoin (corridor first) 0).Shows 1 ⟨⟨1, 0⟩, .east⟩ :=
    ⟨⟨1, 0⟩, rfl, by decide +kernel⟩
  let inv : Session (Fin 2) → Prop := fun s => ∀ r, FirstOnly (s r)
  have hfirst : inv (runAll run bothJoin (corridor first)) := by
    refine (runs_runAll bothJoin (corridor first)
      (by decide +kernel : allMeet run Joins bothJoin (corridor first) = true)).preserves ?_ ?_
    · intro act s t hs hjoins hrun
      exact run_firstOnly act hs hjoins hrun
    · intro r
      have hlisted : (corridor first r).Listed := by
        refine ⟨?_, ?_, List.nodup_nil⟩
        · intro o ho
          cases ho
        · intro o ho
          cases ho
      exact ⟨hlisted, fun _ _ => rfl⟩
  obtain ⟨⟨player, serial⟩, hplayer, hat⟩ := (hagree 0 1 1 _).mp hown
  dsimp only at hplayer
  subst hplayer
  cases serial with
  | zero =>
      have hother : (runAll run bothJoin (corridor first) 1).maze.clientMap ⟨1, 0⟩ =
          some ⟨⟨1, 0⟩, .west⟩ := by decide +kernel
      rw [hother] at hat
      cases hat
  | succ serial =>
      have hnone := (hfirst 1).none_of_serial ⟨1, serial + 1⟩ (Nat.succ_ne_zero serial)
      rw [hnone] at hat
      cases hat

end Session

end OS161.Mazewar
