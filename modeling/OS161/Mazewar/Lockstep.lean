import OS161.Mazewar.Occupancy
import OS161.Mazewar.Replica

namespace OS161.Mazewar

open OS161.Data

/-! What two mazes do that differ only in what their generators will give. -/

namespace Game

section Reads

variable {Client : Type} {g h : Game Client} {c : Client}

abbrev Twin (body : Op Client α) (g h : Game Client) : Prop :=
  Prog.Related Drawn body body g h

theorem Drawn.clientMap_eq (hdrawn : g.Drawn h) : h.clientMap = g.clientMap := by
  obtain ⟨draws, directions, rfl⟩ := hdrawn
  rfl

theorem Drawn.checkBounds_eq (hdrawn : g.Drawn h) (p : Point) :
    h.checkBounds p = g.checkBounds p := by
  obtain ⟨draws, directions, rfl⟩ := hdrawn
  rfl

theorem Drawn.pass_eq (hdrawn : g.Drawn h) : h.pass = g.pass := by
  obtain ⟨draws, directions, rfl⟩ := hdrawn
  rfl

theorem Drawn.registered_eq (hdrawn : g.Drawn h) : h.registered = g.registered := by
  obtain ⟨draws, directions, rfl⟩ := hdrawn
  rfl

theorem Drawn.symm (hdrawn : g.Drawn h) : h.Drawn g := by
  obtain ⟨draws, directions, rfl⟩ := hdrawn
  exact ⟨g.draws, g.directions, rfl⟩

theorem getClientPoint_bind (rest : DirectedPoint → Op Client α) (g : Game Client) :
    (getClientPoint c >>= rest) g =
      match g.clientMap c with
      | some dp => rest dp g
      | none => .error .nullPointer g := by
  cases hat : g.clientMap c with
  | none => simp [getClientPoint, notNull, hat, Bind.bind, Prog.andThen, Prog.get, Prog.fail]
  | some dp =>
      simp [getClientPoint, notNull, hat, Bind.bind, Prog.andThen, Prog.get, pure, Prog.ret]

theorem getCellImpl_bind (p : Point) (rest : Point → Op Client α) (g : Game Client) :
    (getCellImpl p >>= rest) g =
      if g.checkBounds p = true then rest p g else .error .arrayIndexOutOfBounds g := by
  by_cases hbounds : g.checkBounds p = true
  · simp [getCellImpl, hbounds, Bind.bind, Prog.andThen, Prog.get, pure, Prog.ret]
  · simp [getCellImpl, hbounds, Bind.bind, Prog.andThen, Prog.get, Prog.fail]

theorem Twin.getClientPoint {rest : DirectedPoint → Op Client α} (hdrawn : g.Drawn h)
    (hrest : ∀ dp, g.clientMap c = some dp → Twin (rest dp) g h) :
    Twin (Game.getClientPoint c >>= rest) g h := by
  rw [Twin, Prog.Related, getClientPoint_bind, getClientPoint_bind, hdrawn.clientMap_eq]
  cases hat : g.clientMap c with
  | none => exact .error _ hdrawn
  | some dp => exact hrest dp hat

theorem Twin.getCellImpl {p : Point} {rest : Point → Op Client α} (hdrawn : g.Drawn h)
    (hrest : g.checkBounds p = true → Twin (rest p) g h) :
    Twin (Game.getCellImpl p >>= rest) g h := by
  rw [Twin, Prog.Related, getCellImpl_bind, getCellImpl_bind, hdrawn.checkBounds_eq]
  split
  case isTrue hbounds => exact hrest hbounds
  case isFalse => exact .error _ hdrawn

theorem Twin.isWall {cell : Point} {d : Direction} {rest : Bool → Op Client α}
    (hdrawn : g.Drawn h) (hrest : Twin (rest (g.toMazeImpl.isWall cell d)) g h) :
    Twin (Game.isWall cell d >>= rest) g h := by
  obtain ⟨draws, directions, rfl⟩ := hdrawn
  exact hrest

theorem Twin.getContents {cell : Point} {rest : Option (Contents Client) → Op Client α}
    (hdrawn : g.Drawn h) (hrest : Twin (rest (g.contents cell)) g h) :
    Twin (Game.getContents cell >>= rest) g h := by
  obtain ⟨draws, directions, rfl⟩ := hdrawn
  exact hrest

theorem setPass_twin (hdrawn : g.Drawn h) (pass : Pass Client) :
    Twin (setPass pass) g h := by
  obtain ⟨draws, directions, rfl⟩ := hdrawn
  exact .ok () ⟨draws, directions, rfl⟩

end Reads

section Calls

variable {Client : Type} [DecidableEq Client] {g h : Game Client} {c : Client}

theorem moveClient_twin (d : Direction) (hdrawn : g.Drawn h) :
    Twin (moveClient c d) g h := by
  refine Twin.getClientPoint hdrawn ?_
  intro oldPoint _
  refine Twin.getCellImpl hdrawn ?_
  intro _
  refine Twin.isWall hdrawn ?_
  refine Prog.Related.ite Iff.rfl ?_ ?_
  · intro _
    obtain ⟨draws, directions, rfl⟩ := hdrawn
    exact .ok false ⟨draws, directions, rfl⟩
  · intro _
    rw [getClientOrientation, Prog.andThen_assoc]
    refine Twin.getClientPoint hdrawn ?_
    intro dp _
    refine Twin.getCellImpl hdrawn ?_
    intro _
    refine Twin.getContents hdrawn ?_
    refine Prog.Related.ite Iff.rfl ?_ ?_
    · intro _
      obtain ⟨draws, directions, rfl⟩ := hdrawn
      exact .ok false ⟨draws, directions, rfl⟩
    · intro _
      obtain ⟨draws, directions, rfl⟩ := hdrawn
      exact .ok true ⟨draws, directions, rfl⟩

theorem rotateClient_twin (turn : Direction → Direction) (hdrawn : g.Drawn h) :
    Twin (rotateClient turn c) g h := by
  refine Twin.getClientPoint hdrawn ?_
  intro dp _
  obtain ⟨draws, directions, rfl⟩ := hdrawn
  exact .ok () ⟨draws, directions, rfl⟩

/-- Where the client comes back: the first draws that will do. -/
def pick (turns : Nat) (g : Game Client) : Option DirectedPoint :=
  match emptyPoint turns g with
  | .ok point mid =>
      match openDirection point turns mid with
      | .ok d _ => some ⟨point, d⟩
      | .error _ _ => none
      | .panic _ => none
  | .error _ _ => none
  | .panic _ => none

/-- `killClient` when it has taken the client out. -/
def without (g : Game Client) (client : Client) : Game Client :=
  match g.clientMap client with
  | some dp =>
      { g with
        contents := Function.update g.contents dp.toPoint none
        clientMap := Function.update g.clientMap client none }
  | none => g

theorem without_drawn (hdrawn : g.Drawn h) (client : Client) :
    (g.without client).Drawn (h.without client) := by
  obtain ⟨draws, directions, rfl⟩ := hdrawn
  rw [without, without]
  cases g.clientMap client with
  | none => exact ⟨draws, directions, rfl⟩
  | some dp => exact ⟨draws, directions, rfl⟩

/-- The client comes back where the generators say. -/
theorem respawn_of_pick {dp : DirectedPoint} (hpick : pick turns g = some dp) (c : Client) :
    ∃ next, respawn turns c g = .ok () next ∧ (g.placed c dp).Drawn next := by
  have hpoint := emptyPoint_wp turns g
  rw [pick] at hpick
  cases hempty : emptyPoint turns g with
  | error thrown mid =>
      rw [hempty] at hpick
      cases hpick
  | panic trouble =>
      rw [hempty] at hpick
      cases hpick
  | ok point mid =>
      rw [hempty] at hpick
      obtain ⟨_, hbounds, hmid⟩ := hpoint.post_of_ok hempty
      have hopen := openDirection_wp point turns mid
      dsimp only at hpick
      cases hdirection : openDirection point turns mid with
      | error thrown last =>
          rw [hdirection] at hpick
          cases hpick
      | panic trouble =>
          rw [hdirection] at hpick
          cases hpick
      | ok d last =>
          rw [hdirection] at hpick
          cases hpick
          have hlast := hmid.trans (hopen.post_of_ok hdirection)
          have hinside : mid.checkBounds point = true := by
            rw [hmid.checkBounds_eq]
            exact hbounds
          refine ⟨last.placed c ⟨point, d⟩, ?_, ?_⟩
          · rw [respawn, Prog.bind_eq_ok_iff]
            refine ⟨point, mid, hempty, ?_⟩
            rw [getCellImpl_bind, if_pos hinside, Prog.bind_eq_ok_iff]
            exact ⟨d, last, hdirection, rfl⟩
          · obtain ⟨draws, directions, rfl⟩ := hlast
            exact ⟨draws, directions, rfl⟩

theorem placed_drawn (hdrawn : g.Drawn h) (client : Client) (dp : DirectedPoint) :
    (g.placed client dp).Drawn (h.placed client dp) := by
  obtain ⟨draws, directions, rfl⟩ := hdrawn
  exact ⟨draws, directions, rfl⟩

/-- If the client dies, both generators bring it back at the same point, with
the same orientation. -/
def SamePick (turns : Nat) (g h : Game Client) (victim : Option Client) : Prop :=
  ∀ v ∈ victim, pick turns (g.without v) ≠ none ∧
    pick turns (h.without v) = pick turns (g.without v)

theorem respawn_twin (hdrawn : g.Drawn h) {dp : DirectedPoint}
    (hpick : pick turns g = some dp) (hpick' : pick turns h = some dp) :
    Twin (respawn turns c) g h := by
  obtain ⟨next, hrun, hnext⟩ := respawn_of_pick hpick c
  obtain ⟨next', hrun', hnext'⟩ := respawn_of_pick hpick' c
  rw [Twin, Prog.Related, hrun, hrun']
  exact .ok () ((hnext.symm.trans (placed_drawn hdrawn c dp)).trans hnext')

theorem killClient_eq (turns : Nat) {dp : DirectedPoint} (hat : g.clientMap c = some dp) :
    killClient turns c g =
      if g.checkBounds dp.toPoint = true then
        respawn turns c (g.without c)
      else
        .error .arrayIndexOutOfBounds
          { g with clientMap := Function.update g.clientMap c none } := by
  rw [killClient, getClientPoint_bind, hat]
  dsimp only
  have hdrop (rest : Unit → Op Client Unit) : (dropClient c >>= rest) g =
      rest () { g with clientMap := Function.update g.clientMap c none } := rfl
  rw [hdrop, getCellImpl_bind, without, hat]
  rfl

theorem killClient_twin (hdrawn : g.Drawn h) (hpick : SamePick turns g h (some c)) :
    Twin (killClient turns c) g h := by
  obtain ⟨hsome, hsame⟩ := hpick c rfl
  obtain ⟨back, hback⟩ := Option.ne_none_iff_exists'.mp hsome
  rw [hback] at hsame
  cases hat : g.clientMap c with
  | none =>
      rw [Twin, Prog.Related, killClient, getClientPoint_bind, getClientPoint_bind,
        hdrawn.clientMap_eq, hat]
      exact .error _ hdrawn
  | some dp =>
      have hat' : h.clientMap c = some dp := by
        rw [hdrawn.clientMap_eq]
        exact hat
      rw [Twin, Prog.Related, killClient_eq turns hat, killClient_eq turns hat',
        hdrawn.checkBounds_eq]
      split
      case isTrue => exact respawn_twin (without_drawn hdrawn c) hback hsame
      case isFalse =>
        obtain ⟨draws, directions, rfl⟩ := hdrawn
        exact .error _ ⟨draws, directions, rfl⟩

/-- The client in the next cell, unless there is a wall. -/
def ahead (g : Game Client) (dp : DirectedPoint) : Option Client :=
  if g.toMazeImpl.isWall dp.toPoint dp.direction = true then
    none
  else
    match g.contents (dp.move dp.direction) with
    | some (.client client) => some client
    | _ => none

def fireVictim (g : Game Client) (client : Client) : Option Client :=
  (g.clientMap client).bind g.ahead

def passVictim (g : Game Client) : Option Client :=
  g.pass.next.bind fun prj => (g.projectileMap.lookup prj).bind g.ahead

omit [DecidableEq Client] in
theorem ahead_eq_some {dp : DirectedPoint} {target : Client}
    (hwall : ¬g.toMazeImpl.isWall dp.toPoint dp.direction = true)
    (hheld : g.contents (dp.move dp.direction) = some (.client target)) :
    g.ahead dp = some target := by
  rw [ahead, if_neg hwall, hheld]

theorem launch_twin (hdrawn : g.Drawn h) (point : DirectedPoint) :
    Twin (launch c point) g h := by
  obtain ⟨draws, directions, rfl⟩ := hdrawn
  exact .ok () ⟨draws, directions, rfl⟩

theorem clientFire_twin (hdrawn : g.Drawn h) (hpick : SamePick turns g h (g.fireVictim c)) :
    Twin (clientFire turns c) g h := by
  have hfired : h.clientFired = g.clientFired := by
    obtain ⟨draws, directions, rfl⟩ := hdrawn
    rfl
  refine Prog.Related.get_bind ?_
  rw [hfired]
  refine Prog.Related.ite Iff.rfl (fun _ => .pure _ hdrawn) ?_
  intro _
  refine Twin.getClientPoint hdrawn ?_
  intro dp hat
  rw [getClientOrientation, Prog.andThen_assoc]
  refine Twin.getClientPoint hdrawn ?_
  intro dp' hat'
  have hdp : dp' = dp := by
    rw [hat] at hat'
    exact (Option.some.inj hat').symm
  subst hdp
  refine Twin.getCellImpl hdrawn ?_
  intro _
  refine Twin.isWall hdrawn ?_
  refine Prog.Related.ite Iff.rfl (fun _ => .pure _ hdrawn) ?_
  intro hwall
  refine Twin.getCellImpl hdrawn ?_
  intro _
  refine Twin.getContents hdrawn ?_
  dsimp only
  split
  case h_1 target hheld =>
    have hvictim : g.fireVictim c = some target := by
      rw [fireVictim, hat]
      exact ahead_eq_some hwall hheld
    rw [hvictim] at hpick
    refine Prog.Related.bind (killClient_twin hdrawn hpick) ?_
    intro _ next next' _ hnext
    exact .pure true hnext
  case h_2 => exact .pure false hdrawn
  case h_3 =>
    refine Prog.Related.bind (launch_twin hdrawn _) ?_
    intro _ next next' _ hnext
    exact .pure true hnext

theorem moveProjectile_twin {prj : Projectile Client} (hdrawn : g.Drawn h)
    (hpick : SamePick turns g h ((g.projectileMap.lookup prj).bind g.ahead)) :
    Twin (moveProjectile turns prj) g h := by
  have hmap : h.projectileMap = g.projectileMap := by
    obtain ⟨draws, directions, rfl⟩ := hdrawn
    rfl
  refine Prog.Related.get_bind ?_
  rw [hmap]
  cases hdp : g.projectileMap.lookup prj with
  | none => exact .error _ hdrawn
  | some dp =>
    rw [hdp] at hpick
    refine Prog.Related.pure_bind dp ?_
    refine Twin.getCellImpl hdrawn ?_
    intro _
    refine Twin.isWall hdrawn ?_
    refine Prog.Related.ite Iff.rfl ?_ ?_
    · intro _
      obtain ⟨draws, directions, rfl⟩ := hdrawn
      exact .ok _ ⟨draws, directions, rfl⟩
    intro hwall
    refine Twin.getCellImpl hdrawn ?_
    intro _
    refine Twin.getContents hdrawn ?_
    dsimp only
    split
    case h_1 target hheld =>
      have hvictim : (some dp).bind g.ahead = some target := ahead_eq_some hwall hheld
      rw [hvictim] at hpick
      refine Prog.Related.bind (killClient_twin hdrawn hpick) ?_
      intro _ next next' _ hnext
      obtain ⟨draws, directions, rfl⟩ := hnext
      exact .ok _ ⟨draws, directions, rfl⟩
    case h_2 =>
      obtain ⟨draws, directions, rfl⟩ := hdrawn
      exact .ok _ ⟨draws, directions, rfl⟩
    case h_3 =>
      obtain ⟨draws, directions, rfl⟩ := hdrawn
      exact .ok _ ⟨draws, directions, rfl⟩

theorem nextProjectile_twin (hdrawn : g.Drawn h) (hpick : SamePick turns g h g.passVictim) :
    Twin (nextProjectile turns) g h := by
  refine Prog.Related.get_bind ?_
  rw [hdrawn.pass_eq]
  split
  case h_1 => exact setPass_twin hdrawn _
  case h_2 => exact setPass_twin hdrawn _
  case h_3 prj rest deadPrj hpass =>
    have hvictim : g.passVictim = (g.projectileMap.lookup prj).bind g.ahead := by
      rw [passVictim, hpass]
      rfl
    rw [hvictim] at hpick
    refine Prog.Related.bind (moveProjectile_twin hdrawn hpick).attempt ?_
    intro moved next next' _ hnext
    cases moved with
    | ok dead => exact setPass_twin hnext _
    | error thrown => exact setPass_twin hnext _
  case h_4 => exact .pure () hdrawn

theorem removeDead_twin (hdrawn : g.Drawn h) : Twin removeDead g h := by
  refine Prog.Related.get_bind ?_
  rw [hdrawn.pass_eq]
  split
  case h_1 => exact setPass_twin hdrawn _
  case h_2 =>
    obtain ⟨draws, directions, rfl⟩ := hdrawn
    exact .ok () ⟨draws, directions, rfl⟩
  case h_3 => exact .pure () hdrawn

theorem startPass_twin (hdrawn : g.Drawn h) (order : List (Projectile Client)) :
    Twin (startPass order) g h := by
  obtain ⟨draws, directions, rfl⟩ := hdrawn
  refine Prog.Related.get_bind (Prog.Related.ite Iff.rfl ?_ ?_)
  · intro _
    exact .ok () ⟨draws, directions, rfl⟩
  · intro _
    exact .ok () ⟨draws, directions, rfl⟩

omit [DecidableEq Client] in
theorem inMaze_twin {body : Op Client Bool} (hdrawn : g.Drawn h) (hbody : Twin body g h) :
    Twin (inMaze body c) g h := by
  refine Prog.Related.get_bind ?_
  rw [hdrawn.registered_eq]
  refine Prog.Related.ite Iff.rfl ?_ (fun _ => .fail _ hdrawn)
  intro _
  refine Prog.Related.bind hbody ?_
  intro _ next next' _ hnext
  exact .pure () hnext

omit [DecidableEq Client] in
theorem clientUpdate_twin {rotate : Client → Op Client Unit} (hdrawn : g.Drawn h)
    (hrotate : Twin (rotate c) g h) : Twin (clientUpdate rotate c) g h := by
  refine Prog.Related.get_bind ?_
  rw [hdrawn.registered_eq]
  exact Prog.Related.ite Iff.rfl (fun _ => hrotate) (fun _ => .pure () hdrawn)

/-- What a packet makes a client do is the same in both mazes. -/
theorem act_twin (event : Event) (hdrawn : g.Drawn h)
    (hpick : event = .fire → SamePick turns g h (g.fireVictim c)) :
    Twin (act turns event c) g h := by
  cases event with
  | forward =>
      refine inMaze_twin hdrawn (Twin.getClientPoint hdrawn ?_)
      intro dp _
      exact moveClient_twin dp.direction hdrawn
  | backward =>
      refine inMaze_twin hdrawn (Twin.getClientPoint hdrawn ?_)
      intro dp _
      exact moveClient_twin dp.direction.invert hdrawn
  | left => exact clientUpdate_twin hdrawn (rotateClient_twin Direction.turnLeft hdrawn)
  | right => exact clientUpdate_twin hdrawn (rotateClient_twin Direction.turnRight hdrawn)
  | fire => exact inMaze_twin hdrawn (clientFire_twin hdrawn (hpick rfl))
  | coordinates => exact .pure () hdrawn
  | clientListReq => exact .pure () hdrawn
  | clientListResp => exact .pure () hdrawn
  | quit => exact .pure () hdrawn
  | spawn => exact .pure () hdrawn
  | tick => exact .pure () hdrawn

theorem joined_drawn (hdrawn : g.Drawn h) (client : Client) (dp : DirectedPoint) :
    (g.joined client dp).Drawn (h.joined client dp) := by
  obtain ⟨draws, directions, rfl⟩ := hdrawn
  exact ⟨draws, directions, rfl⟩

end Calls

end Game

end OS161.Mazewar
