import OS161.Mazewar.Game

namespace OS161.Mazewar

open OS161.Data

/-! What the calls can do to the clients that are in the maze, and to a
projectile that moves. -/

theorem Point.move_ne (p : Point) (d : Direction) : p.move d ≠ p := by
  cases d <;> simp [Point.move, Point.ext_iff]

namespace Game

/-- Only what the generators will give may differ. -/
def Drawn (g next : Game Client) : Prop :=
  ∃ draws directions, next = { g with draws := draws, directions := directions }

section Draws

variable {Client : Type} {g mid next : Game Client}

theorem Drawn.refl (g : Game Client) : g.Drawn g := ⟨g.draws, g.directions, rfl⟩

theorem Drawn.trans (hfirst : g.Drawn mid) (hrest : mid.Drawn next) : g.Drawn next := by
  obtain ⟨draws, directions, rfl⟩ := hfirst
  obtain ⟨draws', directions', rfl⟩ := hrest
  exact ⟨draws', directions', rfl⟩

theorem randomPoint_returns (g : Game Client) :
    (randomPoint : Op Client Point).Returns (fun _ next => g.Drawn next) g :=
  ⟨_, g.directions, rfl⟩

theorem randomDirection_returns (g : Game Client) :
    (randomDirection : Op Client Direction).Returns (fun _ next => g.Drawn next) g :=
  ⟨g.draws, _, rfl⟩

theorem openDirection_wp (cell : Point) (turns : Nat) (g : Game Client) :
    Prog.wp (openDirection cell turns) (fun _ next => g.Drawn next)
      (fun _ _ => False) (fun _ => True) g := by
  induction turns generalizing g with
  | zero => exact trivial
  | succ turns ih =>
      rw [openDirection, Prog.wp_bind]
      refine Prog.wp_mono (randomDirection_returns g) ?_ (fun _ _ h => h) (fun _ h => h.elim)
      intro d next hdrawn
      simp only [isWall, ↓Prog.wp_bind, ↓Prog.wp_read, ↓Prog.wp_ite, ↓Prog.wp_pure]
      split
      case isTrue =>
        refine Prog.wp_mono (ih next) ?_ (fun _ _ h => h) (fun _ h => h)
        intro d' last hlast
        exact hdrawn.trans hlast
      case isFalse => exact hdrawn

/-- What is found is empty, and nothing has changed. -/
theorem emptyPoint_wp (turns : Nat) (g : Game Client) :
    Prog.wp (emptyPoint turns)
      (fun p next => g.contents p = none ∧ g.checkBounds p = true ∧ g.Drawn next)
      (fun _ next => g.Drawn next) (fun _ => True) g := by
  induction turns generalizing g with
  | zero => exact trivial
  | succ turns ih =>
      rw [emptyPoint, Prog.wp_bind]
      refine Prog.wp_mono (randomPoint_returns g) ?_ (fun _ _ h => h.elim) (fun _ h => h.elim)
      intro p next hdrawn
      simp only [getCellImpl, getContents, ↓Prog.wp_bind, ↓Prog.wp_get, ↓Prog.wp_ite,
        ↓Prog.wp_pure, ↓Prog.wp_fail, ↓Prog.wp_read]
      split
      case isFalse => exact hdrawn
      case isTrue hbounds =>
        split
        case isTrue hempty =>
          obtain ⟨draws, directions, rfl⟩ := hdrawn
          exact ⟨hempty, hbounds, draws, directions, rfl⟩
        case isFalse =>
          refine Prog.wp_mono (ih next) ?_ ?_ (fun _ h => h)
          · rintro q last ⟨hempty, hinside, hlast⟩
            obtain ⟨draws, directions, rfl⟩ := hdrawn
            exact ⟨hempty, hinside, .trans ⟨draws, directions, rfl⟩ hlast⟩
          · intro _ last hlast
            exact hdrawn.trans hlast

end Draws

section Looks

variable {Client : Type} {g : Game Client} {c : Client} {p : Point}

/-- A client that is not in the map makes the call throw. -/
theorem getClientPoint_wp {post : DirectedPoint → Game Client → Prop}
    {fails : Thrown → Game Client → Prop} {bad : Trouble → Prop}
    (hfails : fails .nullPointer g) (hpost : ∀ dp, g.clientMap c = some dp → post dp g) :
    Prog.wp (getClientPoint c) post fails bad g := by
  rw [getClientPoint, Prog.wp_bind, Prog.wp_get]
  cases hat : g.clientMap c with
  | none => exact hfails
  | some dp => exact hpost dp hat

theorem getCellImpl_wp {post : Point → Game Client → Prop}
    {fails : Thrown → Game Client → Prop} {bad : Trouble → Prop}
    (hfails : ¬g.checkBounds p = true → fails .arrayIndexOutOfBounds g)
    (hpost : g.checkBounds p = true → post p g) :
    Prog.wp (getCellImpl p) post fails bad g := by
  simp only [getCellImpl, ↓Prog.wp_bind, ↓Prog.wp_get, ↓Prog.wp_ite, ↓Prog.wp_pure,
    ↓Prog.wp_fail]
  split
  case isTrue hbounds => exact hpost hbounds
  case isFalse hbounds => exact hfails hbounds

end Looks

section Change

variable {Client : Type} [DecidableEq Client]

def placed (g : Game Client) (client : Client) (dp : DirectedPoint) : Game Client :=
  { g with
    contents := Function.update g.contents dp.toPoint (some (.client client))
    clientMap := Function.update g.clientMap client (some dp) }

/-- The maze with a client more. -/
def joined (g : Game Client) (client : Client) (dp : DirectedPoint) : Game Client :=
  { g.placed client dp with registered := Function.update g.registered client true }

/-- The maze with a projectile more. -/
def launched (g : Game Client) (client : Client) (dp : DirectedPoint) : Game Client :=
  let prj : Projectile Client := ⟨client, g.serial⟩
  { g with
    clientFired := Function.update g.clientFired client true
    serial := g.serial + 1
    pass := g.pass.modify
    projectileMap := (prj, dp) :: g.others prj
    contents := Function.update g.contents dp.toPoint (some (.projectile prj)) }

/-- One change to the clients that are in the maze. -/
inductive Change (g : Game Client) : Game Client → Prop
  | draw {next : Game Client} (hdrawn : g.Drawn next) : Change g next
  | register (registered : Client → Bool) : Change g { g with registered := registered }
  | turn (hat : g.clientMap c = some dp) (hpoint : dp'.toPoint = dp.toPoint) :
      Change g { g with clientMap := Function.update g.clientMap c (some dp') }
  | leave (hat : g.clientMap c = some dp) :
      Change g { g with
        contents := Function.update g.contents dp.toPoint none
        clientMap := Function.update g.clientMap c none }
  /-- The map had the client outside of the maze. -/
  | lose (hat : g.clientMap c = some dp) (hout : ¬g.checkBounds dp.toPoint = true) :
      Change g { g with clientMap := Function.update g.clientMap c none }
  | come (dp : DirectedPoint) (hgone : g.clientMap c = none) (hempty : g.contents dp.toPoint = none)
      (hbounds : g.checkBounds dp.toPoint = true) : Change g (g.placed c dp)

abbrev Changes : Game Client → Game Client → Prop := Relation.ReflTransGen Change

theorem Changes.books_eq {g next : Game Client} (hchanges : Changes g next) :
    next.projectileMap = g.projectileMap ∧ next.pass = g.pass := by
  induction hchanges with
  | refl => exact ⟨rfl, rfl⟩
  | tail _ hchange ih =>
      cases hchange with
      | draw hdrawn =>
          obtain ⟨draws, directions, rfl⟩ := hdrawn
          exact ih
      | register registered => exact ih
      | turn hat hpoint => exact ih
      | leave hat => exact ih
      | lose hat hout => exact ih
      | come dp hgone hempty hbounds => exact ih

/-- However the call ends, it has only changed the clients. -/
abbrev OnlyChanges (body : Op Client α) (g : Game Client) : Prop :=
  Prog.wp body (fun _ next => Changes g next) (fun _ next => Changes g next) (fun _ => True) g

section Clients

variable {g : Game Client} {c : Client} {dp dp' : DirectedPoint}

theorem rotateClient_changes (turn : Direction → Direction) (c : Client) (g : Game Client) :
    OnlyChanges (rotateClient turn c) g := by
  rw [OnlyChanges, rotateClient, Prog.wp_bind]
  refine getClientPoint_wp .refl ?_
  intro dp hat
  exact .single (.turn hat rfl)

theorem clientUpdate_changes (turn : Direction → Direction) (c : Client) (g : Game Client) :
    OnlyChanges (clientUpdate (rotateClient turn) c) g := by
  rw [OnlyChanges, clientUpdate, Prog.wp_bind, Prog.wp_get]
  exact Prog.wp_when_of (fun _ => rotateClient_changes turn c g) .refl

theorem removeClient_changes (c : Client) (g : Game Client) :
    OnlyChanges (removeClient c) g := by
  rw [OnlyChanges, removeClient, Prog.wp_bind]
  refine getClientPoint_wp .refl ?_
  intro dp hat
  rw [Prog.wp_bind, dropClient, Prog.wp_modify, Prog.wp_bind]
  refine getCellImpl_wp (fun hout => .single (.lose hat hout)) ?_
  intro _
  exact .tail (.single (.leave hat)) (.register (Function.update g.registered c false))

theorem respawn_changes (turns : Nat) (hgone : g.clientMap c = none) :
    OnlyChanges (respawn turns c) g := by
  rw [OnlyChanges, respawn, Prog.wp_bind]
  refine Prog.wp_mono (emptyPoint_wp turns g) ?_ ?_ (fun _ h => h)
  case refine_2 =>
    intro _ next hdrawn
    exact .single (.draw hdrawn)
  intro p mid ⟨hempty, hbounds, hmid⟩
  have hinside : mid.checkBounds p = true := by
    obtain ⟨draws, directions, rfl⟩ := hmid
    exact hbounds
  rw [Prog.wp_bind]
  refine getCellImpl_wp (absurd hinside) ?_
  intro _
  rw [Prog.wp_bind]
  refine Prog.wp_mono (openDirection_wp p turns mid) ?_ (fun _ _ h => h.elim) (fun _ h => h)
  intro d last hlast
  have hdrawn := hmid.trans hlast
  refine .tail (.single (.draw hdrawn)) (.come ⟨p, d⟩ ?_ ?_ ?_)
  all_goals obtain ⟨draws, directions, rfl⟩ := hdrawn
  · exact hgone
  · exact hempty
  · exact hbounds

theorem killClient_changes (turns : Nat) (c : Client) (g : Game Client) :
    OnlyChanges (killClient turns c) g := by
  rw [OnlyChanges, killClient, Prog.wp_bind]
  refine getClientPoint_wp .refl ?_
  intro dp hat
  rw [Prog.wp_bind, dropClient, Prog.wp_modify, Prog.wp_bind]
  refine getCellImpl_wp (fun hout => .single (.lose hat hout)) ?_
  intro _
  rw [Prog.wp_bind, setContents, Prog.wp_modify]
  refine Prog.wp_mono (respawn_changes turns (Function.update_self ..)) ?_ ?_ (fun _ h => h)
  · intro _ next hrest
    exact .head (.leave hat) hrest
  · intro _ next hrest
    exact .head (.leave hat) hrest

/-- The client leaves its cell for an empty one. -/
theorem Change.moves (dp' : DirectedPoint) (hat : g.clientMap c = some dp) (hne : dp'.toPoint ≠ dp.toPoint)
    (hempty : g.contents dp'.toPoint = none) (hbounds : g.checkBounds dp'.toPoint = true) :
    Changes g { g with
      contents := Function.update
        (Function.update g.contents dp'.toPoint (some (.client c))) dp.toPoint none
      clientMap := Function.update g.clientMap c (some dp') } := by
  let mid : Game Client := { g with
    contents := Function.update g.contents dp.toPoint none
    clientMap := Function.update g.clientMap c none }
  have hleft : mid.contents dp'.toPoint = none :=
    (Function.update_of_ne hne _ _).trans hempty
  have hcome : Change mid (mid.placed c dp') := .come dp' (Function.update_self ..) hleft hbounds
  have hmap : Function.update mid.clientMap c (some dp') =
      Function.update g.clientMap c (some dp') := Function.update_idem ..
  rw [placed, hmap] at hcome
  rw [Function.update_comm hne]
  exact .tail (.single (.leave hat)) hcome

theorem moveClient_changes (c : Client) (d : Direction) (g : Game Client) :
    OnlyChanges (moveClient c d) g := by
  rw [OnlyChanges, moveClient, Prog.wp_bind]
  refine getClientPoint_wp .refl ?_
  intro dp hat
  rw [Prog.wp_bind]
  refine getCellImpl_wp (fun _ => .refl) ?_
  intro _
  simp only [isWall, ↓Prog.wp_bind, ↓Prog.wp_read, ↓Prog.wp_ite]
  split
  case isTrue => exact .single (.turn hat rfl)
  case isFalse =>
    simp only [getClientOrientation, ↓Prog.wp_bind, ↓Prog.wp_pure]
    refine getClientPoint_wp .refl ?_
    intro dp' _
    refine getCellImpl_wp (fun _ => .refl) ?_
    intro hbounds
    simp only [getContents, ↓Prog.wp_read]
    split
    case isTrue => exact .single (.turn hat rfl)
    case isFalse hempty =>
      exact Change.moves ⟨dp.move d, dp'.direction⟩ hat (dp.move_ne d)
        (not_not.mp hempty) hbounds

theorem moveClientForward_changes (c : Client) (g : Game Client) :
    OnlyChanges (moveClientForward c) g := by
  rw [OnlyChanges, moveClientForward, Prog.wp_bind]
  refine getClientPoint_wp .refl ?_
  intro dp _
  exact moveClient_changes c dp.direction g

theorem moveClientBackward_changes (c : Client) (g : Game Client) :
    OnlyChanges (moveClientBackward c) g := by
  rw [OnlyChanges, moveClientBackward, Prog.wp_bind]
  refine getClientPoint_wp .refl ?_
  intro dp _
  exact moveClient_changes c dp.direction.invert g

/-- The shot kills the next client, or a projectile comes into an empty cell. -/
theorem clientFire_changes (turns : Nat) (c : Client) (g : Game Client) :
    Prog.wp (clientFire turns c)
      (fun _ next => Changes g next ∨ ∃ dp, g.clientFired c = false ∧
        g.contents dp.toPoint = none ∧ next = g.launched c dp)
      (fun _ next => Changes g next) (fun _ => True) g := by
  simp only [clientFire, getClientOrientation, ↓Prog.wp_bind, ↓Prog.wp_get, ↓Prog.wp_ite,
    ↓Prog.wp_pure]
  split
  case isTrue => exact .inl .refl
  case isFalse hfired =>
    refine getClientPoint_wp .refl ?_
    intro dp _
    refine getClientPoint_wp .refl ?_
    intro dp' _
    refine getCellImpl_wp (fun _ => .refl) ?_
    intro _
    simp only [isWall, ↓Prog.wp_read]
    split
    case isTrue => exact .inl .refl
    case isFalse =>
      refine getCellImpl_wp (fun _ => .refl) ?_
      intro _
      simp only [getContents, ↓Prog.wp_read]
      split
      case h_1 target _ =>
        rw [Prog.wp_bind]
        refine Prog.wp_mono (killClient_changes turns target g) ?_ (fun _ _ h => h)
          (fun _ h => h)
        intro _ next hkill
        exact .inl hkill
      case h_2 => exact .inl .refl
      case h_3 hempty =>
        rw [Prog.wp_bind]
        exact .inr ⟨⟨dp.move dp'.direction, dp'.direction⟩, Bool.eq_false_iff.mpr hfired,
          hempty, rfl⟩

end Clients

/-- What becomes of a projectile that the map has at the point: who is dead
then, and the maze. -/
inductive Flight (g : Game Client) (prj : Projectile Client) (dp : DirectedPoint) :
    List (Projectile Client) → Game Client → Prop
  | wall (hwall : g.toMazeImpl.isWall dp.toPoint dp.direction = true) :
      Flight g prj dp [prj] { g with contents := Function.update g.contents dp.toPoint none }
  | kills (hopen : ¬g.toMazeImpl.isWall dp.toPoint dp.direction = true)
      (hheld : g.contents (dp.move dp.direction) = some (.client target))
      (hkill : Changes g mid) :
      Flight g prj dp [prj]
        { mid with contents := Function.update mid.contents dp.toPoint none }
  | meets (hopen : ¬g.toMazeImpl.isWall dp.toPoint dp.direction = true)
      (hheld : g.contents (dp.move dp.direction) = some (.projectile other)) :
      Flight g prj dp [prj, other] { g with
        contents := Function.update
          (Function.update g.contents (dp.move dp.direction) none) dp.toPoint none }
  | flies (hopen : ¬g.toMazeImpl.isWall dp.toPoint dp.direction = true)
      (hempty : g.contents (dp.move dp.direction) = none) :
      Flight g prj dp [] { g with
        projectileMap := (prj, ⟨dp.move dp.direction, dp.direction⟩) :: g.others prj
        contents := Function.update (Function.update g.contents dp.toPoint none)
          (dp.move dp.direction) (some (.projectile prj)) }

theorem moveProjectile_flight (turns : Nat) (prj : Projectile Client) (g : Game Client) :
    Prog.wp (moveProjectile turns prj)
      (fun dead next => ∃ dp, g.projectileMap.lookup prj = some dp ∧ Flight g prj dp dead next)
      (fun _ next => Changes g next) (fun _ => True) g := by
  rw [moveProjectile, Prog.wp_bind, Prog.wp_get, Prog.wp_bind]
  cases hdp : g.projectileMap.lookup prj with
  | none => exact .refl
  | some dp =>
    simp only [notNull, ↓Prog.wp_pure, ↓Prog.wp_bind]
    refine getCellImpl_wp (fun _ => .refl) ?_
    intro _
    simp only [isWall, ↓Prog.wp_read, ↓Prog.wp_ite]
    split
    case isTrue hwall => exact ⟨dp, rfl, .wall hwall⟩
    case isFalse hopen =>
      rw [Prog.wp_bind]
      refine getCellImpl_wp (fun _ => .refl) ?_
      intro _
      simp only [getContents, ↓Prog.wp_bind, ↓Prog.wp_read]
      split
      case h_1 target hheld =>
        rw [Prog.wp_bind]
        refine Prog.wp_mono (killClient_changes turns target g) ?_ (fun _ _ h => h)
          (fun _ h => h)
        intro _ mid hkill
        exact ⟨dp, rfl, .kills hopen hheld hkill⟩
      case h_2 other hheld => exact ⟨dp, rfl, .meets hopen hheld⟩
      case h_3 hempty => exact ⟨dp, rfl, .flies hopen hempty⟩

/-- The direction that a client added at the point will have. -/
def drawnDirection (turns : Nat) (point : Point) (g : Game Client) : Option Direction :=
  match openDirection point turns g with
  | .ok d _ => some d
  | .error _ _ => none
  | .panic _ => none

/-- What adding a client at a point comes to. -/
theorem addClientPoint_joins (turns : Nat) (c : Client) (point : Point) (g : Game Client) :
    Prog.wp (addClientPoint turns c point)
      (fun _ next => ∃ d, drawnDirection turns point g = some d ∧
        g.checkBounds point = true ∧ (g.joined c ⟨point, d⟩).Drawn next)
      (fun _ next => g.checkBounds point = false ∧ next = g) (fun _ => True) g := by
  rw [addClientPoint, Prog.wp_bind]
  refine getCellImpl_wp (fun hout => ⟨Bool.eq_false_iff.mpr hout, rfl⟩) ?_
  intro hbounds
  have hopen := openDirection_wp point turns g
  rw [Prog.wp_bind]
  cases hdirection : openDirection point turns g with
  | ok d mid =>
      rw [Prog.wp, hdirection]
      obtain ⟨draws, directions, rfl⟩ := hopen.post_of_ok hdirection
      refine ⟨d, ?_, hbounds, draws, directions, rfl⟩
      rw [drawnDirection, hdirection]
  | error thrown mid => exact (hopen.fails_of_error hdirection).elim
  | panic trouble =>
      rw [Prog.wp, hdirection]
      exact trivial

end Change

end Game

end OS161.Mazewar
