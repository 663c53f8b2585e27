import OS161.Mazewar.Occupancy

namespace OS161.Mazewar

open OS161.Data

/-! What the cells, `projectileMap` and `clientFired` say of the projectiles. -/

def NoProjectile (held : Option (Contents Client)) : Prop :=
  ∀ prj, held ≠ some (.projectile prj)

theorem NoProjectile.none : NoProjectile (none : Option (Contents Client)) :=
  fun _ h => nomatch h

theorem NoProjectile.client (c : Client) : NoProjectile (some (.client c)) :=
  fun _ h => nomatch h

theorem NoProjectile.of_empty {held : Option (Contents Client)} (hheld : held = Option.none) :
    NoProjectile held := by
  rw [hheld]
  exact .none

theorem NoProjectile.of_client {held : Option (Contents Client)}
    (hheld : held = some (.client c)) : NoProjectile held := by
  rw [hheld]
  exact .client c

/-- Every client of the map is in its cell; there may be others in the cells. -/
def Seen (contents : Point → Option (Contents Client))
    (clientMap : Client → Option DirectedPoint) : Prop :=
  ∀ c dp, clientMap c = some dp → contents dp.toPoint = some (.client c)

section Seen

variable {Client : Type}
  {contents : Point → Option (Contents Client)} {clientMap : Client → Option DirectedPoint}
  {p : Point} {c : Client} {dp dp' : DirectedPoint}

theorem Seen.other (held : Option (Contents Client)) (hseen : Seen contents clientMap)
    (hclear : NoClient (contents p)) : Seen (Function.update contents p held) clientMap := by
  intro c dp hat
  have hheld := hseen c dp hat
  have hne : dp.toPoint ≠ p := by
    rintro rfl
    exact hclear.ne c hheld
  rw [Function.update_of_ne hne]
  exact hheld

variable [DecidableEq Client]

theorem Seen.drop (hseen : Seen contents clientMap) :
    Seen contents (Function.update clientMap c none) := by
  intro c' dp' hat
  by_cases hc : c' = c
  · subst hc
    rw [Function.update_self] at hat
    cases hat
  · rw [Function.update_of_ne hc] at hat
    exact hseen c' dp' hat

theorem Seen.leave (hseen : Seen contents clientMap) (hat : clientMap c = some dp) :
    Seen (Function.update contents dp.toPoint none) (Function.update clientMap c none) := by
  intro c' dp' hat'
  by_cases hc : c' = c
  · subst hc
    rw [Function.update_self] at hat'
    cases hat'
  · rw [Function.update_of_ne hc] at hat'
    have hheld := hseen c' dp' hat'
    have hne : dp'.toPoint ≠ dp.toPoint := by
      intro heq
      rw [heq, hseen c dp hat] at hheld
      cases hheld
      exact hc rfl
    rw [Function.update_of_ne hne]
    exact hheld

/-- The client comes to a point where the map has no other. -/
theorem Seen.put (dp : DirectedPoint) (hseen : Seen contents clientMap)
    (hfree : ∀ c' dp', clientMap c' = some dp' → dp'.toPoint = dp.toPoint → c' = c) :
    Seen (Function.update contents dp.toPoint (some (.client c)))
      (Function.update clientMap c (some dp)) := by
  intro c' dp' hat
  by_cases hc : c' = c
  · subst hc
    rw [Function.update_self] at hat
    cases hat
    rw [Function.update_self]
  · rw [Function.update_of_ne hc] at hat
    have hne : dp'.toPoint ≠ dp.toPoint := fun heq => hc (hfree c' dp' hat heq)
    rw [Function.update_of_ne hne]
    exact hseen c' dp' hat

theorem Seen.turn (hseen : Seen contents clientMap) (hat : clientMap c = some dp)
    (hpoint : dp'.toPoint = dp.toPoint) :
    Seen contents (Function.update clientMap c (some dp')) := by
  have hheld : some (.client c) = contents dp'.toPoint := by
    rw [hpoint, hseen c dp hat]
  have hput := hseen.put (c := c) dp' ?_
  · rwa [hheld, Function.update_eq_self] at hput
  · intro c' dp'' hat' heq
    have hheld' := hseen c' dp'' hat'
    rw [heq, ← hheld] at hheld'
    cases hheld'
    rfl

end Seen

/-- A cell holds a projectile exactly if the map has it at the point and it is
not dead. -/
def Tracked (contents : Point → Option (Contents Client))
    (entry : Projectile Client → Option DirectedPoint) (dead : List (Projectile Client)) :
    Prop :=
  ∀ p prj, contents p = some (.projectile prj) ↔
    prj ∉ dead ∧ (entry prj).map DirectedPoint.toPoint = some p

section Tracked

variable {Client : Type}
  {contents : Point → Option (Contents Client)}
  {entry : Projectile Client → Option DirectedPoint} {dead dead' : List (Projectile Client)}
  {p : Point} {prj : Projectile Client} {dp : DirectedPoint}

theorem Tracked.other {held : Option (Contents Client)} (htracked : Tracked contents entry dead)
    (hbefore : NoProjectile (contents p)) (hafter : NoProjectile held) :
    Tracked (Function.update contents p held) entry dead := by
  intro q prj
  by_cases hq : q = p
  · subst hq
    rw [Function.update_self, ← htracked q prj]
    exact iff_of_false (hafter prj) (hbefore prj)
  · rw [Function.update_of_ne hq]
    exact htracked q prj

theorem Tracked.dead_congr (htracked : Tracked contents entry dead)
    (hdead : ∀ prj, prj ∈ dead' ↔ prj ∈ dead) : Tracked contents entry dead' := by
  intro p prj
  rw [hdead prj]
  exact htracked p prj

/-- The projectile dies, and its cell is cleared. -/
theorem Tracked.destroy (htracked : Tracked contents entry dead)
    (hat : (entry prj).map DirectedPoint.toPoint = some p)
    (honly : ∀ other, contents p = some (.projectile other) → other = prj) :
    Tracked (Function.update contents p none) entry (prj :: dead) := by
  intro q other
  rw [List.mem_cons, not_or, and_assoc, ← htracked q other]
  by_cases hq : q = p
  · subst hq
    rw [Function.update_self]
    exact iff_of_false (NoProjectile.none other) fun h => h.1 (honly other h.2)
  · rw [Function.update_of_ne hq]
    refine ⟨fun hheld => ⟨?_, hheld⟩, And.right⟩
    rintro rfl
    have hthere := ((htracked q other).mp hheld).2
    rw [hat] at hthere
    exact hq (Option.some.inj hthere).symm

variable [DecidableEq Client]

/-- A projectile that is in no cell comes into an empty one. -/
theorem Tracked.put (dp : DirectedPoint) (htracked : Tracked contents entry dead')
    (hempty : contents dp.toPoint = none)
    (hgone : ∀ q, contents q ≠ some (.projectile prj)) (halive : prj ∉ dead)
    (hdead : ∀ other, other ≠ prj → (other ∈ dead' ↔ other ∈ dead)) :
    Tracked (Function.update contents dp.toPoint (some (.projectile prj)))
      (Function.update entry prj (some dp)) dead := by
  intro q other
  by_cases hprj : other = prj
  · subst hprj
    rw [Function.update_self, Option.map_some, and_iff_right halive]
    by_cases hq : q = dp.toPoint
    · subst hq
      rw [Function.update_self]
      exact iff_of_true rfl rfl
    · rw [Function.update_of_ne hq]
      exact iff_of_false (hgone q) fun h => hq (Option.some.inj h).symm
  · rw [Function.update_of_ne hprj, ← hdead other hprj, ← htracked q other]
    by_cases hq : q = dp.toPoint
    · subst hq
      rw [Function.update_self, hempty]
      refine iff_of_false ?_ (NoProjectile.none other)
      intro heq
      cases heq
      exact hprj rfl
    · rw [Function.update_of_ne hq]

/-- A dead projectile is taken out of the map. -/
theorem Tracked.forget (htracked : Tracked contents entry (prj :: dead)) :
    Tracked contents (Function.update entry prj none) dead := by
  intro q other
  rw [htracked q other]
  by_cases hprj : other = prj
  · subst hprj
    rw [Function.update_self]
    exact iff_of_false (fun h => h.1 List.mem_cons_self) fun h => nomatch h.2
  · rw [Function.update_of_ne hprj, List.mem_cons, or_iff_right hprj]

end Tracked

/-- Who owns the projectiles of the map: exactly those who have fired, each one
projectile. -/
structure Owned (entry : Projectile Client → Option DirectedPoint)
    (clientFired : Client → Bool) (serial : Nat) : Prop where
  fired : ∀ c, clientFired c = true ↔ ∃ prj, entry prj ≠ none ∧ prj.owner = c
  single : ∀ prj prj', entry prj ≠ none → entry prj' ≠ none → prj.owner = prj'.owner →
    prj = prj'
  earlier : ∀ prj, entry prj ≠ none → prj.serial < serial

/-- The map has no other projectile of the owner of a dead one. -/
def Doomed (entry : Projectile Client → Option DirectedPoint)
    (dead : List (Projectile Client)) : Prop :=
  ∀ prj ∈ dead, ∀ other, entry other ≠ none → other.owner = prj.owner → other = prj

section Owned

variable {Client : Type}
  {entry : Projectile Client → Option DirectedPoint} {clientFired : Client → Bool}
  {serial : Nat} {dead more : List (Projectile Client)} {prj other : Projectile Client}
  {c : Client} {dp : DirectedPoint}

theorem Owned.doomed (howned : Owned entry clientFired serial)
    (hin : ∀ prj ∈ dead, entry prj ≠ none) : Doomed entry dead := by
  intro prj hprj other hother howner
  exact howned.single other prj hother (hin prj hprj) howner

theorem Doomed.append (hdoomed : Doomed entry dead) (hmore : Doomed entry more) :
    Doomed entry (dead ++ more) := by
  intro prj hprj
  rcases List.mem_append.mp hprj with hprj | hprj
  · exact hdoomed prj hprj
  · exact hmore prj hprj

variable [DecidableEq Client]

theorem update_some_ne_none :
    Function.update entry prj (some dp) other ≠ none ↔ other = prj ∨ entry other ≠ none := by
  rw [Function.update_apply]
  split
  case isTrue heq => exact iff_of_true (Option.some_ne_none dp) (.inl heq)
  case isFalse hne => exact (or_iff_right hne).symm

theorem update_none_ne_none :
    Function.update entry prj none other ≠ none ↔ other ≠ prj ∧ entry other ≠ none := by
  rw [Function.update_apply]
  split
  case isTrue heq => exact iff_of_false (fun h => h rfl) fun h => h.1 heq
  case isFalse hne => exact (and_iff_right hne).symm

theorem Owned.fly (howned : Owned entry clientFired serial) (hin : entry prj ≠ none)
    (dp : DirectedPoint) : Owned (Function.update entry prj (some dp)) clientFired serial := by
  have hsame (other : Projectile Client) :
      Function.update entry prj (some dp) other ≠ none ↔ entry other ≠ none := by
    rw [update_some_ne_none]
    refine or_iff_right_of_imp ?_
    rintro rfl
    exact hin
  refine ⟨?_, ?_, ?_⟩
  · intro c
    simp only [hsame]
    exact howned.fired c
  · intro prj' other hprj' hother
    exact howned.single prj' other ((hsame prj').mp hprj') ((hsame other).mp hother)
  · intro other hother
    exact howned.earlier other ((hsame other).mp hother)

theorem Owned.launch (howned : Owned entry clientFired serial) (hfired : clientFired c = false)
    (dp : DirectedPoint) :
    Owned (Function.update entry ⟨c, serial⟩ (some dp)) (Function.update clientFired c true)
      (serial + 1) := by
  have hnone (other : Projectile Client) (hother : entry other ≠ none) : other.owner ≠ c := by
    rintro rfl
    rw [(howned.fired other.owner).mpr ⟨other, hother, rfl⟩] at hfired
    cases hfired
  refine ⟨?_, ?_, ?_⟩
  · intro c'
    simp only [update_some_ne_none]
    by_cases hc : c' = c
    · subst hc
      rw [Function.update_self]
      exact iff_of_true rfl ⟨⟨c', serial⟩, .inl rfl, rfl⟩
    · rw [Function.update_of_ne hc, howned.fired c']
      refine ⟨fun ⟨other, hother, howner⟩ => ⟨other, .inr hother, howner⟩, ?_⟩
      rintro ⟨other, rfl | hother, howner⟩
      · exact absurd howner.symm hc
      · exact ⟨other, hother, howner⟩
  · intro prj other hprj hother howner
    rw [update_some_ne_none] at hprj hother
    rcases hprj with rfl | hprj <;> rcases hother with rfl | hother
    · rfl
    · exact absurd howner.symm (hnone other hother)
    · exact absurd howner (hnone prj hprj)
    · exact howned.single prj other hprj hother howner
  · intro other hother
    rcases update_some_ne_none.mp hother with rfl | hother
    · exact Nat.lt_succ_self serial
    · exact Nat.lt_succ_of_lt (howned.earlier other hother)

/-- A projectile is taken out of the map, which has no other of its owner. -/
theorem Owned.forget (howned : Owned entry clientFired serial)
    (honly : ∀ other, entry other ≠ none → other.owner = prj.owner → other = prj) :
    Owned (Function.update entry prj none) (Function.update clientFired prj.owner false)
      serial := by
  refine ⟨?_, ?_, ?_⟩
  · intro c
    simp only [update_none_ne_none]
    by_cases hc : c = prj.owner
    · subst hc
      rw [Function.update_self]
      refine iff_of_false (by simp) ?_
      rintro ⟨other, ⟨hne, hother⟩, howner⟩
      exact hne (honly other hother howner)
    · rw [Function.update_of_ne hc, howned.fired c]
      refine ⟨?_, fun ⟨other, hother, howner⟩ => ⟨other, hother.2, howner⟩⟩
      rintro ⟨other, hother, rfl⟩
      refine ⟨other, ⟨?_, hother⟩, rfl⟩
      rintro rfl
      exact hc rfl
  · intro prj' other hprj' hother
    exact howned.single prj' other (update_none_ne_none.mp hprj').2
      (update_none_ne_none.mp hother).2
  · intro other hother
    exact howned.earlier other (update_none_ne_none.mp hother).2

theorem Doomed.fly (hdoomed : Doomed entry dead) (hin : entry prj ≠ none)
    (dp : DirectedPoint) : Doomed (Function.update entry prj (some dp)) dead := by
  intro prj' hprj' other hother
  refine hdoomed prj' hprj' other ?_
  rcases update_some_ne_none.mp hother with rfl | hother
  · exact hin
  · exact hother

theorem Doomed.forget (hdoomed : Doomed entry (prj :: dead)) :
    Doomed (Function.update entry prj none) dead := by
  intro prj' hprj' other hother
  exact hdoomed prj' (List.mem_cons_of_mem _ hprj') other (update_none_ne_none.mp hother).2

end Owned

theorem lookup_filter_ne [DecidableEq α] (entries : List (α × β)) (key other : α) :
    (entries.filter fun entry => entry.1 ≠ key).lookup other =
      if other = key then none else entries.lookup other := by
  induction entries with
  | nil => simp
  | cons entry rest ih =>
      obtain ⟨first, value⟩ := entry
      by_cases hfirst : first = key
      · rw [List.filter_cons_of_neg (by simpa using hfirst), ih, List.lookup_cons, hfirst]
        split
        case isTrue => rfl
        case isFalse hother => rw [beq_false_of_ne hother]
      · rw [List.filter_cons_of_pos (by simpa using hfirst), List.lookup_cons, ih,
          List.lookup_cons]
        cases heq : other == first with
        | false => rfl
        | true =>
            rw [beq_iff_eq] at heq
            exact (if_neg (heq ▸ hfirst)).symm

/-- The projectiles that the pass has found dead and not yet removed. -/
def Pass.dead : Pass Client → List (Projectile Client)
  | sleeping => []
  | moving _ deadPrj _ => deadPrj
  | removing deadPrj => deadPrj
  | ended => []

namespace Game

section Entries

variable {Client : Type} [DecidableEq Client]

/-- Where `projectileMap` has the projectile. -/
def entry (g : Game Client) (prj : Projectile Client) : Option DirectedPoint :=
  g.projectileMap.lookup prj

/-- A cell holds a projectile exactly if the map has it there, one that is
destroyed is in no cell, and those who have fired own what is in the map. -/
structure Booked (g : Game Client) : Prop where
  shown : ∀ p prj, g.contents p = some (.projectile prj) ↔
    (g.entry prj).map DirectedPoint.toPoint = some p
  destroyed : ∀ p prj, g.entry prj = none → g.contents p ≠ some (.projectile prj)
  fired : ∀ c, g.clientFired c = true ↔ ∃ prj, g.entry prj ≠ none ∧ prj.owner = c

/-- The same where some that are destroyed are still in the map. -/
structure Accounted (g : Game Client) (dead : List (Projectile Client)) : Prop where
  seen : Seen g.contents g.clientMap
  tracked : Tracked g.contents g.entry dead
  owned : Owned g.entry g.clientFired g.serial
  doomed : Doomed g.entry dead

variable {g mid next : Game Client} {prj : Projectile Client} {c : Client}
  {p : Point} {dp : DirectedPoint} {dead more : List (Projectile Client)}

theorem Accounted.booked (haccounted : g.Accounted []) : g.Booked := by
  have hshown (p : Point) (prj : Projectile Client) :=
    (haccounted.tracked p prj).trans (and_iff_right List.not_mem_nil)
  refine ⟨hshown, ?_, haccounted.owned.fired⟩
  intro p prj hnone hheld
  rw [hshown p prj, hnone] at hheld
  cases hheld

theorem entry_forget (hmap : next.projectileMap = g.others prj) :
    next.entry = Function.update g.entry prj none := by
  funext other
  rw [entry, hmap, others, Function.update_apply]
  exact lookup_filter_ne g.projectileMap prj other

theorem entry_put (hmap : next.projectileMap = (prj, dp) :: g.others prj) :
    next.entry = Function.update g.entry prj (some dp) := by
  funext other
  rw [entry, hmap, others, Function.update_apply, List.lookup_cons]
  by_cases heq : other = prj
  · rw [if_pos heq, beq_iff_eq.mpr heq]
  · rw [if_neg heq, beq_false_of_ne heq, lookup_filter_ne, if_neg heq]
    rfl

theorem Accounted.dead_congr (haccounted : g.Accounted dead)
    (hdead : ∀ prj, prj ∈ more ↔ prj ∈ dead) : g.Accounted more where
  seen := haccounted.seen
  tracked := haccounted.tracked.dead_congr hdead
  owned := haccounted.owned
  doomed prj hprj := haccounted.doomed prj ((hdead prj).mp hprj)

/-- Whatever the thread does next. -/
theorem Accounted.pass (haccounted : g.Accounted dead) (pass : Pass Client) :
    Accounted { g with pass := pass } dead :=
  ⟨haccounted.seen, haccounted.tracked, haccounted.owned, haccounted.doomed⟩

theorem Accounted.drawn (haccounted : g.Accounted dead) (hdrawn : g.Drawn next) :
    next.Accounted dead := by
  obtain ⟨draws, directions, rfl⟩ := hdrawn
  exact ⟨haccounted.seen, haccounted.tracked, haccounted.owned, haccounted.doomed⟩

theorem Accounted.change (haccounted : g.Accounted dead) (hchange : Change g next) :
    next.Accounted dead := by
  obtain ⟨hseen, htracked, howned, hdoomed⟩ := haccounted
  cases hchange with
  | draw hdrawn => exact Accounted.drawn ⟨hseen, htracked, howned, hdoomed⟩ hdrawn
  | register registered => exact ⟨hseen, htracked, howned, hdoomed⟩
  | turn hat hpoint => exact ⟨hseen.turn hat hpoint, htracked, howned, hdoomed⟩
  | leave hat =>
      have hclient : NoProjectile (g.contents _) := .of_client (hseen _ _ hat)
      exact ⟨hseen.leave hat, htracked.other hclient .none, howned, hdoomed⟩
  | lose hat hout => exact ⟨hseen.drop, htracked, howned, hdoomed⟩
  | come dp hgone hempty hbounds =>
      have hclear : NoProjectile (g.contents _) := .of_empty hempty
      refine ⟨hseen.put dp ?_, htracked.other hclear (.client _), howned, hdoomed⟩
      intro c' dp' hat heq
      have hheld := hseen c' dp' hat
      rw [heq, hempty] at hheld
      cases hheld

theorem Accounted.changes (haccounted : g.Accounted dead) (hchanges : Changes g next) :
    next.Accounted dead := by
  induction hchanges with
  | refl => exact haccounted
  | tail _ hchange ih => exact ih.change hchange

/-- Who may be in the cell that a client is put into: the client itself, or one
that the map has elsewhere. -/
def Admits (g : Game Client) (client : Client) (point : Point) :
    Option (Contents Client) → Prop
  | some (.client other) =>
      other = client ∨ (g.clientMap other).map DirectedPoint.toPoint ≠ some point
  | some (.projectile _) => False
  | none => True

instance (g : Game Client) (client : Client) (point : Point) :
    ∀ held, Decidable (g.Admits client point held)
  | some (.client _) => inferInstanceAs (Decidable (_ ∨ _))
  | some (.projectile _) => inferInstanceAs (Decidable False)
  | none => inferInstanceAs (Decidable True)

def Vacant (g : Game Client) (client : Client) (point : Point) : Prop :=
  g.Admits client point (g.contents point)

instance (g : Game Client) (client : Client) (point : Point) :
    Decidable (g.Vacant client point) :=
  inferInstanceAs (Decidable (g.Admits client point _))

theorem Accounted.joined (dp : DirectedPoint) (haccounted : g.Accounted dead)
    (hvacant : g.Vacant c dp.toPoint) : (g.joined c dp).Accounted dead := by
  obtain ⟨hseen, htracked, howned, hdoomed⟩ := haccounted
  have hclear : NoProjectile (g.contents dp.toPoint) := by
    intro prj hheld
    rw [Vacant, hheld] at hvacant
    exact hvacant
  refine ⟨hseen.put dp ?_, htracked.other hclear (.client c), howned, hdoomed⟩
  intro c' dp' hat heq
  have hheld := hseen c' dp' hat
  rw [heq] at hheld
  rw [Vacant, hheld] at hvacant
  rcases hvacant with hsame | helsewhere
  · exact hsame
  · rw [hat, Option.map_some, heq] at helsewhere
    exact absurd rfl helsewhere

theorem Accounted.launched (haccounted : g.Accounted []) (hfired : g.clientFired c = false)
    (hempty : g.contents dp.toPoint = none) : (g.launched c dp).Accounted [] := by
  obtain ⟨hseen, htracked, howned, _⟩ := haccounted
  have hentry : (g.launched c dp).entry = Function.update g.entry ⟨c, g.serial⟩ (some dp) :=
    entry_put rfl
  have hgone (q : Point) : g.contents q ≠ some (.projectile ⟨c, g.serial⟩) := by
    intro hheld
    have hthere := ((htracked q _).mp hheld).2
    have hearlier := howned.earlier ⟨c, g.serial⟩ (Option.ne_none_iff_exists'.mpr ?_)
    · exact absurd hearlier (lt_irrefl g.serial)
    · obtain ⟨dp', hdp', _⟩ := Option.map_eq_some_iff.mp hthere
      exact ⟨dp', hdp'⟩
  refine ⟨hseen.other _ (.of_empty hempty), ?_, ?_, ?_⟩
  · rw [hentry]
    exact htracked.put dp hempty hgone List.not_mem_nil fun _ _ => Iff.rfl
  · rw [hentry]
    exact howned.launch hfired dp
  · intro prj hprj
    cases hprj

theorem Accounted.removed (haccounted : g.Accounted (prj :: dead))
    (hmap : next.projectileMap = g.others prj) (hcontents : next.contents = g.contents)
    (hclients : next.clientMap = g.clientMap) (hserial : next.serial = g.serial)
    (hfired : next.clientFired = Function.update g.clientFired prj.owner false) :
    next.Accounted dead := by
  have hentry := entry_forget hmap
  refine ⟨?_, ?_, ?_, ?_⟩
  · rw [hcontents, hclients]
    exact haccounted.seen
  · rw [hcontents, hentry]
    exact haccounted.tracked.forget
  · rw [hentry, hfired, hserial]
    exact haccounted.owned.forget (haccounted.doomed prj List.mem_cons_self)
  · rw [hentry]
    exact haccounted.doomed.forget

/-- A dead projectile that is moved again has left its cell, and comes to
nothing: a wall or another projectile is before it. -/
def Spent (g : Game Client) (dp : DirectedPoint) : Prop :=
  g.contents dp.toPoint = none ∧
    (g.toMazeImpl.isWall dp.toPoint dp.direction = true ∨
      g.contents (dp.move dp.direction) ≠ none ∧ NoClient (g.contents (dp.move dp.direction)))

instance (g : Game Client) (dp : DirectedPoint) : Decidable (g.Spent dp) :=
  inferInstanceAs (Decidable (_ ∧ (_ ∨ _ ∧ _)))

/-- The projectile is in its cell, or it is dead and comes to nothing. -/
def Regular (g : Game Client) (prj : Projectile Client) : Prop :=
  ∀ dp ∈ g.entry prj, g.contents dp.toPoint = some (.projectile prj) ∨ g.Spent dp

instance (g : Game Client) (prj : Projectile Client) : Decidable (g.Regular prj) :=
  inferInstanceAs (Decidable (∀ _ ∈ _, _))

/-- The cell of a projectile is cleared, if it is not empty already. -/
theorem Accounted.cleared (haccounted : g.Accounted dead) (hat : g.entry prj = some dp)
    (hheld : g.contents dp.toPoint = some (.projectile prj) ∨ g.contents dp.toPoint = none) :
    Accounted { g with contents := Function.update g.contents dp.toPoint none }
      (prj :: dead) := by
  obtain ⟨hseen, htracked, howned, hdoomed⟩ := haccounted
  have hclear : NoClient (g.contents dp.toPoint) :=
    hheld.elim NoClient.of_projectile NoClient.of_empty
  refine ⟨hseen.other none hclear, htracked.destroy ?_ ?_, howned, ?_⟩
  · rw [hat]
    rfl
  · intro other hother
    rcases hheld with hheld | hheld <;> rw [hheld] at hother <;> cases hother
    rfl
  · have hone : Doomed g.entry [prj] := howned.doomed (by simp [hat])
    exact hone.append hdoomed

theorem Accounted.flown (haccounted : g.Accounted dead) (hat : g.entry prj = some dp)
    (hheld : g.contents dp.toPoint = some (.projectile prj))
    (hempty : g.contents (dp.move dp.direction) = none)
    (hmap : next.projectileMap = (prj, ⟨dp.move dp.direction, dp.direction⟩) :: g.others prj)
    (hcontents : next.contents = Function.update (Function.update g.contents dp.toPoint none)
      (dp.move dp.direction) (some (.projectile prj)))
    (hclients : next.clientMap = g.clientMap) (hserial : next.serial = g.serial)
    (hfired : next.clientFired = g.clientFired) : next.Accounted dead := by
  have halive : prj ∉ dead := ((haccounted.tracked _ _).mp hheld).1
  obtain ⟨hseen, htracked, howned, hdoomed⟩ := haccounted.cleared hat (.inl hheld)
  have hentry := entry_put hmap
  have hin : g.entry prj ≠ none := by
    rw [hat]
    exact Option.some_ne_none dp
  have hahead : Function.update g.contents dp.toPoint none (dp.move dp.direction) = none :=
    (Function.update_of_ne (dp.move_ne _) _ _).trans hempty
  refine ⟨?_, ?_, ?_, ?_⟩
  · rw [hcontents, hclients]
    exact hseen.other _ (.of_empty hahead)
  · rw [hcontents, hentry]
    refine htracked.put ⟨dp.move dp.direction, dp.direction⟩ hahead ?_ halive ?_
    · intro q hq
      exact ((htracked q prj).mp hq).1 List.mem_cons_self
    · intro other hother
      rw [List.mem_cons, or_iff_right hother]
  · rw [hentry, hfired, hserial]
    exact howned.fly hin _
  · rw [hentry]
    refine Doomed.fly ?_ hin _
    intro prj' hprj'
    exact hdoomed prj' (List.mem_cons_of_mem _ hprj')

theorem Flight.accounted (hflight : Flight g prj dp more next) (haccounted : g.Accounted dead)
    (hat : g.entry prj = some dp)
    (hregular : g.contents dp.toPoint = some (.projectile prj) ∨ g.Spent dp) :
    next.Accounted (dead ++ more) := by
  have hheld := hregular.imp_right And.left
  cases hflight with
  | wall hwall =>
      refine (haccounted.cleared hat hheld).dead_congr ?_
      intro other
      rw [List.mem_append, List.mem_singleton, List.mem_cons, or_comm]
  | kills hopen hahead hkill =>
      -- One that is spent has no client before it.
      have hstands : g.contents dp.toPoint = some (.projectile prj) := by
        rcases hregular with hstands | ⟨_, hwall | ⟨_, hclear⟩⟩
        · exact hstands
        · exact absurd hwall hopen
        · exact absurd hahead (hclear.ne _)
      obtain ⟨hmap, _⟩ := hkill.books_eq
      have hmid := haccounted.changes hkill
      have hat' := hat
      rw [entry, ← hmap] at hat'
      have hthere := (haccounted.tracked _ _).mp hstands
      have hstands' := (hmid.tracked dp.toPoint prj).mpr ⟨hthere.1, by rw [entry, hat']; rfl⟩
      refine (hmid.cleared hat' (.inl hstands')).dead_congr ?_
      intro other
      rw [List.mem_append, List.mem_singleton, List.mem_cons, or_comm]
  | @meets other hopen hahead =>
      obtain ⟨_, hother⟩ := (haccounted.tracked _ _).mp hahead
      obtain ⟨dp', hat', hpoint⟩ := Option.map_eq_some_iff.mp hother
      rw [← hpoint] at hahead ⊢
      have hne : dp.toPoint ≠ dp'.toPoint := by
        rw [hpoint]
        exact (dp.move_ne _).symm
      have hone := haccounted.cleared hat' (.inl hahead)
      have hheld' : Function.update g.contents dp'.toPoint none dp.toPoint =
          some (.projectile prj) ∨
          Function.update g.contents dp'.toPoint none dp.toPoint = none := by
        rw [Function.update_of_ne hne]
        exact hheld
      refine (hone.cleared hat hheld').dead_congr ?_
      intro prj'
      simp only [List.mem_append, List.mem_cons, List.not_mem_nil, or_false]
      tauto
  | flies hopen hahead =>
      have hstands : g.contents dp.toPoint = some (.projectile prj) := by
        rcases hregular with hstands | ⟨_, hwall | ⟨hsome, _⟩⟩
        · exact hstands
        · exact absurd hwall hopen
        · exact absurd hahead hsome
      rw [List.append_nil]
      exact haccounted.flown hat hstands hahead rfl rfl rfl rfl rfl

/-- What is in the map is accounted for as long as the thread lives. -/
def Orderly (g : Game Client) : Prop :=
  g.pass ≠ .ended → g.Accounted g.pass.dead

theorem Orderly.accounted {pass : Pass Client} (horderly : g.Orderly) (hpass : g.pass = pass)
    (hlives : pass ≠ .ended) : g.Accounted pass.dead := by
  subst hpass
  exact horderly hlives

abbrev KeepsOrder (body : Op Client α) (g : Game Client) : Prop :=
  Prog.wp body (fun _ next => next.Orderly) (fun _ next => next.Orderly) (fun _ => True) g

theorem Accounted.orderly (haccounted : g.Accounted dead) (hpass : g.pass.dead = dead) :
    g.Orderly := by
  intro _
  rw [hpass]
  exact haccounted

theorem Accounted.changes_orderly (haccounted : g.Accounted g.pass.dead)
    (hchanges : Changes g next) : next.Orderly := by
  refine (haccounted.changes hchanges).orderly ?_
  rw [hchanges.books_eq.2]

theorem OnlyChanges.orderly {body : Op Client α} (hbody : OnlyChanges body g)
    (haccounted : g.Accounted g.pass.dead) : KeepsOrder body g := by
  refine Prog.wp_mono hbody ?_ ?_ (fun _ h => h)
  · intro _ next hchanges
    exact haccounted.changes_orderly hchanges
  · intro _ next hchanges
    exact haccounted.changes_orderly hchanges

theorem addClientPoint_orderly (turns : Nat) (haccounted : g.Accounted g.pass.dead)
    (hvacant : g.Vacant c p) : KeepsOrder (addClientPoint turns c p) g := by
  refine Prog.wp_mono (addClientPoint_joins turns c p g) ?_ ?_ (fun _ h => h)
  · intro _ next ⟨d, _, _, hdrawn⟩
    refine ((haccounted.joined ⟨p, d⟩ hvacant).drawn hdrawn).orderly ?_
    obtain ⟨draws, directions, rfl⟩ := hdrawn
    rfl
  · rintro _ _ ⟨_, rfl⟩
    exact haccounted.orderly rfl

theorem addClient_orderly (turns : Nat) (haccounted : g.Accounted g.pass.dead) :
    KeepsOrder (addClient turns c) g := by
  rw [KeepsOrder, addClient, Prog.wp_bind]
  refine Prog.wp_mono (emptyPoint_wp turns g) ?_ ?_ (fun _ h => h)
  · rintro p _ ⟨hempty, _, draws, directions, rfl⟩
    have hnext := haccounted.drawn ⟨draws, directions, rfl⟩
    refine addClientPoint_orderly turns hnext ?_
    rw [Vacant, show g.contents p = none from hempty]
    exact trivial
  · rintro _ _ ⟨draws, directions, rfl⟩
    exact (haccounted.drawn ⟨draws, directions, rfl⟩).orderly rfl

theorem clientFire_orderly (turns : Nat) (hsleeping : g.pass = .sleeping)
    (haccounted : g.Accounted g.pass.dead) : KeepsOrder (clientFire turns c) g := by
  refine Prog.wp_mono (clientFire_changes turns c g) ?_ ?_ (fun _ h => h)
  · rintro _ next (hchanges | ⟨dp, hfired, hempty, rfl⟩)
    · exact haccounted.changes_orderly hchanges
    · rw [hsleeping] at haccounted
      refine Accounted.orderly (haccounted.launched hfired hempty) ?_
      change g.pass.modify.dead = []
      rw [hsleeping]
      rfl
  · intro _ next hchanges
    exact haccounted.changes_orderly hchanges

theorem startPass_orderly (order : List (Projectile Client)) (horderly : g.Orderly) :
    KeepsOrder (startPass order) g := by
  rw [KeepsOrder, startPass, Prog.wp_bind, Prog.wp_get, Prog.wp_ite]
  split
  case isTrue hstart =>
    exact ((horderly.accounted hstart.1 (by simp)).pass (.moving order [] false)).orderly rfl
  case isFalse => exact horderly

/-- The next projectile is in its cell, or it is dead and comes to nothing. -/
def NextRegular (g : Game Client) : Prop :=
  ∀ prj ∈ g.pass.next, g.Regular prj

instance (g : Game Client) : Decidable g.NextRegular :=
  inferInstanceAs (Decidable (∀ _ ∈ _, _))

theorem nextProjectile_orderly (turns : Nat) (horderly : g.Orderly)
    (hregular : g.NextRegular) : KeepsOrder (nextProjectile turns) g := by
  rw [KeepsOrder, nextProjectile, Prog.wp_bind, Prog.wp_get]
  split
  case h_1 deadPrj modified hpass =>
    exact ((horderly.accounted hpass (by simp)).pass (.removing deadPrj)).orderly rfl
  case h_2 => exact fun hlives => absurd rfl hlives
  case h_3 prj rest deadPrj hpass =>
    have haccounted := horderly.accounted hpass (by simp)
    have hnext : g.pass.next = some prj := by
      rw [hpass]
      rfl
    rw [Prog.wp_bind, Prog.wp_attempt]
    refine Prog.wp_mono (moveProjectile_flight turns prj g) ?_ ?_ (fun _ h => h)
    · rintro dead next ⟨dp, hat, hflight⟩
      have hmoved := hflight.accounted haccounted hat (hregular prj hnext dp hat)
      exact (hmoved.pass (.moving rest (deadPrj ++ dead) false)).orderly rfl
    · intro _ next _ hlives
      exact absurd rfl hlives
  case h_4 => exact horderly

theorem removeDead_orderly (horderly : g.Orderly) : KeepsOrder removeDead g := by
  rw [KeepsOrder, removeDead, Prog.wp_bind, Prog.wp_get]
  split
  case h_1 hpass =>
    exact ((horderly.accounted hpass (by simp)).pass .sleeping).orderly rfl
  case h_2 prj rest hpass =>
    have haccounted := horderly.accounted hpass (by simp)
    refine Accounted.orderly ?_ (Eq.refl rest)
    exact haccounted.removed rfl rfl rfl rfl rfl
  case h_3 => exact horderly

end Entries

end Game

namespace Call

variable {Client : Type} [DecidableEq Client] {g next : Game Client}

open Game

/-- A step of the thread that moves the projectiles. -/
def ofThread : Call Client → Bool
  | startPass _ => true
  | nextProjectile => true
  | removeDead => true
  | _ => false

/-- Nothing comes between the steps of a pass. -/
def Alone (call : Call Client × Nat) (g : Game Client) : Prop :=
  call.1.ofThread = true ∨ g.pass = .sleeping

/-- A client is put where there is no projectile, and no other client of the
map; a projectile that is moved is in its cell, or comes to nothing. -/
def KeepsBooks (call : Call Client × Nat) (g : Game Client) : Prop :=
  match call.1 with
  | addClientAt client x y _ => g.Vacant client ⟨x, y⟩
  | nextProjectile => g.NextRegular
  | _ => True

instance (call : Call Client × Nat) (g : Game Client) : Decidable (Alone call g) :=
  inferInstanceAs (Decidable (_ ∨ _))

instance : ∀ (call : Call Client × Nat) (g : Game Client), Decidable (KeepsBooks call g)
  | (addClientAt client x y _, _), g => inferInstanceAs (Decidable (g.Vacant client ⟨x, y⟩))
  | (nextProjectile, _), g => inferInstanceAs (Decidable g.NextRegular)
  | (addClient _, _), _ => inferInstanceAs (Decidable True)
  | (removeClient _, _), _ => inferInstanceAs (Decidable True)
  | (moveClientForward _, _), _ => inferInstanceAs (Decidable True)
  | (moveClientBackward _, _), _ => inferInstanceAs (Decidable True)
  | (turnLeft _, _), _ => inferInstanceAs (Decidable True)
  | (turnRight _, _), _ => inferInstanceAs (Decidable True)
  | (clientFire _, _), _ => inferInstanceAs (Decidable True)
  | (killClient _, _), _ => inferInstanceAs (Decidable True)
  | (startPass _, _), _ => inferInstanceAs (Decidable True)
  | (removeDead, _), _ => inferInstanceAs (Decidable True)

theorem op_orderly (call : Call Client × Nat) (horderly : g.Orderly) (halone : Alone call g)
    (hkeeps : KeepsBooks call g) : KeepsOrder (call.1.op call.2) g := by
  obtain ⟨call, turns⟩ := call
  by_cases hthread : call.ofThread = true
  case pos =>
    cases call with
    | startPass order => exact startPass_orderly order horderly
    | nextProjectile => exact nextProjectile_orderly turns horderly hkeeps
    | removeDead => exact removeDead_orderly horderly
    | _ => cases hthread
  case neg =>
    have hsleeping := halone.resolve_left hthread
    have haccounted : g.Accounted g.pass.dead := by
      rw [hsleeping]
      exact horderly.accounted hsleeping nofun
    cases call with
    | addClient client => exact addClient_orderly turns haccounted
    | addClientAt client x y d => exact addClientPoint_orderly turns haccounted hkeeps
    | removeClient client => exact (removeClient_changes client g).orderly haccounted
    | moveClientForward client =>
        rw [KeepsOrder, op, Prog.wp_bind]
        exact (moveClientForward_changes client g).orderly haccounted
    | moveClientBackward client =>
        rw [KeepsOrder, op, Prog.wp_bind]
        exact (moveClientBackward_changes client g).orderly haccounted
    | turnLeft client =>
        exact (clientUpdate_changes Direction.turnLeft client g).orderly haccounted
    | turnRight client =>
        exact (clientUpdate_changes Direction.turnRight client g).orderly haccounted
    | clientFire client =>
        rw [KeepsOrder, op, Prog.wp_bind]
        exact clientFire_orderly turns hsleeping haccounted
    | killClient target => exact (killClient_changes turns target g).orderly haccounted
    | startPass order => exact absurd rfl hthread
    | nextProjectile => exact absurd rfl hthread
    | removeDead => exact absurd rfl hthread

end Call

namespace Game

theorem start_orderly (m : MazeImpl) (directions : Nat → Direction) [DecidableEq Client] :
    (start m directions : Game Client).Orderly := by
  intro _
  refine ⟨?_, ?_, ⟨?_, ?_, ?_⟩, ?_⟩
  · intro c dp hat
    cases hat
  · intro p prj
    exact iff_of_false (by simp [start]) (by simp [start, entry])
  · intro c
    exact iff_of_false (by simp [start]) (by simp [start, entry])
  · intro prj prj' hprj
    exact absurd rfl hprj
  · intro prj hprj
    exact absurd rfl hprj
  · intro prj hprj
    cases hprj

/-- In a run in which no client is put on a projectile or on another client, and
no projectile that is dead flies on, the cells, the map and `clientFired` agree
whenever the thread sleeps. -/
theorem booked_of_runs [DecidableEq Client] {g : Game Client} (m : MazeImpl)
    (directions : Nat → Direction)
    (hruns : Runs Call.run (fun call g => Call.Alone call g ∧ Call.KeepsBooks call g)
      (start m directions) g) (hsleeping : g.pass = .sleeping) : g.Booked := by
  have horderly : g.Orderly := by
    refine hruns.preserves ?_ (start_orderly m directions)
    intro call s next hs hmeets hrun
    exact (Call.op_orderly call hs hmeets.1 hmeets.2).leaves hrun
  exact (horderly.accounted hsleeping nofun).booked

/-- Cells in a row. -/
private def lane (length : Nat) : Game Nat :=
  let fresh := MazeImpl.fresh length 1 fun n => n / 2
  start ((MazeImpl.construct fresh).stateD fresh) fun n => if n % 2 = 0 then .east else .west

private def onePass (order : List (Projectile Nat)) (dead : Nat) : List (Call Nat × Nat) :=
  (.startPass order, 0) :: List.replicate (order.length + 1) (.nextProjectile, 0) ++
    List.replicate (dead + 1) (.removeDead, 0)

/-- One shot, which flies one cell and ends at the wall. -/
private def shot : List (Call Nat × Nat) :=
  [(.addClientAt 0 0 0 .north, 4), (.clientFire 0, 4)] ++ onePass [⟨0, 0⟩] 0 ++
    onePass [⟨0, 0⟩] 1

theorem booked_of_shot :
    (runAll Call.run shot (lane 3)).clientFired 0 = false ∧
      (runAll Call.run shot (lane 3)).Booked :=
  ⟨by decide +kernel,
    booked_of_runs _ _ (runs_runAll shot (lane 3) (by decide +kernel)) (by decide +kernel)⟩

/-- Two face each other and fire; the projectiles meet, and the pass goes on with
the second one. -/
private def volley : List (Call Nat × Nat) :=
  [(.addClientAt 0 0 0 .north, 4), (.addClientAt 1 3 0 .north, 4), (.clientFire 0, 4),
    (.clientFire 1, 4)] ++ (onePass [⟨0, 0⟩, ⟨1, 1⟩] 2).dropLast

theorem removeDead_last [DecidableEq Client] {g : Game Client} (turns : Nat)
    (hpass : g.pass = .removing []) :
    Call.run (.removeDead, turns) g = some { g with pass := .sleeping } := by
  have hop : removeDead g = .ok () { g with pass := .sleeping } := by
    simp only [removeDead, Bind.bind, Prog.andThen, Prog.get, hpass]
    rfl
  rw [Call.run, Call.op, hop]
  rfl

/-- The second projectile is out of the map and in the cell of the first. -/
theorem booked_fails_head_on :
    ¬∀ (m : MazeImpl) (directions : Nat → Direction) (g next : Game Nat) (turns : Nat),
      Runs Call.run Call.Alone (start m directions) g → g.pass = .removing [] →
      Call.run (.removeDead, turns) g = some next → next.Booked := by
  intro hall
  have hruns : Runs Call.run Call.Alone (lane 4) (runAll Call.run volley (lane 4)) :=
    runs_runAll volley (lane 4) (by decide +kernel)
  have hpass : (runAll Call.run volley (lane 4)).pass = .removing [] := by decide +kernel
  have hgone : (runAll Call.run volley (lane 4)).entry ⟨1, 1⟩ = none := by decide +kernel
  have hheld : (runAll Call.run volley (lane 4)).contents ⟨1, 0⟩ =
      some (.projectile ⟨1, 1⟩) := by
    decide +kernel
  generalize runAll Call.run volley (lane 4) = g at hruns hpass hgone hheld
  have hbooked := hall _ _ g _ 0 hruns hpass (removeDead_last 0 hpass)
  exact hbooked.destroyed ⟨1, 0⟩ ⟨1, 1⟩ hgone hheld

end Game

end OS161.Mazewar
