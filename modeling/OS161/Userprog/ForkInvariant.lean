import OS161.Userprog.Fork

namespace OS161.Userprog.Fork

open OS161.Data
open OS161.Threads

/-! What every run that keeps to the order of `Call.InOrder` preserves. -/

namespace State

def Holds (s : State) (t : Tid) : Prop :=
  ∃ addr, s.forkC.pidLock = some ⟨addr, some t⟩

/-- The birth has a pid with an entry. -/
def Listed (s : State) (program : Nat) : Prop :=
  ∃ pid, s.number program = some pid ∧ pid ∈ s.pids

/-- What a call of `sys_fork` by `t` has done for its child so far. -/
def Pending (s : State) (t : Tid) (program : Nat) : Stage → Prop
  | .lock | .asleep => s.number program = none
  | .locked => s.Holds t ∧ s.number program = none
  | .numbered => s.Holds t ∧ s.number program = some s.forkC.globalPid ∧
      s.forkC.globalPid ∉ s.pids
  | .created newPid => s.Holds t ∧ s.number program = some s.forkC.globalPid ∧
      s.forkC.globalPid ∉ s.pids ∧ newPid.pid = s.forkC.globalPid
  | .appended => s.Holds t ∧ s.Listed program
  | .released => s.Listed program

variable {s next : State}

theorem Holds.unique (ht : s.Holds t) (hu : s.Holds u) : t = u := by
  obtain ⟨addr, hlock⟩ := ht
  obtain ⟨addr', hlock'⟩ := hu
  rw [hlock] at hlock'
  cases hlock'
  rfl

/-- The stage stands on the lock, the number and the list of pids only. -/
theorem Pending.congr {stage : Stage} (hpending : s.Pending t program stage)
    (hlock : stage.locks = true → s.Holds t → next.Holds t) (hnumber : next.number = s.number)
    (hglobal : next.forkC.globalPid = s.forkC.globalPid) (hpids : next.pids = s.pids) :
    next.Pending t program stage := by
  cases stage with
  | lock =>
      rw [Pending, hnumber]
      exact hpending
  | asleep =>
      rw [Pending, hnumber]
      exact hpending
  | locked =>
      rw [Pending, hnumber]
      exact ⟨hlock rfl hpending.1, hpending.2⟩
  | numbered =>
      rw [Pending, hnumber, hglobal, hpids]
      exact ⟨hlock rfl hpending.1, hpending.2⟩
  | created newPid =>
      rw [Pending, hnumber, hglobal, hpids]
      exact ⟨hlock rfl hpending.1, hpending.2⟩
  | appended =>
      rw [Pending, Listed, hnumber, hpids]
      exact ⟨hlock rfl hpending.1, hpending.2⟩
  | released =>
      rw [Pending, Listed, hnumber, hpids]
      exact hpending

/-- Another thread holds the lock: the stage is outside it, and needs only what
that thread leaves alone. -/
theorem Pending.outside {stage : Stage} (hpending : s.Pending u program stage)
    (hholds : s.Holds t) (hne : u ≠ t)
    (hunnumbered : stage.registers = true → s.number program = none →
      next.number program = none)
    (hlisted : s.Listed program → next.Listed program) : next.Pending u program stage := by
  cases stage with
  | lock => exact hunnumbered rfl hpending
  | asleep => exact hunnumbered rfl hpending
  | released => exact hlisted hpending
  | locked => exact absurd (hpending.1.unique hholds) hne
  | numbered => exact absurd (hpending.1.unique hholds) hne
  | created newPid => exact absurd (hpending.1.unique hholds) hne
  | appended => exact absurd (hpending.1.unique hholds) hne

end State

/-- The pids, and who is to be in the list. -/
structure Registry (s : State) : Prop where
  inv : Config.Inv s.config
  calm : s.panicked = false
  nonempty : s.forkC.pidlist ≠ []
  nodup : s.pids.Nodup
  bounded : ∀ pid ∈ s.pids, pid ≤ s.forkC.globalPid
  births : ∀ t, s.birth t < s.born
  live : ∀ t, (s.point t).isProcess = true → t ∈ s.config.live
  unique : ∀ t u, (s.point t).isProcess = true → s.birth u = s.birth t → u = t
  running : ∀ t, (s.point t).isProcess = true → s.exitedWith (s.birth t) = none
  numbers : ∀ program pid, s.number program = some pid →
    program < s.born ∧ pid ≤ s.forkC.globalPid
  injective : ∀ program other pid, s.number program = some pid → s.number other = some pid →
    program = other
  pid : ∀ t pid, s.number (s.birth t) = some pid → s.pid t = pid
  children : ∀ t child program, (s.point t).registering = some (child, program) →
    (s.point child).isProcess = true ∧ s.birth child = program
  parents : ∀ t u child child' program, (s.point t).registering = some (child, program) →
    (s.point u).registering = some (child', program) → t = u
  registered : ∀ t, (s.point t).isProcess = true →
    s.Listed (s.birth t) ∨ ∃ u, (s.point u).registering = some (t, s.birth t)
  done : ∀ result ∈ s.done, s.number result.program = some result.pid ∧ result.pid ∈ s.pids
  exits : ∀ program exitcode, s.exitedWith program = some exitcode →
    ∃ entry ∈ s.forkC.pidlist, s.number program = some entry.pid ∧
      entry.hasExited = true ∧ entry.exitcode = exitcode

structure Inv (s : State) : Prop extends Registry s where
  stages : ∀ t stage child program, s.point t = .forking stage child program →
    s.Pending t program stage

theorem isProcess_of_registering {point : Point} (hregistering : point.registering = some parent) :
    point.isProcess = true := by
  cases point with
  | forking stage child program => rfl
  | _ => cases hregistering

namespace Registry

variable {s next : State}

theorem of_start (hstart : Start s) : Registry s where
  inv := hstart.inv
  calm := hstart.calm
  nonempty := hstart.nonempty
  nodup := hstart.nodup
  bounded := hstart.bounded
  births := hstart.births
  live := hstart.live
  unique := hstart.unique
  running := fun t _ => hstart.running (s.birth t)
  numbers := hstart.numbers
  injective := hstart.injective
  pid := hstart.pid
  children := by
    intro t child program hregistering
    rw [hstart.not_registering] at hregistering
    cases hregistering
  parents := by
    intro t u child child' program hregistering
    rw [hstart.not_registering] at hregistering
    cases hregistering
  registered := fun t hprocess => .inl ⟨s.pid t, hstart.listed t hprocess⟩
  done := by
    rw [hstart.done]
    intro result hmem
    cases hmem
  exits := by
    intro program exitcode hexited
    rw [hstart.running] at hexited
    cases hexited

theorem registering_born (h : Registry s)
    (hregistering : (s.point u).registering = some (child, program)) : program < s.born := by
  rw [← (h.children u child program hregistering).2]
  exact h.births child

theorem number_born (h : Registry s) : s.number s.born = none := by
  cases hnumber : s.number s.born with
  | none => rfl
  | some pid => exact absurd (h.numbers _ _ hnumber).1 (Nat.lt_irrefl _)

/-- Calls that keep the processes alive and leave their places alone. -/
theorem setConfig (h : Registry s) (hinv : Config.Inv config)
    (hlive : ∀ t, (s.point t).isProcess = true → t ∈ config.live) :
    Registry { s with config := config } :=
  ⟨hinv, h.calm, h.nonempty, h.nodup, h.bounded, h.births, hlive, h.unique, h.running, h.numbers,
    h.injective, h.pid, h.children, h.parents, h.registered, h.done, h.exits⟩

theorem setLock (h : Registry s) : Registry { s with forkC.pidLock := pidLock } :=
  ⟨h.inv, h.calm, h.nonempty, h.nodup, h.bounded, h.births, h.live, h.unique, h.running,
    h.numbers, h.injective, h.pid, h.children, h.parents, h.registered, h.done, h.exits⟩

section Moved

variable {place : Point}

theorem isProcess_moved (hprocess : place.isProcess = (s.point t).isProcess) (u : Tid) :
    ((s.moved t place).point u).isProcess = (s.point u).isProcess := by
  simp only [State.moved, Function.update_apply]
  split
  case isTrue heq => rw [heq, hprocess]
  case isFalse => rfl

/-- A thread goes on; it is through with the child it registers only if that has
its entry. -/
theorem moved (h : Registry s) (hprocess : place.isProcess = (s.point t).isProcess)
    (hregistering : place.registering ≠ none → place.registering = (s.point t).registering)
    (hlisted : ∀ child program, (s.point t).registering = some (child, program) →
      place.registering = none → s.Listed program) : Registry (s.moved t place) := by
  have hbefore : ∀ u parent, ((s.moved t place).point u).registering = some parent →
      (s.point u).registering = some parent := by
    intro u parent hu
    simp only [State.moved, Function.update_apply] at hu
    split at hu
    case isTrue heq =>
      rw [heq, ← hregistering (by rw [hu]; exact Option.some_ne_none _)]
      exact hu
    case isFalse => exact hu
  constructor
  case inv => exact h.inv
  case calm => exact h.calm
  case nonempty => exact h.nonempty
  case nodup => exact h.nodup
  case bounded => exact h.bounded
  case births => exact h.births
  case live =>
    intro u hu
    rw [isProcess_moved hprocess] at hu
    exact h.live u hu
  case unique =>
    intro u v hu
    rw [isProcess_moved hprocess] at hu
    exact h.unique u v hu
  case running =>
    intro u hu
    rw [isProcess_moved hprocess] at hu
    exact h.running u hu
  case numbers => exact h.numbers
  case injective => exact h.injective
  case pid => exact h.pid
  case children =>
    intro u child program hu
    rw [isProcess_moved hprocess]
    exact h.children u child program (hbefore u _ hu)
  case parents =>
    intro u v child child' program hu hv
    exact h.parents u v child child' program (hbefore u _ hu) (hbefore v _ hv)
  case registered =>
    intro u hu
    rw [isProcess_moved hprocess] at hu
    cases h.registered u hu with
    | inl hentry => exact .inl hentry
    | inr hparent =>
        obtain ⟨v, hv⟩ := hparent
        by_cases hvt : v = t
        · subst hvt
          cases hplace : place.registering with
          | none => exact .inl (hlisted u _ hv hplace)
          | some parent =>
              refine .inr ⟨v, ?_⟩
              simp only [State.moved, Function.update_self]
              rw [hregistering (by rw [hplace]; exact Option.some_ne_none _)]
              exact hv
        · refine .inr ⟨v, ?_⟩
          simp only [State.moved, Function.update_of_ne hvt]
          exact hv
  case done => exact h.done
  case exits => exact h.exits

end Moved

/-! `thread_fork`: the parent begins to register the child. -/

section Forked

variable {newguy t : Tid}

theorem forkedPlaces_child (hne : newguy ≠ t) : s.forkedPlaces newguy t newguy = .user := by
  rw [State.forkedPlaces, Function.update_of_ne hne, Function.update_self]

theorem forkedPlaces_parent : s.forkedPlaces newguy t t = .forking .lock newguy s.born := by
  rw [State.forkedPlaces, Function.update_self]

theorem forkedPlaces_other (ht : u ≠ t) (hnewguy : u ≠ newguy) :
    s.forkedPlaces newguy t u = s.point u := by
  rw [State.forkedPlaces, Function.update_of_ne ht, Function.update_of_ne hnewguy]

theorem isProcess_forkedPlaces (hprocess : (s.point t).isProcess = true) (hu : u ≠ newguy) :
    (s.forkedPlaces newguy t u).isProcess = (s.point u).isProcess := by
  by_cases hut : u = t
  · rw [hut, forkedPlaces_parent, hprocess]
    rfl
  · rw [forkedPlaces_other hut hu]

theorem registering_forkedPlaces (hne : newguy ≠ t)
    (hregistering : (s.forkedPlaces newguy t u).registering = some (child, program)) :
    u = t ∧ child = newguy ∧ program = s.born ∨
      u ≠ t ∧ (s.point u).registering = some (child, program) := by
  by_cases hut : u = t
  · left
    rw [hut, forkedPlaces_parent] at hregistering
    cases hregistering
    exact ⟨hut, rfl, rfl⟩
  · by_cases hun : u = newguy
    · rw [hun, forkedPlaces_child hne] at hregistering
      cases hregistering
    · rw [forkedPlaces_other hut hun] at hregistering
      exact .inr ⟨hut, hregistering⟩

theorem forked (h : Registry s) (huser : s.point t = .user) (hnew : newguy ∉ s.config.live)
    (hinv : Config.Inv config) (hlive : config.live = insert newguy s.config.live) :
    Registry { s with
      config := config
      pid := Function.update s.pid newguy 0
      birth := Function.update s.birth newguy s.born
      born := s.born + 1
      point := s.forkedPlaces newguy t } := by
  have hprocess : (s.point t).isProcess = true := by
    rw [huser]
    rfl
  have hnewPlace : (s.point newguy).isProcess ≠ true := fun hold => hnew (h.live newguy hold)
  have hne : newguy ≠ t := fun heq => hnewPlace (heq ▸ hprocess)
  have hbirth : ∀ u, u ≠ newguy → Function.update s.birth newguy s.born u = s.birth u :=
    fun u hu => Function.update_of_ne hu _ _
  constructor
  case inv => exact hinv
  case calm => exact h.calm
  case nonempty => exact h.nonempty
  case nodup => exact h.nodup
  case bounded => exact h.bounded
  case births =>
    intro u
    have hu := h.births u
    simp only [Function.update_apply]
    split <;> omega
  case live =>
    intro u hu
    change u ∈ config.live
    rw [hlive]
    by_cases heq : u = newguy
    · exact Finset.mem_insert.mpr (.inl heq)
    · exact Finset.mem_insert_of_mem
        (h.live u ((isProcess_forkedPlaces hprocess heq).symm.trans hu))
  case unique =>
    intro u v hu hsame
    simp only [Function.update_apply] at hsame
    have hbu := h.births u
    have hbv := h.births v
    split at hsame
    case isTrue hv =>
      split at hsame
      case isTrue hun => exact hv.trans hun.symm
      case isFalse => omega
    case isFalse =>
      split at hsame
      case isTrue => omega
      case isFalse hun =>
        exact h.unique u v ((isProcess_forkedPlaces hprocess hun).symm.trans hu) hsame
  case running =>
    intro u hu
    by_cases heq : u = newguy
    · simp only [heq, Function.update_self]
      cases hexited : s.exitedWith s.born with
      | none => rfl
      | some exitcode =>
          obtain ⟨entry, -, hnumber, -⟩ := h.exits _ _ hexited
          rw [h.number_born] at hnumber
          cases hnumber
    · simp only [hbirth u heq]
      exact h.running u ((isProcess_forkedPlaces hprocess heq).symm.trans hu)
  case numbers =>
    intro program pid hnumber
    obtain ⟨hlt, hle⟩ := h.numbers program pid hnumber
    exact ⟨Nat.lt_succ_of_lt hlt, hle⟩
  case injective => exact h.injective
  case pid =>
    intro u pid hnumber
    by_cases heq : u = newguy
    · simp only [heq, Function.update_self] at hnumber
      rw [h.number_born] at hnumber
      cases hnumber
    · simp only [hbirth u heq] at hnumber
      simp only [Function.update_of_ne heq]
      exact h.pid u pid hnumber
  case children =>
    intro u child program hu
    cases registering_forkedPlaces hne hu with
    | inl hparent =>
        obtain ⟨-, rfl, rfl⟩ := hparent
        refine ⟨?_, Function.update_self ..⟩
        simp only [forkedPlaces_child hne]
        rfl
    | inr hbefore =>
        obtain ⟨halive, hborn⟩ := h.children u child program hbefore.2
        have hold : child ≠ newguy := fun heq => hnewPlace (heq ▸ halive)
        refine ⟨(isProcess_forkedPlaces hprocess hold).trans halive, ?_⟩
        simp only [hbirth child hold]
        exact hborn
  case parents =>
    intro u v child child' program hu hv
    -- Only the parent registers the new birth.
    cases registering_forkedPlaces hne hu with
    | inl hparent =>
        obtain ⟨rfl, -, rfl⟩ := hparent
        cases registering_forkedPlaces hne hv with
        | inl hother => exact hother.1.symm
        | inr hbefore => exact absurd (h.registering_born hbefore.2) (Nat.lt_irrefl _)
    | inr hbefore =>
        cases registering_forkedPlaces hne hv with
        | inl hother =>
            obtain ⟨-, -, rfl⟩ := hother
            exact absurd (h.registering_born hbefore.2) (Nat.lt_irrefl _)
        | inr hother => exact h.parents u v child child' program hbefore.2 hother.2
  case registered =>
    intro u hu
    by_cases heq : u = newguy
    · refine .inr ⟨t, ?_⟩
      simp only [heq, forkedPlaces_parent, Function.update_self]
      rfl
    · simp only [hbirth u heq]
      cases h.registered u ((isProcess_forkedPlaces hprocess heq).symm.trans hu) with
      | inl hlisted => exact .inl hlisted
      | inr hparent =>
          obtain ⟨v, hv⟩ := hparent
          have hvn : v ≠ newguy := fun hvn => hnewPlace (hvn ▸ isProcess_of_registering hv)
          have hvt : v ≠ t := by
            intro hvt
            rw [hvt, huser] at hv
            cases hv
          refine .inr ⟨v, ?_⟩
          simp only [forkedPlaces_other hvt hvn]
          exact hv
  case done => exact h.done
  case exits => exact h.exits

end Forked

/-! `get_newpid` for a child without a number. -/

section Numbered

/-- The next pid goes to the child. -/
def numbered (s : State) (child : Tid) (program : Nat) : State := { s with
  forkC.globalPid := s.forkC.globalPid + 1
  pid := Function.update s.pid child (s.forkC.globalPid + 1)
  number := Function.update s.number program (some (s.forkC.globalPid + 1)) }

theorem numbered_keeps {pid : Nat} (hunnumbered : s.number program = none)
    (hnumber : s.number other = some pid) : (numbered s child program).number other = some pid := by
  have hne : other ≠ program := by
    intro heq
    rw [heq, hunnumbered] at hnumber
    cases hnumber
  simp only [numbered, Function.update_of_ne hne]
  exact hnumber

theorem numbered_listed (hunnumbered : s.number program = none) (hlisted : s.Listed other) :
    (numbered s child program).Listed other := by
  obtain ⟨pid, hnumber, hmem⟩ := hlisted
  exact ⟨pid, numbered_keeps hunnumbered hnumber, hmem⟩

theorem setNumber (h : Registry s) (hunnumbered : s.number program = none)
    (halive : (s.point child).isProcess = true) (hborn : s.birth child = program) :
    Registry (numbered s child program) := by
  have hfresh : ∀ other, s.number other ≠ some (s.forkC.globalPid + 1) := by
    intro other hnumber
    have hle := (h.numbers other _ hnumber).2
    omega
  constructor
  case inv => exact h.inv
  case calm => exact h.calm
  case nonempty => exact h.nonempty
  case nodup => exact h.nodup
  case bounded => exact fun pid hmem => Nat.le_succ_of_le (h.bounded pid hmem)
  case births => exact h.births
  case live => exact h.live
  case unique => exact h.unique
  case running => exact h.running
  case numbers =>
    intro other pid hother
    simp only [numbered, Function.update_apply] at hother
    split at hother
    case isTrue heq =>
      cases hother
      refine ⟨?_, Nat.le_refl _⟩
      rw [heq, ← hborn]
      exact h.births child
    case isFalse =>
      obtain ⟨hlt, hle⟩ := h.numbers other pid hother
      exact ⟨hlt, Nat.le_succ_of_le hle⟩
  case injective =>
    intro first second pid hfirst hsecond
    simp only [numbered, Function.update_apply] at hfirst hsecond
    split at hfirst
    case isTrue heq =>
      cases hfirst
      split at hsecond
      case isTrue heq' => exact heq.trans heq'.symm
      case isFalse => exact absurd hsecond (hfresh second)
    case isFalse =>
      split at hsecond
      case isTrue =>
        cases hsecond
        exact absurd hfirst (hfresh first)
      case isFalse => exact h.injective first second pid hfirst hsecond
  case pid =>
    intro u pid hpid
    simp only [numbered, Function.update_apply] at hpid ⊢
    split at hpid
    case isTrue heq =>
      cases hpid
      rw [if_pos (h.unique child u halive (heq.trans hborn.symm))]
    case isFalse hne =>
      have hother : u ≠ child := fun heq => hne (heq ▸ hborn)
      rw [if_neg hother]
      exact h.pid u pid hpid
  case children => exact h.children
  case parents => exact h.parents
  case registered =>
    intro u hu
    cases h.registered u hu with
    | inl hlisted => exact .inl (numbered_listed hunnumbered hlisted)
    | inr hparent => exact .inr hparent
  case done =>
    intro result hmem
    obtain ⟨hpid, hentry⟩ := h.done result hmem
    exact ⟨numbered_keeps hunnumbered hpid, hentry⟩
  case exits =>
    intro other exitcode hexited
    obtain ⟨entry, hentry, hpid, hrest⟩ := h.exits other exitcode hexited
    exact ⟨entry, hentry, numbered_keeps hunnumbered hpid, hrest⟩

end Numbered

/-! A new entry at the end of the list. -/

section Appended

def appended (s : State) (newPid : PidEntry) : State :=
  { s with forkC.pidlist := s.forkC.pidlist ++ [newPid] }

theorem pids_appended (s : State) (newPid : PidEntry) :
    (appended s newPid).pids = s.pids ++ [newPid.pid] := by
  rw [State.pids, appended, List.map_append, List.map_singleton]
  rfl

theorem appended_listed (hlisted : s.Listed program) : (appended s newPid).Listed program := by
  obtain ⟨pid, hnumber, hmem⟩ := hlisted
  refine ⟨pid, hnumber, ?_⟩
  rw [pids_appended]
  exact List.mem_append_left _ hmem

theorem setAppended (h : Registry s) (hunlisted : newPid.pid ∉ s.pids)
    (hle : newPid.pid ≤ s.forkC.globalPid) : Registry (appended s newPid) where
  inv := h.inv
  calm := h.calm
  nonempty := List.append_ne_nil_of_right_ne_nil _ (List.cons_ne_nil _ _)
  nodup := by
    rw [pids_appended]
    refine List.nodup_append.mpr ⟨h.nodup, List.nodup_singleton _, ?_⟩
    intro pid hmem last hlast heq
    rw [List.mem_singleton] at hlast
    exact hunlisted (hlast ▸ heq ▸ hmem)
  bounded := by
    intro pid hmem
    rw [pids_appended, List.mem_append, List.mem_singleton] at hmem
    cases hmem with
    | inl hbefore => exact h.bounded pid hbefore
    | inr hlast =>
        rw [hlast]
        exact hle
  births := h.births
  live := h.live
  unique := h.unique
  running := h.running
  numbers := h.numbers
  injective := h.injective
  pid := h.pid
  children := h.children
  parents := h.parents
  registered := by
    intro u hu
    cases h.registered u hu with
    | inl hlisted => exact .inl (appended_listed hlisted)
    | inr hparent => exact .inr hparent
  done := by
    intro result hmem
    obtain ⟨hnumber, hentry⟩ := h.done result hmem
    refine ⟨hnumber, ?_⟩
    rw [pids_appended]
    exact List.mem_append_left _ hentry
  exits := by
    intro program exitcode hexited
    obtain ⟨entry, hentry, hrest⟩ := h.exits program exitcode hexited
    exact ⟨entry, List.mem_append_left _ hentry, hrest⟩

end Appended

/-! `sys_exit`: the thread is no process any more, and its entry has the code. -/

section Exited

theorem left (h : Registry s) (huser : s.point t = .user)
    (horder : ∀ u, (s.point u).registering ≠ some (t, s.birth t)) :
    Registry (s.moved t .exiting) := by
  have hprocesses : ∀ u, ((s.moved t .exiting).point u).isProcess = true →
      (s.point u).isProcess = true := by
    intro u hu
    simp only [State.moved, Function.update_apply] at hu
    split at hu
    case isTrue => cases hu
    case isFalse => exact hu
  have hregistering : ∀ u, ((s.moved t .exiting).point u).registering =
      (s.point u).registering := by
    intro u
    simp only [State.moved, Function.update_apply]
    split
    case isTrue heq =>
      rw [heq, huser]
      rfl
    case isFalse => rfl
  constructor
  case inv => exact h.inv
  case calm => exact h.calm
  case nonempty => exact h.nonempty
  case nodup => exact h.nodup
  case bounded => exact h.bounded
  case births => exact h.births
  case live => exact fun u hu => h.live u (hprocesses u hu)
  case unique => exact fun u v hu => h.unique u v (hprocesses u hu)
  case running => exact fun u hu => h.running u (hprocesses u hu)
  case numbers => exact h.numbers
  case injective => exact h.injective
  case pid => exact h.pid
  case children =>
    intro u child program hu
    rw [hregistering] at hu
    obtain ⟨halive, hborn⟩ := h.children u child program hu
    refine ⟨?_, hborn⟩
    have hother : child ≠ t := by
      intro heq
      subst heq
      rw [← hborn] at hu
      exact horder u hu
    simp only [State.moved, Function.update_of_ne hother]
    exact halive
  case parents =>
    intro u v child child' program hu hv
    rw [hregistering] at hu hv
    exact h.parents u v child child' program hu hv
  case registered =>
    intro u hu
    cases h.registered u (hprocesses u hu) with
    | inl hlisted => exact .inl hlisted
    | inr hparent =>
        obtain ⟨v, hv⟩ := hparent
        exact .inr ⟨v, (hregistering v).trans hv⟩
  case done => exact h.done
  case exits => exact h.exits

/-- The exit code of a birth with the pid, in the entry. -/
def recorded (s : State) (program pid : Nat) (exitcode : Int) : State := { s with
  forkC.pidlist := pidlistExit pid exitcode s.forkC.pidlist
  exitedWith := Function.update s.exitedWith program (some exitcode) }

theorem pids_recorded (s : State) (program pid : Nat) (exitcode : Int) :
    (recorded s program pid exitcode).pids = s.pids :=
  pidlistExit_pids pid exitcode s.forkC.pidlist

theorem recorded_listed {pid : Nat} (hlisted : s.Listed other) :
    (recorded s program pid exitcode).Listed other := by
  obtain ⟨number, hnumber, hmem⟩ := hlisted
  refine ⟨number, hnumber, ?_⟩
  rw [pids_recorded]
  exact hmem

theorem setRecorded {pid : Nat} (h : Registry s) (hnumber : s.number program = some pid)
    (hmem : pid ∈ s.pids) (hgone : ∀ u, (s.point u).isProcess = true → s.birth u ≠ program) :
    Registry (recorded s program pid exitcode) where
  inv := h.inv
  calm := h.calm
  nonempty := by
    intro hnil
    have hnone : (recorded s program pid exitcode).pids = [] :=
      congrArg (List.map PidEntry.pid) hnil
    rw [pids_recorded] at hnone
    rw [hnone] at hmem
    cases hmem
  nodup := by
    rw [pids_recorded]
    exact h.nodup
  bounded := by
    rw [pids_recorded]
    exact h.bounded
  births := h.births
  live := h.live
  unique := h.unique
  running := by
    intro u hu
    simp only [recorded, Function.update_of_ne (hgone u hu)]
    exact h.running u hu
  numbers := h.numbers
  injective := h.injective
  pid := h.pid
  children := h.children
  parents := h.parents
  registered := by
    intro u hu
    cases h.registered u hu with
    | inl hlisted => exact .inl (recorded_listed hlisted)
    | inr hparent => exact .inr hparent
  done := by
    rw [pids_recorded]
    exact h.done
  exits := by
    intro other code hexited
    simp only [recorded, Function.update_apply] at hexited
    split at hexited
    case isTrue heq =>
      cases hexited
      obtain ⟨entry, hentry, hpid, hdone⟩ := exists_mem_pidlistExit h.nodup hmem exitcode
      refine ⟨entry, hentry, ?_, hdone⟩
      rw [heq, hpid]
      exact hnumber
    case isFalse hne =>
      obtain ⟨entry, hentry, hother, hdone⟩ := h.exits other code hexited
      refine ⟨entry, ?_, hother, hdone⟩
      apply mem_pidlistExit_of_ne h.nodup hentry
      intro heq
      apply hne
      apply h.injective other program entry.pid hother
      rw [heq]
      exact hnumber

end Exited

end Registry

namespace Inv

open Registry

variable {s next : State}

theorem of_start (hstart : Start s) : Inv s where
  toRegistry := Registry.of_start hstart
  stages := fun t stage child program hpoint =>
    absurd hpoint (hstart.outside t stage child program)

theorem setConfig (h : Inv s) (hinv : Config.Inv config)
    (hlive : ∀ t, (s.point t).isProcess = true → t ∈ config.live) :
    Inv { s with config := config } :=
  ⟨h.toRegistry.setConfig hinv hlive, h.stages⟩

/-- The lock changes hands, but is not taken from a call that holds it. -/
theorem setLock (h : Inv s)
    (hlock : ∀ t stage child program, s.point t = .forking stage child program →
      stage.locks = true → s.Holds t → pidLock = s.forkC.pidLock) :
    Inv { s with forkC.pidLock := pidLock } := by
  refine ⟨h.toRegistry.setLock, ?_⟩
  intro t stage child program hpoint
  refine State.Pending.congr (h.stages t stage child program hpoint) ?_ ?_ ?_ ?_
  · intro hlocks hholds
    obtain ⟨addr, heq⟩ := hholds
    exact ⟨addr, (hlock t stage child program hpoint hlocks ⟨addr, heq⟩).trans heq⟩
  · rfl
  · rfl
  · rfl

theorem setProcs {procs : Procs} (h : Inv s)
    (houtside : ∀ stage child program, s.point t ≠ .forking stage child program)
    (hsearched : Procs.Searched t s.toProcs procs) : Inv { s with toProcs := procs } := by
  obtain ⟨config, pid, ⟨globalPid, pidLock, pidlist⟩, birth, born⟩ := procs
  obtain ⟨hstays, rfl, rfl, rfl, rfl, rfl, hheld⟩ := hsearched
  have hconfig : Inv { s with config := config } := by
    apply h.setConfig hstays.inv
    intro u hprocess
    rw [hstays.live]
    exact h.live u hprocess
  have hlock : Inv { s with config := config, forkC.pidLock := pidLock } := by
    apply hconfig.setLock
    intro u stage child program hpoint _ hholds
    obtain ⟨addr, heq⟩ := hholds
    have hne : t ≠ u := by
      intro heq
      subst heq
      exact houtside stage child program hpoint
    rw [heq]
    exact hheld _ heq fun hmine => hne (Option.some.inj hmine).symm
  exact hlock

/-- Only the thread that goes on comes to another stage. -/
theorem moved {place : Point} (h : Inv s) (hregistry : Registry (s.moved t place))
    (hstage : ∀ stage child program, place = .forking stage child program →
      s.Pending t program stage) : Inv (s.moved t place) := by
  refine ⟨hregistry, ?_⟩
  intro u stage child program hpoint
  simp only [State.moved, Function.update_apply] at hpoint
  split at hpoint
  case isTrue heq =>
    subst heq
    exact hstage stage child program hpoint
  case isFalse => exact h.stages u stage child program hpoint

/-- The next stage, which does not enter the child into the list. -/
theorem advance {stage later : Stage} (h : Inv s)
    (hpoint : s.point t = .forking stage child program)
    (hregisters : later.registers = stage.registers) (hpending : s.Pending t program later) :
    Inv (s.moved t (.forking later child program)) := by
  have hsame : (Point.forking later child program).registering = (s.point t).registering := by
    rw [hpoint]
    simp only [Point.registering, hregisters]
  apply h.moved
  · apply h.toRegistry.moved
    · rw [hpoint]
      rfl
    · exact fun _ => hsame
    · intro child' program' hmine hnone
      rw [← hsame, hnone] at hmine
      cases hmine
  · intro stage' child' program' heq
    cases heq
    exact hpending

theorem sysFork (h : Inv s) (hrun : s.sysFork newguy t = some next) : Inv next := by
  simp only [State.sysFork] at hrun
  split at hrun
  case h_2 => cases hrun
  case h_1 huser =>
    rw [Option.map_eq_some_iff] at hrun
    obtain ⟨procs, hfork, rfl⟩ := hrun
    obtain ⟨config, htakes, rfl⟩ := Procs.threadFork_spec hfork
    have hnew : newguy ∉ s.config.live := htakes.allowed.2.1
    refine ⟨h.toRegistry.forked huser hnew (h.inv.step htakes.step) htakes.lives, ?_⟩
    have hne : newguy ≠ t := by
      intro heq
      subst heq
      exact hnew (h.live newguy (by rw [huser]; rfl))
    intro u stage child program hpoint
    by_cases hut : u = t
    · simp only [hut, forkedPlaces_parent] at hpoint
      cases hpoint
      exact h.number_born
    · by_cases hun : u = newguy
      · simp only [hun, forkedPlaces_child hne] at hpoint
        cases hpoint
      · simp only [forkedPlaces_other hut hun] at hpoint
        exact h.stages u stage child program hpoint

theorem lockAcquire (h : Inv s) (horder : s.forkC.pidLock.isSome = true)
    (hrun : s.lockAcquire t = some next) : Inv next := by
  simp only [State.lockAcquire] at hrun
  split at hrun
  case h_2 => cases hrun
  case h_1 child program hpoint =>
    have hunnumbered : s.number program = none := h.stages t .lock child program hpoint
    split at hrun
    case h_1 hnone =>
      rw [hnone] at horder
      cases horder
    case h_2 held hlock =>
      split at hrun
      case isTrue hfree =>
        cases hrun
        have hheld : Inv { s with
            forkC.pidLock := some { held with threadAddr := some t } } := by
          apply h.setLock
          intro u stage child' program' _ _ hholds
          obtain ⟨addr, heq⟩ := hholds
          rw [hlock] at heq
          cases heq
          cases hfree with
          | inl hnobody => cases hnobody
          | inr hmine =>
              rw [hlock]
              cases hmine
              rfl
        exact hheld.advance hpoint rfl ⟨⟨held.addr, rfl⟩, hunnumbered⟩
      case isFalse =>
        simp only [State.take, Option.map_map, Option.map_eq_some_iff] at hrun
        obtain ⟨procs, htake, rfl⟩ := hrun
        obtain ⟨config, htakes, rfl⟩ := Procs.take_eq_some.mp htake
        have hconfig : Inv { s with config := config } := by
          apply h.setConfig (h.inv.step htakes.step)
          intro u hprocess
          rw [htakes.lives]
          exact h.live u hprocess
        exact hconfig.advance hpoint rfl hunnumbered

theorem setPid (h : Inv s) (hrun : s.setPid t = some next) : Inv next := by
  simp only [State.setPid] at hrun
  split at hrun
  case h_2 => cases hrun
  case h_1 child program hpoint =>
    cases hrun
    obtain ⟨hholds, hunnumbered⟩ := h.stages t .locked child program hpoint
    have hmine : (s.point t).registering = some (child, program) := by
      rw [hpoint]
      rfl
    obtain ⟨halive, hborn⟩ := h.children t child program hmine
    have hregistry : Registry
        ((numbered s child program).moved t (.forking .numbered child program)) :=
      (h.toRegistry.setNumber hunnumbered halive hborn).moved (by rw [numbered, hpoint]; rfl)
      (by rw [numbered, hmine]; exact fun _ => rfl) (by intro _ _ _ hnone; cases hnone)
    refine ⟨hregistry, ?_⟩
    intro u stage child' program' hpoint'
    by_cases hu : u = t
    · simp only [State.moved, hu, Function.update_self] at hpoint'
      cases hpoint'
      rw [hu]
      refine ⟨hholds, Function.update_self .., ?_⟩
      intro hmem
      have hle := h.bounded _ hmem
      change s.forkC.globalPid + 1 ≤ s.forkC.globalPid at hle
      omega
    · simp only [State.moved, Function.update_of_ne hu] at hpoint'
      apply (h.stages u stage child' program' hpoint').outside hholds hu
      · -- Two parents do not register one child.
        intro hregisters hnone
        have hne : program' ≠ program := by
          intro heq
          apply hu
          apply h.parents u t child' child program ?_ hmine
          rw [hpoint', Point.registering, if_pos hregisters, heq]
        simp only [State.moved, Function.update_of_ne hne]
        exact hnone
      · exact numbered_listed hunnumbered

theorem create (h : Inv s) (hrun : s.create garbage t = some next) : Inv next := by
  simp only [State.create] at hrun
  split at hrun
  case h_2 => cases hrun
  case h_1 child program hpoint =>
    cases hrun
    obtain ⟨hholds, hnumber, hfresh⟩ := h.stages t .numbered child program hpoint
    exact h.advance hpoint rfl ⟨hholds, hnumber, hfresh, rfl⟩

theorem append (h : Inv s) (hrun : s.append t = some next) : Inv next := by
  simp only [State.append] at hrun
  split at hrun
  case h_2 => cases hrun
  case h_1 newPid child program hpoint =>
    rw [if_neg h.nonempty] at hrun
    cases hrun
    obtain ⟨hholds, hnumber, hunlisted, hpid⟩ := h.stages t _ child program hpoint
    have hself : (appended s newPid).Listed program := by
      refine ⟨s.forkC.globalPid, hnumber, ?_⟩
      rw [pids_appended, hpid]
      exact List.mem_append_right _ (List.mem_singleton_self _)
    have hmine : (s.point t).registering = some (child, program) := by
      rw [hpoint]
      rfl
    have hentry : Registry (appended s newPid) :=
      h.toRegistry.setAppended (by rw [hpid]; exact hunlisted) (Nat.le_of_eq hpid)
    refine ⟨hentry.moved (by rw [appended, hpoint]; rfl) ?_ ?_, ?_⟩
    · exact fun hsome => absurd rfl hsome
    · intro child' program' hregistering _
      change (s.point t).registering = _ at hregistering
      rw [hmine] at hregistering
      cases hregistering
      exact hself
    · intro u stage child' program' hpoint'
      by_cases hu : u = t
      · simp only [State.moved, hu, Function.update_self] at hpoint'
        cases hpoint'
        rw [hu]
        exact ⟨hholds, hself⟩
      · simp only [State.moved, Function.update_of_ne hu] at hpoint'
        apply (h.stages u stage child' program' hpoint').outside hholds hu
        · exact fun _ hnone => hnone
        · exact appended_listed

theorem lockRelease (h : Inv s) (hrun : s.lockRelease t = some next) : Inv next := by
  simp only [State.lockRelease] at hrun
  split at hrun
  case h_2 => cases hrun
  case h_1 child program held hpoint hlock =>
    rw [Option.map_eq_some_iff] at hrun
    obtain ⟨released, hrelease, rfl⟩ := hrun
    obtain ⟨config, hstays, hreleased, -⟩ := Procs.lockRelease_spec h.inv hrelease
    rw [hreleased]
    obtain ⟨hholds, hlisted⟩ := h.stages t .appended child program hpoint
    -- Once `t` is past the release, nobody relies on the lock.
    have hpast : Inv (s.moved t (.forking .released child program)) :=
      h.advance hpoint rfl hlisted
    have hconfig := hpast.setConfig hstays.inv (by
      intro u hprocess
      rw [hstays.live]
      exact hpast.live u hprocess)
    apply hconfig.setLock
    intro u stage child' program' hpoint' hlocks hother
    have hu : t = u := State.Holds.unique (s := s) hholds hother
    subst hu
    simp only [State.moved, Function.update_self] at hpoint'
    cases hpoint'
    cases hlocks

theorem forkReturn {pid : Nat} (h : Inv s) (hintact : ∀ child program,
    s.point t = .forking .released child program → s.Intact child program)
    (hrun : s.forkReturn pid t = some next) : Inv next := by
  simp only [State.forkReturn] at hrun
  split at hrun
  case h_2 => cases hrun
  case h_1 child program hpoint =>
    split at hrun
    case isFalse => cases hrun
    case isTrue hreads =>
      cases hrun
      have hchild := hintact child program hpoint
      obtain ⟨given, hnumber, hlisted⟩ := h.stages t .released child program hpoint
      have hpid : pid = given := by
        rw [hreads hchild]
        apply h.pid child given
        rw [hchild.1]
        exact hnumber
      have hregistry : Registry (s.moved t .user) := h.toRegistry.moved (by rw [hpoint]; rfl)
        (fun hsome => absurd rfl hsome) (by rw [hpoint]; intro _ _ hnone; cases hnone)
      have huser := h.moved hregistry (by intro _ _ _ heq; cases heq)
      refine ⟨{ hregistry with done := ?_ }, huser.stages⟩
      intro result hmem
      cases hmem with
      | head =>
          rw [hpid]
          exact ⟨hnumber, hlisted⟩
      | tail _ hbefore => exact h.done result hbefore

theorem sysExit (h : Inv s)
    (horder : ∀ u ∈ s.config.live, (s.point u).registering ≠ some (t, s.birth t))
    (hrun : s.sysExit exitcode t = some next) : Inv next := by
  simp only [State.sysExit] at hrun
  split at hrun
  case h_2 => cases hrun
  case h_1 huser =>
    rw [Option.map_eq_some_iff] at hrun
    obtain ⟨procs, hexit, rfl⟩ := hrun
    obtain ⟨config, htakes, rfl⟩ := Procs.sysExit_spec hexit
    have hstays := Procs.Stays.of_wakeup h.inv htakes
    have hprocess : (s.point t).isProcess = true := by
      rw [huser]
      rfl
    have hnobody : ∀ u, (s.point u).registering ≠ some (t, s.birth t) :=
      fun u hu => horder u (h.live u (isProcess_of_registering hu)) hu
    have hlisted : s.Listed (s.birth t) := by
      cases h.registered t hprocess with
      | inl hlisted => exact hlisted
      | inr hparent =>
          obtain ⟨u, hu⟩ := hparent
          exact absurd hu (hnobody u)
    obtain ⟨pid, hnumber, hmem⟩ := hlisted
    have hpid : s.pid t = pid := h.pid t pid hnumber
    subst hpid
    have hgone : ∀ u, ((s.moved t .exiting).point u).isProcess = true →
        s.birth u ≠ s.birth t := by
      intro u hu heq
      rw [h.unique t u hprocess heq] at hu
      simp only [State.moved, Function.update_self] at hu
      cases hu
    have hrecorded : Registry (recorded (s.moved t .exiting) (s.birth t) (s.pid t) exitcode) :=
      (h.toRegistry.left huser hnobody).setRecorded hnumber hmem hgone
    refine ⟨hrecorded.setConfig hstays.inv ?_, ?_⟩
    · intro u hu
      rw [hstays.live]
      exact hrecorded.live u hu
    · intro u stage child program hpoint
      simp only [Function.update_apply] at hpoint
      split at hpoint
      case isTrue => cases hpoint
      case isFalse =>
        refine State.Pending.congr (h.stages u stage child program hpoint) ?_ ?_ ?_ ?_
        · exact fun _ hholds => hholds
        · rfl
        · rfl
        · exact pidlistExit_pids _ _ _

theorem search {pid : Nat} (h : Inv s) (hrun : s.search lock pid t = some next) : Inv next := by
  simp only [State.search] at hrun
  split at hrun
  case h_3 => cases hrun
  all_goals
    rename_i hpoint
    rw [Option.map_eq_some_iff] at hrun
    obtain ⟨⟨found, procs⟩, hsearch, rfl⟩ := hrun
    apply h.setProcs ?_ (Procs.pidlistSearch_spec h.inv hsearch).2
    intro stage child program heq
    rw [hpoint] at heq
    cases heq

theorem system (h : Inv s) (hrun : s.system act = some next) : Inv next := by
  simp only [State.system, State.take] at hrun
  split at hrun
  case isFalse => cases hrun
  case isTrue hallows =>
    rw [Option.map_eq_some_iff] at hrun
    obtain ⟨procs, htake, rfl⟩ := hrun
    obtain ⟨config, htakes, rfl⟩ := Procs.take_eq_some.mp htake
    apply h.setConfig (h.inv.step htakes.step)
    intro u hprocess
    rw [htakes.lives]
    have hlive := h.live u hprocess
    cases act with
    | exit =>
        simp only [Act.live]
        split
        case h_2 => exact hlive
        case h_1 t hcur =>
          apply Finset.mem_erase.mpr ⟨?_, hlive⟩
          intro heq
          have hcur' : s.curthread = some u := hcur.trans (congrArg some heq.symm)
          rw [hcur'] at hallows
          simp only [Option.elim] at hallows
          cases hpoint : s.point u with
          | kernel =>
              rw [hpoint] at hprocess
              cases hprocess
          | exiting =>
              rw [hpoint] at hprocess
              cases hprocess
          | user =>
              rw [hpoint] at hallows
              cases hallows
          | forking stage child program =>
              rw [hpoint] at hallows
              cases stage <;> cases hallows
    | fork newguy => exact Finset.mem_insert_of_mem hlive
    | _ => exact hlive

theorem dispatch (h : Inv s) (hrun : s.dispatch = some next) : Inv next := by
  simp only [State.dispatch, State.take, Option.map_map, Option.map_eq_some_iff] at hrun
  obtain ⟨procs, htake, rfl⟩ := hrun
  obtain ⟨config, htakes, rfl⟩ := Procs.take_eq_some.mp htake
  have hconfig : Inv { s with config := config } := by
    apply h.setConfig (h.inv.step htakes.step)
    intro u hprocess
    rw [htakes.lives]
    exact h.live u hprocess
  simp only [Function.comp_apply]
  split
  case h_2 => exact hconfig
  case h_1 t hcur =>
    have hstays : Inv (State.moved t (s.point t) { s with config := config }) := by
      simp only [State.moved, Function.update_eq_self]
      exact hconfig
    cases hpoint : s.point t with
    | forking stage child program =>
        rw [hpoint] at hstays
        cases stage with
        | asleep =>
            exact hconfig.advance hpoint rfl (h.stages t .asleep child program hpoint)
        | _ => exact hstays
    | _ =>
        rw [hpoint] at hstays
        exact hstays

theorem run {call : Call} (h : Inv s) (horder : call.InOrder s)
    (hrun : call.run s = some next) : Inv next := by
  cases call with
  | fork newguy =>
      obtain ⟨t, -, hcall⟩ := Option.bind_eq_some_iff.mp hrun
      exact h.sysFork hcall
  | lockAcquire =>
      obtain ⟨t, -, hcall⟩ := Option.bind_eq_some_iff.mp hrun
      exact h.lockAcquire horder hcall
  | setPid =>
      obtain ⟨t, -, hcall⟩ := Option.bind_eq_some_iff.mp hrun
      exact h.setPid hcall
  | create garbage =>
      obtain ⟨t, -, hcall⟩ := Option.bind_eq_some_iff.mp hrun
      exact h.create hcall
  | append =>
      obtain ⟨t, -, hcall⟩ := Option.bind_eq_some_iff.mp hrun
      exact h.append hcall
  | lockRelease =>
      obtain ⟨t, -, hcall⟩ := Option.bind_eq_some_iff.mp hrun
      exact h.lockRelease hcall
  | forkReturn pid =>
      obtain ⟨t, hcur, hcall⟩ := Option.bind_eq_some_iff.mp hrun
      apply h.forkReturn ?_ hcall
      intro child program hpoint
      simp only [Call.InOrder, hcur, hpoint] at horder
      exact horder
  | exit exitcode =>
      obtain ⟨t, hcur, hcall⟩ := Option.bind_eq_some_iff.mp hrun
      simp only [Call.InOrder, hcur] at horder
      exact h.sysExit horder hcall
  | search lock pid =>
      obtain ⟨t, -, hcall⟩ := Option.bind_eq_some_iff.mp hrun
      exact h.search hcall
  | system act => exact h.system hrun
  | dispatch => exact h.dispatch hrun

end Inv

end OS161.Userprog.Fork
