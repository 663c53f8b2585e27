import OS161.Data.Runs
import OS161.Userprog.Procs

namespace OS161.Userprog.MenuJoin

open OS161.Data
open OS161.Threads

/-! `common_prog` of `kern/main/menu.c` with `thread_join` of
`kern/thread/thread.c`, beside the `sys_exit` of the program.  The `pid_lock`
and the `pidlist` of `menu.c` are not those that `pidlist_search` and
`pidlist_exit` use. -/

/-- Where the menu's thread is; from `started` on it keeps `child_ptr`.
`program` is the birth of the program's thread. -/
inductive Point where
  /-- Outside `common_prog`. -/
  | idle
  | started (child : Tid) (program : Nat)
  | locked (child : Tid) (program : Nat)
  | numbered (child : Tid) (program : Nat)
  | created (child : Tid) (program : Nat) (newPid : PidEntry)
  | linked (child : Tid) (program : Nat)
  /-- At the search of `thread_join`. -/
  | joining (child : Tid) (program : Nat)
  | asleep (child : Tid) (program : Nat)

/-- The program that `common_prog` is about, at its address. -/
def Point.started? : Point → Option (Tid × Nat)
  | .idle => none
  | .started child program | .locked child program | .numbered child program
  | .created child program _ | .linked child program | .joining child program
  | .asleep child program => some (child, program)

/-- `exited` tells which births have called `sys_exit`. -/
structure State extends Procs where
  menu : Tid
  menuC : PidStatics
  point : Point
  exited : Nat → Bool

namespace State

def take (act : Act) (s : State) : Option State :=
  (s.toProcs.take act).map fun procs => { s with toProcs := procs }

/-- The start of `common_prog`, up to the return of `thread_fork`. -/
def commonProg (newguy : Tid) (s : State) : Option State :=
  match s.point with
  | .idle => (s.toProcs.threadFork newguy).map fun procs =>
      { s with toProcs := procs, point := .started newguy s.born }
  | _ => none

def lockAcquire (lock : SleepAddr) (s : State) : Option State :=
  match s.point, (s.menuC.created lock).pidLock with
  | .started child program, some held =>
      if held.threadAddr = none ∨ held.threadAddr = some s.menu then
        some { s with
          menuC.pidLock := some { held with threadAddr := some s.menu }
          point := .locked child program }
      else none
  | _, _ => none

/-- `child_ptr->pid = get_newpid()`. -/
def number (s : State) : Option State :=
  match s.point with
  | .locked child program => some { s with
      forkC.globalPid := s.forkC.globalPid + 1
      pid := Function.update s.pid child (s.forkC.globalPid + 1)
      point := .numbered child program }
  | _ => none

def create (garbage : Int) (s : State) : Option State :=
  match s.point with
  | .numbered child program =>
      some { s with point := .created child program (pidlistCreate (s.pid child) garbage) }
  | _ => none

/-- `pidlist_create` finds no memory, and the lock stays taken. -/
def createFails (s : State) : Option State :=
  match s.point with
  | .numbered _ _ => some { s with point := .idle }
  | _ => none

/-- An entry for an empty list is assigned to a local variable only. -/
def linked (newPid : PidEntry) : List PidEntry → List PidEntry
  | [] => []
  | first :: rest => first :: rest ++ [newPid]

def link (s : State) : Option State :=
  match s.point with
  | .created child program newPid => some { s with
      menuC.pidlist := linked newPid s.menuC.pidlist
      point := .linked child program }
  | _ => none

def lockRelease (s : State) : Option State :=
  match s.point, s.menuC.pidLock with
  | .linked child program, some held =>
      (s.toProcs.lockRelease held s.menu).map fun released => { s with
        toProcs := released.2
        menuC.pidLock := some released.1
        point := .joining child program }
  | _, _ => none

/-- `child_thread->pid`: anything, once the `struct thread` may be freed. -/
def Reads (s : State) (child : Tid) (program pid : Nat) : Prop :=
  s.birth child = program → child ∈ s.config.live → pid = s.pid child

instance : Decidable (Reads s child program pid) :=
  inferInstanceAs (Decidable (_ → _ → _))

def threadJoin (lock : SleepAddr) (pid : Nat) (s : State) : Option State :=
  match s.point with
  | .joining child program =>
      if s.Reads child program pid then
        (s.pidlistSearch lock s.menu pid).bind fun result =>
          let s := { s with toProcs := result.2 }
          if (result.1.elim false PidEntry.hasExited) = true then some { s with point := .idle }
          else (s.take (.sleep pid)).map fun s => { s with point := .asleep child program }
      else none
  | _ => none

/-- A program or another process calls `sys_exit`, which it does once. -/
def sysExit (exitcode : Int) (t : Tid) (s : State) : Option State :=
  if t ≠ s.menu ∧ s.exited (s.birth t) = false then
    (s.toProcs.sysExit exitcode t).map fun procs => { s with
      toProcs := procs
      exited := Function.update s.exited (s.birth t) true }
  else none

/-- A `thread_fork` elsewhere, as in `sys_fork`, which gives the new thread a
pid and changes the statics of `fork.c`. -/
def fork (newguy : Tid) (pid : Nat) (forkC : PidStatics) (t : Tid) (s : State) : Option State :=
  if t ≠ s.menu ∨ s.point.started? = none then
    (s.toProcs.threadFork newguy).map fun procs => { s with
      toProcs := { procs with pid := Function.update procs.pid newguy pid, forkC := forkC } }
  else none

/-- Whether the running thread, or an interrupt handler over it, can make the
call of the thread system: the menu's thread cannot while it is in
`thread_sleep`. -/
def allows (s : State) : Act → Bool
  | .fork _ | .dispatch => false
  | _ =>
      match s.point with
      | .asleep _ _ => decide (s.curthread ≠ some s.menu)
      | _ => true

def system (act : Act) (s : State) : Option State :=
  if s.allows act then s.take act else none

/-- The menu's thread comes back from `thread_join` whatever woke it. -/
def dispatch (s : State) : Option State :=
  (s.take .dispatch).map fun s =>
    match s.point with
    | .asleep _ _ => if s.curthread = some s.menu then { s with point := .idle } else s
    | _ => s

end State

inductive Call where
  | commonProg (newguy : Tid)
  | lockAcquire (lock : SleepAddr)
  | number
  | create (garbage : Int)
  | createFails
  | link
  | lockRelease
  | threadJoin (lock : SleepAddr) (pid : Nat)
  | exit (exitcode : Int)
  | fork (newguy : Tid) (pid : Nat) (forkC : PidStatics)
  | system (act : Act)
  | dispatch

namespace Call

/-- A call of the menu's thread. -/
def byMenu (s : State) (call : State → Option State) : Option State :=
  if s.curthread = some s.menu then call s else none

def run (call : Call) (s : State) : Option State :=
  match call with
  | .commonProg newguy => byMenu s (State.commonProg newguy)
  | .lockAcquire lock => byMenu s (State.lockAcquire lock)
  | .number => byMenu s State.number
  | .create garbage => byMenu s (State.create garbage)
  | .createFails => byMenu s State.createFails
  | .link => byMenu s State.link
  | .lockRelease => byMenu s State.lockRelease
  | .threadJoin lock pid => byMenu s (State.threadJoin lock pid)
  | .exit exitcode => s.curthread.bind (State.sysExit exitcode · s)
  | .fork newguy pid forkC => s.curthread.bind (State.fork newguy pid forkC · s)
  | .system act => s.system act
  | .dispatch => s.dispatch

/-- A `thread_join` for a program that has called `sys_exit` finds its exit in
the list of `fork.c`. -/
def FindsExit (call : Call) (s : State) : Prop :=
  match call, s.point with
  | .threadJoin _ pid, .joining _ program =>
      s.exited program = true →
        ((pidlistFind pid s.forkC.pidlist).elim false PidEntry.hasExited) = true
  | _, _ => True

end Call

/-- The menu does not sleep for a program that has called `sys_exit`. -/
def JoinsRunning (s : State) : Prop :=
  ∀ child program addr, s.point = .asleep child program → s.Asleep s.menu addr →
    s.exited program = false

structure Start (s : State) : Prop where
  inv : Config.Inv s.config
  births : ∀ t, s.birth t < s.born
  idle : s.point = .idle

structure Inv (s : State) : Prop where
  inv : Config.Inv s.config
  births : ∀ t, s.birth t < s.born
  program : ∀ child program, s.point.started? = some (child, program) →
    program < s.born ∧ ∀ t, s.birth t = program → t = child
  asleep : ∀ child program addr, s.point = .asleep child program → s.Asleep s.menu addr →
    s.exited program = false ∧ s.Reads child program addr

namespace Inv

variable {s next : State}

theorem of_start (hstart : Start s) : Inv s where
  inv := hstart.inv
  births := hstart.births
  program := by
    intro child program hstarted
    rw [hstart.idle] at hstarted
    cases hstarted
  asleep := by
    intro child program addr hpoint
    rw [hstart.idle] at hpoint
    cases hpoint

theorem joinsRunning (h : Inv s) : JoinsRunning s :=
  fun child program addr hpoint hasleep => (h.asleep child program addr hpoint hasleep).1

/-- A call of the thread system that does not put the menu to sleep in
`thread_join`. -/
theorem setConfig (h : Inv s) (hinv : Config.Inv config)
    (hasleep : ∀ child program addr, s.point = .asleep child program →
      s.menu ∈ config.sys.sleepersOn addr → s.Asleep s.menu addr)
    (hlive : config.live ⊆ s.config.live) : Inv { s with config := config } where
  inv := hinv
  births := h.births
  program := h.program
  asleep := by
    intro child program addr hpoint hafter
    obtain ⟨hexited, hreads⟩ :=
      h.asleep child program addr hpoint (hasleep child program addr hpoint hafter)
    exact ⟨hexited, fun hbirth hmem => hreads hbirth (hlive hmem)⟩

theorem setStays (h : Inv s) (hstays : Procs.Stays s.config config) :
    Inv { s with config := config } := by
  apply h.setConfig hstays.inv
  · intro child program addr _ hafter
    exact hstays.asleep s.menu addr hafter
  · rw [hstays.live]

theorem setProcs {procs : Procs} (h : Inv s) (hsearched : Procs.Searched t s.toProcs procs) :
    Inv { s with toProcs := procs } := by
  obtain ⟨config, pid, forkC, birth, born⟩ := procs
  obtain ⟨hstays, rfl, rfl, rfl, -, -, -⟩ := hsearched
  have hconfig := h.setStays hstays
  exact ⟨hconfig.inv, hconfig.births, hconfig.program, hconfig.asleep⟩

/-- The menu's thread goes on in `common_prog`, or leaves it, awake. -/
theorem moved {point : Point} (h : Inv s)
    (hstarted : ∀ child program, point.started? = some (child, program) →
      s.point.started? = some (child, program))
    (hawake : ∀ child program, point ≠ .asleep child program) :
    Inv { s with point := point } where
  inv := h.inv
  births := h.births
  program := fun child program hpoint => h.program child program (hstarted child program hpoint)
  asleep := fun child program _ hpoint => absurd hpoint (hawake child program)

theorem live_subset {act : Act} (htakes : act.Takes c d) (hfork : ∀ newguy, act ≠ .fork newguy) :
    d.live ⊆ c.live := by
  rw [htakes.lives]
  cases act with
  | fork newguy => exact absurd rfl (hfork newguy)
  | exit =>
      simp only [Act.live]
      split
      · exact Finset.erase_subset _ _
      · exact Finset.Subset.refl _
  | _ => exact Finset.Subset.refl _

theorem commonProg (h : Inv s) (hrun : s.commonProg newguy = some next) : Inv next := by
  simp only [State.commonProg] at hrun
  split at hrun
  case h_2 => cases hrun
  case h_1 hidle =>
    rw [Option.map_eq_some_iff] at hrun
    obtain ⟨procs, hfork, rfl⟩ := hrun
    obtain ⟨config, htakes, rfl⟩ := Procs.threadFork_spec hfork
    constructor
    case inv => exact h.inv.step htakes.step
    case births =>
      intro t
      have ht := h.births t
      simp only [Function.update_apply]
      split <;> omega
    case program =>
      intro child program hstarted
      cases hstarted
      refine ⟨Nat.lt_succ_self _, ?_⟩
      intro t hbirth
      simp only [Function.update_apply] at hbirth
      split at hbirth
      case isTrue heq => exact heq
      case isFalse =>
        have ht := h.births t
        omega
    case asleep =>
      intro child program addr hpoint
      cases hpoint

theorem lockAcquire (h : Inv s) (hrun : s.lockAcquire lock = some next) : Inv next := by
  simp only [State.lockAcquire] at hrun
  split at hrun
  case h_2 => cases hrun
  case h_1 child program held hpoint _ =>
    split at hrun
    case isFalse => cases hrun
    case isTrue =>
      cases hrun
      have hmoved : Inv { s with point := .locked child program } := h.moved
        (by rw [hpoint]; exact fun _ _ h => h) (by intros; exact Point.noConfusion)
      exact ⟨hmoved.inv, hmoved.births, hmoved.program, hmoved.asleep⟩

theorem number (h : Inv s) (hrun : s.number = some next) : Inv next := by
  simp only [State.number] at hrun
  split at hrun
  case h_2 => cases hrun
  case h_1 child program hpoint =>
    cases hrun
    constructor
    case inv => exact h.inv
    case births => exact h.births
    case program =>
      intro child' program' hstarted
      apply h.program child' program'
      rw [hpoint]
      exact hstarted
    case asleep =>
      intro child' program' addr hasleep
      cases hasleep

theorem create (h : Inv s) (hrun : s.create garbage = some next) : Inv next := by
  simp only [State.create] at hrun
  split at hrun
  case h_2 => cases hrun
  case h_1 child program hpoint =>
    cases hrun
    exact h.moved (by rw [hpoint]; exact fun _ _ h => h) (by intros; exact Point.noConfusion)

theorem createFails (h : Inv s) (hrun : s.createFails = some next) : Inv next := by
  simp only [State.createFails] at hrun
  split at hrun
  case h_2 => cases hrun
  case h_1 child program hpoint =>
    cases hrun
    apply h.moved
    · intro child' program' hnone
      cases hnone
    · intros
      exact Point.noConfusion

theorem link (h : Inv s) (hrun : s.link = some next) : Inv next := by
  simp only [State.link] at hrun
  split at hrun
  case h_2 => cases hrun
  case h_1 child program newPid hpoint =>
    cases hrun
    have hmoved : Inv { s with point := .linked child program } := h.moved
      (by rw [hpoint]; exact fun _ _ h => h) (by intros; exact Point.noConfusion)
    exact ⟨hmoved.inv, hmoved.births, hmoved.program, hmoved.asleep⟩

theorem lockRelease (h : Inv s) (hrun : s.lockRelease = some next) : Inv next := by
  simp only [State.lockRelease] at hrun
  split at hrun
  case h_2 => cases hrun
  case h_1 child program held hpoint _ =>
    rw [Option.map_eq_some_iff] at hrun
    obtain ⟨released, hrelease, rfl⟩ := hrun
    obtain ⟨config, hstays, hreleased, -⟩ := Procs.lockRelease_spec h.inv hrelease
    rw [hreleased]
    have hmoved : Inv { s with config := config, point := .joining child program } :=
      (h.setStays hstays).moved (by rw [hpoint]; exact fun _ _ h => h) (by intros; exact Point.noConfusion)
    exact ⟨hmoved.inv, hmoved.births, hmoved.program, hmoved.asleep⟩

end Inv

/-- What a call of `thread_join` comes to. -/
theorem threadJoin_cases {s next : State} (hinv : Config.Inv s.config)
    (hrun : s.threadJoin lock pid = some next) :
    ∃ child program procs, s.point = .joining child program ∧ s.Reads child program pid ∧
      Procs.Searched s.menu s.toProcs procs ∧
      (((pidlistFind pid s.forkC.pidlist).elim false PidEntry.hasExited) = true ∧
          next = { s with toProcs := procs, point := .idle } ∨
        ((pidlistFind pid s.forkC.pidlist).elim false PidEntry.hasExited) = false ∧
          ∃ config, (Act.sleep pid).Takes procs.config config ∧
            next = { s with
              toProcs := { procs with config := config }
              point := .asleep child program }) := by
  simp only [State.threadJoin] at hrun
  split at hrun
  case h_2 => cases hrun
  case h_1 child program hpoint =>
    split at hrun
    case isFalse => cases hrun
    case isTrue hreads =>
      rw [Option.bind_eq_some_iff] at hrun
      obtain ⟨⟨found, procs⟩, hsearch, hrest⟩ := hrun
      obtain ⟨rfl, hsearched⟩ := Procs.pidlistSearch_spec hinv hsearch
      refine ⟨child, program, procs, hpoint, hreads, hsearched, ?_⟩
      split at hrest
      case isTrue hexited =>
        cases hrest
        exact .inl ⟨hexited, rfl⟩
      case isFalse hrunning =>
        simp only [State.take, Option.map_map, Option.map_eq_some_iff] at hrest
        obtain ⟨slept, htake, rfl⟩ := hrest
        obtain ⟨config, htakes, rfl⟩ := Procs.take_eq_some.mp htake
        exact .inr ⟨Bool.eq_false_of_not_eq_true hrunning, config, htakes, rfl⟩

namespace Inv

variable {s next : State}

theorem threadJoin (h : Inv s) (hcur : s.curthread = some s.menu)
    (hfinds : (Call.threadJoin lock pid).FindsExit s)
    (hrun : s.threadJoin lock pid = some next) : Inv next := by
  obtain ⟨child, program, procs, hpoint, hreads, hsearched, hcases⟩ :=
    threadJoin_cases h.inv hrun
  have hprocs := h.setProcs hsearched
  cases hcases with
  | inl hreturns =>
      obtain ⟨-, rfl⟩ := hreturns
      exact hprocs.moved (fun _ _ hnone => nomatch hnone) (by intros; exact Point.noConfusion)
  | inr hsleeps =>
      obtain ⟨hmissing, config, htakes, rfl⟩ := hsleeps
      have hrunning : s.exited program = false := by
        apply Bool.eq_false_of_not_eq_true
        intro hexited
        simp only [Call.FindsExit, hpoint] at hfinds
        rw [hfinds hexited] at hmissing
        cases hmissing
      constructor
      case inv => exact hprocs.inv.step htakes.step
      case births => exact hprocs.births
      case program =>
        intro child' program' hstarted
        apply hprocs.program child' program'
        change s.point.started? = _
        rw [hpoint]
        exact hstarted
      case asleep =>
        intro child' program' addr hasleep hafter
        cases hasleep
        refine ⟨hrunning, ?_⟩
        have hsleep := htakes.asleep_before hprocs.inv hafter
        cases hsleep with
        | inl hbefore =>
            have hcur' : procs.curthread = some s.menu := hsearched.stays.curthread.trans hcur
            exact absurd hbefore (Procs.running_awake hprocs.inv hcur')
        | inr hslept =>
            cases hslept.1
            intro hbirth hmem
            change procs.birth child = program at hbirth
            change child ∈ config.live at hmem
            have hlive := live_subset htakes (by intros; exact Act.noConfusion) hmem
            rw [hsearched.stays.live] at hlive
            rw [hsearched.birth] at hbirth
            change pid = procs.pid child
            rw [hsearched.pid]
            exact hreads hbirth hlive

theorem sysExit (h : Inv s) (hcur : s.curthread = some t)
    (hrun : s.sysExit exitcode t = some next) : Inv next := by
  simp only [State.sysExit] at hrun
  split at hrun
  case isFalse => cases hrun
  case isTrue =>
    rw [Option.map_eq_some_iff] at hrun
    obtain ⟨procs, hexit, rfl⟩ := hrun
    obtain ⟨config, htakes, rfl⟩ := Procs.sysExit_spec hexit
    have hstays := Procs.Stays.of_wakeup h.inv htakes
    have hconfig := h.setStays hstays
    constructor
    case inv => exact hconfig.inv
    case births => exact hconfig.births
    case program => exact hconfig.program
    case asleep =>
      intro child program addr hpoint hafter
      obtain ⟨hrunning, hreads⟩ := hconfig.asleep child program addr hpoint hafter
      refine ⟨?_, hreads⟩
      -- Had the program exited now, its wakeup would have met the menu.
      have hother : program ≠ s.birth t := by
        intro heq
        have hstarted : s.point.started? = some (child, program) := by
          change s.point = _ at hpoint
          rw [hpoint]
          rfl
        have hchild := (h.program child program hstarted).2 t heq.symm
        subst hchild
        have hmem : t ∈ config.live := by
          rw [hstays.live]
          exact Procs.running_live h.inv hcur
        have haddr : addr = s.pid t := hreads heq.symm hmem
        have hnobody := Procs.exit_wakes h.inv htakes
        change s.menu ∈ config.sys.sleepersOn addr at hafter
        rw [haddr, hnobody] at hafter
        cases hafter
      simp only [Function.update_of_ne hother]
      exact hrunning

theorem fork (h : Inv s) (hrun : s.fork newguy pid forkC t = some next) : Inv next := by
  simp only [State.fork] at hrun
  split at hrun
  case isFalse => cases hrun
  case isTrue =>
    rw [Option.map_eq_some_iff] at hrun
    obtain ⟨procs, hfork, rfl⟩ := hrun
    obtain ⟨config, htakes, rfl⟩ := Procs.threadFork_spec hfork
    constructor
    case inv => exact h.inv.step htakes.step
    case births =>
      intro u
      have hu := h.births u
      simp only [Function.update_apply]
      split <;> omega
    case program =>
      intro child program hstarted
      obtain ⟨hlt, hunique⟩ := h.program child program hstarted
      refine ⟨Nat.lt_succ_of_lt hlt, ?_⟩
      intro u hbirth
      simp only [Function.update_apply] at hbirth
      split at hbirth
      case isTrue => omega
      case isFalse => exact hunique u hbirth
    case asleep =>
      intro child program addr hpoint hafter
      have hbefore : s.Asleep s.menu addr := by
        cases htakes.asleep_before h.inv hafter with
        | inl hbefore => exact hbefore
        | inr hslept => cases hslept.1
      obtain ⟨hrunning, hreads⟩ := h.asleep child program addr hpoint hbefore
      have hstarted : s.point.started? = some (child, program) := by
        change s.point = _ at hpoint
        rw [hpoint]
        rfl
      have hlt := (h.program child program hstarted).1
      refine ⟨hrunning, ?_⟩
      intro hbirth hmem
      simp only [Function.update_apply] at hbirth ⊢
      split at hbirth
      case isTrue => omega
      case isFalse hne =>
        rw [if_neg hne, if_neg hne]
        apply hreads hbirth
        change child ∈ config.live at hmem
        rw [htakes.lives] at hmem
        exact (Finset.mem_insert.mp hmem).resolve_left hne

theorem system (h : Inv s) (hrun : s.system act = some next) : Inv next := by
  simp only [State.system, State.take] at hrun
  split at hrun
  case isFalse => cases hrun
  case isTrue hallows =>
    rw [Option.map_eq_some_iff] at hrun
    obtain ⟨procs, htake, rfl⟩ := hrun
    obtain ⟨config, htakes, rfl⟩ := Procs.take_eq_some.mp htake
    apply h.setConfig (h.inv.step htakes.step)
    · intro child program addr hpoint hafter
      cases htakes.asleep_before h.inv hafter with
      | inl hbefore => exact hbefore
      | inr hslept =>
          obtain ⟨rfl, hcur⟩ := hslept
          simp only [State.allows, hpoint, decide_eq_true_eq] at hallows
          exact absurd hcur hallows
    · apply live_subset htakes
      intro newguy heq
      rw [heq] at hallows
      cases hallows

theorem dispatch (h : Inv s) (hrun : s.dispatch = some next) : Inv next := by
  simp only [State.dispatch, State.take, Option.map_map, Option.map_eq_some_iff] at hrun
  obtain ⟨procs, htake, rfl⟩ := hrun
  obtain ⟨config, htakes, rfl⟩ := Procs.take_eq_some.mp htake
  have hconfig : Inv { s with config := config } := by
    apply h.setConfig (h.inv.step htakes.step)
    · intro child program addr _ hafter
      cases htakes.asleep_before h.inv hafter with
      | inl hbefore => exact hbefore
      | inr hslept => cases hslept.1
    · exact live_subset htakes (by intros; exact Act.noConfusion)
  simp only [Function.comp_apply]
  split
  case h_1 child program hpoint =>
    split
    case isTrue =>
      exact hconfig.moved (fun _ _ hnone => nomatch hnone) (by intros; exact Point.noConfusion)
    case isFalse => exact hconfig
  case h_2 => exact hconfig

end Inv

theorem Call.byMenu_eq_some {call : State → Option State}
    (hrun : Call.byMenu s call = some next) : s.curthread = some s.menu ∧ call s = some next := by
  rw [Call.byMenu] at hrun
  split at hrun
  case isTrue hcur => exact ⟨hcur, hrun⟩
  case isFalse => cases hrun

theorem Inv.run {call : Call} (h : Inv s) (hfinds : call.FindsExit s)
    (hrun : call.run s = some next) : Inv next := by
  cases call with
  | commonProg newguy => exact h.commonProg (Call.byMenu_eq_some hrun).2
  | lockAcquire lock => exact h.lockAcquire (Call.byMenu_eq_some hrun).2
  | number => exact h.number (Call.byMenu_eq_some hrun).2
  | create garbage => exact h.create (Call.byMenu_eq_some hrun).2
  | createFails => exact h.createFails (Call.byMenu_eq_some hrun).2
  | link => exact h.link (Call.byMenu_eq_some hrun).2
  | lockRelease => exact h.lockRelease (Call.byMenu_eq_some hrun).2
  | threadJoin lock pid =>
      obtain ⟨hcur, hjoin⟩ := Call.byMenu_eq_some hrun
      exact h.threadJoin hcur hfinds hjoin
  | exit exitcode =>
      obtain ⟨t, hcur, hexit⟩ := Option.bind_eq_some_iff.mp hrun
      exact h.sysExit hcur hexit
  | fork newguy pid forkC =>
      obtain ⟨t, -, hfork⟩ := Option.bind_eq_some_iff.mp hrun
      exact h.fork hfork
  | system act => exact h.system hrun
  | dispatch => exact h.dispatch hrun

/-- A `thread_join` that misses the exit of the program sleeps for it. -/
theorem asleep_of_missed {call : Call} {s next : State} (h : Inv s)
    (hrun : call.run s = some next) (hmissed : ¬ call.FindsExit s) : ¬ JoinsRunning next := by
  intro hjoins
  apply hmissed
  unfold Call.FindsExit
  split
  case h_2 => trivial
  case h_1 lock pid child program hjoining =>
    intro hexited
    obtain ⟨hcur, hjoin⟩ := Call.byMenu_eq_some hrun
    obtain ⟨_, _, procs, hpoint, -, hsearched, hcases⟩ := threadJoin_cases h.inv hjoin
    rw [hpoint] at hjoining
    cases hjoining
    cases hcases with
    | inl hreturns => exact hreturns.1
    | inr hsleeps =>
        obtain ⟨-, config, htakes, rfl⟩ := hsleeps
        have hasleep : s.menu ∈ config.sys.sleepersOn pid := by
          have hcur' : procs.config.sys.curthread = some s.menu :=
            hsearched.stays.curthread.trans hcur
          rw [htakes.sleepersOn hsearched.stays.inv]
          simp [Act.asleep, hcur']
        rw [hjoins child program pid rfl hasleep] at hexited
        cases hexited

/-- The menu never sleeps for a program that has called `sys_exit` as long as
every `thread_join` finds the exit of a program that was faster; one that does
not find it sleeps. -/
theorem join_sleeps_for_running_iff (hstart : Start s)
    (hruns : Runs Call.run Call.FindsExit s mid) :
    JoinsRunning mid ∧
      ∀ call next, Call.run call mid = some next → (JoinsRunning next ↔ call.FindsExit mid) := by
  have hinv := hruns.preserves (fun _ _ _ => Inv.run) (Inv.of_start hstart)
  refine ⟨hinv.joinsRunning, ?_⟩
  intro call next hrun
  constructor
  · intro hjoins
    by_contra hmissed
    exact asleep_of_missed hinv hrun hmissed hjoins
  · intro hfinds
    exact (hinv.run hfinds hrun).joinsRunning

instance (call : Call) (s : State) : Decidable (call.FindsExit s) := by
  unfold Call.FindsExit
  split <;> infer_instance

/-- The menu before its first command. -/
def atMenu : State where
  config := Config.boot 0
  pid := fun _ => 1
  forkC := ⟨1, none, [⟨1, false, 0⟩]⟩
  birth := fun _ => 0
  born := 1
  menu := 0
  menuC := ⟨0, none, []⟩
  point := .idle
  exited := fun _ => false

theorem atMenu_start : Start atMenu where
  inv := ⟨_, _, _, Config.boot_conserved 0⟩
  births := fun _ => Nat.one_pos
  idle := rfl

/-- The menu registers the program, which is thread 1. -/
def registers : List Call :=
  [.lockAcquire 0x80002000, .number, .create 0, .link, .lockRelease]

/-- The program exits after the menu has gone to sleep. -/
def joinThenExit : List Call :=
  .commonProg 1 :: registers ++ [.threadJoin 0x80003000 2, .dispatch, .exit 7]

theorem join_sleeps_for_running_program :
    Runs Call.run Call.FindsExit atMenu (runAll Call.run joinThenExit atMenu) ∧
    (runAll Call.run joinThenExit atMenu).exited 1 = true ∧
    JoinsRunning (runAll Call.run joinThenExit atMenu) := by
  have hruns : Runs Call.run Call.FindsExit atMenu (runAll Call.run joinThenExit atMenu) :=
    runs_runAll _ _ (by decide)
  exact ⟨hruns, by decide, (join_sleeps_for_running_iff atMenu_start hruns).1⟩

/-- The program exits before the menu has given it a pid. -/
def exitThenJoin : List Call :=
  [.commonProg 1, .system .yield, .dispatch, .exit 7, .system .yield, .dispatch] ++ registers ++
    [.threadJoin 0x80003000 2]

theorem join_sleeps_for_exited_program :
    Start atMenu ∧
    Runs Call.run (fun _ _ => True) atMenu (runAll Call.run exitThenJoin atMenu) ∧
    ¬ JoinsRunning (runAll Call.run exitThenJoin atMenu) := by
  refine ⟨atMenu_start, runs_runAll_free _ _, ?_⟩
  intro hjoins
  have hrunning := hjoins 1 1 2 rfl (by unfold Procs.Asleep; decide)
  revert hrunning
  decide

end OS161.Userprog.MenuJoin
