import OS161.Threads.Sleepers
import OS161.Userprog.Pidlist

namespace OS161.Userprog

open OS161.Threads

/-! Processes: threads with a pid, and what `kern/userprog/fork.c` and
`kern/userprog/exit.c` do to them.  What a call does with interrupts off is one
step. -/

/-- A `struct lock` of `kern/thread/synch.c`, at its address. -/
structure PidLock where
  addr : SleepAddr
  threadAddr : Option Tid
  deriving DecidableEq, Repr

/-- The statics of `kern/include/fork.h`.  Each file that includes the header
has its own. -/
structure PidStatics where
  globalPid : Nat
  pidLock : Option PidLock
  pidlist : List PidEntry

/-- `lock_create` where the file's `pid_lock` is still `NULL`. -/
def PidStatics.created (lock : SleepAddr) (p : PidStatics) : PidStatics :=
  { p with pidLock := some (p.pidLock.getD ⟨lock, none⟩) }

/-- An address is used again once its `struct thread` is freed; `birth` tells
the threads that it held apart, in the order of their `thread_fork`. -/
structure Procs where
  config : Config
  pid : Tid → Nat
  forkC : PidStatics
  birth : Tid → Nat
  born : Nat

namespace Procs

def curthread (s : Procs) : Option Tid := s.config.sys.curthread

/-- The thread sleeps on the address. -/
def Asleep (s : Procs) (t : Tid) (addr : SleepAddr) : Prop :=
  t ∈ s.config.sys.sleepersOn addr

def take (act : Act) (s : Procs) : Option Procs :=
  (s.config.take act).map fun config => { s with config := config }

def threadFork (newguy : Tid) (s : Procs) : Option Procs :=
  (s.take (.fork newguy)).map fun s => { s with
    pid := Function.update s.pid newguy 0
    birth := Function.update s.birth newguy s.born
    born := s.born + 1 }

/-- `lock_release` by `t`, which changes nothing where another holds the
lock. -/
def lockRelease (lock : PidLock) (t : Tid) (s : Procs) : Option (PidLock × Procs) :=
  if lock.threadAddr = some t then
    (s.take (.wakeup lock.addr)).map fun s => ({ lock with threadAddr := none }, s)
  else some (lock, s)

/-- `pidlist_search` without its store through `exitcode`; `lock` is where
`kmalloc` puts the lock.  The caller reads `has_exited` from the entry. -/
def pidlistSearch (lock : SleepAddr) (t : Tid) (pid : Nat) (s : Procs) :
    Option (Option PidEntry × Procs) :=
  let statics := s.forkC.created lock
  match pidlistFind pid statics.pidlist with
  | some entry => some (some entry, { s with forkC := statics })
  | none =>
      match statics.pidLock with
      | none => none
      | some held =>
          (s.lockRelease held t).map fun released =>
            (none, { released.2 with forkC := { statics with pidLock := some released.1 } })

/-- `sys_exit` up to its call of `thread_exit`. -/
def sysExit (exitcode : Int) (t : Tid) (s : Procs) : Option Procs :=
  take (.wakeup (s.pid t))
    { s with forkC.pidlist := pidlistExit (s.pid t) exitcode s.forkC.pidlist }

theorem take_eq_some {act : Act} {s next : Procs} : s.take act = some next ↔
    ∃ config, act.Takes s.config config ∧ next = { s with config := config } := by
  rw [take, Option.map_eq_some_iff]
  constructor
  · rintro ⟨config, htake, rfl⟩
    exact ⟨config, Config.take_eq_some.mp htake, rfl⟩
  · rintro ⟨config, htakes, rfl⟩
    exact ⟨config, Config.take_eq_some.mpr htakes, rfl⟩

theorem running_awake {s : Procs} (hinv : Config.Inv s.config) (hcur : s.curthread = some t) :
    ¬ s.Asleep t addr := by
  intro hasleep
  obtain ⟨ready, asleep, dead, h⟩ := hinv
  rw [Asleep, h.lists.sleepersOn_eq] at hasleep
  exact h.curthread_not_asleep hcur (List.mem_filter.mp hasleep).1

theorem running_live {s : Procs} (hinv : Config.Inv s.config) (hcur : s.curthread = some t) :
    t ∈ s.config.live := by
  obtain ⟨ready, asleep, dead, h⟩ := hinv
  exact h.curthread_live hcur

/-- Nobody falls asleep, nobody comes or goes and the processor stays where it
is. -/
structure Stays (c d : Config) : Prop where
  inv : Config.Inv d
  curthread : d.sys.curthread = c.sys.curthread
  asleep : ∀ t addr, t ∈ d.sys.sleepersOn addr → t ∈ c.sys.sleepersOn addr
  live : d.live = c.live

theorem Stays.refl (hinv : Config.Inv c) : Stays c c :=
  ⟨hinv, rfl, fun _ _ h => h, rfl⟩

theorem Stays.of_wakeup (hinv : Config.Inv c) (htakes : (Act.wakeup at').Takes c d) :
    Stays c d where
  inv := hinv.step htakes.step
  curthread := htakes.curthread hinv
  asleep := by
    intro t addr hasleep
    cases htakes.asleep_before hinv hasleep with
    | inl hbefore => exact hbefore
    | inr hsleep => cases hsleep.1
  live := htakes.lives

theorem lockRelease_spec {s : Procs} {released : PidLock × Procs} (hinv : Config.Inv s.config)
    (hrelease : s.lockRelease lock t = some released) :
    ∃ config, Stays s.config config ∧ released.2 = { s with config := config } ∧
      (lock.threadAddr ≠ some t → released.1 = lock) := by
  rw [lockRelease] at hrelease
  split at hrelease
  case isTrue hmine =>
    rw [Option.map_eq_some_iff] at hrelease
    obtain ⟨woken, htake, rfl⟩ := hrelease
    obtain ⟨config, htakes, rfl⟩ := take_eq_some.mp htake
    exact ⟨config, .of_wakeup hinv htakes, rfl, fun hother => absurd hmine hother⟩
  case isFalse =>
    cases hrelease
    exact ⟨s.config, .refl hinv, rfl, fun _ => rfl⟩

/-- What a search by `t` leaves of the rest. -/
structure Searched (t : Tid) (s next : Procs) : Prop where
  stays : Stays s.config next.config
  pid : next.pid = s.pid
  birth : next.birth = s.birth
  born : next.born = s.born
  globalPid : next.forkC.globalPid = s.forkC.globalPid
  pidlist : next.forkC.pidlist = s.forkC.pidlist
  held : ∀ lock, s.forkC.pidLock = some lock → lock.threadAddr ≠ some t →
    next.forkC.pidLock = some lock

theorem pidlistSearch_spec {s next : Procs} {pid : Nat} (hinv : Config.Inv s.config)
    (hsearch : s.pidlistSearch lock t pid = some (found, next)) :
    found = pidlistFind pid s.forkC.pidlist ∧ Searched t s next := by
  simp only [pidlistSearch, PidStatics.created] at hsearch
  split at hsearch
  case h_1 entry hfind =>
    cases hsearch
    refine ⟨hfind.symm, .refl hinv, rfl, rfl, rfl, rfl, rfl, ?_⟩
    intro held hlock _
    simp [hlock]
  case h_2 hfind =>
    rw [Option.map_eq_some_iff] at hsearch
    obtain ⟨released, hrelease, heq⟩ := hsearch
    cases heq
    obtain ⟨config, hstays, hreleased, hother⟩ := lockRelease_spec hinv hrelease
    rw [hreleased]
    refine ⟨hfind.symm, hstays, rfl, rfl, rfl, rfl, rfl, ?_⟩
    intro held hlock hne
    simp only [hlock, Option.getD_some] at hother ⊢
    rw [hother hne]

theorem sysExit_spec {s next : Procs} (hexit : s.sysExit exitcode t = some next) :
    ∃ config, (Act.wakeup (s.pid t)).Takes s.config config ∧
      next = { s with
        config := config
        forkC.pidlist := pidlistExit (s.pid t) exitcode s.forkC.pidlist } := by
  obtain ⟨config, htakes, rfl⟩ := take_eq_some.mp hexit
  exact ⟨config, htakes, rfl⟩

theorem threadFork_spec {s next : Procs} (hfork : s.threadFork newguy = some next) :
    ∃ config, (Act.fork newguy).Takes s.config config ∧
      next = { s with
        config := config
        pid := Function.update s.pid newguy 0
        birth := Function.update s.birth newguy s.born
        born := s.born + 1 } := by
  rw [threadFork, Option.map_eq_some_iff] at hfork
  obtain ⟨forked, htake, rfl⟩ := hfork
  obtain ⟨config, htakes, rfl⟩ := take_eq_some.mp htake
  exact ⟨config, htakes, rfl⟩

/-- Whoever slept on the pid is awake after the exit. -/
theorem exit_wakes {c d : Config} (hinv : Config.Inv c) (htakes : (Act.wakeup addr).Takes c d) :
    d.sys.sleepersOn addr = [] := by
  rw [htakes.sleepersOn hinv]
  exact if_pos rfl

/-- The calls one after the other; one that does not come back is passed
over. -/
def after (acts : List Act) (c : Config) : Config :=
  acts.foldl (fun c act => (c.take act).getD c) c

theorem after_inv (hinv : Config.Inv c) : Config.Inv (after acts c) := by
  induction acts generalizing c with
  | nil => exact hinv
  | cons act rest ih =>
      have hnext : Config.Inv ((c.take act).getD c) := by
        cases htake : c.take act with
        | none => exact hinv
        | some d => exact hinv.step (Config.take_eq_some.mp htake).step
      exact ih hnext

/-- The menu's thread 0, which has forked threads 1 and 2; thread 1 runs. -/
def threeThreads : Config :=
  after [.fork 1, .fork 2, .yield, .dispatch] (Config.boot 0)

theorem threeThreads_inv : Config.Inv threeThreads :=
  after_inv ⟨_, _, _, Config.boot_conserved 0⟩

end Procs

end OS161.Userprog
