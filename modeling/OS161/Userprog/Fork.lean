import OS161.Data.Runs
import OS161.Userprog.Procs

namespace OS161.Userprog.Fork

open OS161.Data
open OS161.Threads

/-! `sys_fork` of `kern/userprog/fork.c`, whose address-space copy and
allocations succeed, beside the run of the child and its `sys_exit`. -/

/-- How far a call of `sys_fork` is; `thread_fork` has returned. -/
inductive Stage where
  /-- At `lock_acquire(pid_lock)`. -/
  | lock
  | asleep
  | locked
  | numbered
  | created (newPid : PidEntry)
  | appended
  /-- At `return temp->pid`. -/
  | released

namespace Stage

/-- The entry of the child is not in the list. -/
def registers : Stage → Bool
  | .appended | .released => false
  | _ => true

/-- The parent has the lock. -/
def locks : Stage → Bool
  | .lock | .asleep | .released => false
  | _ => true

end Stage

/-- `child` is `temp` of the source, and `program` is the birth of the child. -/
inductive Point where
  | kernel
  | user
  | forking (stage : Stage) (child : Tid) (program : Nat)
  | exiting

namespace Point

def isProcess : Point → Bool
  | .kernel | .exiting => false
  | _ => true

/-- The child, and its birth, that a call of `sys_fork` has yet to enter into
the list. -/
def registering : Point → Option (Tid × Nat)
  | .forking stage child program => if stage.registers then some (child, program) else none
  | _ => none

def resume : Point → Point
  | .forking .asleep child program => .forking .lock child program
  | point => point

/-- What else the thread, or an interrupt handler over it, does with the thread
system.  A process leaves by `sys_exit` only. -/
def allows : Point → Act → Bool
  | _, .fork _ | _, .dispatch | .forking .asleep _ _, _ => false
  | .user, .exit | .forking _ _ _, .exit => false
  | _, _ => true

end Point

structure ForkReturn where
  program : Nat
  pid : Nat
  deriving DecidableEq, Repr

/-- `number` is the pid that a birth was given, and `exitedWith` what it passed
to `sys_exit`. -/
structure State extends Procs where
  point : Tid → Point
  panicked : Bool
  number : Nat → Option Nat
  exitedWith : Nat → Option Int
  done : List ForkReturn

namespace State

def pids (s : State) : List Nat := s.forkC.pidlist.map PidEntry.pid

def moved (t : Tid) (point : Point) (s : State) : State :=
  { s with point := Function.update s.point t point }

def take (act : Act) (s : State) : Option State :=
  (s.toProcs.take act).map fun procs => { s with toProcs := procs }

/-- The child starts in user mode, and the parent is back from
`thread_fork`. -/
def forkedPlaces (s : State) (newguy t : Tid) : Tid → Point :=
  Function.update (Function.update s.point newguy .user) t (.forking .lock newguy s.born)

def sysFork (newguy t : Tid) (s : State) : Option State :=
  match s.point t with
  | .user => (s.toProcs.threadFork newguy).map fun procs =>
      { s with toProcs := procs, point := s.forkedPlaces newguy t }
  | _ => none

/-- `lock_acquire(pid_lock)`, which asserts that there is a lock. -/
def lockAcquire (t : Tid) (s : State) : Option State :=
  match s.point t with
  | .forking .lock child program =>
      match s.forkC.pidLock with
      | none => some { s with panicked := true }
      | some held =>
          if held.threadAddr = none ∨ held.threadAddr = some t then
            some (moved t (.forking .locked child program)
              { s with forkC.pidLock := some { held with threadAddr := some t } })
          else (s.take (.sleep held.addr)).map (moved t (.forking .asleep child program))
  | _ => none

/-- `temp->pid = get_newpid()`. -/
def setPid (t : Tid) (s : State) : Option State :=
  match s.point t with
  | .forking .locked child program => some (moved t (.forking .numbered child program)
      { s with
        forkC.globalPid := s.forkC.globalPid + 1
        pid := Function.update s.pid child (s.forkC.globalPid + 1)
        number := Function.update s.number program (some (s.forkC.globalPid + 1)) })
  | _ => none

def create (garbage : Int) (t : Tid) (s : State) : Option State :=
  match s.point t with
  | .forking .numbered child program =>
      some (s.moved t
        (.forking (.created (pidlistCreate s.forkC.globalPid garbage)) child program))
  | _ => none

/-- `current->next = new_pid` for the last entry, where an empty list faults. -/
def append (t : Tid) (s : State) : Option State :=
  match s.point t with
  | .forking (.created newPid) child program =>
      if s.forkC.pidlist = [] then some { s with panicked := true }
      else
        some (moved t (.forking .appended child program)
          { s with forkC.pidlist := s.forkC.pidlist ++ [newPid] })
  | _ => none

def lockRelease (t : Tid) (s : State) : Option State :=
  match s.point t, s.forkC.pidLock with
  | .forking .appended child program, some held =>
      (s.toProcs.lockRelease held t).map fun released =>
        moved t (.forking .released child program)
          { s with toProcs := { released.2 with forkC.pidLock := some released.1 } }
  | _, _ => none

/-- The `struct thread` of the child is not freed. -/
def Intact (s : State) (child : Tid) (program : Nat) : Prop :=
  s.birth child = program ∧
    (child ∈ s.config.live ∨ child ∈ s.config.sys.zombies.contents)

instance : Decidable (Intact s child program) :=
  inferInstanceAs (Decidable (_ ∧ (_ ∨ _)))

/-- `return temp->pid`, which reads anything from a freed `struct thread`. -/
def forkReturn (pid : Nat) (t : Tid) (s : State) : Option State :=
  match s.point t with
  | .forking .released child program =>
      if s.Intact child program → pid = s.pid child then
        some { s.moved t .user with done := ⟨program, pid⟩ :: s.done }
      else none
  | _ => none

def sysExit (exitcode : Int) (t : Tid) (s : State) : Option State :=
  match s.point t with
  | .user => (s.toProcs.sysExit exitcode t).map fun procs => { s with
      toProcs := procs
      point := Function.update s.point t .exiting
      exitedWith := Function.update s.exitedWith (s.birth t) (some exitcode) }
  | _ => none

/-- The search of a `sys_waitpid` or a `thread_join`, which creates the lock. -/
def search (lock : SleepAddr) (pid : Nat) (t : Tid) (s : State) : Option State :=
  match s.point t with
  | .user | .kernel =>
      (s.pidlistSearch lock t pid).map fun result => { s with toProcs := result.2 }
  | _ => none

/-- With no thread running, the handlers that `cpu_idle` lets in. -/
def system (act : Act) (s : State) : Option State :=
  if (s.curthread.elim .kernel s.point).allows act then s.take act else none

def dispatch (s : State) : Option State :=
  (s.take .dispatch).map fun s =>
    match s.curthread with
    | some t => s.moved t (s.point t).resume
    | none => s

end State

inductive Call where
  | fork (newguy : Tid)
  | lockAcquire
  | setPid
  | create (garbage : Int)
  | append
  | lockRelease
  | forkReturn (pid : Nat)
  | exit (exitcode : Int)
  | search (lock : SleepAddr) (pid : Nat)
  | system (act : Act)
  | dispatch

namespace Call

def run (call : Call) (s : State) : Option State :=
  match call with
  | .fork newguy => s.curthread.bind (State.sysFork newguy · s)
  | .lockAcquire => s.curthread.bind (State.lockAcquire · s)
  | .setPid => s.curthread.bind (State.setPid · s)
  | .create garbage => s.curthread.bind (State.create garbage · s)
  | .append => s.curthread.bind (State.append · s)
  | .lockRelease => s.curthread.bind (State.lockRelease · s)
  | .forkReturn pid => s.curthread.bind (State.forkReturn pid · s)
  | .exit exitcode => s.curthread.bind (State.sysExit exitcode · s)
  | .search lock pid => s.curthread.bind (State.search lock pid · s)
  | .system act => s.system act
  | .dispatch => s.dispatch

/-- `sys_fork` finds a `pid_lock`, the child exits after its entry is in the
list, and `sys_fork` reads the pid before the child's `struct thread` is
freed. -/
def InOrder (call : Call) (s : State) : Prop :=
  match call, s.curthread with
  | .lockAcquire, _ => s.forkC.pidLock.isSome = true
  | .exit _, some t => ∀ u ∈ s.config.live, (s.point u).registering ≠ some (t, s.birth t)
  | .forkReturn _, some t =>
      match s.point t with
      | .forking _ child program => s.Intact child program
      | _ => True
  | _, _ => True

end Call

/-- Processes with entries of their own, none of them in `sys_fork`. -/
structure Start (s : State) : Prop where
  inv : Config.Inv s.config
  calm : s.panicked = false
  nonempty : s.forkC.pidlist ≠ []
  nodup : s.pids.Nodup
  bounded : ∀ pid ∈ s.pids, pid ≤ s.forkC.globalPid
  births : ∀ t, s.birth t < s.born
  live : ∀ t, (s.point t).isProcess = true → t ∈ s.config.live
  unique : ∀ t u, (s.point t).isProcess = true → s.birth u = s.birth t → u = t
  outside : ∀ t stage child program, s.point t ≠ .forking stage child program
  listed : ∀ t, (s.point t).isProcess = true →
    s.number (s.birth t) = some (s.pid t) ∧ s.pid t ∈ s.pids
  numbers : ∀ program pid, s.number program = some pid →
    program < s.born ∧ pid ≤ s.forkC.globalPid
  injective : ∀ program other pid, s.number program = some pid → s.number other = some pid →
    program = other
  pid : ∀ t pid, s.number (s.birth t) = some pid → s.pid t = pid
  running : ∀ program, s.exitedWith program = none
  done : s.done = []

theorem Start.not_registering {s : State} (hstart : Start s) (t : Tid) :
    (s.point t).registering = none := by
  cases hpoint : s.point t with
  | forking stage child program => exact absurd hpoint (hstart.outside t stage child program)
  | _ => rfl

end OS161.Userprog.Fork
