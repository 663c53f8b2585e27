import Mathlib.Data.Finset.Card
import OS161.Lib.Array
import OS161.Lib.Queue

namespace OS161.Threads

open OS161.Data
open OS161.Kern
open OS161.Lib

/-! The thread system of `kern/thread/thread.c` and the run queue of
`kern/thread/scheduler.c`.  A thread is named by the address of its
`struct thread`. -/

abbrev Tid := Nat

abbrev SleepAddr := Nat

inductive ThreadState where
  | ready
  | sleep
  | zomb
  deriving DecidableEq, Repr

/-- Where `md_switch` continues a thread: a new thread enters
`mi_threadstart`, any other returns from `md_switch` inside `mi_switch` to the
caller named here. -/
inductive Resume where
  | threadstart
  | threadYield
  | threadSleep
  | threadExit
  deriving DecidableEq, Repr

structure Thread where
  tPcb : Resume
  tSleepaddr : Option SleepAddr
  tVmspace : Option Nat
  tCwd : Option Nat
  deriving DecidableEq, Repr

structure ThreadSystem where
  thread : Tid → Thread
  curthread : Option Tid
  runqueue : Queue Tid
  sleepers : KArray Tid
  zombies : KArray Tid
  numthreads : Nat

abbrev Op := Prog Errno Fault ThreadSystem

namespace ThreadSystem

def onRunqueue (body : Queue.Op Tid α) : Op α :=
  Prog.zoom runqueue (fun s q => { s with runqueue := q }) body

def onSleepers (body : KArray.Op Tid α) : Op α :=
  Prog.zoom sleepers (fun s a => { s with sleepers := a }) body

def onZombies (body : KArray.Op Tid α) : Op α :=
  Prog.zoom zombies (fun s a => { s with zombies := a }) body

def setThread (t : Tid) (f : Thread → Thread) : Op Unit :=
  Prog.modify fun s => { s with thread := Function.update s.thread t (f (s.thread t)) }

def threadCreate (newguy : Tid) : Op Unit :=
  setThread newguy fun _ => {
    tPcb := .threadstart
    tSleepaddr := none
    tVmspace := none
    tCwd := none }

/-- Only the assertions are left of `thread_destroy`: the struct itself goes
back to `kmalloc`. -/
def threadDestroy (t : Tid) : Op Unit := do
  let s ← Prog.get
  Prog.assert (s.curthread ≠ some t) .exorciseCurthread
  Prog.assert ((s.thread t).tVmspace = none) .threadDestroyVmspace
  Prog.assert ((s.thread t).tCwd = none) .threadDestroyCwd

/-- The body of the loop in `exorcise`. -/
def exorciseTurn (i : Nat) : Op Unit := do
  let z ← onZombies (KArray.arrayGetguy i)
  let cur ← Prog.read curthread
  Prog.assert (cur ≠ some z) .exorciseCurthread
  threadDestroy z

def exorcise : Op Unit := do
  let num ← onZombies KArray.arrayGetnum
  Prog.forFrom (fun i _ => exorciseTurn i) num 0 ()
  onZombies (KArray.arraySetsize false 0)

def makeRunnable (mem : Bool) (t : Tid) : Op Unit :=
  onRunqueue (Queue.qAddtail mem t)

/-- An insertion that the source follows with `assert(result==0)`. -/
def mustInsert (reason : Fault) (body : Op Unit) : Op Unit := do
  match ← Prog.attempt body with
  | .ok _ => pure ()
  | .error _ => Prog.panic reason

/-- `mem` says whether the allocations find memory; `newguy` is the address
that `kmalloc` hands out for the new `struct thread`. -/
def threadFork (mem : Bool) (newguy : Tid) : Op Unit := do
  threadCreate newguy
  let s ← Prog.get
  let cwd := s.curthread.bind fun cur => (s.thread cur).tCwd
  setThread newguy fun t => { t with tCwd := cwd }
  let n ← Prog.read numthreads
  onSleepers (KArray.arrayPreallocate mem (n + 1))
  onZombies (KArray.arrayPreallocate mem (n + 1))
  onRunqueue (Queue.qPreallocate mem (n + 1))
  makeRunnable mem newguy
  Prog.modify fun s => { s with numthreads := s.numthreads + 1 }

/-- `mi_switch` up to the call of `scheduler`.  `resume` is the return address
that `md_switch` will save for the outgoing thread. -/
def miSwitch (mem : Bool) (nextstate : ThreadState) (resume : Resume) :
    Op Unit := do
  match ← Prog.read curthread with
  | none => pure ()
  | some cur =>
      setThread cur fun t => { t with tPcb := resume }
      Prog.modify fun s => { s with curthread := none }
      mustInsert .miSwitchInsert (match nextstate with
        | .ready => makeRunnable mem cur
        | .sleep => onSleepers (KArray.arrayAdd mem cur)
        | .zomb => onZombies (KArray.arrayAdd mem cur))

/-- `scheduler` finding a thread, and `mi_switch` from its return on, in the
context of the incoming thread. -/
def dispatch : Op Unit := do
  let next ← onRunqueue Queue.qRemhead
  Prog.modify fun s => { s with curthread := some next }
  let s ← Prog.get
  match (s.thread next).tPcb with
  | .threadstart => pure ()
  | .threadYield => exorcise
  | .threadExit => exorcise
  | .threadSleep => do
      exorcise
      setThread next fun t => { t with tSleepaddr := none }

def threadExit (mem : Bool) : Op Unit := do
  match ← Prog.read curthread with
  | none => Prog.panic .uninitialised
  | some cur =>
      setThread cur fun t => { t with tVmspace := none, tCwd := none }
      let n ← Prog.read numthreads
      Prog.assert (0 < n) .threadExitCount
      Prog.modify fun s => { s with numthreads := s.numthreads - 1 }
      miSwitch mem .zomb .threadExit

def threadYield (mem : Bool) : Op Unit := miSwitch mem .ready .threadYield

def threadSleep (mem : Bool) (addr : SleepAddr) : Op Unit := do
  match ← Prog.read curthread with
  | none => Prog.panic .uninitialised
  | some cur =>
      setThread cur fun t => { t with tSleepaddr := some addr }
      miSwitch mem .sleep .threadSleep

/-- The scan of `thread_wakeup` from index `i` on.  A turn either removes the
element it looks at or passes it, so there are as many turns as sleepers. -/
def wakeupScan (mem : Bool) (addr : SleepAddr) : (turns i : Nat) → Op Unit
  | 0, _ => pure ()
  | turns + 1, i => do
      let num ← onSleepers KArray.arrayGetnum
      if i < num then
        let t ← onSleepers (KArray.arrayGetguy i)
        let s ← Prog.get
        if (s.thread t).tSleepaddr = some addr then
          onSleepers (KArray.arrayRemove i)
          mustInsert .threadWakeupInsert (makeRunnable mem t)
          wakeupScan mem addr turns i
        else
          wakeupScan mem addr turns (i + 1)
      else
        pure ()

def threadWakeup (mem : Bool) (addr : SleepAddr) : Op Unit := do
  let num ← onSleepers KArray.arrayGetnum
  wakeupScan mem addr num 0

def wakeupHeadScan (mem : Bool) (addr : SleepAddr) (head : Tid) :
    (turns i : Nat) → Op Unit
  | 0, _ => pure ()
  | turns + 1, i => do
      let t ← onSleepers (KArray.arrayGetguy i)
      let s ← Prog.get
      if (s.thread t).tSleepaddr = some addr ∧ head = t then
        onSleepers (KArray.arrayRemove i)
        mustInsert .threadWakeupInsert (makeRunnable mem t)
      else
        wakeupHeadScan mem addr head turns (i + 1)

/-- Hands the queue of the condition variable back without its head. -/
def threadWakeupHead (mem : Bool) (addr : SleepAddr) (cvQueue : Queue Tid) :
    Op (Queue Tid) :=
  match Queue.qRemhead cvQueue with
  | .ok head rest => do
      let num ← onSleepers KArray.arrayGetnum
      wakeupHeadScan mem addr head num 0
      pure rest
  | .error code _ => Prog.fail code
  | .panic reason => Prog.panic reason

def threadBootstrap (me : Tid) : ThreadSystem where
  thread := fun _ => {
    tPcb := .threadstart
    tSleepaddr := none
    tVmspace := none
    tCwd := none }
  curthread := some me
  runqueue := Queue.qCreate 32
  sleepers := KArray.arrayCreate
  zombies := KArray.arrayCreate
  numthreads := 1

end ThreadSystem

/-! Runs.  A configuration adds to the system the set of threads that were
created and have not called `thread_exit`. -/

structure Config where
  sys : ThreadSystem
  live : Finset Tid

namespace Config

def boot (me : Tid) : Config where
  sys := ThreadSystem.threadBootstrap me
  live := {me}

open ThreadSystem

/-- One call made by the running thread or, where `curthread` is `none`, by an
interrupt handler that `cpu_idle` lets in while the run queue is empty.  The
allocations of the list insertions succeed. -/
inductive Step : Config → Config → Prop
  | fork (hcur : c.sys.curthread = some cur) (hnew : newguy ∉ c.live)
      (hzombie : newguy ∉ c.sys.zombies.contents)
      (hrun : threadFork true newguy c.sys = .ok () next) :
      Step c ⟨next, insert newguy c.live⟩
  | yield (hrun : threadYield true c.sys = .ok () next) :
      Step c ⟨next, c.live⟩
  | sleep (hcur : c.sys.curthread = some cur)
      (hrun : threadSleep true addr c.sys = .ok () next) :
      Step c ⟨next, c.live⟩
  | wakeup (hrun : threadWakeup true addr c.sys = .ok () next) :
      Step c ⟨next, c.live⟩
  | wakeupHead (addr : SleepAddr) (cvQueue : Queue Tid)
      (hrun : threadWakeupHead true addr cvQueue c.sys = .ok rest next) :
      Step c ⟨next, c.live⟩
  | exit (hcur : c.sys.curthread = some cur)
      (hrun : threadExit true c.sys = .ok () next) :
      Step c ⟨next, c.live.erase cur⟩
  | exorcise (hcur : c.sys.curthread = some cur)
      (hrun : ThreadSystem.exorcise c.sys = .ok () next) :
      Step c ⟨next, c.live⟩
  | dispatch (hidle : c.sys.curthread = none)
      (hrun : ThreadSystem.dispatch c.sys = .ok () next) :
      Step c ⟨next, c.live⟩
  | other (t : Tid) (hlive : t ∈ c.live) (vmspace cwd : Option Nat)
      (hrun : setThread t (fun t => { t with tVmspace := vmspace, tCwd := cwd })
        c.sys = .ok () next) :
      Step c ⟨next, c.live⟩

end Config

end OS161.Threads
