import OS161.Data.Runs
import OS161.Threads.Synch

namespace OS161.Threads

open OS161.Data
open OS161.Kern
open OS161.Lib

/-! The interrupt level of `kern/arch/mips/mips/spl.c` around the calls of
`kern/thread/synch.c`.  `curspl` is one variable for all threads; what a call
keeps of it is on the stack of its thread. -/

abbrev SPL_HIGH : Nat := 15

/-- What stands on a stack because of the level. -/
inductive Frame where
  /-- A new thread, which begins with the `spl0` of `mi_threadstart`. -/
  | threadstart
  /-- A call of `synch.c` before its `splhigh`, made at this level. -/
  | called (level : Nat)
  /-- A call of `synch.c` made at the level `level`, with its local `spl`. -/
  | inCall (level spl : Nat)
  /-- `thread_yield` with its local `spl`. -/
  | yielding (spl : Nat)
  /-- `mips_trap` with its local `savespl`. -/
  | trap (savespl : Nat)
  deriving DecidableEq, Repr

/-- The level at a call and at its return. -/
structure Return where
  before : Nat
  after : Nat
  deriving DecidableEq, Repr

structure Levels where
  kernel : Kernel
  curspl : Nat
  /-- Under `none` are the traps that `cpu_idle` lets in. -/
  frames : Option Tid → List Frame
  /-- The calls of `synch.c` that have come back. -/
  returns : List Return

namespace Levels

abbrev Op := Prog Errno Fault Levels

def curthread (s : Levels) : Option Tid :=
  s.kernel.curthread

def stack (s : Levels) : List Frame :=
  s.frames s.curthread

def setStack (frames : List Frame) : Op Unit :=
  Prog.modify fun s => { s with frames := Function.update s.frames s.curthread frames }

def push (frame : Frame) : Op Unit := do
  let s ← Prog.get
  setStack (frame :: s.stack)

def splx (newspl : Nat) : Op Nat := fun s =>
  .ok s.curspl { s with curspl := newspl }

def splhigh : Op Nat := splx SPL_HIGH

def spl0 : Op Nat := splx 0

def onKernel (body : Kernel.Op α) : Op α :=
  Prog.zoom kernel (fun s k => { s with kernel := k }) body

/-- The thread calls a function of `synch.c`. -/
def enter : Op Unit := do
  let s ← Prog.get
  push (.called s.curspl)

/-- `spl = splhigh()` in the call on top. -/
def saveSpl : Op Unit := do
  let s ← Prog.get
  match s.stack with
  | .called level :: below => do
      let spl ← splhigh
      setStack (.inCall level spl :: below)
  | _ => Prog.panic .uninitialised

/-- `splx(spl)` in the call on top. -/
def restoreSpl : Op Unit := do
  let s ← Prog.get
  match s.stack with
  | .inCall _ spl :: _ => do
      let _ ← splx spl
      pure ()
  | _ => Prog.panic .uninitialised

/-- The call on top returns. -/
def leave : Op Unit := do
  let s ← Prog.get
  match s.stack with
  | .inCall level _ :: below => do
      setStack below
      Prog.modify fun s => { s with returns := ⟨level, s.curspl⟩ :: s.returns }
  | _ => Prog.panic .uninitialised

def enterHigh : Op Unit := do
  enter
  saveSpl

def restoreAndLeave : Op Unit := do
  restoreSpl
  leave

/-- The thread has not gone to sleep. -/
def whenAwake (body : Op Unit) : Op Unit := do
  match ← Prog.read curthread with
  | none => pure ()
  | some _ => body

/-- A call that does its work between `splhigh` and `splx` at one go. -/
def atHigh (body : Kernel.Op Unit) : Op Unit := do
  enterHigh
  onKernel body
  restoreAndLeave

/-- A call whose work may end in `thread_sleep`. -/
def atHighUntilAsleep (body : Kernel.Op Unit) : Op Unit := do
  enterHigh
  onKernel body
  whenAwake restoreAndLeave

def P (mem : Bool) (sem : SleepAddr) : Op Unit :=
  atHighUntilAsleep (Kernel.pLoop mem sem)

def V (mem : Bool) (sem : SleepAddr) : Op Unit :=
  atHigh (Kernel.V mem sem)

def lockAcquire (mem : Bool) (lock : SleepAddr) : Op Unit :=
  atHighUntilAsleep (Kernel.lockLoop mem lock)

def lockRelease (mem : Bool) (lock : SleepAddr) : Op Unit :=
  atHigh (Kernel.lockRelease mem lock)

def cvWait (mem : Bool) (cv lock : SleepAddr) : Op Unit := do
  enter
  onKernel (Kernel.cvJoin mem cv lock)

/-- `cv_wait` from `splhigh` to `thread_sleep`. -/
def cvSleep (mem : Bool) (cv lock : SleepAddr) : Op Unit := do
  saveSpl
  lockRelease mem lock
  onKernel (Kernel.goAt (.inWait cv lock))
  onKernel (Kernel.system mem (.sleep cv))

/-- With an empty queue the call returns from between its `splhigh` and its
`splx`. -/
def cvSignal (mem : Bool) (cv : SleepAddr) : Op Unit := do
  enterHigh
  let s ← Prog.get
  if (s.kernel.cvQueue cv).qEmpty then
    leave
  else do
    onKernel (Kernel.wakeupHead mem cv)
    restoreAndLeave

def cvBroadcast (mem : Bool) (cv : SleepAddr) : Op Unit :=
  atHigh (Kernel.cvBroadcast mem cv)

/-- `cv_wait` after its `lock_acquire`, where the `lock_acquire` that has
returned was that one. -/
def leaveWait : Op Unit := do
  let s ← Prog.get
  match s.stack with
  | .inCall _ _ :: _ => restoreAndLeave
  | _ => pure ()

/-- A thread that the scheduler has picked goes on where it stood. -/
def resume (mem : Bool) : Op Unit := do
  let s ← Prog.get
  match s.curthread.map s.kernel.point with
  | some (.inP sem) => do
      onKernel (Kernel.pLoop mem sem)
      whenAwake restoreAndLeave
  | some (.inAcquire lock) => do
      onKernel (Kernel.lockLoop mem lock)
      whenAwake do
        restoreAndLeave
        leaveWait
  | some (.inWait _ lock) => do
      lockAcquire mem lock
      whenAwake restoreAndLeave
  | _ => pure ()

/-- The thread that the scheduler has picked comes out of `mi_switch`, or
enters `mi_threadstart`. -/
def goOn (mem : Bool) : Op Unit := do
  let s ← Prog.get
  match s.stack with
  | .threadstart :: below => do
      setStack below
      let _ ← spl0
      pure ()
  | .yielding spl :: below => do
      setStack below
      let _ ← splx spl
      pure ()
  | _ => resume mem

def dispatch (mem : Bool) : Op Unit := do
  onKernel (Kernel.system mem .dispatch)
  goOn mem

def kernelSystem (mem : Bool) (act : Act) : Op Unit :=
  onKernel (do
    Kernel.turnOver act
    Kernel.system mem act)

/-- Where `curthread` is `NULL`, `mi_switch` returns at once. -/
def threadYield (mem : Bool) : Op Unit := do
  let spl ← splhigh
  match ← Prog.read curthread with
  | none => do
      kernelSystem mem .yield
      let _ ← splx spl
      pure ()
  | some _ => do
      push (.yielding spl)
      kernelSystem mem .yield

def threadFork (mem : Bool) (newguy : Tid) : Op Unit := do
  let s ← splhigh
  kernelSystem mem (.fork newguy)
  Prog.modify fun s =>
    { s with frames := Function.update s.frames (some newguy) [.threadstart] }
  let _ ← splx s
  pure ()

def threadExit (mem : Bool) : Op Unit := do
  let _ ← splhigh
  kernelSystem mem .exit

/-- The other calls of `thread.c` leave the level alone. -/
def system (mem : Bool) : Act → Op Unit
  | .yield => threadYield mem
  | .fork newguy => threadFork mem newguy
  | .exit => threadExit mem
  | act => kernelSystem mem act

/-- `mips_trap` up to its handler. -/
def mipsTrap : Op Unit := do
  let s ← Prog.get
  push (.trap s.curspl)
  let _ ← splhigh
  pure ()

/-- `mips_trap` from `done` on. -/
def trapDone : Op Unit := do
  let s ← Prog.get
  match s.stack with
  | .trap savespl :: below => do
      setStack below
      let _ ← splx savespl
      pure ()
  | _ => Prog.panic .uninitialised

def boot (me : Tid) (initialCount : SleepAddr → Fin (2 ^ 31)) : Levels where
  kernel := Kernel.boot me initialCount
  curspl := SPL_HIGH
  frames _ := []
  returns := []

/-- The running thread is not inside a call of `synch.c`, or an interrupt or
exception handler runs. -/
def AtLarge (s : Levels) : Prop :=
  match s.stack with
  | [] => s.curthread ≠ none
  | .trap _ :: _ => True
  | _ => False

/-- The assertions on `curspl` in `thread.c` that the calls of `synch.c` do not
meet by themselves; and the scheduler goes on when the handlers are done. -/
def Ready (s : Levels) : Call → Prop
  | .system (.sleep _) => 0 < s.curspl
  | .system (.wakeup _) => 0 < s.curspl
  | .system .exorcise => 0 < s.curspl
  | .dispatch => s.stack = []
  | _ => True

end Levels

inductive Move where
  | call (call : Call)
  /-- Any other code that sets the level. -/
  | splx (newspl : Nat)
  | trap
  | trapDone

namespace Move

def run (mem : Bool) : Move → Levels.Op Unit
  | .call (.P sem) => Levels.P mem sem
  | .call (.V sem) => Levels.V mem sem
  | .call (.lockAcquire lock) => Levels.lockAcquire mem lock
  | .call (.lockRelease lock) => Levels.lockRelease mem lock
  | .call (.cvWait cv lock) => Levels.cvWait mem cv lock
  | .call (.cvSleep cv lock) => Levels.cvSleep mem cv lock
  | .call (.cvSignal cv) => Levels.cvSignal mem cv
  | .call (.cvBroadcast cv) => Levels.cvBroadcast mem cv
  | .call (.system act) => Levels.system mem act
  | .call .dispatch => Levels.dispatch mem
  | .splx newspl => do
      let _ ← Levels.splx newspl
      pure ()
  | .trap => Levels.mipsTrap
  | .trapDone => Levels.trapDone

/-- Interrupts come where `curspl` is 0 and from `cpu_idle`. -/
def Allowed (kind : SleepAddr → Kind) (s : Levels) : Move → Prop
  | .call made => made.Allowed kind s.kernel ∧ s.Ready made
  | .splx _ => s.AtLarge
  | .trap => s.curspl = 0 ∨ s.curthread = none ∨ s.AtLarge
  | .trapDone => True

structure Takes (kind : SleepAddr → Kind) (move : Move) (s d : Levels) : Prop where
  allowed : move.Allowed kind s
  runs : ∃ mem, move.run mem s = .ok () d

end Move

/-! What each piece of a call does, said once. -/

namespace Levels

section Pieces

variable {s d : Levels}

def withStack (s : Levels) (frames : List Frame) : Levels :=
  { s with frames := Function.update s.frames s.curthread frames }

@[simp] theorem withStack_stack (s : Levels) (frames : List Frame) :
    (s.withStack frames).stack = frames :=
  Function.update_self _ _ _

@[simp] theorem withStack_withStack (s : Levels) (frames frames' : List Frame) :
    (s.withStack frames).withStack frames' = s.withStack frames' := by
  simp [withStack, curthread]

@[simp] theorem withStack_own (s : Levels) : s.withStack s.stack = s := by
  simp [withStack, stack]

/-- The call made at the present level and not back yet. -/
def begun (s : Levels) : Levels :=
  { s.withStack (.inCall s.curspl s.curspl :: s.stack) with curspl := SPL_HIGH }

theorem begun_stack (s : Levels) : s.begun.stack = .inCall s.curspl s.curspl :: s.stack :=
  Function.update_self _ _ _

theorem saveSpl_run (hstack : s.stack = .called level :: below) :
    saveSpl s = .ok () { s.withStack (.inCall level s.curspl :: below) with
      curspl := SPL_HIGH } := by
  simp only [saveSpl, bind, Prog.andThen, Prog.get, hstack]
  rfl

theorem enterHigh_run (s : Levels) : enterHigh s = .ok () s.begun := by
  change saveSpl (s.withStack (.called s.curspl :: s.stack)) = _
  rw [saveSpl_run (withStack_stack s _)]
  congr 1
  simp [begun, withStack, curthread]

theorem saveSpl_ok (hrun : saveSpl s = .ok () d) :
    ∃ level below, s.stack = .called level :: below := by
  cases hstack : s.stack with
  | nil => simp [saveSpl, bind, Prog.andThen, Prog.get, hstack, Prog.panic] at hrun
  | cons frame below =>
      cases frame with
      | called level => exact ⟨level, below, rfl⟩
      | _ => simp [saveSpl, bind, Prog.andThen, Prog.get, hstack, Prog.panic] at hrun

/-- The call on top has come back at the level `spl`. -/
def returned (s : Levels) (level spl : Nat) (below : List Frame) : Levels :=
  { s.withStack below with
    curspl := spl
    returns := ⟨level, spl⟩ :: s.returns }

@[simp] theorem returned_stack (s : Levels) (level spl : Nat) (below : List Frame) :
    (s.returned level spl below).stack = below :=
  Function.update_self _ _ _

theorem leave_run (hstack : s.stack = .inCall level spl :: below) :
    leave s = .ok () { s.withStack below with
      returns := ⟨level, s.curspl⟩ :: s.returns } := by
  simp only [leave, bind, Prog.andThen, Prog.get, hstack]
  rfl

theorem restoreAndLeave_run (hstack : s.stack = .inCall level spl :: below) :
    restoreAndLeave s = .ok () (s.returned level spl below) := by
  have hlower : restoreSpl s = .ok () { s with curspl := spl } := by
    simp only [restoreSpl, bind, Prog.andThen, Prog.get, hstack]
    rfl
  have hsame : Levels.stack { s with curspl := spl } = .inCall level spl :: below := hstack
  simp only [restoreAndLeave, bind, Prog.andThen, hlower, leave_run hsame]
  rfl

theorem restoreAndLeave_ok (hrun : restoreAndLeave s = .ok () d) :
    ∃ level spl below, s.stack = .inCall level spl :: below := by
  cases hstack : s.stack with
  | nil =>
      simp [restoreAndLeave, restoreSpl, bind, Prog.andThen, Prog.get, hstack,
        Prog.panic] at hrun
  | cons frame below =>
      cases frame with
      | inCall level spl => exact ⟨level, spl, below, rfl⟩
      | _ =>
          simp [restoreAndLeave, restoreSpl, bind, Prog.andThen, Prog.get, hstack,
            Prog.panic] at hrun

theorem trapDone_ok (hrun : trapDone s = .ok () d) :
    ∃ savespl below, s.stack = .trap savespl :: below ∧
      d = { s.withStack below with curspl := savespl } := by
  cases hstack : s.stack with
  | nil => simp [trapDone, bind, Prog.andThen, Prog.get, hstack, Prog.panic] at hrun
  | cons frame below =>
      cases frame with
      | trap savespl =>
          simp only [trapDone, bind, Prog.andThen, Prog.get, hstack] at hrun
          cases hrun
          exact ⟨savespl, below, rfl, rfl⟩
      | _ => simp [trapDone, bind, Prog.andThen, Prog.get, hstack, Prog.panic] at hrun

theorem onKernel_ok {body : Kernel.Op Unit} (hrun : onKernel body s = .ok () d) :
    body s.kernel = .ok () d.kernel ∧ d = { s with kernel := d.kernel } := by
  simp only [onKernel, Prog.zoom] at hrun
  cases hbody : body s.kernel with
  | ok value k =>
      rw [hbody] at hrun
      cases hrun
      exact ⟨rfl, rfl⟩
  | error code k =>
      rw [hbody] at hrun
      cases hrun
  | panic reason =>
      rw [hbody] at hrun
      cases hrun

theorem whenAwake_ok {body : Op Unit} (hrun : whenAwake body s = .ok () d) :
    (s.curthread = none ∧ d = s) ∨ ((∃ t, s.curthread = some t) ∧ body s = .ok () d) := by
  cases hcur : s.curthread with
  | none =>
      simp only [whenAwake, bind, Prog.andThen, Prog.read, hcur] at hrun
      cases hrun
      exact .inl ⟨rfl, rfl⟩
  | some t =>
      simp only [whenAwake, bind, Prog.andThen, Prog.read, hcur] at hrun
      exact .inr ⟨⟨t, rfl⟩, hrun⟩

theorem stack_withKernel (hcur : k.curthread = s.curthread) :
    Levels.stack { s with kernel := k } = s.stack := by
  simp only [stack, curthread] at hcur ⊢
  rw [hcur]

theorem leaveWait_inWait (hstack : s.stack = .inCall level spl :: below) :
    leaveWait s = .ok () (s.returned level spl below) := by
  rw [← restoreAndLeave_run hstack]
  simp only [leaveWait, bind, Prog.andThen, Prog.get, hstack]

theorem leaveWait_acquired (hstack : ∀ level spl below, s.stack ≠ .inCall level spl :: below) :
    leaveWait s = .ok () s := by
  simp only [leaveWait, bind, Prog.andThen, Prog.get]
  rfl

theorem begun_returned (hcur : k.curthread = s.curthread) :
    Levels.returned { s.begun with kernel := k } s.curspl s.curspl s.stack = { s with
      kernel := k
      returns := ⟨s.curspl, s.curspl⟩ :: s.returns } := by
  simp only [curthread] at hcur
  simp [returned, begun, withStack, curthread, stack, hcur]

/-- A call that neither blocks nor moves the running thread shows nothing but
its work and its return. -/
theorem atHigh_ok {body : Kernel.Op Unit} (hrun : atHigh body s = .ok () d)
    (hstays : ∀ k, body s.kernel = .ok () k → k.curthread = s.curthread) :
    body s.kernel = .ok () d.kernel ∧ d = { s with
      kernel := d.kernel
      returns := ⟨s.curspl, s.curspl⟩ :: s.returns } := by
  unfold atHigh at hrun
  rw [Prog.bind_eq_ok_iff] at hrun
  obtain ⟨_, _, henter, hrun⟩ := hrun
  rw [enterHigh_run] at henter
  cases henter
  rw [Prog.bind_eq_ok_iff] at hrun
  obtain ⟨_, mid, hbody, hrun⟩ := hrun
  obtain ⟨hkernel, hmid⟩ := onKernel_ok hbody
  have hcur : mid.kernel.curthread = s.curthread := hstays _ hkernel
  have hstack : mid.stack = .inCall s.curspl s.curspl :: s.stack := by
    rw [hmid, stack_withKernel (s := s.begun) hcur]
    exact begun_stack s
  rw [restoreAndLeave_run hstack] at hrun
  cases hrun
  exact ⟨hkernel, by rw [hmid, begun_returned hcur]⟩

theorem cvSignal_nobody (hqueue : (s.kernel.cvQueue cv).qEmpty = true) :
    cvSignal mem cv s = .ok () { s with
      curspl := SPL_HIGH
      returns := ⟨s.curspl, SPL_HIGH⟩ :: s.returns } := by
  have hsame : (s.begun.kernel.cvQueue cv).qEmpty = true := hqueue
  simp only [cvSignal, bind, Prog.andThen, enterHigh_run, Prog.get, hsame, if_true,
    leave_run (begun_stack s)]
  congr 1
  simp [withStack, begun, curthread, stack]

theorem cvSignal_somebody (hqueue : (s.kernel.cvQueue cv).qEmpty = false) :
    cvSignal mem cv s = atHigh (Kernel.wakeupHead mem cv) s := by
  have hsame : (s.begun.kernel.cvQueue cv).qEmpty = false := hqueue
  simp only [cvSignal, atHigh, bind, Prog.andThen, enterHigh_run, Prog.get, hsame,
    Bool.false_eq_true, if_false]

/-- A call that may block ends in `thread_sleep`, or shows nothing but its work
and its return. -/
theorem atHighUntilAsleep_ok {body : Kernel.Op Unit}
    (hrun : atHighUntilAsleep body s = .ok () d)
    (hstays : ∀ k, body s.kernel = .ok () k → k.curthread = none ∨ k.curthread = s.curthread) :
    body s.kernel = .ok () d.kernel ∧
      (d.curthread = none ∧ d = { s.begun with kernel := d.kernel } ∨
        d.curthread = s.curthread ∧ d = { s with
          kernel := d.kernel
          returns := ⟨s.curspl, s.curspl⟩ :: s.returns }) := by
  unfold atHighUntilAsleep at hrun
  rw [Prog.bind_eq_ok_iff] at hrun
  obtain ⟨_, _, henter, hrun⟩ := hrun
  rw [enterHigh_run] at henter
  cases henter
  rw [Prog.bind_eq_ok_iff] at hrun
  obtain ⟨_, mid, hbody, hrun⟩ := hrun
  obtain ⟨hkernel, hmid⟩ := onKernel_ok hbody
  rcases whenAwake_ok hrun with ⟨hnone, rfl⟩ | ⟨⟨t, hsome⟩, hrun⟩
  · exact ⟨hkernel, .inl ⟨hnone, hmid⟩⟩
  · have hcur : mid.kernel.curthread = s.curthread := by
      refine (hstays _ hkernel).resolve_left ?_
      rw [curthread] at hsome
      simp [hsome]
    have hstack : mid.stack = .inCall s.curspl s.curspl :: s.stack := by
      rw [hmid, stack_withKernel (s := s.begun) hcur]
      exact begun_stack s
    rw [restoreAndLeave_run hstack] at hrun
    cases hrun
    exact ⟨hkernel, .inr ⟨hcur, by rw [hmid, begun_returned hcur]⟩⟩

end Pieces

end Levels

/-- The thread can be interrupted there, or yield. -/
def Point.Outside : Point → Prop
  | .user => True
  | .queued _ _ => True
  | _ => False

/-- The stack of a thread that stands at the point: where it goes on at the
level `level`, every call on the stack will come back at the level it was made
at. -/
inductive Stands : Point → Nat → List Frame → Prop
  | user : Stands .user level []
  | threadstart : Stands .user level [.threadstart]
  | trap (houtside : point.Outside) (hbelow : Stands point savespl below) :
      Stands point level (.trap savespl :: below)
  | yielding (houtside : point.Outside) (hbelow : Stands point spl below) :
      Stands point level (.yielding spl :: below)
  | queued (hbelow : Stands .user level below) :
      Stands (.queued cv lock) level (.called level :: below)
  | inP (hbelow : Stands .user spl below) : Stands (.inP sem) level (.inCall spl spl :: below)
  | inAcquire (hbelow : Stands .user spl below) :
      Stands (.inAcquire lock) level (.inCall spl spl :: below)
  | inAcquireInWait (hbelow : Stands .user outer below) :
      Stands (.inAcquire lock) level (.inCall spl spl :: .inCall outer outer :: below)
  | inWait (hbelow : Stands .user spl below) :
      Stands (.inWait cv lock) level (.inCall spl spl :: below)

/-- Where the thread is not about to call `splhigh` in `cv_wait`, the level it
goes on at does not matter. -/
theorem Stands.relevel (h : Stands point level frames)
    (hpoint : ∀ cv lock, point ≠ .queued cv lock) (other : Nat) : Stands point other frames := by
  cases h with
  | user => exact .user
  | threadstart => exact .threadstart
  | trap houtside hbelow => exact .trap houtside hbelow
  | yielding houtside hbelow => exact .yielding houtside hbelow
  | queued hbelow => exact (hpoint _ _ rfl).elim
  | inP hbelow => exact .inP hbelow
  | inAcquire hbelow => exact .inAcquire hbelow
  | inAcquireInWait hbelow => exact .inAcquireInWait hbelow
  | inWait hbelow => exact .inWait hbelow

theorem Stands.user_relevel (h : Stands .user level frames) (other : Nat) :
    Stands .user other frames :=
  h.relevel (fun _ _ heq => by cases heq) other

theorem Stands.user_top (h : Stands .user level frames) (made spl : Nat) (below : List Frame) :
    frames ≠ .inCall made spl :: below := by
  intro heq
  subst heq
  cases h

namespace Levels

structure Inv (kind : SleepAddr → Kind) (s : Levels) : Prop where
  sound : s.kernel.Sound kind
  outside : ∀ t, s.curthread = some t → (s.kernel.point t).Outside
  running : ∀ t, s.curthread = some t → Stands (s.kernel.point t) s.curspl (s.frames (some t))
  aside : ∀ t, s.curthread ≠ some t → ∀ level,
    Stands (s.kernel.point t) level (s.frames (some t))
  restored : ∀ back ∈ s.returns, back.after = back.before

/-- What the running thread may rely on while it moves on. -/
structure Around (kind : SleepAddr → Kind) (s : Levels) (t : Tid) : Prop where
  sound : s.kernel.Sound kind
  running : s.curthread = some t
  stands : Stands (s.kernel.point t) s.curspl (s.frames (some t))
  aside : ∀ u ≠ t, ∀ level, Stands (s.kernel.point u) level (s.frames (some u))
  restored : ∀ back ∈ s.returns, back.after = back.before

section Keeps

variable {kind : SleepAddr → Kind} {s d : Levels}

theorem Inv.around (h : Inv kind s) (hcur : s.curthread = some t) : Around kind s t where
  sound := h.sound
  running := hcur
  stands := h.running t hcur
  aside u hu := by
    apply h.aside
    rw [hcur]
    intro heq
    exact hu (Option.some.inj heq).symm
  restored := h.restored

/-- The thread stands at another point with another stack, the other threads
are left alone, and what has come back in between has restored its level. -/
structure Shows (s d : Levels) (t : Tid) (p : Point) (list : List Frame) : Prop where
  point : d.kernel.point = Function.update s.kernel.point t p
  frames : d.frames = Function.update s.frames (some t) list
  returns : ∀ back ∈ d.returns, back ∈ s.returns ∨ back.after = back.before

theorem Shows.point_self (h : Shows s d t p list) : d.kernel.point t = p := by
  rw [h.point, Function.update_self]

theorem Shows.frames_self (h : Shows s d t p list) : d.frames (some t) = list := by
  rw [h.frames, Function.update_self]

theorem Shows.aside (h : Shows s d t p list) (haround : Around kind s t) (hne : u ≠ t)
    (level : Nat) : Stands (d.kernel.point u) level (d.frames (some u)) := by
  have hsome : some u ≠ some t := fun heq => hne (Option.some.inj heq)
  rw [h.point, h.frames, Function.update_of_ne hne, Function.update_of_ne hsome]
  exact haround.aside u hne level

/-- The running thread still runs. -/
theorem Around.stays (h : Around kind s t) (hsound : d.kernel.Sound kind)
    (hshows : Shows s d t p list) (hsame : d.curthread = some t) (houtside : p.Outside)
    (hstands : Stands p d.curspl list) : Inv kind d where
  sound := hsound
  outside u hu := by
    obtain rfl : t = u := Option.some.inj (hsame.symm.trans hu)
    rw [hshows.point_self]
    exact houtside
  running u hu := by
    obtain rfl : t = u := Option.some.inj (hsame.symm.trans hu)
    rw [hshows.point_self, hshows.frames_self]
    exact hstands
  aside u hu level := by
    apply hshows.aside h
    rintro rfl
    exact hu hsame
  restored back hback := (hshows.returns back hback).elim (h.restored back) id

/-- The running thread has called `mi_switch`. -/
theorem Around.goes (h : Around kind s t) (hsound : d.kernel.Sound kind)
    (hshows : Shows s d t p list) (hnone : d.curthread = none)
    (hstands : ∀ level, Stands p level list) : Inv kind d where
  sound := hsound
  outside u hu := by
    rw [hnone] at hu
    cases hu
  running u hu := by
    rw [hnone] at hu
    cases hu
  aside u hu level := by
    by_cases hne : u = t
    · subst hne
      rw [hshows.point_self, hshows.frames_self]
      exact hstands level
    · exact hshows.aside h hne level
  restored back hback := (hshows.returns back hback).elim (h.restored back) id

/-- A call that shows nothing but its work and its return. -/
theorem Inv.returned (h : Inv kind s) (hsound : k.Sound kind)
    (hcur : k.curthread = s.curthread) (hpoint : k.point = s.kernel.point) :
    Inv kind { s with
      kernel := k
      returns := ⟨s.curspl, s.curspl⟩ :: s.returns } where
  sound := hsound
  outside u hu := by
    rw [hpoint]
    exact h.outside u (hcur.symm.trans hu)
  running u hu := by
    rw [hpoint]
    exact h.running u (hcur.symm.trans hu)
  aside u hu := by
    rw [hpoint]
    apply h.aside
    rw [← hcur]
    exact hu
  restored back hback := by
    rcases List.mem_cons.mp hback with rfl | hback
    · rfl
    · exact h.restored back hback

end Keeps

end Levels

/-- A turn of the loop in `P` or `lock_acquire`. -/
inductive Turns (k d : Kernel) (t : Tid) (point : Point) : Prop
  | back (hcur : d.curthread = some t) (hpoint : d.point = Function.update k.point t .user)
  | asleep (hcur : d.curthread = none) (hpoint : d.point = Function.update k.point t point)

section Turns

variable {kind : SleepAddr → Kind} {k d : Kernel}

theorem Turns.curthread (h : Turns k d t point) (hcur : k.curthread = some t) :
    d.curthread = none ∨ d.curthread = k.curthread := by
  cases h with
  | back hsame hpoint => exact .inr (hsame.trans hcur.symm)
  | asleep hnone hpoint => exact .inl hnone

theorem Turns.point_of_back (h : Turns k d t point) (hcur : d.curthread = some t) :
    d.point = Function.update k.point t .user := by
  cases h with
  | back hsame hpoint => exact hpoint
  | asleep hnone hpoint =>
      rw [hcur] at hnone
      cases hnone

theorem Turns.point_of_asleep (h : Turns k d t point) (hnone : d.curthread = none) :
    d.point = Function.update k.point t point := by
  cases h with
  | back hcur hpoint =>
      rw [hnone] at hcur
      cases hcur
  | asleep _ hpoint => exact hpoint

/-- What a call leaves alone that goes through from `splhigh` to `splx`. -/
structure GoesThrough (k d : Kernel) : Prop where
  curthread : d.curthread = k.curthread
  point : d.point = k.point

theorem V_goesThrough (hrun : Kernel.V mem sem k = .ok () d) (hsound : k.Sound kind)
    (hkind : kind sem = .semaphore) : d.Sound kind ∧ GoesThrough k d := by
  have heffect := V_effect hrun hsound.inv hkind
  refine ⟨hsound.effect heffect, ?_⟩
  cases heffect with
  | posts hkind hcount hwakes hd => exact ⟨hwakes.cur, by rw [hd]⟩

theorem lockRelease_goesThrough (hrun : Kernel.lockRelease mem lock k = .ok () d)
    (hsound : k.Sound kind) (hcur : k.curthread = some t) :
    d.Sound kind ∧ GoesThrough k d := by
  have hreleases := lockRelease_ok hrun hsound.inv hcur
  refine ⟨hsound.releases hreleases, (hreleases.inv hsound.inv).2, ?_⟩
  cases hreleases with
  | holder hholds hwakes hd => rw [hd]
  | other hother hd => rw [hd]

theorem cvBroadcast_goesThrough (hrun : Kernel.cvBroadcast mem cv k = .ok () d)
    (hsound : k.Sound kind) : d.Sound kind ∧ GoesThrough k d := by
  obtain ⟨hwakes, hd⟩ := Kernel.wakeup_ok hrun hsound.inv
  refine ⟨⟨hwakes.inv, ?_⟩, hwakes.cur, by rw [hd]⟩
  rw [hd]
  exact hsound.typed

theorem wakeupHead_goesThrough (hrun : Kernel.wakeupHead mem cv k = .ok () d)
    (hsound : k.Sound kind) (hcv : kind cv = .cv) (huser : k.InUser)
    (hqueue : (k.cvQueue cv).qEmpty = false) : d.Sound kind ∧ GoesThrough k d := by
  have hsignal : Kernel.cvSignal mem cv k = .ok () d := by
    rw [Kernel.cvSignal, Prog.bind_eq_ok_iff]
    refine ⟨k, k, rfl, ?_⟩
    rw [hqueue]
    exact hrun
  have heffect := cvSignal_effect hsignal hsound.inv hcv huser
  refine ⟨hsound.effect heffect, ?_⟩
  cases heffect with
  | signalsNobody hempty => exact ⟨rfl, rfl⟩
  | signals hcv huser hhead hinv hlive hcur hsleepers hd => exact ⟨hcur, by rw [hd]⟩

theorem cvJoin_joins (hrun : Kernel.cvJoin mem cv lock k = .ok () d) (hsound : k.Sound kind)
    (hcv : kind cv = .cv) (hlock : kind lock = .lock) (hcur : k.curthread = some t)
    (huser : k.point t = .user) :
    d.Sound kind ∧ d.curthread = some t ∧
      d.point = Function.update k.point t (.queued cv lock) := by
  have heffect := cvJoin_effect hrun hcv hlock hcur huser
  refine ⟨hsound.effect heffect, ?_⟩
  cases heffect with
  | joins _ _ hcur' _ _ _ =>
      obtain rfl := Option.some.inj (hcur.symm.trans hcur')
      exact ⟨hcur, rfl⟩

theorem sleepAt_asleep (hat : Kernel.goAt point k = .ok () mid)
    (hsleep : Kernel.system mem (.sleep addr) mid = .ok () d) (hsound : k.Sound kind)
    (hcur : k.curthread = some t) (htyped : point.Typed kind) :
    d.Sound kind ∧ d.curthread = none ∧ d.point = Function.update k.point t point := by
  obtain rfl := goAt_ok hat hcur
  obtain ⟨hsleeps, hd⟩ := Kernel.sleep_ok hsleep hsound.inv hcur
  refine ⟨⟨hsleeps.inv, ?_⟩, hsleeps.cur, by rw [hd]⟩
  rw [hd]
  exact Kernel.typed_update hsound.typed point htyped t

/-- Where a call of `thread.c` takes the running thread. -/
theorem act_goes {act : Act} (hrun : (Call.system act).run mem k = .ok () d)
    (hsound : k.Sound kind) (hallowed : act.Allowed k.config) (hplain : Call.plain kind k act) :
    d.Sound kind ∧ match act with
      | .fork newguy => d.curthread = k.curthread ∧
          d.point = Function.update k.point newguy .user
      | .yield | .sleep _ | .exit => d.curthread = none ∧ d.point = k.point
      | _ => GoesThrough k d := by
  refine ⟨hsound.effect (system_effect hrun hsound.inv hallowed hplain), ?_⟩
  simp only [Call.run] at hrun
  rw [Prog.bind_eq_ok_iff] at hrun
  obtain ⟨_, mid, hturn, hrun⟩ := hrun
  simp only [Kernel.turnOver, Prog.modify] at hturn
  cases act with
  | dispatch => exact hplain.elim
  | wakeupHead addr cvQueue => exact hplain.elim
  | fork newguy =>
      cases hturn
      obtain ⟨htakes, hd⟩ := Kernel.system_ok hrun hallowed
      exact ⟨htakes.curthread hsound.inv, by rw [hd]⟩
  | yield =>
      cases hturn
      obtain ⟨htakes, hd⟩ := Kernel.system_ok hrun hallowed
      exact ⟨htakes.curthread hsound.inv, by rw [hd]⟩
  | sleep addr =>
      cases hturn
      obtain ⟨htakes, hd⟩ := Kernel.system_ok hrun hallowed
      exact ⟨htakes.curthread hsound.inv, by rw [hd]⟩
  | exit =>
      cases hturn
      obtain ⟨htakes, hd⟩ := Kernel.system_ok hrun hallowed
      exact ⟨htakes.curthread hsound.inv, by rw [hd]⟩
  | wakeup addr =>
      cases hturn
      obtain ⟨htakes, hd⟩ := Kernel.system_ok hrun hallowed
      exact ⟨htakes.curthread hsound.inv, by rw [hd]⟩
  | exorcise =>
      cases hturn
      obtain ⟨htakes, hd⟩ := Kernel.system_ok hrun hallowed
      exact ⟨htakes.curthread hsound.inv, by rw [hd]⟩
  | other t vmspace cwd =>
      cases hturn
      obtain ⟨htakes, hd⟩ := Kernel.system_ok hrun hallowed
      exact ⟨htakes.curthread hsound.inv, by rw [hd]⟩

theorem Effect.P_turns (heffect : Effect kind (.P sem) k d) (ht : k.curthread = some t) :
    Turns k d t (.inP sem) := by
  cases heffect with
  | passes hkind hcur hpoint hcount =>
      obtain rfl := Option.some.inj (ht.symm.trans hcur)
      exact .back hcur rfl
  | blocks hkind hcur hpoint hcount hsleeps hd =>
      obtain rfl := Option.some.inj (ht.symm.trans hcur)
      exact .asleep hsleeps.cur (by rw [hd])

theorem Effect.lockAcquire_turns (heffect : Effect kind (.lockAcquire lock) k d)
    (ht : k.curthread = some t) : Turns k d t (.inAcquire lock) := by
  cases heffect with
  | acquires hkind hcur hpoint hfree =>
      obtain rfl := Option.some.inj (ht.symm.trans hcur)
      exact .back hcur rfl
  | contends hkind hcur hpoint hbusy hother hsleeps hd =>
      obtain rfl := Option.some.inj (ht.symm.trans hcur)
      exact .asleep hsleeps.cur (by rw [hd])

theorem pLoop_turns (hrun : Kernel.pLoop mem sem k = .ok () d) (hsound : k.Sound kind)
    (hkind : kind sem = .semaphore) (hcur : k.curthread = some t) (hpoint : ¬ k.Joining t) :
    d.Sound kind ∧ Turns k d t (.inP sem) := by
  have heffect := pLoop_effect hrun hsound.inv hkind hcur hpoint
  exact ⟨hsound.effect heffect, heffect.P_turns hcur⟩

theorem lockLoop_turns (hrun : Kernel.lockLoop mem lock k = .ok () d) (hsound : k.Sound kind)
    (hkind : kind lock = .lock) (hcur : k.curthread = some t) (hpoint : ¬ k.Joining t) :
    d.Sound kind ∧ Turns k d t (.inAcquire lock) := by
  have heffect := lockLoop_effect hrun hsound.inv hkind hcur hpoint
  exact ⟨hsound.effect heffect, heffect.lockAcquire_turns hcur⟩

end Turns

namespace Levels

section Steps

variable {kind : SleepAddr → Kind} {s d : Levels}

/-- `P` or `lock_acquire` called from outside the calls of `synch.c`. -/
theorem Inv.atHighUntilAsleep {body : Kernel.Op Unit} (h : Inv kind s)
    (hcur : s.curthread = some t) (huser : s.kernel.point t = .user)
    (hbody : ∀ k, body s.kernel = .ok () k → k.Sound kind ∧ Turns s.kernel k t point)
    (hstands : ∀ {level spl : Nat} {below : List Frame},
      Stands .user spl below → Stands point level (.inCall spl spl :: below))
    (hrun : Levels.atHighUntilAsleep body s = .ok () d) : Inv kind d := by
  have hown := h.running t hcur
  rw [huser] at hown
  obtain ⟨hwork, hends⟩ := atHighUntilAsleep_ok hrun
    fun k hk => (hbody k hk).2.curthread hcur
  obtain ⟨hsound, hturns⟩ := hbody _ hwork
  rcases hends with ⟨hnone, hd⟩ | ⟨hsame, hd⟩
  · refine (h.around hcur).goes hsound ⟨hturns.point_of_asleep hnone, ?_, ?_⟩ hnone
      fun level => hstands hown
    · rw [hd, ← hcur]
      rfl
    · rw [hd]
      exact fun back hback => .inl hback
  · have hpoint : d.kernel.point = s.kernel.point := by
      rw [hturns.point_of_back (hsame.trans hcur), ← huser, Function.update_eq_self]
    rw [hd]
    exact h.returned hsound hsame hpoint

theorem Inv.atHigh {body : Kernel.Op Unit} (h : Inv kind s)
    (hbody : ∀ k, body s.kernel = .ok () k → k.Sound kind ∧ GoesThrough s.kernel k)
    (hrun : Levels.atHigh body s = .ok () d) : Inv kind d := by
  obtain ⟨hwork, hd⟩ := atHigh_ok hrun fun k hk => (hbody k hk).2.curthread
  obtain ⟨hsound, hthrough⟩ := hbody _ hwork
  rw [hd]
  exact h.returned hsound hthrough.curthread hthrough.point

/-- The empty queue is the case that does not come back at its level. -/
theorem Inv.cvSignal (h : Inv kind s) (hcv : kind cv = .cv) (huser : s.kernel.InUser)
    (hlevel : (s.kernel.cvQueue cv).qEmpty = false ∨ s.curspl = SPL_HIGH)
    (hrun : Levels.cvSignal mem cv s = .ok () d) : Inv kind d := by
  cases hqueue : (s.kernel.cvQueue cv).qEmpty with
  | false =>
      rw [cvSignal_somebody hqueue] at hrun
      exact h.atHigh (fun k hk => wakeupHead_goesThrough hk h.sound hcv huser hqueue) hrun
  | true =>
      rw [hqueue] at hlevel
      have hhigh : s.curspl = SPL_HIGH := hlevel.resolve_left Bool.false_ne_true.symm
      rw [cvSignal_nobody hqueue, ← hhigh] at hrun
      cases hrun
      exact h.returned h.sound rfl rfl

theorem Inv.cvWait (h : Inv kind s) (hcv : kind cv = .cv) (hlock : kind lock = .lock)
    (huser : s.kernel.InUser) (hrun : Levels.cvWait mem cv lock s = .ok () d) :
    Inv kind d := by
  obtain ⟨t, hcur, hpoint⟩ := InUser.exists_cur huser
  have hown := h.running t hcur
  rw [hpoint] at hown
  unfold Levels.cvWait at hrun
  rw [Prog.bind_eq_ok_iff] at hrun
  obtain ⟨_, _, henter, hrun⟩ := hrun
  cases henter
  obtain ⟨hwork, hd⟩ := onKernel_ok hrun
  obtain ⟨hsound, hsame, hqueued⟩ := cvJoin_joins hwork h.sound hcv hlock hcur hpoint
  have hshows : Shows s d t (.queued cv lock) (.called s.curspl :: s.frames (some t)) := by
    refine ⟨hqueued, ?_, ?_⟩
    · rw [hd, ← hcur]
      rfl
    · rw [hd]
      exact fun back hback => .inl hback
  have hlevel : d.curspl = s.curspl := by rw [hd]
  refine (h.around hcur).stays hsound hshows hsame trivial ?_
  rw [hlevel]
  exact .queued hown

/-- `cv_wait` from `splhigh` to `thread_sleep`. -/
theorem Inv.cvSleep (h : Inv kind s) (hcur : s.curthread = some t)
    (hpoint : s.kernel.point t = .queued cv lock)
    (hrun : Levels.cvSleep mem cv lock s = .ok () d) : Inv kind d := by
  have hown := h.running t hcur
  have htyped := h.sound.typed t
  rw [hpoint] at hown htyped
  unfold Levels.cvSleep at hrun
  rw [Prog.bind_eq_ok_iff] at hrun
  obtain ⟨_, high, hsave, hrun⟩ := hrun
  obtain ⟨level, below, hstack⟩ := saveSpl_ok hsave
  rw [saveSpl_run hstack] at hsave
  have hframes : s.frames (some t) = .called level :: below := by
    rw [← hstack, stack, hcur]
  rw [hframes] at hown
  cases hown with
  | queued hbelow =>
    cases hsave
    rw [Prog.bind_eq_ok_iff] at hrun
    obtain ⟨_, free, hrelease, hrun⟩ := hrun
    obtain ⟨hreleased, hfree⟩ := atHigh_ok hrelease fun k hk =>
      (lockRelease_goesThrough hk h.sound hcur).2.curthread
    obtain ⟨hsoundFree, hthrough⟩ := lockRelease_goesThrough hreleased h.sound hcur
    have hcurFree : free.kernel.curthread = some t := hthrough.curthread.trans hcur
    rw [Prog.bind_eq_ok_iff] at hrun
    obtain ⟨_, moved, hat, hrun⟩ := hrun
    obtain ⟨hgoAt, hmoved⟩ := onKernel_ok hat
    obtain ⟨hwork, hd⟩ := onKernel_ok hrun
    obtain ⟨hsound, hnone, hpointFree⟩ := sleepAt_asleep hgoAt hwork hsoundFree hcurFree htyped
    have hpointD : d.kernel.point = Function.update s.kernel.point t (.inWait cv lock) :=
      hthrough.point ▸ hpointFree
    have hshows : Shows s d t (.inWait cv lock) (.inCall s.curspl s.curspl :: below) := by
      refine ⟨hpointD, ?_, ?_⟩
      · rw [hd, hmoved, hfree, ← hcur]
        rfl
      · rw [hd, hmoved, hfree]
        intro back hback
        exact (List.mem_cons.mp hback).elim (fun heq => .inr (heq ▸ rfl)) .inl
    exact (h.around hcur).goes hsound hshows hnone fun level => .inWait hbelow

/-- The loop of `P` or `lock_acquire` takes another turn after `thread_sleep`,
and the thread sleeps again. -/
theorem Around.sleepsOn (h : Around kind s t) (hpoint : s.kernel.point t = p)
    (hqueued : ∀ cv lock, p ≠ .queued cv lock) (hsound : k.Sound kind)
    (hturns : Turns s.kernel k t p) (hnone : k.curthread = none) :
    Inv kind { s with kernel := k } := by
  have hshows : Shows s { s with kernel := k } t p (s.frames (some t)) :=
    ⟨hturns.point_of_asleep hnone, (Function.update_eq_self _ _).symm,
      fun back hback => .inl hback⟩
  have hstands := h.stands
  rw [hpoint] at hstands
  exact h.goes hsound hshows hnone (hstands.relevel hqueued)

/-- It goes through. -/
theorem Around.comesBack (h : Around kind s t) (hsound : k.Sound kind)
    (hturns : Turns s.kernel k t p) (hsome : k.curthread = some t)
    (hbelow : Stands .user spl below) :
    Inv kind (Levels.returned { s with kernel := k } spl spl below) := by
  have hshows : Shows s (Levels.returned { s with kernel := k } spl spl below) t .user below := by
    refine ⟨hturns.point_of_back hsome, ?_, ?_⟩
    · simp [Levels.returned, withStack, Levels.curthread, hsome]
    · intro back hback
      exact (List.mem_cons.mp hback).elim (fun heq => .inr (heq ▸ rfl)) .inl
  exact h.stays hsound hshows hsome trivial hbelow

theorem Around.takesTurn {body : Kernel.Op Unit} {rest : Op Unit} (h : Around kind s t)
    (hpoint : s.kernel.point t = p) (hqueued : ∀ cv lock, p ≠ .queued cv lock)
    (hbody : ∀ k, body s.kernel = .ok () k → k.Sound kind ∧ Turns s.kernel k t p)
    (hrest : ∀ k : Kernel, k.Sound kind → Turns s.kernel k t p → k.curthread = some t →
      rest { s with kernel := k } = .ok () d → Inv kind d)
    (hrun : (do
      onKernel body
      whenAwake rest) s = .ok () d) : Inv kind d := by
  rw [Prog.bind_eq_ok_iff] at hrun
  obtain ⟨_, mid, hwork, hrun⟩ := hrun
  obtain ⟨hkernel, hmid⟩ := onKernel_ok hwork
  obtain ⟨hsound, hturns⟩ := hbody _ hkernel
  rcases whenAwake_ok hrun with ⟨hnone, rfl⟩ | ⟨⟨u, hsome⟩, hrun⟩
  · rw [hmid]
    exact h.sleepsOn hpoint hqueued hsound hturns hnone
  · have hcur : mid.kernel.curthread = some t := by
      refine ((hturns.curthread h.running).resolve_left ?_).trans h.running
      intro hnone
      rw [Levels.curthread, hnone] at hsome
      cases hsome
    rw [hmid] at hrun
    exact hrest _ hsound hturns hcur hrun

theorem Around.resumeP (h : Around kind s t) (hpoint : s.kernel.point t = .inP sem)
    (hrun : (do
      onKernel (Kernel.pLoop mem sem)
      whenAwake restoreAndLeave) s = .ok () d) : Inv kind d := by
  have htyped := h.sound.typed t
  have hstands := h.stands
  rw [hpoint] at htyped hstands
  have hjoining : ¬ s.kernel.Joining t := by simp [Kernel.Joining, hpoint]
  refine h.takesTurn hpoint (fun _ _ heq => by cases heq)
    (fun k hk => pLoop_turns hk h.sound htyped h.running hjoining) ?_ hrun
  intro k hsound hturns hcur hback
  obtain ⟨level, spl, below, hstack⟩ := restoreAndLeave_ok hback
  rw [restoreAndLeave_run hstack] at hback
  cases hback
  rw [stack_withKernel (hcur.trans h.running.symm), stack, h.running] at hstack
  rw [hstack] at hstands
  cases hstands with
  | inP hbelow => exact h.comesBack hsound hturns hcur hbelow

theorem Around.resumeAcquire (h : Around kind s t) (hpoint : s.kernel.point t = .inAcquire lock)
    (hrun : (do
      onKernel (Kernel.lockLoop mem lock)
      whenAwake do
        restoreAndLeave
        leaveWait) s = .ok () d) : Inv kind d := by
  have htyped := h.sound.typed t
  have hstands := h.stands
  rw [hpoint] at htyped hstands
  have hjoining : ¬ s.kernel.Joining t := by simp [Kernel.Joining, hpoint]
  refine h.takesTurn hpoint (fun _ _ heq => by cases heq)
    (fun k hk => lockLoop_turns hk h.sound htyped h.running hjoining) ?_ hrun
  intro k hsound hturns hcur hback
  rw [Prog.bind_eq_ok_iff] at hback
  obtain ⟨_, mid, hfirst, hback⟩ := hback
  obtain ⟨level, spl, below, hstack⟩ := restoreAndLeave_ok hfirst
  rw [restoreAndLeave_run hstack] at hfirst
  cases hfirst
  rw [stack_withKernel (hcur.trans h.running.symm), stack, h.running] at hstack
  rw [hstack] at hstands
  cases hstands with
  | inAcquire hbelow =>
      rw [leaveWait_acquired] at hback
      · cases hback
        exact h.comesBack hsound hturns hcur hbelow
      · intro level' spl' below'
        rw [returned_stack]
        exact hbelow.user_top level' spl' below'
  | inAcquireInWait hbelow =>
      rw [leaveWait_inWait (returned_stack _ _ _ _)] at hback
      cases hback
      refine h.stays hsound ⟨hturns.point_of_back hcur, ?_, ?_⟩ hcur trivial hbelow
      · simp [Levels.returned, withStack, Levels.curthread, hcur]
      · intro back hback
        simp only [Levels.returned, withStack, List.mem_cons] at hback
        rcases hback with rfl | rfl | hback
        · exact .inr rfl
        · exact .inr rfl
        · exact .inl hback

theorem Around.resumeWait (h : Around kind s t) (hpoint : s.kernel.point t = .inWait cv lock)
    (hrun : (do
      lockAcquire mem lock
      whenAwake restoreAndLeave) s = .ok () d) : Inv kind d := by
  have htyped := h.sound.typed t
  have hstands := h.stands
  rw [hpoint] at htyped hstands
  have hjoining : ¬ s.kernel.Joining t := by simp [Kernel.Joining, hpoint]
  rw [Prog.bind_eq_ok_iff] at hrun
  obtain ⟨_, mid, hacquire, hrun⟩ := hrun
  have hbody : ∀ k, Kernel.lockLoop mem lock s.kernel = .ok () k →
      k.Sound kind ∧ Turns s.kernel k t (.inAcquire lock) :=
    fun k hk => lockLoop_turns hk h.sound htyped.2 h.running hjoining
  obtain ⟨hwork, hends⟩ := atHighUntilAsleep_ok hacquire
    fun k hk => (hbody k hk).2.curthread h.running
  obtain ⟨hsound, hturns⟩ := hbody _ hwork
  generalize hframes : s.frames (some t) = list at hstands
  cases hstands with
  | trap houtside hbelow => exact houtside.elim
  | yielding houtside hbelow => exact houtside.elim
  | inWait hbelow =>
    rename_i outer below
    rcases hends with ⟨hnone, hmid⟩ | ⟨hsame, hmid⟩
    · rcases whenAwake_ok hrun with ⟨-, rfl⟩ | ⟨⟨u, hsome⟩, -⟩
      · have hshows : Shows s d t (.inAcquire lock)
            (.inCall s.curspl s.curspl :: .inCall outer outer :: below) := by
          refine ⟨hturns.point_of_asleep hnone, ?_, ?_⟩
          · rw [hmid, ← hframes, ← h.running]
            rfl
          · rw [hmid]
            exact fun back hback => .inl hback
        exact h.goes hsound hshows hnone fun level => .inAcquireInWait hbelow
      · rw [hnone] at hsome
        cases hsome
    · have hcur : mid.kernel.curthread = some t := hsame.trans h.running
      have hstack : mid.stack = .inCall outer outer :: below := by
        rw [stack, hsame, hmid, ← hframes, ← h.running]
      rcases whenAwake_ok hrun with ⟨hnone, -⟩ | ⟨-, hrun⟩
      · rw [hsame, h.running] at hnone
        cases hnone
      · rw [restoreAndLeave_run hstack] at hrun
        cases hrun
        refine h.stays hsound ⟨hturns.point_of_back hcur, ?_, ?_⟩ hcur trivial hbelow
        · rw [hmid]
          simp [Levels.returned, withStack, Levels.curthread, hcur]
        · rw [hmid]
          intro back hback
          simp only [Levels.returned, withStack, List.mem_cons] at hback
          rcases hback with rfl | rfl | hback
          · exact .inr rfl
          · exact .inr rfl
          · exact .inl hback

theorem Around.inv (h : Around kind s t) (houtside : (s.kernel.point t).Outside) :
    Inv kind s where
  sound := h.sound
  outside u hu := by
    obtain rfl := Option.some.inj (h.running.symm.trans hu)
    exact houtside
  running u hu := by
    obtain rfl := Option.some.inj (h.running.symm.trans hu)
    exact h.stands
  aside u hu := by
    apply h.aside
    rintro rfl
    exact hu h.running
  restored := h.restored

theorem Around.resume (h : Around kind s t) (hrun : Levels.resume mem s = .ok () d) :
    Inv kind d := by
  unfold Levels.resume at hrun
  rw [Prog.bind_eq_ok_iff] at hrun
  obtain ⟨_, _, hget, hrun⟩ := hrun
  cases hget
  rw [h.running, Option.map_some] at hrun
  cases hpoint : s.kernel.point t with
  | user =>
      rw [hpoint] at hrun
      cases hrun
      exact h.inv (by simp [hpoint, Point.Outside])
  | queued cv lock =>
      rw [hpoint] at hrun
      cases hrun
      exact h.inv (by simp [hpoint, Point.Outside])
  | inP sem =>
      rw [hpoint] at hrun
      exact h.resumeP hpoint hrun
  | inAcquire lock =>
      rw [hpoint] at hrun
      exact h.resumeAcquire hpoint hrun
  | inWait cv lock =>
      rw [hpoint] at hrun
      exact h.resumeWait hpoint hrun

theorem Around.goOn (h : Around kind s t) (hrun : Levels.goOn mem s = .ok () d) :
    Inv kind d := by
  unfold Levels.goOn at hrun
  rw [Prog.bind_eq_ok_iff] at hrun
  obtain ⟨_, _, hget, hrun⟩ := hrun
  cases hget
  have hstands := h.stands
  have hstack : s.stack = s.frames (some t) := by rw [stack, h.running]
  have hmoved : ∀ below level, Shows s { s.withStack below with curspl := level } t
      (s.kernel.point t) below := by
    intro below level
    refine ⟨(Function.update_eq_self _ _).symm, ?_, fun back hback => .inl hback⟩
    rw [← h.running]
    rfl
  cases hframes : s.frames (some t) with
  | nil =>
      rw [hstack, hframes] at hrun
      exact h.resume hrun
  | cons frame below =>
      rw [hstack, hframes] at hrun
      rw [hframes] at hstands
      cases frame with
      | threadstart =>
          cases hrun
          generalize hpoint : s.kernel.point t = p at hstands
          cases hstands with
          | threadstart =>
              have hshows := hmoved [] 0
              rw [hpoint] at hshows
              exact h.stays h.sound hshows h.running trivial .user
      | yielding spl =>
          cases hrun
          have hshows := hmoved below spl
          generalize s.kernel.point t = p at hstands hshows
          cases hstands with
          | yielding houtside hbelow => exact h.stays h.sound hshows h.running houtside hbelow
      | called level => exact h.resume hrun
      | inCall level spl => exact h.resume hrun
      | trap savespl => exact h.resume hrun

theorem Inv.dispatch (h : Inv kind s) (hidle : s.curthread = none)
    (hrun : Levels.dispatch mem s = .ok () d) : Inv kind d := by
  unfold Levels.dispatch at hrun
  rw [Prog.bind_eq_ok_iff] at hrun
  obtain ⟨_, mid, hswitch, hrun⟩ := hrun
  obtain ⟨hwork, hmid⟩ := onKernel_ok hswitch
  obtain ⟨htakes, hsame⟩ := Kernel.system_ok hwork hidle
  obtain ⟨next, hcur, -⟩ := htakes.curthread h.sound.inv
  have hpoint : mid.kernel.point = s.kernel.point := by rw [hsame]
  have hframes : mid.frames = s.frames := by rw [hmid]
  have hstands : ∀ u level, Stands (mid.kernel.point u) level (mid.frames (some u)) := by
    intro u
    rw [hpoint, hframes]
    apply h.aside
    rw [hidle]
    exact Option.some_ne_none u ∘ Eq.symm
  have haround : Around kind mid next := {
    sound := by
      refine ⟨h.sound.inv.step htakes.step, ?_⟩
      rw [hpoint]
      exact h.sound.typed
    running := hcur
    stands := hstands next mid.curspl
    aside := fun u _ => hstands u
    restored := by
      rw [hmid]
      exact h.restored }
  exact haround.goOn hrun

theorem Inv.withKernel (h : Inv kind s) (hsound : k.Sound kind)
    (hthrough : GoesThrough s.kernel k) : Inv kind { s with kernel := k } where
  sound := hsound
  outside t ht := by
    rw [hthrough.point]
    exact h.outside t (hthrough.curthread.symm.trans ht)
  running t ht := by
    rw [hthrough.point]
    exact h.running t (hthrough.curthread.symm.trans ht)
  aside t ht := by
    rw [hthrough.point]
    apply h.aside
    rw [Levels.curthread, ← hthrough.curthread]
    exact ht
  restored := h.restored

/-- A thread outside the calls of `synch.c` leaves the processor. -/
theorem Inv.leavesFrom (h : Inv kind s) (hcur : s.curthread = some t)
    (huser : s.kernel.point t = .user) (hsound : k.Sound kind) (hnone : k.curthread = none)
    (hpoint : k.point = s.kernel.point) (level : Nat) :
    Inv kind { s with kernel := k, curspl := level } := by
  have hstands := h.running t hcur
  rw [huser] at hstands
  have hshows : Shows s { s with kernel := k, curspl := level } t .user (s.frames (some t)) := by
    refine ⟨?_, (Function.update_eq_self _ _).symm, fun back hback => .inl hback⟩
    rw [← huser, Function.update_eq_self]
    exact hpoint
  exact (h.around hcur).goes hsound hshows hnone hstands.user_relevel

theorem Inv.threadYield (h : Inv kind s) (hallowed : Act.yield.Allowed s.kernel.config)
    (hrun : Levels.threadYield mem s = .ok () d) : Inv kind d := by
  unfold Levels.threadYield at hrun
  rw [Prog.bind_eq_ok_iff] at hrun
  obtain ⟨spl, high, hhigh, hrun⟩ := hrun
  cases hhigh
  rw [Prog.bind_eq_ok_iff] at hrun
  obtain ⟨_, _, hread, hrun⟩ := hrun
  cases hread
  cases hcur : s.curthread with
  | none =>
      have hidle : Levels.curthread { s with curspl := SPL_HIGH } = none := hcur
      rw [hidle] at hrun
      simp only at hrun
      rw [Prog.bind_eq_ok_iff] at hrun
      obtain ⟨_, mid, hyield, hrun⟩ := hrun
      cases hrun
      obtain ⟨hwork, hmid⟩ := onKernel_ok hyield
      obtain ⟨hsound, hnone, hpoint⟩ := act_goes hwork h.sound hallowed trivial
      rw [hmid]
      exact h.withKernel hsound ⟨hnone.trans hcur.symm, hpoint⟩
  | some t =>
      have hsome : Levels.curthread { s with curspl := SPL_HIGH } = some t := hcur
      rw [hsome] at hrun
      simp only at hrun
      rw [Prog.bind_eq_ok_iff] at hrun
      obtain ⟨_, mid, hpush, hrun⟩ := hrun
      cases hpush
      obtain ⟨hwork, hd⟩ := onKernel_ok hrun
      obtain ⟨hsound, hnone, hpoint⟩ := act_goes hwork h.sound hallowed trivial
      have hshows : Shows s d t (s.kernel.point t)
          (.yielding s.curspl :: s.frames (some t)) := by
        refine ⟨hpoint.trans (Function.update_eq_self _ _).symm, ?_, ?_⟩
        · rw [hd, ← hcur]
          rfl
        · rw [hd]
          exact fun back hback => .inl hback
      exact (h.around hcur).goes hsound hshows hnone fun level =>
        .yielding (h.outside t hcur) (h.running t hcur)

theorem Inv.threadFork (h : Inv kind s) (hallowed : (Act.fork newguy).Allowed s.kernel.config)
    (hplain : s.kernel.InUser) (hrun : Levels.threadFork mem newguy s = .ok () d) :
    Inv kind d := by
  unfold Levels.threadFork at hrun
  rw [Prog.bind_eq_ok_iff] at hrun
  obtain ⟨spl, high, hhigh, hrun⟩ := hrun
  cases hhigh
  rw [Prog.bind_eq_ok_iff] at hrun
  obtain ⟨_, mid, hfork, hrun⟩ := hrun
  cases hrun
  obtain ⟨hwork, hmid⟩ := onKernel_ok hfork
  obtain ⟨hsound, hcur, hpoint⟩ :=
    act_goes hwork h.sound hallowed hplain
  rw [hmid]
  have hother : ∀ t ≠ newguy, mid.kernel.point t = s.kernel.point t ∧
      Function.update s.frames (some newguy) [.threadstart] (some t) = s.frames (some t) := by
    intro t ht
    rw [hpoint, Function.update_of_ne ht, Function.update_of_ne]
    · exact ⟨rfl, rfl⟩
    · exact fun heq => ht (Option.some.inj heq)
  have hnew : ∀ t, t = newguy → mid.kernel.point t = .user ∧
      Function.update s.frames (some newguy) [.threadstart] (some t) = [.threadstart] := by
    rintro t rfl
    rw [hpoint, Function.update_self, Function.update_self]
    exact ⟨rfl, rfl⟩
  refine ⟨hsound, ?_, ?_, ?_, h.restored⟩
  · intro t ht
    by_cases hne : t = newguy
    · simp [(hnew t hne).1, Point.Outside]
    · simp only [(hother t hne).1]
      exact h.outside t (hcur.symm.trans ht)
  · intro t ht
    by_cases hne : t = newguy
    · simp only [(hnew t hne).1, (hnew t hne).2]
      exact .threadstart
    · simp only [(hother t hne).1, (hother t hne).2]
      exact h.running t (hcur.symm.trans ht)
  · intro t ht level
    by_cases hne : t = newguy
    · simp only [(hnew t hne).1, (hnew t hne).2]
      exact .threadstart
    · simp only [(hother t hne).1, (hother t hne).2]
      apply h.aside
      intro heq
      exact ht (hcur.trans heq)

theorem Inv.threadExit (h : Inv kind s) (hallowed : Act.exit.Allowed s.kernel.config)
    (hplain : s.kernel.InUser) (hrun : Levels.threadExit mem s = .ok () d) : Inv kind d := by
  unfold Levels.threadExit at hrun
  rw [Prog.bind_eq_ok_iff] at hrun
  obtain ⟨_, _, hhigh, hrun⟩ := hrun
  cases hhigh
  obtain ⟨hwork, hd⟩ := onKernel_ok hrun
  obtain ⟨hsound, hnone, hpoint⟩ := act_goes hwork h.sound hallowed hplain
  obtain ⟨t, hcur, huser⟩ := InUser.exists_cur hplain
  rw [hd]
  exact h.leavesFrom hcur huser hsound hnone hpoint SPL_HIGH

/-- The calls of `thread.c` that leave the level alone. -/
theorem Inv.kernelSystem {act : Act} (h : Inv kind s) (hallowed : act.Allowed s.kernel.config)
    (hplain : Call.plain kind s.kernel act) (hfork : ∀ newguy, act ≠ .fork newguy)
    (hyield : act ≠ .yield) (hexit : act ≠ .exit)
    (hrun : Levels.kernelSystem mem act s = .ok () d) : Inv kind d := by
  obtain ⟨hwork, hd⟩ := onKernel_ok hrun
  obtain ⟨hsound, hgoes⟩ := act_goes hwork h.sound hallowed hplain
  rw [hd]
  cases act with
  | dispatch => exact hplain.elim
  | wakeupHead addr cvQueue => exact hplain.elim
  | fork newguy => exact (hfork newguy rfl).elim
  | yield => exact (hyield rfl).elim
  | exit => exact (hexit rfl).elim
  | sleep addr =>
      obtain ⟨t, hcur, huser⟩ := InUser.exists_cur hplain.2
      exact h.leavesFrom hcur huser hsound hgoes.1 hgoes.2 s.curspl
  | wakeup addr => exact h.withKernel hsound hgoes
  | exorcise => exact h.withKernel hsound hgoes
  | other t vmspace cwd => exact h.withKernel hsound hgoes

theorem Inv.system {act : Act} (h : Inv kind s) (hallowed : act.Allowed s.kernel.config)
    (hplain : Call.plain kind s.kernel act) (hrun : Levels.system mem act s = .ok () d) :
    Inv kind d := by
  cases act with
  | yield => exact h.threadYield hallowed hrun
  | fork newguy => exact h.threadFork hallowed hplain hrun
  | exit => exact h.threadExit hallowed hplain hrun
  | _ => exact h.kernelSystem hallowed hplain (by simp) (by simp) (by simp) hrun

/-- The level is set by code that no call of `synch.c` is waiting for. -/
theorem Inv.splx (h : Inv kind s) (hlarge : s.AtLarge) (newspl : Nat) :
    Inv kind { s with curspl := newspl } := by
  refine ⟨h.sound, h.outside, ?_, h.aside, h.restored⟩
  intro t ht
  change s.curthread = some t at ht
  have hstands := h.running t ht
  unfold AtLarge at hlarge
  rw [stack, ht] at hlarge
  change Stands (s.kernel.point t) newspl (s.frames (some t))
  generalize s.frames (some t) = list at hstands hlarge ⊢
  generalize s.kernel.point t = p at hstands ⊢
  cases hstands with
  | user => exact .user
  | trap houtside hbelow => exact .trap houtside hbelow
  | _ => exact hlarge.elim

/-- Only the running thread looks at the level and its stack. -/
theorem Inv.restack (h : Inv kind s) (list : List Frame) (level : Nat)
    (hstands : ∀ t, s.curthread = some t → Stands (s.kernel.point t) level list) :
    Inv kind { s.withStack list with curspl := level } := by
  refine ⟨h.sound, h.outside, ?_, ?_, h.restored⟩
  · intro t ht
    change s.curthread = some t at ht
    change Stands (s.kernel.point t) level (Function.update s.frames s.curthread list (some t))
    rw [ht, Function.update_self]
    exact hstands t ht
  · intro t ht
    change s.curthread ≠ some t at ht
    change ∀ level, Stands _ level (Function.update s.frames s.curthread list (some t))
    rw [Function.update_of_ne ht.symm]
    exact h.aside t ht

theorem Inv.mipsTrap (h : Inv kind s) (hrun : Levels.mipsTrap s = .ok () d) : Inv kind d := by
  cases hrun
  apply h.restack (.trap s.curspl :: s.stack) SPL_HIGH
  intro t ht
  rw [stack, ht]
  exact .trap (h.outside t ht) (h.running t ht)

theorem Inv.trapDone (h : Inv kind s) (hrun : Levels.trapDone s = .ok () d) : Inv kind d := by
  obtain ⟨savespl, below, hstack, rfl⟩ := trapDone_ok hrun
  apply h.restack below savespl
  intro t ht
  have hstands := h.running t ht
  rw [stack, ht] at hstack
  rw [hstack] at hstands
  generalize s.kernel.point t = p at hstands ⊢
  cases hstands with
  | trap houtside hbelow => exact hbelow

end Steps

/-- A `cv_signal` finds somebody on the queue, or has nothing to restore. -/
def Restores (s : Levels) : Move → Prop
  | .call (.cvSignal cv) => (s.kernel.cvQueue cv).qEmpty = false ∨ s.curspl = SPL_HIGH
  | _ => True

section Runs

variable {kind : SleepAddr → Kind} {s d : Levels}

theorem Inv.takes {move : Move} (h : Inv kind s) (hrestores : s.Restores move)
    (htakes : move.Takes kind s d) : Inv kind d := by
  obtain ⟨mem, hrun⟩ := htakes.runs
  have hallowed := htakes.allowed
  cases move with
  | splx newspl =>
      cases hrun
      exact h.splx hallowed newspl
  | trap => exact h.mipsTrap hrun
  | trapDone => exact h.trapDone hrun
  | call made =>
      obtain ⟨hallowed, -⟩ := hallowed
      cases made with
      | P sem =>
          obtain ⟨hkind, huser⟩ := hallowed
          obtain ⟨t, hcur, hpoint⟩ := InUser.exists_cur huser
          exact h.atHighUntilAsleep hcur hpoint
            (fun k hk => pLoop_turns hk h.sound hkind hcur (not_joining_of_user hpoint))
            .inP hrun
      | V sem => exact h.atHigh (fun k hk => V_goesThrough hk h.sound hallowed) hrun
      | lockAcquire lock =>
          obtain ⟨hkind, huser⟩ := hallowed
          obtain ⟨t, hcur, hpoint⟩ := InUser.exists_cur huser
          exact h.atHighUntilAsleep hcur hpoint
            (fun k hk => lockLoop_turns hk h.sound hkind hcur (not_joining_of_user hpoint))
            .inAcquire hrun
      | lockRelease lock =>
          obtain ⟨hkind, huser⟩ := hallowed
          obtain ⟨t, hcur, hpoint⟩ := InUser.exists_cur huser
          exact h.atHigh (fun k hk => lockRelease_goesThrough hk h.sound hcur) hrun
      | cvWait cv lock => exact h.cvWait hallowed.1 hallowed.2.1 hallowed.2.2 hrun
      | cvSleep cv lock =>
          obtain ⟨t, hcur, hpoint⟩ := Option.map_eq_some_iff.mp hallowed
          exact h.cvSleep hcur hpoint hrun
      | cvSignal cv => exact h.cvSignal hallowed.1 hallowed.2 hrestores hrun
      | cvBroadcast cv =>
          exact h.atHigh (fun k hk => cvBroadcast_goesThrough hk h.sound) hrun
      | system act => exact h.system hallowed.1 hallowed.2 hrun
      | dispatch => exact h.dispatch hallowed hrun

theorem boot_inv (me : Tid) (initialCount : SleepAddr → Fin (2 ^ 31)) :
    Inv kind (boot me initialCount) where
  sound := Kernel.boot_sound me initialCount
  outside _ _ := trivial
  running _ _ := .user
  aside _ _ _ := .user
  restored _ hback := absurd hback List.not_mem_nil

/-- Any moves of any threads and interrupt handlers in any order, each of which
meets a condition. -/
def Runs (kind : SleepAddr → Kind) (meets : Levels → Move → Prop) : Levels → Levels → Prop :=
  Relation.ReflTransGen fun s d => ∃ move : Move, meets s move ∧ move.Takes kind s d

theorem Inv.runs (h : Inv kind s) (hrun : Runs kind Restores s d) : Inv kind d := by
  induction hrun with
  | refl => exact h
  | tail _ hmove ih =>
      obtain ⟨move, hrestores, htakes⟩ := hmove
      exact ih.takes hrestores htakes

/-- In every run every call of `P`, `V`, `lock_acquire`, `lock_release`,
`cv_wait`, `cv_signal` and `cv_broadcast` comes back at the level it was made
at, where no `cv_signal` is made at another level than `SPL_HIGH` while nobody
is on the queue. -/
theorem calls_restore_curspl {me : Tid} {initialCount : SleepAddr → Fin (2 ^ 31)}
    (hrun : Runs kind Restores (boot me initialCount) d) :
    ∀ back ∈ d.returns, back.after = back.before :=
  ((boot_inv me initialCount).runs hrun).restored

end Runs

/-! Runs on given moves. -/

instance (s : Levels) : Decidable s.AtLarge := by
  unfold AtLarge
  split <;> infer_instance

instance (s : Levels) (call : Call) : Decidable (s.Ready call) := by
  unfold Ready
  split <;> infer_instance

instance (s : Levels) (move : Move) : Decidable (s.Restores move) := by
  unfold Restores
  split <;> infer_instance

end Levels

instance (kind : SleepAddr → Kind) (s : Levels) : (move : Move) → Decidable (move.Allowed kind s)
  | .call _ => inferInstanceAs (Decidable (_ ∧ _))
  | .splx _ => inferInstanceAs (Decidable s.AtLarge)
  | .trap => inferInstanceAs (Decidable (_ ∨ _ ∨ _))
  | .trapDone => inferInstanceAs (Decidable True)

namespace Levels

def step (move : Move) (s : Levels) : Option Levels :=
  match move.run true s with
  | .ok _ next => some next
  | .error _ _ => none
  | .panic _ => none

theorem runs_of_steps {kind : SleepAddr → Kind} {meets : Levels → Move → Prop} {s d : Levels}
    (hrun : Data.Runs step (fun move s => meets s move ∧ move.Allowed kind s) s d) :
    Runs kind meets s d := by
  refine Relation.ReflTransGen.mono ?_ _ _ hrun
  intro s d ⟨move, ⟨hmeets, hallowed⟩, hstep⟩
  refine ⟨move, hmeets, hallowed, true, ?_⟩
  unfold step at hstep
  cases hresult : move.run true s with
  | ok value next =>
      rw [hresult] at hstep
      cases hstep
      rfl
  | error code next =>
      rw [hresult] at hstep
      cases hstep
  | panic reason =>
      rw [hresult] at hstep
      cases hstep

private def threeObjects : SleepAddr → Kind
  | 10 => .semaphore
  | 20 => .lock
  | 30 => .cv
  | _ => .other

/-- A thread is interrupted in `cv_wait`, sleeps there and again in the
`lock_acquire` at its end, while another signals, holds and releases the lock. -/
private def waitAndSignal : List Move :=
  [.splx 0, .call (.system (.fork 2)), .call (.lockAcquire 20), .call (.cvWait 30 20),
    .trap, .call (.V 10), .call (.system .yield), .call .dispatch, .call (.lockAcquire 20),
    .call .dispatch, .trapDone, .call (.cvSleep 30 20), .call .dispatch,
    .call (.cvSignal 30), .call (.P 10), .call (.system .yield), .call .dispatch,
    .call .dispatch, .call (.lockRelease 20), .call (.system .yield), .call .dispatch]

theorem calls_restore_curspl_wait :
    (Data.runAll step waitAndSignal (boot 1 fun _ => 0)).returns.length = 9 ∧
      ∀ back ∈ (Data.runAll step waitAndSignal (boot 1 fun _ => 0)).returns,
        back.after = back.before := by
  have hmeets : Data.allMeet step
      (fun move s => s.Restores move ∧ move.Allowed threeObjects s) waitAndSignal
      (boot 1 fun _ => 0) = true := by decide +kernel
  have hrun := runs_of_steps (Data.runs_runAll _ _ hmeets)
  exact ⟨by decide +kernel, calls_restore_curspl hrun⟩

/-- With interrupts on, a signal to nobody leaves them off. -/
theorem empty_signal_leaves_high :
    ∃ (kind : SleepAddr → Kind) (me : Tid) (initialCount : SleepAddr → Fin (2 ^ 31))
      (d : Levels), Runs kind (fun _ _ => True) (boot me initialCount) d ∧
        ∃ back ∈ d.returns, back.before = 0 ∧ back.after = SPL_HIGH := by
  have hmeets : Data.allMeet step
      (fun move s => True ∧ move.Allowed threeObjects s) [.splx 0, .call (.cvSignal 30)]
      (boot 1 fun _ => 0) = true := by decide
  have hrun := runs_of_steps (Data.runs_runAll _ _ hmeets)
  refine ⟨threeObjects, 1, fun _ => 0, _, hrun, ⟨0, SPL_HIGH⟩, ?_, rfl, rfl⟩
  decide

end Levels

end OS161.Threads
