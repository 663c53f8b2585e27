import OS161.Threads.Sleepers

namespace OS161.Threads

open OS161.Data
open OS161.Kern
open OS161.Lib

/-! The semaphores, locks and condition variables of `kern/thread/synch.c` over
the thread system.  What a call does with interrupts off is one step; a call
that goes to sleep ends its step there, and goes on in the step that dispatches
its thread again. -/

/-- What is at an address on which threads can sleep. -/
inductive Kind where
  | semaphore
  | lock
  | cv
  | other
  deriving DecidableEq, Repr

/-- Where a thread goes on when `md_switch` returns to it: outside the calls of
`synch.c`, after the `thread_sleep` of `P` or of `lock_acquire`, or in
`cv_wait` after the `q_addtail` or after the `thread_sleep`. -/
inductive Point where
  | user
  | inP (sem : SleepAddr)
  | inAcquire (lock : SleepAddr)
  | queued (cv lock : SleepAddr)
  | inWait (cv lock : SleepAddr)
  deriving DecidableEq, Repr

structure Kernel where
  config : Config
  count : SleepAddr → Int
  threadAddr : SleepAddr → Option Tid
  cvQueue : SleepAddr → Queue Tid
  point : Tid → Point
  /-- How often `V` has been called on a semaphore. -/
  vDone : SleepAddr → Nat
  /-- How often `P` has come back from a semaphore. -/
  pDone : SleepAddr → Nat
  /-- The thread has come back from `lock_acquire` and has not called
  `lock_release` since. -/
  holding : SleepAddr → Tid → Bool

namespace Kernel

abbrev Op := Prog Errno Fault Kernel

def curthread (k : Kernel) : Option Tid :=
  k.config.sys.curthread

def sleepersOn (k : Kernel) (addr : SleepAddr) : List Tid :=
  k.config.sys.sleepersOn addr

/-- A call of `thread.c`. -/
def system (mem : Bool) (act : Act) : Op Unit := fun k =>
  match act.run mem k.config.sys with
  | .ok _ next => .ok () { k with config := ⟨next, act.live k.config⟩ }
  | .error code next => .error code { k with config := ⟨next, k.config.live⟩ }
  | .panic reason => .panic reason

/-- The place in the running thread's code. -/
def goAt (p : Point) : Op Unit :=
  Prog.modify fun k =>
    match k.curthread with
    | some cur => { k with point := Function.update k.point cur p }
    | none => k

/-- The loop of `P` and what follows it. -/
def pLoop (mem : Bool) (sem : SleepAddr) : Op Unit := do
  let k ← Prog.get
  if k.count sem = 0 then
    goAt (.inP sem)
    system mem (.sleep sem)
  else
    Prog.assert (0 < k.count sem) .semaphoreP
    Prog.modify fun k => { k with
      count := Function.update k.count sem (int32 (k.count sem - 1))
      pDone := Function.update k.pDone sem (k.pDone sem + 1) }
    goAt .user

def V (mem : Bool) (sem : SleepAddr) : Op Unit := do
  Prog.modify fun k => { k with
    count := Function.update k.count sem (int32 (k.count sem + 1))
    vDone := Function.update k.vDone sem (k.vDone sem + 1) }
  let k ← Prog.get
  Prog.assert (0 < k.count sem) .semaphoreV
  system mem (.wakeup sem)

def lockDoIHold (k : Kernel) (lock : SleepAddr) : Bool :=
  k.threadAddr lock == k.curthread

/-- Note of one thread whether it holds one lock. -/
def note (holding : SleepAddr → Tid → Bool) (lock : SleepAddr) (t : Tid) (holds : Bool) :
    SleepAddr → Tid → Bool :=
  fun l u => if l = lock ∧ u = t then holds else holding l u

def setHolding (lock : SleepAddr) (holds : Bool) : Op Unit :=
  Prog.modify fun k =>
    match k.curthread with
    | some cur => { k with holding := note k.holding lock cur holds }
    | none => k

/-- The loop of `lock_acquire` and what follows it. -/
def lockLoop (mem : Bool) (lock : SleepAddr) : Op Unit := do
  let k ← Prog.get
  if k.threadAddr lock ≠ none ∧ k.lockDoIHold lock = false then
    goAt (.inAcquire lock)
    system mem (.sleep lock)
  else
    Prog.modify fun k => { k with
      threadAddr := Function.update k.threadAddr lock k.curthread }
    setHolding lock true
    goAt .user

def lockRelease (mem : Bool) (lock : SleepAddr) : Op Unit := do
  setHolding lock false
  let k ← Prog.get
  if k.lockDoIHold lock = true then
    Prog.modify fun k => { k with threadAddr := Function.update k.threadAddr lock none }
    system mem (.wakeup lock)
  else
    pure ()

def onCvQueue (cv : SleepAddr) (body : Queue.Op Tid α) : Op α :=
  Prog.zoom (fun k => k.cvQueue cv)
    (fun k q => { k with cvQueue := Function.update k.cvQueue cv q }) body

/-- The first statement of `cv_wait`, which runs with interrupts on and ignores
the result of `q_addtail`. -/
def cvJoin (mem : Bool) (cv lock : SleepAddr) : Op Unit := do
  match ← Prog.read curthread with
  | none => Prog.panic .uninitialised
  | some cur =>
      let _ ← Prog.attempt (onCvQueue cv (Queue.qAddtail mem cur))
      goAt (.queued cv lock)

/-- `cv_wait` from `splhigh` to `thread_sleep`. -/
def cvSleep (mem : Bool) (cv lock : SleepAddr) : Op Unit := do
  lockRelease mem lock
  goAt (.inWait cv lock)
  system mem (.sleep cv)

/-- `thread_wakeup_head(cv, cv->cv_queue)`. -/
def wakeupHead (mem : Bool) (cv : SleepAddr) : Op Unit := fun k =>
  match ThreadSystem.threadWakeupHead mem cv (k.cvQueue cv) k.config.sys with
  | .ok rest next => .ok () { k with
      config := ⟨next, k.config.live⟩
      cvQueue := Function.update k.cvQueue cv rest }
  | .error code next => .error code { k with config := ⟨next, k.config.live⟩ }
  | .panic reason => .panic reason

def cvSignal (mem : Bool) (cv : SleepAddr) : Op Unit := do
  let k ← Prog.get
  if (k.cvQueue cv).qEmpty then pure () else wakeupHead mem cv

def cvBroadcast (mem : Bool) (cv : SleepAddr) : Op Unit :=
  system mem (.wakeup cv)

/-- A thread that the scheduler has picked goes on where it stood. -/
def resume (mem : Bool) : Op Unit := do
  let k ← Prog.get
  match k.curthread.map k.point with
  | some (.inP sem) => pLoop mem sem
  | some (.inAcquire lock) => lockLoop mem lock
  | some (.inWait _ lock) => lockLoop mem lock
  | _ => pure ()

/-- A new thread starts outside the calls of `synch.c`; a thread that exits is
gone, whatever it held. -/
def turnOver (act : Act) : Op Unit :=
  Prog.modify fun k =>
    match act with
    | .fork newguy => { k with point := Function.update k.point newguy .user }
    | .exit => { k with
        holding := fun l t => k.holding l t && decide (k.curthread ≠ some t) }
    | _ => k

def boot (me : Tid) (initialCount : SleepAddr → Fin (2 ^ 31)) : Kernel where
  config := Config.boot me
  count a := (initialCount a : Nat)
  threadAddr _ := none
  cvQueue _ := Queue.qCreate 32
  point _ := .user
  vDone _ := 0
  pDone _ := 0
  holding _ _ := false

/-- The running thread is outside the calls of `synch.c`. -/
def InUser (k : Kernel) : Prop :=
  k.curthread.map k.point = some .user

end Kernel

inductive Call where
  | P (sem : SleepAddr)
  | V (sem : SleepAddr)
  | lockAcquire (lock : SleepAddr)
  | lockRelease (lock : SleepAddr)
  | cvWait (cv lock : SleepAddr)
  | cvSleep (cv lock : SleepAddr)
  | cvSignal (cv : SleepAddr)
  | cvBroadcast (cv : SleepAddr)
  | system (act : Act)
  | dispatch

namespace Call

def run (mem : Bool) : Call → Kernel.Op Unit
  | .P sem => Kernel.pLoop mem sem
  | .V sem => Kernel.V mem sem
  | .lockAcquire lock => Kernel.lockLoop mem lock
  | .lockRelease lock => Kernel.lockRelease mem lock
  | .cvWait cv lock => Kernel.cvJoin mem cv lock
  | .cvSleep cv lock => Kernel.cvSleep mem cv lock
  | .cvSignal cv => Kernel.cvSignal mem cv
  | .cvBroadcast cv => Kernel.cvBroadcast mem cv
  | .system act => do
      Kernel.turnOver act
      Kernel.system mem act
  | .dispatch => do
      Kernel.system mem .dispatch
      Kernel.resume mem

/-- Who may make a call of `thread.c` by itself: the threads, on addresses that
belong to no object of `synch.c`, and the interrupt handlers. -/
def plain (kind : SleepAddr → Kind) (k : Kernel) : Act → Prop
  | .fork _ => k.InUser
  | .yield => True
  | .sleep addr => kind addr = .other ∧ k.InUser
  | .wakeup addr => kind addr = .other
  | .wakeupHead _ _ => False
  | .exit => k.InUser
  | .exorcise => k.InUser
  | .dispatch => False
  | .other _ _ _ => True

/-- `V` and `thread_wakeup` may come from an interrupt handler, whatever runs. -/
def Allowed (kind : SleepAddr → Kind) (k : Kernel) : Call → Prop
  | .P sem => kind sem = .semaphore ∧ k.InUser
  | .V sem => kind sem = .semaphore
  | .lockAcquire lock => kind lock = .lock ∧ k.InUser
  | .lockRelease lock => kind lock = .lock ∧ k.InUser
  | .cvWait cv lock => kind cv = .cv ∧ kind lock = .lock ∧ k.InUser
  | .cvSleep cv lock => k.curthread.map k.point = some (.queued cv lock)
  | .cvSignal cv => kind cv = .cv ∧ k.InUser
  | .cvBroadcast cv => kind cv = .cv ∧ k.InUser
  | .system act => act.Allowed k.config ∧ plain kind k act
  | .dispatch => k.curthread = none

/-- The call is made in `k` and comes back or goes to sleep in `d`. -/
structure Takes (kind : SleepAddr → Kind) (call : Call) (k d : Kernel) : Prop where
  allowed : call.Allowed kind k
  runs : ∃ mem, call.run mem k = .ok () d

end Call

/-- Any calls by any threads, in any order. -/
def Kernel.Runs (kind : SleepAddr → Kind) : Kernel → Kernel → Prop :=
  Relation.ReflTransGen fun k d => ∃ call : Call, call.Takes kind k d

/-! What each call can do, said once. -/

namespace Kernel

/-- The thread has gone to sleep on the address. -/
structure Sleeps (k d : Kernel) (t : Tid) (addr : SleepAddr) : Prop where
  inv : d.config.Inv
  live : d.config.live = k.config.live
  cur : d.curthread = none
  sleepers : ∀ a, d.sleepersOn a =
    if a = addr then k.sleepersOn a ++ [t] else k.sleepersOn a

/-- Everybody who slept on the address is awake. -/
structure Wakes (k d : Kernel) (addr : SleepAddr) : Prop where
  inv : d.config.Inv
  live : d.config.live = k.config.live
  cur : d.curthread = k.curthread
  sleepers : ∀ a, d.sleepersOn a = if a = addr then [] else k.sleepersOn a

theorem system_ok {k d : Kernel} {act : Act} (hrun : system mem act k = .ok () d)
    (hallowed : act.Allowed k.config) :
    act.Takes k.config d.config ∧ d = { k with config := d.config } := by
  simp only [system] at hrun
  cases hresult : act.run mem k.config.sys with
  | ok value next =>
      rw [hresult] at hrun
      cases hrun
      exact ⟨⟨hallowed, ⟨mem, hresult⟩, rfl⟩, rfl⟩
  | error code next =>
      rw [hresult] at hrun
      cases hrun
  | panic reason =>
      rw [hresult] at hrun
      cases hrun

theorem sleep_ok {k d : Kernel} (hrun : system mem (.sleep addr) k = .ok () d)
    (hinv : k.config.Inv) (hcur : k.curthread = some t) :
    Sleeps k d t addr ∧ d = { k with config := d.config } := by
  have hallowed : (Act.sleep addr).Allowed k.config := by
    rw [Act.Allowed]
    exact Option.isSome_iff_exists.mpr ⟨t, hcur⟩
  obtain ⟨htakes, hd⟩ := system_ok hrun hallowed
  refine ⟨⟨hinv.step htakes.step, htakes.lives, htakes.curthread hinv, ?_⟩, hd⟩
  intro a
  have hsleepers := htakes.sleepersOn hinv a
  simp only [Act.asleep] at hsleepers
  rw [curthread] at hcur
  rw [hcur] at hsleepers
  exact hsleepers

theorem wakeup_ok {k d : Kernel} (hrun : system mem (.wakeup addr) k = .ok () d)
    (hinv : k.config.Inv) :
    Wakes k d addr ∧ d = { k with config := d.config } := by
  obtain ⟨htakes, hd⟩ := system_ok hrun trivial
  exact ⟨⟨hinv.step htakes.step, htakes.lives, htakes.curthread hinv,
    htakes.sleepersOn hinv⟩, hd⟩

/-- The thread is between the `q_addtail` and the `thread_sleep` of `cv_wait`. -/
def Joining (k : Kernel) (t : Tid) : Prop :=
  ∃ cv lock, k.point t = .queued cv lock

/-- What `lock_release` does for the holder, and for anybody else. -/
inductive Releases (k d : Kernel) (t : Tid) (lock : SleepAddr) : Prop
  | holder (hholds : k.threadAddr lock = some t) (hwakes : Wakes k d lock)
      (hd : d = { k with
        config := d.config
        threadAddr := Function.update k.threadAddr lock none
        holding := note k.holding lock t false })
  | other (hother : k.threadAddr lock ≠ some t)
      (hd : d = { k with holding := note k.holding lock t false })

end Kernel

open Kernel

/-- The ways in which a call changes the kernel, one for each branch.  A
dispatch comes first in its step; the rest of that step is a `P` or a
`lock_acquire` that goes on. -/
inductive Effect (kind : SleepAddr → Kind) : Call → Kernel → Kernel → Prop
  | passes (hkind : kind sem = .semaphore) (hcur : k.curthread = some t)
      (hpoint : ¬ k.Joining t)
      (hcount : 0 < k.count sem) :
      Effect kind (.P sem) k { k with
        count := Function.update k.count sem (int32 (k.count sem - 1))
        pDone := Function.update k.pDone sem (k.pDone sem + 1)
        point := Function.update k.point t .user }
  | blocks (hkind : kind sem = .semaphore) (hcur : k.curthread = some t)
      (hpoint : ¬ k.Joining t)
      (hcount : k.count sem = 0) (hsleeps : Sleeps k d t sem)
      (hd : d = { k with
        config := d.config
        point := Function.update k.point t (.inP sem) }) :
      Effect kind (.P sem) k d
  | posts (hkind : kind sem = .semaphore) (hcount : 0 < int32 (k.count sem + 1))
      (hwakes : Wakes k d sem)
      (hd : d = { k with
        config := d.config
        count := Function.update k.count sem (int32 (k.count sem + 1))
        vDone := Function.update k.vDone sem (k.vDone sem + 1) }) :
      Effect kind (.V sem) k d
  | acquires (hkind : kind lock = .lock) (hcur : k.curthread = some t)
      (hpoint : ¬ k.Joining t)
      (hfree : k.threadAddr lock = none ∨ k.threadAddr lock = some t) :
      Effect kind (.lockAcquire lock) k { k with
        threadAddr := Function.update k.threadAddr lock (some t)
        holding := note k.holding lock t true
        point := Function.update k.point t .user }
  | contends (hkind : kind lock = .lock) (hcur : k.curthread = some t)
      (hpoint : ¬ k.Joining t)
      (hbusy : k.threadAddr lock ≠ none) (hother : k.threadAddr lock ≠ some t)
      (hsleeps : Sleeps k d t lock)
      (hd : d = { k with
        config := d.config
        point := Function.update k.point t (.inAcquire lock) }) :
      Effect kind (.lockAcquire lock) k d
  | releases (hkind : kind lock = .lock) (hcur : k.curthread = some t)
      (huser : k.point t = .user) (hreleases : Releases k d t lock) :
      Effect kind (.lockRelease lock) k d
  | joins (hcv : kind cv = .cv) (hlock : kind lock = .lock)
      (hcur : k.curthread = some t) (huser : k.point t = .user) (mem : Bool)
      (hqueue : Prog.attempt (Queue.qAddtail mem t) (k.cvQueue cv) = .ok result q) :
      Effect kind (.cvWait cv lock) k { k with
        cvQueue := Function.update k.cvQueue cv q
        point := Function.update k.point t (.queued cv lock) }
  | waits (hcv : kind cv = .cv) (hlock : kind lock = .lock) (hcur : k.curthread = some t)
      (hpoint : k.point t = .queued cv lock) (hreleases : Releases k mid t lock)
      (hsleeps : Sleeps mid d t cv)
      (hd : d = { mid with
        config := d.config
        point := Function.update mid.point t (.inWait cv lock) }) :
      Effect kind (.cvSleep cv lock) k d
  | signalsNobody (hempty : (k.cvQueue cv).qEmpty = true) :
      Effect kind (.cvSignal cv) k k
  | signals (hcv : kind cv = .cv) (huser : k.InUser)
      (hhead : Queue.qRemhead (k.cvQueue cv) = .ok head rest)
      (hinv : d.config.Inv) (hlive : d.config.live = k.config.live)
      (hcur : d.curthread = k.curthread)
      (hsleepers : ∀ a, d.sleepersOn a =
        if a = cv then (k.sleepersOn a).erase head else k.sleepersOn a)
      (hd : d = { k with
        config := d.config
        cvQueue := Function.update k.cvQueue cv rest }) :
      Effect kind (.cvSignal cv) k d
  | broadcasts (hcv : kind cv = .cv) (huser : k.InUser) (hwakes : Wakes k d cv)
      (hd : d = { k with config := d.config }) :
      Effect kind (.cvBroadcast cv) k d
  | forks (hnew : newguy ∉ k.config.live) (hinv : d.config.Inv)
      (hlive : d.config.live = insert newguy k.config.live)
      (hcur : d.curthread = k.curthread) (hsleepers : ∀ a, d.sleepersOn a = k.sleepersOn a)
      (hd : d = { k with
        config := d.config
        point := Function.update k.point newguy .user }) :
      Effect kind (.system (.fork newguy)) k d
  | exits (hcur : k.curthread = some t) (huser : k.point t = .user) (hinv : d.config.Inv)
      (hlive : d.config.live = k.config.live.erase t) (hnone : d.curthread = none)
      (hsleepers : ∀ a, d.sleepersOn a = k.sleepersOn a)
      (hd : d = { k with
        config := d.config
        holding := fun l u => k.holding l u && decide (u ≠ t) }) :
      Effect kind (.system .exit) k d
  | plain (act : Act) (hinv : d.config.Inv) (hlive : d.config.live = k.config.live)
      (hcur : d.curthread = k.curthread ∨ d.curthread = none)
      (hsleepers : ∀ a, kind a ≠ .other → d.sleepersOn a = k.sleepersOn a)
      (hd : d = { k with config := d.config }) :
      Effect kind (.system act) k d
  | dispatches (hidle : k.curthread = none) (hinv : d.config.Inv)
      (hlive : d.config.live = k.config.live) (hcur : d.curthread = some next)
      (hnext : next ∈ k.config.live) (hsleepers : ∀ a, d.sleepersOn a = k.sleepersOn a)
      (hd : d = { k with config := d.config }) :
      Effect kind .dispatch k d

section Effects

variable {kind : SleepAddr → Kind} {k d : Kernel} {mem : Bool}

theorem goAt_ok (hrun : goAt p k = .ok () d) (hcur : k.curthread = some t) :
    d = { k with point := Function.update k.point t p } := by
  simp only [goAt, Prog.modify, hcur] at hrun
  cases hrun
  rfl

theorem setHolding_ok (hrun : setHolding lock holds k = .ok () d)
    (hcur : k.curthread = some t) :
    d = { k with holding := note k.holding lock t holds } := by
  simp only [setHolding, Prog.modify, hcur] at hrun
  cases hrun
  rfl

theorem assert_ok {condition : Prop} [Decidable condition] {reason : Fault}
    (hrun : (Prog.assert condition reason : Kernel.Op Unit) k = .ok () d) :
    condition ∧ d = k := by
  by_cases hcondition : condition
  · simp only [Prog.assert, if_pos hcondition] at hrun
    cases hrun
    exact ⟨hcondition, rfl⟩
  · simp only [Prog.assert, if_neg hcondition] at hrun
    cases hrun

theorem pLoop_effect (hrun : pLoop mem sem k = .ok () d) (hinv : k.config.Inv)
    (hkind : kind sem = .semaphore) (hcur : k.curthread = some t) (hpoint : ¬ k.Joining t) :
    Effect kind (.P sem) k d := by
  unfold pLoop at hrun
  rw [Prog.bind_eq_ok_iff] at hrun
  obtain ⟨_, _, hget, hrun⟩ := hrun
  cases hget
  split at hrun
  case isTrue hcount =>
    rw [Prog.bind_eq_ok_iff] at hrun
    obtain ⟨_, mid, hat, hrun⟩ := hrun
    obtain rfl := goAt_ok hat hcur
    obtain ⟨hsleeps, hd⟩ := sleep_ok hrun hinv hcur
    exact .blocks hkind hcur hpoint hcount ⟨hsleeps.inv, hsleeps.live, hsleeps.cur,
      hsleeps.sleepers⟩ hd
  case isFalse hcount =>
    rw [Prog.bind_eq_ok_iff] at hrun
    obtain ⟨_, _, hassert, hrun⟩ := hrun
    obtain ⟨hpos, rfl⟩ := assert_ok hassert
    rw [Prog.bind_eq_ok_iff] at hrun
    obtain ⟨_, _, hmodify, hrun⟩ := hrun
    cases hmodify
    obtain rfl := goAt_ok hrun hcur
    exact .passes hkind hcur hpoint hpos

theorem V_effect (hrun : Kernel.V mem sem k = .ok () d) (hinv : k.config.Inv)
    (hkind : kind sem = .semaphore) : Effect kind (.V sem) k d := by
  unfold Kernel.V at hrun
  rw [Prog.bind_eq_ok_iff] at hrun
  obtain ⟨_, _, hmodify, hrun⟩ := hrun
  cases hmodify
  rw [Prog.bind_eq_ok_iff] at hrun
  obtain ⟨_, _, hget, hrun⟩ := hrun
  cases hget
  rw [Prog.bind_eq_ok_iff] at hrun
  obtain ⟨_, _, hassert, hrun⟩ := hrun
  obtain ⟨hpos, rfl⟩ := assert_ok hassert
  obtain ⟨hwakes, hd⟩ := wakeup_ok hrun hinv
  refine .posts hkind ?_ ⟨hwakes.inv, hwakes.live, hwakes.cur, hwakes.sleepers⟩ hd
  simpa using hpos

theorem lockLoop_effect (hrun : lockLoop mem lock k = .ok () d) (hinv : k.config.Inv)
    (hkind : kind lock = .lock) (hcur : k.curthread = some t) (hpoint : ¬ k.Joining t) :
    Effect kind (.lockAcquire lock) k d := by
  unfold lockLoop at hrun
  rw [Prog.bind_eq_ok_iff] at hrun
  obtain ⟨_, _, hget, hrun⟩ := hrun
  cases hget
  split at hrun
  case isTrue hbusy =>
    rw [Prog.bind_eq_ok_iff] at hrun
    obtain ⟨_, mid, hat, hrun⟩ := hrun
    obtain rfl := goAt_ok hat hcur
    obtain ⟨hsleeps, hd⟩ := sleep_ok hrun hinv hcur
    have hother : k.threadAddr lock ≠ some t := by
      simpa [lockDoIHold, hcur] using hbusy.2
    exact .contends hkind hcur hpoint hbusy.1 hother ⟨hsleeps.inv, hsleeps.live, hsleeps.cur,
      hsleeps.sleepers⟩ hd
  case isFalse hfree =>
    rw [Prog.bind_eq_ok_iff] at hrun
    obtain ⟨_, _, hmodify, hrun⟩ := hrun
    cases hmodify
    rw [Prog.bind_eq_ok_iff] at hrun
    obtain ⟨_, _, hnote, hrun⟩ := hrun
    obtain rfl := setHolding_ok hnote hcur
    obtain rfl := goAt_ok hrun hcur
    dsimp only
    rw [hcur]
    apply Effect.acquires hkind hcur hpoint
    rw [not_and_or, not_not] at hfree
    refine hfree.imp_right ?_
    intro hhold
    simpa [lockDoIHold, hcur] using hhold

theorem lockRelease_ok (hrun : Kernel.lockRelease mem lock k = .ok () d)
    (hinv : k.config.Inv) (hcur : k.curthread = some t) : Releases k d t lock := by
  unfold Kernel.lockRelease at hrun
  rw [Prog.bind_eq_ok_iff] at hrun
  obtain ⟨_, _, hnote, hrun⟩ := hrun
  obtain rfl := setHolding_ok hnote hcur
  rw [Prog.bind_eq_ok_iff] at hrun
  obtain ⟨_, _, hget, hrun⟩ := hrun
  cases hget
  split at hrun
  case isTrue hhold =>
    rw [Prog.bind_eq_ok_iff] at hrun
    obtain ⟨_, _, hmodify, hrun⟩ := hrun
    cases hmodify
    obtain ⟨hwakes, hd⟩ := wakeup_ok hrun hinv
    have hholds : k.threadAddr lock = some t := by
      have := hhold
      simp only [lockDoIHold, beq_iff_eq] at this
      exact this.trans hcur
    exact .holder hholds ⟨hwakes.inv, hwakes.live, hwakes.cur,
      hwakes.sleepers⟩ hd
  case isFalse hhold =>
    cases hrun
    refine .other ?_ rfl
    intro hholds
    apply hhold
    simp only [lockDoIHold, beq_iff_eq]
    exact hholds.trans hcur.symm

theorem cvJoin_effect (hrun : cvJoin mem cv lock k = .ok () d) (hcv : kind cv = .cv)
    (hlock : kind lock = .lock) (hcur : k.curthread = some t) (huser : k.point t = .user) :
    Effect kind (.cvWait cv lock) k d := by
  unfold cvJoin at hrun
  rw [Prog.bind_eq_ok_iff] at hrun
  obtain ⟨_, _, hread, hrun⟩ := hrun
  cases hread
  rw [hcur] at hrun
  simp only at hrun
  rw [Prog.bind_eq_ok_iff] at hrun
  obtain ⟨result, mid, hadd, hrun⟩ := hrun
  simp only [Prog.attempt, onCvQueue, Prog.zoom] at hadd
  cases hqueue : Queue.qAddtail mem t (k.cvQueue cv) with
  | ok value q =>
      rw [hqueue] at hadd
      cases hadd
      obtain rfl := goAt_ok hrun hcur
      have hattempt : Prog.attempt (Queue.qAddtail mem t) (k.cvQueue cv) =
          .ok (.ok value) q := by
        simp [Prog.attempt, hqueue]
      exact .joins hcv hlock hcur huser mem hattempt
  | error code q =>
      rw [hqueue] at hadd
      cases hadd
      obtain rfl := goAt_ok hrun hcur
      have hattempt : Prog.attempt (Queue.qAddtail mem t) (k.cvQueue cv) =
          .ok (.error code) q := by
        simp [Prog.attempt, hqueue]
      exact .joins hcv hlock hcur huser mem hattempt
  | panic reason =>
      rw [hqueue] at hadd
      cases hadd

theorem Kernel.Releases.inv (hreleases : Releases k d t lock) (hinv : k.config.Inv) :
    d.config.Inv ∧ d.curthread = k.curthread := by
  cases hreleases with
  | holder hholds hwakes hd => exact ⟨hwakes.inv, hwakes.cur⟩
  | other hother hd =>
      rw [hd]
      exact ⟨hinv, rfl⟩

theorem cvSleep_effect (hrun : Kernel.cvSleep mem cv lock k = .ok () d)
    (hinv : k.config.Inv) (hcv : kind cv = .cv) (hlock : kind lock = .lock)
    (hcur : k.curthread = some t) (hpoint : k.point t = .queued cv lock) :
    Effect kind (.cvSleep cv lock) k d := by
  unfold Kernel.cvSleep at hrun
  rw [Prog.bind_eq_ok_iff] at hrun
  obtain ⟨_, mid, hrelease, hrun⟩ := hrun
  have hreleases := lockRelease_ok hrelease hinv hcur
  obtain ⟨hmid, hsame⟩ := hreleases.inv hinv
  have hcurMid : mid.curthread = some t := hsame.trans hcur
  rw [Prog.bind_eq_ok_iff] at hrun
  obtain ⟨_, _, hat, hrun⟩ := hrun
  obtain rfl := goAt_ok hat hcurMid
  obtain ⟨hsleeps, hd⟩ := sleep_ok hrun hmid hcurMid
  exact .waits hcv hlock hcur hpoint hreleases ⟨hsleeps.inv, hsleeps.live, hsleeps.cur,
    hsleeps.sleepers⟩ hd

theorem cvSignal_effect (hrun : Kernel.cvSignal mem cv k = .ok () d) (hinv : k.config.Inv)
    (hcv : kind cv = .cv) (huser : k.InUser) : Effect kind (.cvSignal cv) k d := by
  unfold Kernel.cvSignal at hrun
  rw [Prog.bind_eq_ok_iff] at hrun
  obtain ⟨_, _, hget, hrun⟩ := hrun
  cases hget
  split at hrun
  case isTrue hempty =>
    cases hrun
    exact .signalsNobody hempty
  case isFalse hempty =>
    simp only [wakeupHead] at hrun
    cases hwoken : ThreadSystem.threadWakeupHead mem cv (k.cvQueue cv) k.config.sys with
    | ok rest next =>
        rw [hwoken] at hrun
        cases hrun
        cases hhead : Queue.qRemhead (k.cvQueue cv) with
        | ok head left =>
            have htakes : (Act.wakeupHead cv (k.cvQueue cv)).Takes k.config
                ⟨next, k.config.live⟩ := by
              refine ⟨?_, ⟨mem, ?_⟩, rfl⟩
              · simp [Act.Allowed, hhead, Result.returned]
              · simp only [Act.run]
                rw [Prog.bind_eq_ok_iff]
                exact ⟨rest, next, hwoken, rfl⟩
            have hrest : rest = left := by
              simp only [ThreadSystem.threadWakeupHead, hhead, Prog.bind_eq_ok_iff] at hwoken
              obtain ⟨_, _, -, _, _, -, hret⟩ := hwoken
              injection hret with hvalue
              exact hvalue.symm
            subst hrest
            refine .signals hcv huser hhead (hinv.step htakes.step) rfl
              (htakes.curthread hinv) ?_ rfl
            intro a
            have hsleepers := htakes.sleepersOn hinv a
            simp only [Act.asleep, hhead] at hsleepers
            exact hsleepers
        | error code left =>
            simp [ThreadSystem.threadWakeupHead, hhead, Prog.fail] at hwoken
        | panic reason =>
            simp [ThreadSystem.threadWakeupHead, hhead, Prog.panic] at hwoken
    | error code next =>
        rw [hwoken] at hrun
        cases hrun
    | panic reason =>
        rw [hwoken] at hrun
        cases hrun

theorem not_joining_of_user (huser : k.point t = .user) : ¬ k.Joining t := by
  intro ⟨cv, lock, hqueued⟩
  rw [huser] at hqueued
  cases hqueued

theorem InUser.exists_cur (huser : k.InUser) :
    ∃ t, k.curthread = some t ∧ k.point t = .user :=
  Option.map_eq_some_iff.mp huser

/-- A call of `thread.c` that no call of `synch.c` makes. -/
theorem system_effect {act : Act} (hrun : (Call.system act).run mem k = .ok () d)
    (hinv : k.config.Inv) (hallowed : act.Allowed k.config)
    (hplain : Call.plain kind k act) : Effect kind (.system act) k d := by
  simp only [Call.run] at hrun
  rw [Prog.bind_eq_ok_iff] at hrun
  obtain ⟨_, mid, hturn, hrun⟩ := hrun
  simp only [turnOver, Prog.modify] at hturn
  cases act with
  | fork newguy =>
      cases hturn
      obtain ⟨htakes, hd⟩ := system_ok hrun hallowed
      exact .forks hallowed.2.1 (hinv.step htakes.step) htakes.lives
        (htakes.curthread hinv) (htakes.sleepersOn hinv) hd
  | yield =>
      cases hturn
      obtain ⟨htakes, hd⟩ := system_ok hrun hallowed
      exact .plain _ (hinv.step htakes.step) htakes.lives (.inr (htakes.curthread hinv))
        (fun a _ => htakes.sleepersOn hinv a) hd
  | sleep addr =>
      cases hturn
      obtain ⟨htakes, hd⟩ := system_ok hrun hallowed
      refine .plain _ (hinv.step htakes.step) htakes.lives (.inr (htakes.curthread hinv))
        ?_ hd
      intro a ha
      have hne : a ≠ addr := fun heq => ha (heq ▸ hplain.1)
      have hsleepers := htakes.sleepersOn hinv a
      simpa [Act.asleep, hne, Kernel.sleepersOn] using hsleepers
  | wakeup addr =>
      cases hturn
      obtain ⟨htakes, hd⟩ := system_ok hrun hallowed
      refine .plain _ (hinv.step htakes.step) htakes.lives (.inl (htakes.curthread hinv))
        ?_ hd
      intro a ha
      have hne : a ≠ addr := fun heq => ha (heq ▸ hplain)
      have hsleepers := htakes.sleepersOn hinv a
      simpa [Act.asleep, hne, Kernel.sleepersOn] using hsleepers
  | wakeupHead addr cvQueue => exact hplain.elim
  | exit =>
      cases hturn
      obtain ⟨t, hcur, huser⟩ := InUser.exists_cur hplain
      obtain ⟨htakes, hd⟩ := system_ok hrun hallowed
      have hlive : d.config.live = k.config.live.erase t := by
        have hlives := htakes.lives
        simp only [Act.live] at hlives
        rw [curthread] at hcur
        rw [hcur] at hlives
        exact hlives
      refine .exits hcur huser (hinv.step htakes.step) hlive (htakes.curthread hinv)
        (htakes.sleepersOn hinv) ?_
      rw [hd]
      simp only [hcur, Option.some.injEq, ne_eq, eq_comm]
  | exorcise =>
      cases hturn
      obtain ⟨htakes, hd⟩ := system_ok hrun hallowed
      exact .plain _ (hinv.step htakes.step) htakes.lives (.inl (htakes.curthread hinv))
        (fun a _ => htakes.sleepersOn hinv a) hd
  | dispatch => exact hplain.elim
  | other t vmspace cwd =>
      cases hturn
      obtain ⟨htakes, hd⟩ := system_ok hrun hallowed
      exact .plain _ (hinv.step htakes.step) htakes.lives (.inl (htakes.curthread hinv))
        (fun a _ => htakes.sleepersOn hinv a) hd

end Effects

/-- A thread stands in the call that goes with the object it waits for. -/
def Point.Typed (kind : SleepAddr → Kind) : Point → Prop
  | .user => True
  | .inP sem => kind sem = .semaphore
  | .inAcquire lock => kind lock = .lock
  | .queued cv lock => kind cv = .cv ∧ kind lock = .lock
  | .inWait cv lock => kind cv = .cv ∧ kind lock = .lock

structure Kernel.Sound (kind : SleepAddr → Kind) (k : Kernel) : Prop where
  inv : k.config.Inv
  typed : ∀ t, (k.point t).Typed kind

namespace Kernel

section Sound

variable {kind : SleepAddr → Kind} {k d : Kernel}

theorem typed_update {point : Tid → Point} (htyped : ∀ t, (point t).Typed kind) (p : Point)
    (hp : p.Typed kind) (t u : Tid) : (Function.update point t p u).Typed kind := by
  by_cases hu : u = t
  · subst hu
    simpa using hp
  · simpa [hu] using htyped u

theorem Sound.releases (hsound : Sound kind k) (hreleases : Releases k d t lock) :
    Sound kind d := by
  refine ⟨(hreleases.inv hsound.inv).1, ?_⟩
  cases hreleases with
  | holder hholds hwakes hd =>
      rw [hd]
      exact hsound.typed
  | other hother hd =>
      rw [hd]
      exact hsound.typed

theorem Sound.effect {call : Call} (hsound : Sound kind k) (heffect : Effect kind call k d) :
    Sound kind d := by
  cases heffect with
  | passes hkind hcur hpoint hcount => exact ⟨hsound.inv, typed_update hsound.typed .user trivial _⟩
  | blocks hkind hcur hpoint hcount hsleeps hd =>
      refine ⟨hsleeps.inv, ?_⟩
      rw [hd]
      exact typed_update hsound.typed (.inP _) hkind _
  | posts hkind hcount hwakes hd =>
      refine ⟨hwakes.inv, ?_⟩
      rw [hd]
      exact hsound.typed
  | acquires hkind hcur hpoint hfree => exact ⟨hsound.inv, typed_update hsound.typed .user trivial _⟩
  | contends hkind hcur hpoint hbusy hother hsleeps hd =>
      refine ⟨hsleeps.inv, ?_⟩
      rw [hd]
      exact typed_update hsound.typed (.inAcquire _) hkind _
  | releases hkind hcur huser hreleases => exact hsound.releases hreleases
  | joins hcv hlock hcur huser mem hqueue =>
      exact ⟨hsound.inv, typed_update hsound.typed (.queued _ _) ⟨hcv, hlock⟩ _⟩
  | waits hcv hlock hcur hpoint hreleases hsleeps hd =>
      have hmid := hsound.releases hreleases
      refine ⟨hsleeps.inv, ?_⟩
      rw [hd]
      exact typed_update hmid.typed (.inWait _ _) ⟨hcv, hlock⟩ _
  | signalsNobody hempty => exact hsound
  | signals hcv huser hhead hinv hlive hcur hsleepers hd =>
      refine ⟨hinv, ?_⟩
      rw [hd]
      exact hsound.typed
  | broadcasts hcv huser hwakes hd =>
      refine ⟨hwakes.inv, ?_⟩
      rw [hd]
      exact hsound.typed
  | forks hnew hinv hlive hcur hsleepers hd =>
      refine ⟨hinv, ?_⟩
      rw [hd]
      exact typed_update hsound.typed .user trivial _
  | exits hcur huser hinv hlive hnone hsleepers hd =>
      refine ⟨hinv, ?_⟩
      rw [hd]
      exact hsound.typed
  | plain act hinv hlive hcur hsleepers hd =>
      refine ⟨hinv, ?_⟩
      rw [hd]
      exact hsound.typed
  | dispatches hidle hinv hlive hcur hnext hsleepers hd =>
      refine ⟨hinv, ?_⟩
      rw [hd]
      exact hsound.typed

theorem boot_sound (me : Tid) (initialCount : SleepAddr → Fin (2 ^ 31)) :
    Sound kind (boot me initialCount) :=
  ⟨⟨_, _, _, Config.boot_conserved me⟩, fun _ => trivial⟩

end Sound

end Kernel

/-- Objects of different kinds have different addresses. -/
theorem ne_of_kind {kind : SleepAddr → Kind} (hkind : kind addr = x)
    (hother : kind other ≠ x) : addr ≠ other :=
  fun heq => hother (heq ▸ hkind)

section Takes

variable {kind : SleepAddr → Kind} {k d : Kernel}

/-- The thread that the scheduler has picked is done with its call, or its `P`
or `lock_acquire` takes another turn. -/
inductive Resumes (kind : SleepAddr → Kind) (k d : Kernel) : Prop
  | nothing (hsame : d = k)
  | inP (sem : SleepAddr) (heffect : Effect kind (.P sem) k d)
  | inAcquire (lock : SleepAddr) (heffect : Effect kind (.lockAcquire lock) k d)

theorem resume_effect (hrun : Kernel.resume mem k = .ok () d) (hsound : k.Sound kind) :
    Resumes kind k d := by
  unfold Kernel.resume at hrun
  rw [Prog.bind_eq_ok_iff] at hrun
  obtain ⟨_, _, hget, hrun⟩ := hrun
  cases hget
  cases hcur : k.curthread with
  | none =>
      rw [hcur] at hrun
      cases hrun
      exact .nothing rfl
  | some t =>
      have htyped := hsound.typed t
      rw [hcur, Option.map_some] at hrun
      cases hpoint : k.point t with
      | user =>
          rw [hpoint] at hrun
          cases hrun
          exact .nothing rfl
      | inP sem =>
          rw [hpoint] at hrun htyped
          have hnot : ¬ k.Joining t := by simp [Joining, hpoint]
          exact .inP sem (pLoop_effect hrun hsound.inv htyped hcur hnot)
      | inAcquire lock =>
          rw [hpoint] at hrun htyped
          have hnot : ¬ k.Joining t := by simp [Joining, hpoint]
          exact .inAcquire lock (lockLoop_effect hrun hsound.inv htyped hcur hnot)
      | queued cv lock =>
          rw [hpoint] at hrun
          cases hrun
          exact .nothing rfl
      | inWait cv lock =>
          rw [hpoint] at hrun htyped
          have hnot : ¬ k.Joining t := by simp [Joining, hpoint]
          exact .inAcquire lock (lockLoop_effect hrun hsound.inv htyped.2 hcur hnot)

theorem dispatch_effect (hrun : Kernel.system mem .dispatch k = .ok () d)
    (hinv : k.config.Inv) (hidle : k.curthread = none) : Effect kind .dispatch k d := by
  obtain ⟨htakes, hd⟩ := Kernel.system_ok hrun hidle
  obtain ⟨next, hcur, hnext⟩ := htakes.curthread hinv
  exact .dispatches hidle (hinv.step htakes.step) htakes.lives hcur hnext
    (htakes.sleepersOn hinv) hd

/-- A step of a run is an effect, or a dispatch and what the thread then does. -/
theorem Call.Takes.effects {call : Call} (htakes : call.Takes kind k d)
    (hsound : k.Sound kind) :
    Effect kind call k d ∨
      (call = .dispatch ∧ ∃ mid, Effect kind .dispatch k mid ∧ Resumes kind mid d) := by
  obtain ⟨mem, hrun⟩ := htakes.runs
  have hallowed := htakes.allowed
  have hinv := hsound.inv
  cases call with
  | P sem =>
      obtain ⟨t, hcur, huser⟩ := InUser.exists_cur hallowed.2
      exact .inl (pLoop_effect hrun hinv hallowed.1 hcur (not_joining_of_user huser))
  | V sem => exact .inl (V_effect hrun hinv hallowed)
  | lockAcquire lock =>
      obtain ⟨t, hcur, huser⟩ := InUser.exists_cur hallowed.2
      exact .inl (lockLoop_effect hrun hinv hallowed.1 hcur (not_joining_of_user huser))
  | lockRelease lock =>
      obtain ⟨t, hcur, huser⟩ := InUser.exists_cur hallowed.2
      exact .inl (.releases hallowed.1 hcur huser (lockRelease_ok hrun hinv hcur))
  | cvWait cv lock =>
      obtain ⟨t, hcur, huser⟩ := InUser.exists_cur hallowed.2.2
      exact .inl (cvJoin_effect hrun hallowed.1 hallowed.2.1 hcur huser)
  | cvSleep cv lock =>
      obtain ⟨t, hcur, hpoint⟩ := Option.map_eq_some_iff.mp hallowed
      have htyped := hsound.typed t
      rw [hpoint] at htyped
      exact .inl (cvSleep_effect hrun hinv htyped.1 htyped.2 hcur hpoint)
  | cvSignal cv => exact .inl (cvSignal_effect hrun hinv hallowed.1 hallowed.2)
  | cvBroadcast cv =>
      obtain ⟨hwakes, hd⟩ := Kernel.wakeup_ok hrun hinv
      exact .inl (.broadcasts hallowed.1 hallowed.2 hwakes hd)
  | system act => exact .inl (system_effect hrun hinv hallowed.1 hallowed.2)
  | dispatch =>
      simp only [Call.run] at hrun
      rw [Prog.bind_eq_ok_iff] at hrun
      obtain ⟨_, mid, hdispatch, hresume⟩ := hrun
      have heffect : Effect kind .dispatch k mid := dispatch_effect hdispatch hinv hallowed
      exact .inr ⟨rfl, mid, heffect, resume_effect hresume (hsound.effect heffect)⟩

/-- What every effect preserves, every step preserves. -/
theorem Call.Takes.preserves {call : Call} {inv : Kernel → Prop}
    (heffect : ∀ call k d, k.Sound kind → inv k → Effect kind call k d → inv d)
    (htakes : call.Takes kind k d) (hsound : k.Sound kind) (hinv : inv k) :
    d.Sound kind ∧ inv d := by
  rcases htakes.effects hsound with hone | ⟨-, mid, hdispatch, hresumes⟩
  · exact ⟨hsound.effect hone, heffect _ _ _ hsound hinv hone⟩
  · have hmid := hsound.effect hdispatch
    have hinvMid := heffect _ _ _ hsound hinv hdispatch
    cases hresumes with
    | nothing hsame =>
        subst hsame
        exact ⟨hmid, hinvMid⟩
    | inP sem hrest => exact ⟨hmid.effect hrest, heffect _ _ _ hmid hinvMid hrest⟩
    | inAcquire lock hrest => exact ⟨hmid.effect hrest, heffect _ _ _ hmid hinvMid hrest⟩

theorem Kernel.Runs.preserves {inv : Kernel → Prop}
    (heffect : ∀ call k d, k.Sound kind → inv k → Effect kind call k d → inv d)
    (hrun : Kernel.Runs kind k d) (hsound : k.Sound kind) (hinv : inv k) :
    d.Sound kind ∧ inv d := by
  induction hrun with
  | refl => exact ⟨hsound, hinv⟩
  | tail _ hstep ih =>
      obtain ⟨call, htakes⟩ := hstep
      exact htakes.preserves heffect ih.1 ih.2

end Takes

namespace Call

/-! Runs on given calls. -/

instance (k : Kernel) : Decidable k.InUser :=
  inferInstanceAs (Decidable (_ = _))

instance (kind : SleepAddr → Kind) (k : Kernel) : (act : Act) → Decidable (plain kind k act)
  | .fork _ => inferInstanceAs (Decidable k.InUser)
  | .yield => inferInstanceAs (Decidable True)
  | .sleep _ => inferInstanceAs (Decidable (_ ∧ _))
  | .wakeup _ => inferInstanceAs (Decidable (_ = _))
  | .wakeupHead _ _ => inferInstanceAs (Decidable False)
  | .exit => inferInstanceAs (Decidable k.InUser)
  | .exorcise => inferInstanceAs (Decidable k.InUser)
  | .dispatch => inferInstanceAs (Decidable False)
  | .other _ _ _ => inferInstanceAs (Decidable True)

instance (kind : SleepAddr → Kind) (k : Kernel) : (call : Call) → Decidable (call.Allowed kind k)
  | .P _ => inferInstanceAs (Decidable (_ ∧ _))
  | .V _ => inferInstanceAs (Decidable (_ = _))
  | .lockAcquire _ => inferInstanceAs (Decidable (_ ∧ _))
  | .lockRelease _ => inferInstanceAs (Decidable (_ ∧ _))
  | .cvWait _ _ => inferInstanceAs (Decidable (_ ∧ _ ∧ _))
  | .cvSleep _ _ => inferInstanceAs (Decidable (_ = _))
  | .cvSignal _ => inferInstanceAs (Decidable (_ ∧ _))
  | .cvBroadcast _ => inferInstanceAs (Decidable (_ ∧ _))
  | .system _ => inferInstanceAs (Decidable (_ ∧ _))
  | .dispatch => inferInstanceAs (Decidable (_ = none))

def next (call : Call) (k : Kernel) : Kernel :=
  (call.run true k).stateD k

/-- Whether the calls can be made one after the other and pass a check. -/
def runsThrough (kind : SleepAddr → Kind) (check : Call → Kernel → Bool) :
    List Call → Kernel → Bool
  | [], _ => true
  | call :: calls, k => decide (call.Allowed kind k) && check call k &&
      ((call.run true k).returned.isSome && runsThrough kind check calls (call.next k))

theorem runs_of_runsThrough {kind : SleepAddr → Kind} {check : Call → Kernel → Bool}
    (calls : List Call) (k : Kernel) (hrun : runsThrough kind check calls k = true) :
    Relation.ReflTransGen (fun k d => ∃ call : Call, call.Allowed kind k ∧
      check call k = true ∧ call.run true k = .ok () d) k
      (calls.foldl (fun k call => call.next k) k) := by
  induction calls generalizing k with
  | nil => exact .refl
  | cons call calls ih =>
      simp only [runsThrough, Bool.and_eq_true, decide_eq_true_eq] at hrun
      obtain ⟨⟨hallowed, hcheck⟩, hreturned, hrest⟩ := hrun
      obtain ⟨value, hvalue⟩ := Option.isSome_iff_exists.mp hreturned
      have hok := Result.eq_ok_of_returned k hvalue
      exact .head ⟨call, hallowed, hcheck, hok⟩ (ih _ hrest)

theorem kernelRuns_of_runsThrough {kind : SleepAddr → Kind} {check : Call → Kernel → Bool}
    (calls : List Call) (k : Kernel) (hrun : runsThrough kind check calls k = true) :
    Kernel.Runs kind k (calls.foldl (fun k call => call.next k) k) := by
  refine Relation.ReflTransGen.mono ?_ _ _ (runs_of_runsThrough calls k hrun)
  intro _ _ ⟨call, hallowed, _, hok⟩
  exact ⟨call, hallowed, true, hok⟩

end Call

end OS161.Threads
