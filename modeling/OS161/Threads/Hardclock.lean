import OS161.Threads.RoundRobin

namespace OS161.Threads

open OS161.Data
open OS161.Kern
open OS161.Lib

/-! `kern/thread/hardclock.c`: the tick of the clock and `clocksleep`, over any calls that the
threads and the interrupt handlers make. -/

/-- `HZ` of `clock.h`. -/
def hz (optSynchprobs : Bool) : Int :=
  if optSynchprobs then 10000 else 100

theorem hz_pos (optSynchprobs : Bool) : 0 < hz optSynchprobs := by
  cases optSynchprobs <;> decide

structure Clock where
  config : Config
  lboltCounter : Int
  /-- `num_secs` of a thread that is in the loop of `clocksleep`. -/
  numSecs : Tid → Option Int

namespace Clock

abbrev Op := Prog Errno Fault Clock

def curthread (k : Clock) : Option Tid :=
  k.config.sys.curthread

/-- A call of `thread.c`. -/
def system (mem : Bool) (act : Act) : Op Unit := fun k =>
  match act.run mem k.config.sys with
  | .ok _ next => .ok () { k with config := ⟨next, act.live k.config⟩ }
  | .error code next => .error code { k with config := ⟨next, k.config.live⟩ }
  | .panic reason => .panic reason

section

/-! `lbolt` is the address of that variable. -/

variable (optSynchprobs mem : Bool) (lbolt : SleepAddr)

def hardclock : Op Unit := do
  Prog.modify fun k => { k with lboltCounter := k.lboltCounter + 1 }
  let k ← Prog.get
  if hz optSynchprobs ≤ k.lboltCounter then
    Prog.modify fun k => { k with lboltCounter := 0 }
    system mem (.wakeup lbolt)
    system mem .yield
  else
    system mem .yield

/-- The loop of `clocksleep`, up to its `thread_sleep` or to its end. -/
def sleepLoop (num_secs : Int) : Op Unit := do
  match ← Prog.read curthread with
  | none => Prog.panic .uninitialised
  | some cur =>
      if 0 < num_secs then
        Prog.modify fun k => { k with numSecs := Function.update k.numSecs cur (some num_secs) }
        system mem (.sleep lbolt)
      else
        Prog.modify fun k => { k with numSecs := Function.update k.numSecs cur none }

/-- A thread that the scheduler has picked goes on where it stood. -/
def resume : Op Unit := do
  let k ← Prog.get
  match k.curthread.bind k.numSecs with
  | some num_secs => sleepLoop mem lbolt (num_secs - 1)
  | none => pure ()

end

def boot (me : Tid) : Clock where
  config := Config.boot me
  lboltCounter := 0
  numSecs _ := none

/-- What happens next: a call of `thread.c`, a call of `clocksleep`, a tick, or the next thread. -/
inductive Event where
  | system (act : Act)
  | clocksleep (num_secs : Int)
  | hardclock
  | dispatch

namespace Event

def run (optSynchprobs mem : Bool) (lbolt : SleepAddr) : Event → Op Unit
  | .system act => Clock.system mem act
  | .clocksleep num_secs => sleepLoop mem lbolt num_secs
  | .hardclock => Clock.hardclock optSynchprobs mem lbolt
  | .dispatch => do
      Clock.system mem .dispatch
      resume mem lbolt

/-- `lbolt` is slept on by `clocksleep` only and woken by `hardclock` only. -/
def plain (lbolt : SleepAddr) : Act → Prop
  | .sleep addr => addr ≠ lbolt
  | .wakeup addr => addr ≠ lbolt
  | .wakeupHead addr _ => addr ≠ lbolt
  | .dispatch => False
  | _ => True

/-- A tick may come whenever interrupts are on, in the idle loop too. -/
def Allowed (lbolt : SleepAddr) (k : Clock) : Event → Prop
  | .system act => act.Allowed k.config ∧ plain lbolt act
  | .clocksleep _ => k.curthread.isSome = true
  | .hardclock => True
  | .dispatch => k.curthread = none

structure Takes (optSynchprobs : Bool) (lbolt : SleepAddr) (event : Event) (k d : Clock) :
    Prop where
  allowed : event.Allowed lbolt k
  runs : ∃ mem, event.run optSynchprobs mem lbolt k = .ok () d

end Event

/-! What each event can do, said once. -/

theorem system_ok {k d : Clock} {act : Act} (hrun : system mem act k = .ok () d)
    (hallowed : act.Allowed k.config) :
    act.Takes k.config d.config ∧ d = { k with config := d.config } := by
  simp only [system] at hrun
  cases hresult : act.run mem k.config.sys with
  | ok value next =>
      rw [hresult] at hrun
      cases hrun
      exact ⟨⟨hallowed, ⟨mem, hresult⟩, rfl⟩, rfl⟩
  | error code next =>
      rw [hresult] at hrun
      cases hrun
  | panic reason =>
      rw [hresult] at hrun
      cases hrun

/-- The loop of `clocksleep` goes to sleep, or ends. -/
inductive Loops (lbolt : SleepAddr) (t : Tid) (num_secs : Int) (k : Clock) : Clock → Prop
  | sleeps (hpos : 0 < num_secs) (htakes : (Act.sleep lbolt).Takes k.config next) :
      Loops lbolt t num_secs k { k with
        config := next
        numSecs := Function.update k.numSecs t (some num_secs) }
  | ends (hdone : num_secs ≤ 0) :
      Loops lbolt t num_secs k { k with numSecs := Function.update k.numSecs t none }

inductive Effect (optSynchprobs : Bool) (lbolt : SleepAddr) : Event → Clock → Clock → Prop
  | system (hplain : Event.plain lbolt act) (htakes : act.Takes k.config next) :
      Effect optSynchprobs lbolt (.system act) k { k with config := next }
  | calls (hcur : k.curthread = some t) (hloops : Loops lbolt t num_secs k d) :
      Effect optSynchprobs lbolt (.clocksleep num_secs) k d
  | ticks (hless : k.lboltCounter + 1 < hz optSynchprobs)
      (htakes : Act.yield.Takes k.config next) :
      Effect optSynchprobs lbolt .hardclock k { k with
        config := next
        lboltCounter := k.lboltCounter + 1 }
  | wakes (hfull : hz optSynchprobs ≤ k.lboltCounter + 1)
      (hwakes : (Act.wakeup lbolt).Takes k.config mid) (htakes : Act.yield.Takes mid next) :
      Effect optSynchprobs lbolt .hardclock k { k with config := next, lboltCounter := 0 }
  | dispatches (htakes : Act.dispatch.Takes k.config next) (hcur : next.sys.curthread = some t)
      (hout : k.numSecs t = none) :
      Effect optSynchprobs lbolt .dispatch k { k with config := next }
  | goesOn (htakes : Act.dispatch.Takes k.config mid) (hcur : mid.sys.curthread = some t)
      (hin : k.numSecs t = some num_secs)
      (hloops : Loops lbolt t (num_secs - 1) { k with config := mid } d) :
      Effect optSynchprobs lbolt .dispatch k d

theorem sleepLoop_ok {k d : Clock} (hrun : sleepLoop mem lbolt num_secs k = .ok () d)
    (hcur : k.curthread = some t) : Loops lbolt t num_secs k d := by
  simp only [sleepLoop, Prog.bind_eq_ok_iff, Prog.read, Result.ok.injEq] at hrun
  obtain ⟨_, _, ⟨rfl, rfl⟩, hrun⟩ := hrun
  rw [hcur] at hrun
  simp only at hrun
  split at hrun
  case isTrue hpos =>
    simp only [Prog.bind_eq_ok_iff, Prog.modify, Result.ok.injEq] at hrun
    obtain ⟨_, mid, ⟨-, rfl⟩, hsleep⟩ := hrun
    obtain ⟨htakes, hd⟩ := system_ok hsleep (Option.isSome_iff_exists.mpr ⟨t, hcur⟩)
    rw [hd]
    exact .sleeps hpos htakes
  case isFalse hpos =>
    cases hrun
    exact .ends (by omega)

theorem hardclock_ok {k d : Clock} (hrun : hardclock optSynchprobs mem lbolt k = .ok () d) :
    Effect optSynchprobs lbolt .hardclock k d := by
  simp only [hardclock, Prog.bind_eq_ok_iff, Prog.modify, Prog.get, Result.ok.injEq] at hrun
  obtain ⟨_, _, ⟨-, rfl⟩, _, _, ⟨rfl, rfl⟩, hrun⟩ := hrun
  split at hrun
  case isTrue hfull =>
    simp only [Prog.bind_eq_ok_iff] at hrun
    obtain ⟨_, _, hreset, _, mid, hwake, hyield⟩ := hrun
    cases hreset
    obtain ⟨hwakes, hmid⟩ := system_ok hwake trivial
    obtain ⟨htakes, hd⟩ := system_ok hyield trivial
    rw [hd, hmid]
    exact .wakes hfull hwakes htakes
  case isFalse hfull =>
    obtain ⟨htakes, hd⟩ := system_ok hrun trivial
    rw [hd]
    exact .ticks (by simpa using hfull) htakes

theorem Event.Takes.effect {event : Event} (htakes : event.Takes optSynchprobs lbolt k d)
    (hinv : k.config.Inv) : Effect optSynchprobs lbolt event k d := by
  obtain ⟨hallowed, mem, hrun⟩ := htakes
  cases event with
  | system act =>
      obtain ⟨htakes, hd⟩ := system_ok hrun hallowed.1
      rw [hd]
      exact .system hallowed.2 htakes
  | clocksleep num_secs =>
      obtain ⟨t, hcur⟩ := Option.isSome_iff_exists.mp hallowed
      exact .calls hcur (sleepLoop_ok hrun hcur)
  | hardclock => exact hardclock_ok hrun
  | dispatch =>
      simp only [Event.run, Prog.bind_eq_ok_iff] at hrun
      obtain ⟨_, mid, hdispatch, hrun⟩ := hrun
      obtain ⟨htakes, hmid⟩ := system_ok hdispatch hallowed
      obtain ⟨t, hcur, -⟩ := htakes.curthread hinv
      simp only [resume, Prog.bind_eq_ok_iff, Prog.get, Result.ok.injEq] at hrun
      obtain ⟨_, _, ⟨rfl, rfl⟩, hrun⟩ := hrun
      have hcur' : mid.curthread = some t := hcur
      rw [hcur', Option.bind_some] at hrun
      have hsecs : mid.numSecs t = k.numSecs t := by rw [hmid]
      cases hin : k.numSecs t with
      | none =>
          rw [hsecs, hin] at hrun
          cases hrun
          rw [hmid]
          exact .dispatches htakes hcur hin
      | some num_secs =>
          rw [hsecs, hin] at hrun
          have hloops := sleepLoop_ok hrun hcur'
          rw [hmid] at hloops
          exact .goesOn htakes hcur hin hloops

end Clock

end OS161.Threads
