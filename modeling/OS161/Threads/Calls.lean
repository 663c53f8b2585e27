import OS161.Threads.Conservation

namespace OS161.Threads

open OS161.Data
open OS161.Kern
open OS161.Lib

/-! The calls of `thread.c` as labels of the steps.  Here only `thread_fork` can
count on memory: `mem` is arbitrary in every other call. -/

inductive Act where
  | fork (newguy : Tid)
  | yield
  | sleep (addr : SleepAddr)
  | wakeup (addr : SleepAddr)
  | wakeupHead (addr : SleepAddr) (cvQueue : Queue Tid)
  | exit
  | exorcise
  | dispatch
  | other (t : Tid) (vmspace cwd : Option Nat)

namespace Act

open ThreadSystem

def run (mem : Bool) : Act → Op Unit
  | .fork newguy => threadFork true newguy
  | .yield => threadYield mem
  | .sleep addr => threadSleep mem addr
  | .wakeup addr => threadWakeup mem addr
  | .wakeupHead addr cvQueue => do
      let _ ← threadWakeupHead mem addr cvQueue
      pure ()
  | .exit => threadExit mem
  | .exorcise => ThreadSystem.exorcise
  | .dispatch => ThreadSystem.dispatch
  | .other t vmspace cwd =>
      setThread t fun t => { t with tVmspace := vmspace, tCwd := cwd }

def Allowed (c : Config) : Act → Prop
  | .fork newguy => c.sys.curthread.isSome = true ∧ newguy ∉ c.live ∧
      newguy ∉ c.sys.zombies.contents
  | .yield => True
  | .sleep _ => c.sys.curthread.isSome = true
  | .wakeup _ => True
  | .wakeupHead _ cvQueue => (Queue.qRemhead cvQueue).returned.isSome = true
  | .exit => c.sys.curthread.isSome = true
  | .exorcise => c.sys.curthread.isSome = true
  | .dispatch => c.sys.curthread = none
  | .other t _ _ => t ∈ c.live

def live (c : Config) : Act → Finset Tid
  | .fork newguy => insert newguy c.live
  | .exit =>
      match c.sys.curthread with
      | some cur => c.live.erase cur
      | none => c.live
  | _ => c.live

instance (c : Config) : (act : Act) → Decidable (act.Allowed c)
  | .fork _ => inferInstanceAs (Decidable (_ ∧ _ ∧ _))
  | .yield => inferInstanceAs (Decidable True)
  | .sleep _ => inferInstanceAs (Decidable (_ = true))
  | .wakeup _ => inferInstanceAs (Decidable True)
  | .wakeupHead _ _ => inferInstanceAs (Decidable (_ = true))
  | .exit => inferInstanceAs (Decidable (_ = true))
  | .exorcise => inferInstanceAs (Decidable (_ = true))
  | .dispatch => inferInstanceAs (Decidable (_ = none))
  | .other t _ _ => inferInstanceAs (Decidable (t ∈ c.live))

/-- The call is made in `c` and comes back. -/
structure Takes (act : Act) (c d : Config) : Prop where
  allowed : act.Allowed c
  runs : ∃ mem, act.run mem c.sys = .ok () d.sys
  lives : d.live = act.live c

end Act

namespace ThreadSystem

/-! A call that comes back without memory comes back the same with memory. -/

theorem makeRunnable_follows (mem : Bool) (t : Tid) :
    (makeRunnable mem t).Follows (makeRunnable true t) :=
  (Queue.qAddtail_follows mem t).zoom _ _

theorem mustInsert_follows {body other : Op Unit} (hbody : body.Follows other)
    (reason : Fault) : (mustInsert reason body).Follows (mustInsert reason other) := by
  intro s value next hrun
  simp only [mustInsert, bind, Prog.andThen, Prog.attempt] at hrun ⊢
  cases hresult : body s with
  | ok value' mid =>
      rw [hbody _ _ _ hresult]
      rwa [hresult] at hrun
  | error code mid =>
      rw [hresult] at hrun
      cases hrun
  | panic reason =>
      rw [hresult] at hrun
      cases hrun

theorem mustInsert_preserves {body : Op Unit} {inv : ThreadSystem → Prop}
    (hbody : body.Preserves inv) (reason : Fault) :
    (mustInsert reason body).Preserves inv := by
  refine .of_wp fun s hinv => ?_
  simp only [mustInsert, ↓Prog.wp_bind, ↓Prog.wp_attempt]
  exact Prog.wp_mono (hbody.wp hinv) (fun _ _ h => h) (fun _ _ _ => trivial)
    (fun _ h => h)

theorem miSwitch_follows (mem : Bool) (nextstate : ThreadState) (resume : Resume) :
    (miSwitch mem nextstate resume).Follows (miSwitch true nextstate resume) := by
  refine .bind (.refl _) fun cur => ?_
  cases cur with
  | none => exact .refl _
  | some cur =>
      refine .bind (.refl _) fun _ => .bind (.refl _) fun _ => mustInsert_follows ?_ _
      cases nextstate with
      | ready => exact makeRunnable_follows mem cur
      | sleep => exact (KArray.arrayAdd_follows mem cur).zoom _ _
      | zomb => exact (KArray.arrayAdd_follows mem cur).zoom _ _

theorem threadSleep_follows (mem : Bool) (addr : SleepAddr) :
    (threadSleep mem addr).Follows (threadSleep true addr) := by
  refine .bind (.refl _) fun cur => ?_
  cases cur with
  | none => exact .refl _
  | some cur => exact .bind (.refl _) fun _ => miSwitch_follows mem _ _

theorem threadExit_follows (mem : Bool) :
    (threadExit mem).Follows (threadExit true) := by
  refine .bind (.refl _) fun cur => ?_
  cases cur with
  | none => exact .refl _
  | some cur =>
      exact .bind (.refl _) fun _ => .bind (.refl _) fun _ => .bind (.refl _) fun _ =>
        .bind (.refl _) fun _ => miSwitch_follows mem _ _

theorem wakeupScan_follows (mem : Bool) (addr : SleepAddr) (turns i : Nat) :
    (wakeupScan mem addr turns i).Follows (wakeupScan true addr turns i) := by
  induction turns generalizing i with
  | zero => exact .refl _
  | succ turns ih =>
      refine .bind (.refl _) fun num => .ite _ ?_ (.refl _)
      refine .bind (.refl _) fun t => .bind (.refl _) fun s => .ite _ ?_ (ih _)
      exact .bind (.refl _) fun _ =>
        .bind (mustInsert_follows (makeRunnable_follows mem t) _) fun _ => ih i

theorem threadWakeup_follows (mem : Bool) (addr : SleepAddr) :
    (threadWakeup mem addr).Follows (threadWakeup true addr) :=
  .bind (.refl _) fun num => wakeupScan_follows mem addr num 0

theorem wakeupHeadScan_follows (mem : Bool) (addr : SleepAddr) (head : Tid)
    (turns i : Nat) :
    (wakeupHeadScan mem addr head turns i).Follows
      (wakeupHeadScan true addr head turns i) := by
  induction turns generalizing i with
  | zero => exact .refl _
  | succ turns ih =>
      refine .bind (.refl _) fun t => .bind (.refl _) fun s => .ite _ ?_ (ih _)
      exact .bind (.refl _) fun _ => mustInsert_follows (makeRunnable_follows mem t) _

theorem threadWakeupHead_follows (mem : Bool) (addr : SleepAddr) (cvQueue : Queue Tid) :
    (threadWakeupHead mem addr cvQueue).Follows (threadWakeupHead true addr cvQueue) := by
  unfold threadWakeupHead
  cases Queue.qRemhead cvQueue with
  | ok head rest =>
      exact .bind (.refl _) fun num =>
        .bind (wakeupHeadScan_follows mem addr head num 0) fun _ => .refl _
  | error code rest => exact .refl _
  | panic reason => exact .refl _

end ThreadSystem

theorem Act.run_follows (mem : Bool) (act : Act) :
    (act.run mem).Follows (act.run true) := by
  cases act with
  | fork newguy => exact .refl _
  | yield => exact ThreadSystem.miSwitch_follows mem .ready .threadYield
  | sleep addr => exact ThreadSystem.threadSleep_follows mem addr
  | wakeup addr => exact ThreadSystem.threadWakeup_follows mem addr
  | wakeupHead addr cvQueue =>
      exact .bind (ThreadSystem.threadWakeupHead_follows mem addr cvQueue) fun _ => .refl _
  | exit => exact ThreadSystem.threadExit_follows mem
  | exorcise => exact .refl _
  | dispatch => exact .refl _
  | other t vmspace cwd => exact .refl _

theorem Act.Takes.run_true {act : Act} (htakes : act.Takes c d) :
    act.run true c.sys = .ok () d.sys := by
  obtain ⟨mem, hrun⟩ := htakes.runs
  exact act.run_follows mem _ _ _ hrun

theorem Act.Takes.step {act : Act} (htakes : act.Takes c d) : Config.Step c d := by
  have hrun := htakes.run_true
  have hallowed := htakes.allowed
  have hlive := htakes.lives
  obtain ⟨sys, live⟩ := d
  simp only at hrun hlive
  subst hlive
  cases act with
  | fork newguy =>
      obtain ⟨hcur, hnew, hzombie⟩ := hallowed
      obtain ⟨cur, hcur⟩ := Option.isSome_iff_exists.mp hcur
      exact .fork hcur hnew hzombie hrun
  | yield => exact .yield hrun
  | sleep addr =>
      obtain ⟨cur, hcur⟩ := Option.isSome_iff_exists.mp hallowed
      exact .sleep hcur hrun
  | wakeup addr => exact .wakeup hrun
  | wakeupHead addr cvQueue =>
      simp only [Act.run, bind, Prog.andThen] at hrun
      cases hwoken : ThreadSystem.threadWakeupHead true addr cvQueue c.sys with
      | ok rest next =>
          rw [hwoken] at hrun
          cases hrun
          exact .wakeupHead addr cvQueue hwoken
      | error code next =>
          rw [hwoken] at hrun
          cases hrun
      | panic reason =>
          rw [hwoken] at hrun
          cases hrun
  | exit =>
      obtain ⟨cur, hcur⟩ := Option.isSome_iff_exists.mp hallowed
      simp only [Act.live, hcur]
      exact .exit hcur hrun
  | exorcise =>
      obtain ⟨cur, hcur⟩ := Option.isSome_iff_exists.mp hallowed
      exact .exorcise hcur hrun
  | dispatch => exact .dispatch hallowed hrun
  | other t vmspace cwd => exact .other t hallowed vmspace cwd hrun

/-- The call as a function: it is total up to the calls that are not allowed,
panic or fail. -/
def Config.take (act : Act) (c : Config) : Option Config :=
  if act.Allowed c then
    match act.run true c.sys with
    | .ok _ next => some ⟨next, act.live c⟩
    | _ => none
  else none

theorem Config.take_eq_some {act : Act} : c.take act = some d ↔ act.Takes c d := by
  constructor
  · intro htake
    simp only [take] at htake
    split at htake
    case isFalse => cases htake
    case isTrue hallowed =>
      split at htake
      case h_1 next hrun =>
        cases htake
        exact ⟨hallowed, ⟨true, hrun⟩, rfl⟩
      case h_2 => cases htake
  · intro htakes
    rw [take, if_pos htakes.allowed, htakes.run_true]
    simp only [Option.some.injEq]
    rw [← htakes.lives]

end OS161.Threads
