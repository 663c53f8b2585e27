import OS161.Data.Fifo
import OS161.Threads.Sleepers

namespace OS161.Threads

open OS161.Data
open OS161.Kern
open OS161.Lib

/-! The order in which `scheduler` hands the processor out. -/

namespace Act

open ThreadSystem

/-- The threads that the call gives to `make_runnable`, in order. -/
def added (s : ThreadSystem) : Act → List Tid
  | .fork newguy => [newguy]
  | .yield => s.curthread.toList
  | .wakeup addr => s.sleepersOn addr
  | .wakeupHead addr cvQueue =>
      match Queue.qRemhead cvQueue with
      | .ok head _ => (s.sleepers.contents.find? (wakesHead s addr head)).toList
      | _ => []
  | _ => []

/-- The thread that `scheduler` returns in the call; `d` is the system after it. -/
def picked (d : ThreadSystem) : Act → List Tid
  | .dispatch => d.curthread.toList
  | _ => []

/-- The thread that the call takes the processor from. -/
def left (s : ThreadSystem) : Act → List Tid
  | .yield => s.curthread.toList
  | .sleep _ => s.curthread.toList
  | .exit => s.curthread.toList
  | _ => []

end Act

namespace Config

open ThreadSystem

/-- The run queue, from its head on. -/
def waiting (c : Config) : List Tid :=
  c.sys.runqueue.contents

theorem Conserved.waiting_eq (h : Conserved c ready asleep dead) : c.waiting = ready :=
  h.lists.runqueue.contents_eq

theorem Conserved.head_not_dead (h : Conserved c (head :: ready) asleep dead) : head ∉ dead := by
  intro hmem
  apply h.dead_not_live head hmem
  rw [h.mem_live_iff]
  simp

theorem Conserved.joins {c d : Config} (h : Conserved c ready asleep dead)
    (hlists : Lists d.sys (ready ++ more) asleep' dead') :
    Serves c.waiting more [] d.waiting := by
  rw [h.waiting_eq, waiting, hlists.runqueue.contents_eq]
  exact .join ready more

theorem Conserved.stays {c d : Config} (h : Conserved c ready asleep dead)
    (hlists : Lists d.sys ready asleep' dead') : Serves c.waiting [] [] d.waiting := by
  rw [h.waiting_eq, waiting, hlists.runqueue.contents_eq]
  exact .refl ready

/-- The run queue names every thread once, and not the one that runs. -/
theorem Conserved.nodup (h : Conserved c ready asleep dead) :
    (c.sys.curthread.toList ++ ready).Nodup := by
  rw [List.nodup_iff_count_le_one]
  intro t
  have hplaced := h.placed t
  rw [← List.append_assoc, List.count_append] at hplaced
  split at hplaced <;> omega

theorem Conserved.length_le (h : Conserved c ready asleep dead) :
    (c.sys.curthread.toList ++ ready).length ≤ c.live.card := by
  rw [← List.toFinset_card_of_nodup h.nodup]
  apply Finset.card_le_card
  intro t ht
  rw [List.mem_toFinset, List.mem_append] at ht
  rw [h.mem_live_iff, List.mem_append, List.mem_append]
  rcases ht with hcur | hready
  · exact .inl hcur
  · exact .inr (.inl hready)

end Config

namespace Act

open ThreadSystem

/-- Every call joins the run queue at its tail and leaves it at its head. -/
theorem Takes.serves {act : Act} (htakes : act.Takes c d) (hinv : Config.Inv c) :
    Serves c.waiting (act.added c.sys) (act.picked d.sys) d.waiting := by
  obtain ⟨ready, asleep, dead, h⟩ := hinv
  have hrun := htakes.run_true
  have hallowed := htakes.allowed
  cases act with
  | fork newguy =>
      obtain ⟨hlists, -⟩ := (h.lists.threadFork newguy).post_of_ok hrun
      exact h.joins hlists
  | yield =>
      cases hcur : c.sys.curthread with
      | none =>
          simp only [Act.run, threadYield, miSwitch, bind, Prog.andThen, Prog.read, hcur] at hrun
          injection hrun with _ hnext
          have hlists : Lists d.sys ready asleep dead := by
            rw [← hnext]
            exact h.lists
          simp only [added, hcur]
          exact h.stays hlists
      | some cur =>
          obtain ⟨hlists, -⟩ := (h.lists.miSwitch hcur .ready .threadYield).post_of_ok hrun
          simp only [added, hcur]
          exact h.joins hlists
  | sleep addr =>
      obtain ⟨cur, hcur⟩ := Option.isSome_iff_exists.mp hallowed
      obtain ⟨hlists, -⟩ := (h.lists.threadSleep hcur addr).post_of_ok hrun
      exact h.stays hlists
  | wakeup addr =>
      obtain ⟨hlists, -⟩ := (h.lists.threadWakeup addr).post_of_ok hrun
      simp only [added, h.lists.sleepersOn_eq]
      exact h.joins hlists
  | wakeupHead addr cvQueue =>
      simp only [Act.run, Prog.bind_eq_ok_iff] at hrun
      obtain ⟨rest, next, hwoken, hret⟩ := hrun
      injection hret with _ hnext
      subst hnext
      cases hcv : Queue.qRemhead cvQueue with
      | ok head waiting =>
          obtain ⟨-, hlists, -⟩ := (h.lists.threadWakeupHead addr hcv).post_of_ok hwoken
          simp only [added, hcv, h.lists.sleepers.contents_eq]
          exact h.joins hlists
      | error code rest => simp [threadWakeupHead, hcv, Prog.fail] at hwoken
      | panic reason => simp [threadWakeupHead, hcv, Prog.panic] at hwoken
  | exit =>
      obtain ⟨cur, hcur⟩ := Option.isSome_iff_exists.mp hallowed
      have hpos : 0 < c.sys.numthreads := by
        rw [h.counted]
        exact Finset.card_pos.mpr ⟨_, h.curthread_live hcur⟩
      obtain ⟨hlists, -⟩ := (h.lists.threadExit hcur hpos).post_of_ok hrun
      exact h.stays hlists
  | exorcise =>
      obtain ⟨hlists, -⟩ := (h.lists.exorcise h.curthread_not_dead h.dead_clean).post_of_ok hrun
      exact h.stays hlists
  | dispatch =>
      cases ready with
      | nil =>
          simp [Act.run, ThreadSystem.dispatch, onRunqueue, bind, Prog.andThen,
            Prog.zoom, h.lists.runqueue.qRemhead_nil] at hrun
      | cons head ready =>
          obtain ⟨dead', -, hlists, hcur, -⟩ :=
            (h.lists.dispatch h.head_not_dead h.dead_clean).post_of_ok hrun
          rw [h.waiting_eq, Config.waiting, hlists.runqueue.contents_eq]
          simp only [picked, hcur]
          exact .serve head ready
  | other t vmspace cwd =>
      injection hrun with _ hnext
      have hlists : Lists d.sys ready asleep dead := by
        rw [← hnext]
        exact h.lists.withThread _
      exact h.stays hlists

/-- The processor goes from one thread to the next through `scheduler` only. -/
theorem Takes.turns {act : Act} (htakes : act.Takes c d) (hinv : Config.Inv c) :
    d.sys.curthread.toList.length + (act.left c.sys).length =
      c.sys.curthread.toList.length + (act.picked d.sys).length := by
  have hcur := htakes.curthread hinv
  cases act with
  | yield => simp only [left, picked, hcur, Option.toList_none, List.length_nil] ; omega
  | sleep addr => simp only [left, picked, hcur, Option.toList_none, List.length_nil] ; omega
  | exit => simp only [left, picked, hcur, Option.toList_none, List.length_nil] ; omega
  | dispatch =>
      have hidle : c.sys.curthread = none := htakes.allowed
      simp only [left, picked, hidle, Option.toList_none, List.length_nil] ; omega
  | _ => simp only [left, picked, hcur, List.length_nil]

end Act

namespace Config

/-- A run of the calls: the threads that became runnable, those that `scheduler` returned, and
those that the processor was taken from, each in order. -/
inductive Schedules : Config → (added picked left : List Tid) → Config → Prop
  | refl (c : Config) : Schedules c [] [] [] c
  | call (hrun : Schedules c added picked left d) (act : Act) (htakes : act.Takes d e) :
      Schedules c (added ++ act.added d.sys) (picked ++ act.picked e.sys)
        (left ++ act.left d.sys) e

theorem Schedules.inv (hrun : Schedules c added picked left d) (hinv : Inv c) : Inv d := by
  induction hrun with
  | refl => exact hinv
  | call _ act htakes ih => exact ih.step htakes.step

theorem Schedules.serves (hrun : Schedules c added picked left d) (hinv : Inv c) :
    Serves c.waiting added picked d.waiting := by
  induction hrun with
  | refl => exact .refl _
  | call hrun act htakes ih => exact ih.trans (htakes.serves (hrun.inv hinv))

theorem Schedules.turns (hrun : Schedules c added picked left d) (hinv : Inv c) :
    left.length ≤ picked.length + 1 := by
  have hcount : d.sys.curthread.toList.length + left.length =
      c.sys.curthread.toList.length + picked.length := by
    induction hrun with
    | refl => rfl
    | call hrun act htakes ih =>
        have hstep := htakes.turns (hrun.inv hinv)
        simp only [List.length_append]
        omega
  have hone : c.sys.curthread.toList.length ≤ 1 := Option.length_toList_le
  omega

/-- With somebody in the run queue an idle processor finds its next thread. -/
theorem Inv.dispatch (hinv : Inv c) (hidle : c.sys.curthread = none) (hmem : t ∈ c.waiting) :
    ∃ d, Act.dispatch.Takes c d := by
  obtain ⟨ready, asleep, dead, h⟩ := hinv
  rw [h.waiting_eq] at hmem
  cases ready with
  | nil => cases hmem
  | cons head ready =>
      obtain ⟨_, next, hrun, -⟩ := (h.lists.dispatch h.head_not_dead h.dead_clean).exists_ok
      exact ⟨⟨next, c.live⟩, hidle, ⟨true, hrun⟩, rfl⟩

/-- Round robin: one that waits with `front` before it is the next that `scheduler` returns after
exactly these, each once and in order, whoever else becomes runnable; the others are fewer than
there are threads; and until then `scheduler` always finds a thread, so that it takes no more than
`front.length + 2` times that a thread leaves the processor. -/
theorem round_robin {me : Tid} (hstart : Relation.ReflTransGen Step (boot me) c)
    (hwaits : c.waiting = front ++ t :: back) (hrun : Schedules c added picked left d) :
    (c.sys.curthread.toList ++ c.waiting).Nodup ∧
      (c.sys.curthread.toList ++ front).length < c.sys.numthreads ∧
      (front.length + 2 ≤ left.length → front ++ [t] <+: picked) ∧
      (front ++ [t] <+: picked ∨
        (∃ rest, front = picked ++ rest ∧ d.waiting = rest ++ t :: (back ++ added)) ∧
          (d.sys.curthread = none → ∃ e, Act.dispatch.Takes d e)) := by
  have hinv : Inv c :=
    invariant_of_steps Inv hstart ⟨_, _, _, boot_conserved me⟩ fun _ _ => Inv.step
  have hserves := hrun.serves hinv
  rw [hwaits] at hserves
  obtain ⟨ready, asleep, dead, h⟩ := id hinv
  have hready : ready = front ++ t :: back := h.waiting_eq.symm.trans hwaits
  refine ⟨?_, ?_, ?_, ?_⟩
  · rw [h.waiting_eq]
    exact h.nodup
  · have hlength := h.length_le
    rw [hready] at hlength
    rw [h.counted]
    simp only [List.length_append, List.length_cons] at hlength ⊢
    omega
  · intro hleft
    by_contra hnot
    have hpicked := hserves.length_le hnot
    have hturns := hrun.turns hinv
    omega
  · rcases hserves.waits_or_served with ⟨rest, hfront, hd⟩ | hserved
    · refine .inr ⟨⟨rest, hfront, hd⟩, fun hidle => (hrun.inv hinv).dispatch hidle (t := t) ?_⟩
      rw [hd]
      simp
    · exact .inl hserved

/-- The call as it comes back, and the state as it was where it does not. -/
def after (c : Config) (act : Act) : Config where
  sys := (act.run true c.sys).stateD c.sys
  live := act.live c

theorem takes_after {act : Act} (hallowed : act.Allowed c)
    (hreturned : (act.run true c.sys).returned = some ()) : act.Takes c (c.after act) where
  allowed := hallowed
  runs := ⟨true, Result.eq_ok_of_returned c.sys hreturned⟩
  lives := rfl

/-- Threads 1 and 2 wait while the first one runs; all three yield. -/
theorem round_robin_two : ∃ c d added picked left,
    Relation.ReflTransGen Step (boot 0) c ∧ c.waiting = [1] ++ 2 :: [] ∧
      Schedules c added picked left d ∧ left = [0, 1, 2] ∧ [1] ++ [2] <+: picked := by
  let c₁ := (boot 0).after (.fork 1)
  let c := c₁.after (.fork 2)
  have hfork₁ : (Act.fork 1).Takes (boot 0) c₁ := takes_after (by decide) (by decide)
  have hfork : (Act.fork 2).Takes c₁ c := takes_after (by decide) (by decide)
  have hstart := (Relation.ReflTransGen.single hfork₁.step).tail hfork.step
  let d₁ := c.after .yield
  let d₂ := d₁.after .dispatch
  let d₃ := d₂.after .yield
  let d₄ := d₃.after .dispatch
  have hrun := ((((Schedules.refl c).call .yield (takes_after (by decide) (by decide))).call
    .dispatch (e := d₂) (takes_after (by decide) (by decide))).call
    .yield (e := d₃) (takes_after (by decide) (by decide))).call
    .dispatch (e := d₄) (takes_after (by decide) (by decide))
  have hlast := hrun.call .yield (takes_after (by decide) (by decide))
  have hwaits : c.waiting = [1] ++ 2 :: [] := by decide
  obtain ⟨-, -, hleft, -⟩ := round_robin hstart hwaits hlast
  exact ⟨c, _, _, _, _, hstart, hwaits, hlast, by decide, hleft (by decide)⟩

end Config

end OS161.Threads
