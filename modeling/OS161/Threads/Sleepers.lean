import OS161.Threads.Calls

namespace OS161.Threads

open OS161.Data
open OS161.Kern
open OS161.Lib

/-! Who sleeps on an address, and how each call of `thread.c` changes that. -/

namespace ThreadSystem

/-- The threads in `sleepers` with this `t_sleepaddr`, in the order of the
array. -/
def sleepersOn (s : ThreadSystem) (addr : SleepAddr) : List Tid :=
  s.sleepers.contents.filter (wakes s addr)

theorem Lists.sleepersOn_eq (hlists : Lists s ready asleep dead) (addr : SleepAddr) :
    s.sleepersOn addr = asleep.filter (wakes s addr) := by
  rw [sleepersOn, hlists.sleepers.contents_eq]

/-- The `t_sleepaddr` of each thread. -/
def sleepaddrs (s : ThreadSystem) (t : Tid) : Option SleepAddr :=
  (s.thread t).tSleepaddr

theorem wakes_congr {s next : ThreadSystem} (hsame : next.sleepaddrs t = s.sleepaddrs t)
    (addr : SleepAddr) : wakes next addr t = wakes s addr t := by
  simp only [sleepaddrs] at hsame
  simp [wakes, hsame]

/-- The same sleepers with the same addresses. -/
theorem Lists.sleepersOn_congr {s next : ThreadSystem} (hlists : Lists s ready asleep dead)
    (hnext : Lists next ready' asleep dead')
    (hsame : ∀ t ∈ asleep, next.sleepaddrs t = s.sleepaddrs t) (addr : SleepAddr) :
    next.sleepersOn addr = s.sleepersOn addr := by
  rw [hlists.sleepersOn_eq, hnext.sleepersOn_eq]
  apply List.filter_congr
  intro t ht
  exact wakes_congr (hsame t ht) addr

/-! The calls that move a thread write its `t_sleepaddr` only where the source
says so. -/

section Preserves

variable (inv : (Tid → Option SleepAddr) → Prop)

theorem setThread_keeps (t : Tid) (f : Thread → Thread)
    (hf : ∀ thread, (f thread).tSleepaddr = thread.tSleepaddr) :
    (setThread t f).Preserves fun s => inv s.sleepaddrs := by
  intro s value next hinv hrun
  cases hrun
  have hsame : sleepaddrs { s with thread := Function.update s.thread t (f (s.thread t)) } =
      s.sleepaddrs := by
    funext u
    by_cases hu : u = t
    · subst hu
      simp [sleepaddrs, hf]
    · simp [sleepaddrs, hu]
  rw [hsame]
  exact hinv

theorem miSwitch_keeps (mem : Bool) (nextstate : ThreadState) (resume : Resume) :
    (miSwitch mem nextstate resume).Preserves fun s => inv s.sleepaddrs := by
  refine .bind (.read _) fun cur => ?_
  cases cur with
  | none => exact .ret ()
  | some cur =>
      refine .bind (setThread_keeps inv _ _ fun _ => rfl) fun _ => .bind ?_ fun _ =>
        mustInsert_preserves ?_ _
      · exact .of_wp fun _ hinv => hinv
      · cases nextstate with
        | ready => exact .zoom _ fun _ _ hinv => hinv
        | sleep => exact .zoom _ fun _ _ hinv => hinv
        | zomb => exact .zoom _ fun _ _ hinv => hinv

theorem threadExit_keeps (mem : Bool) :
    (threadExit mem).Preserves fun s => inv s.sleepaddrs := by
  refine .bind (.read _) fun cur => ?_
  cases cur with
  | none => exact .panic _
  | some cur =>
      refine .bind (setThread_keeps inv _ _ fun _ => rfl) fun _ => .bind (.read _) fun n => ?_
      refine .bind (.ite _ (.ret ()) (.panic _)) fun _ => .bind ?_ fun _ =>
        miSwitch_keeps inv mem _ _
      exact .of_wp fun _ hinv => hinv

end Preserves

theorem filter_eraseP_disjoint {p q : Tid → Bool} (hdisjoint : ∀ t, p t → q t = false)
    (ts : List Tid) : (ts.eraseP p).filter q = ts.filter q := by
  induction ts with
  | nil => rfl
  | cons t rest ih =>
      cases hp : p t with
      | true => simp [hp, hdisjoint t hp]
      | false => simp [hp, List.filter_cons, ih]

theorem filter_eraseP_head (q : Tid → Bool) (head : Tid) (ts : List Tid) :
    (ts.eraseP fun t => q t && head == t).filter q = (ts.filter q).erase head := by
  induction ts with
  | nil => rfl
  | cons t rest ih =>
      cases hq : q t with
      | false => simp [hq, ih]
      | true =>
          by_cases ht : head = t
          · subst ht
            simp [hq]
          · have ht' : ¬ t = head := fun heq => ht heq.symm
            simp [hq, ht, ht', ih]

end ThreadSystem

namespace Act

open ThreadSystem

/-- Who sleeps on the address after the call. -/
def asleep (s : ThreadSystem) (addr : SleepAddr) : Act → List Tid
  | .sleep at' =>
      if addr = at' then s.sleepersOn addr ++ s.curthread.toList else s.sleepersOn addr
  | .wakeup at' => if addr = at' then [] else s.sleepersOn addr
  | .wakeupHead at' cvQueue =>
      match Queue.qRemhead cvQueue with
      | .ok head _ =>
          if addr = at' then (s.sleepersOn addr).erase head else s.sleepersOn addr
      | _ => s.sleepersOn addr
  | _ => s.sleepersOn addr

end Act

namespace Config

open ThreadSystem

/-- The running thread is not asleep. -/
theorem Conserved.curthread_not_asleep (h : Conserved c ready asleep dead)
    (hcur : c.sys.curthread = some cur) : cur ∉ asleep := by
  intro hmem
  have hplaced := h.placed cur
  rw [hcur] at hplaced
  have hcount := List.count_pos_iff.mpr hmem
  simp only [List.count_append, Option.toList_some, List.count_singleton_self] at hplaced
  split at hplaced <;> omega

theorem Conserved.asleep_live (h : Conserved c ready asleep dead) (hmem : t ∈ asleep) :
    t ∈ c.live := by
  rw [h.mem_live_iff]
  simp [hmem]

theorem Conserved.ready_not_asleep (h : Conserved c (head :: ready) asleep dead) :
    head ∉ asleep := by
  intro hmem
  have hplaced := h.placed head
  have hcount := List.count_pos_iff.mpr hmem
  simp only [List.count_append, List.count_cons_self] at hplaced
  split at hplaced <;> omega

/-! One lemma for each call, for a system in which every thread has its
place. -/

section Calls

variable {c : Config} {ready asleep dead : List Tid} {s next : ThreadSystem}

theorem Conserved.fork_sleepers (h : Conserved c ready asleep dead) (hnew : newguy ∉ c.live)
    (hrun : threadFork true newguy c.sys = .ok () next) (addr : SleepAddr) :
    next.sleepersOn addr = c.sys.sleepersOn addr := by
  obtain ⟨hlists, -, -, hthread⟩ := (h.lists.threadFork newguy).post_of_ok hrun
  apply h.lists.sleepersOn_congr hlists
  intro t ht
  have hne : t ≠ newguy := fun heq => hnew (heq ▸ h.asleep_live ht)
  rw [sleepaddrs, hthread t hne, sleepaddrs]

theorem Conserved.yield_sleepers (h : Conserved c ready asleep dead)
    (hrun : threadYield true c.sys = .ok () next) (addr : SleepAddr) :
    next.sleepersOn addr = c.sys.sleepersOn addr := by
  have hsame : next.sleepaddrs = c.sys.sleepaddrs :=
    miSwitch_keeps (fun addrs => addrs = c.sys.sleepaddrs) true _ _ _ _ _ rfl hrun
  cases hcur : c.sys.curthread with
  | none =>
      simp only [threadYield, miSwitch, bind, Prog.andThen, Prog.read, hcur] at hrun
      cases hrun
      rfl
  | some cur =>
      obtain ⟨hlists, -⟩ := (h.lists.miSwitch hcur _ _).post_of_ok hrun
      apply h.lists.sleepersOn_congr hlists
      intro t _
      rw [hsame]

theorem Conserved.exit_sleepers (h : Conserved c ready asleep dead)
    (hcur : c.sys.curthread = some cur) (hrun : threadExit true c.sys = .ok () next)
    (addr : SleepAddr) : next.sleepersOn addr = c.sys.sleepersOn addr := by
  have hsame : next.sleepaddrs = c.sys.sleepaddrs :=
    threadExit_keeps (fun addrs => addrs = c.sys.sleepaddrs) true _ _ _ rfl hrun
  have hpos : 0 < c.sys.numthreads := by
    rw [h.counted]
    exact Finset.card_pos.mpr ⟨_, h.curthread_live hcur⟩
  obtain ⟨hlists, -⟩ := (h.lists.threadExit hcur hpos).post_of_ok hrun
  apply h.lists.sleepersOn_congr hlists
  intro t _
  rw [hsame]

/-- The running thread joins those who sleep on the address, as the last. -/
theorem Conserved.sleep_sleepers (h : Conserved c ready asleep dead)
    (hcur : c.sys.curthread = some cur) (hrun : threadSleep true at' c.sys = .ok () next)
    (addr : SleepAddr) :
    next.sleepersOn addr =
      if addr = at' then c.sys.sleepersOn addr ++ [cur] else c.sys.sleepersOn addr := by
  have hsame : next.sleepaddrs = Function.update c.sys.sleepaddrs cur (some at') := by
    have hmid := hrun
    simp only [threadSleep, Prog.bind_eq_ok_iff, Prog.read, Result.ok.injEq] at hmid
    obtain ⟨_, _, ⟨rfl, rfl⟩, hrest⟩ := hmid
    rw [hcur] at hrest
    simp only [Prog.bind_eq_ok_iff, setThread, Prog.modify, Result.ok.injEq] at hrest
    obtain ⟨_, mid, ⟨-, rfl⟩, hswitch⟩ := hrest
    refine miSwitch_keeps (fun addrs => addrs = Function.update c.sys.sleepaddrs cur (some at'))
      true _ _ _ _ _ ?_ hswitch
    funext t
    by_cases ht : t = cur
    · subst ht
      simp [sleepaddrs]
    · simp [sleepaddrs, ht]
  obtain ⟨hlists, -⟩ := (h.lists.threadSleep hcur at').post_of_ok hrun
  have hothers : asleep.filter (wakes next addr) = asleep.filter (wakes c.sys addr) := by
    apply List.filter_congr
    intro t ht
    have hne : t ≠ cur := fun heq => h.curthread_not_asleep hcur (heq ▸ ht)
    exact wakes_congr (by rw [hsame, Function.update_of_ne hne]) addr
  have hself : wakes next addr cur = decide (addr = at') := by
    have haddr : (next.thread cur).tSleepaddr = some at' := by
      have := congrFun hsame cur
      simpa [sleepaddrs] using this
    rw [wakes, haddr]
    by_cases heq : addr = at'
    · simp [heq]
    · simp [heq, Ne.symm heq]
  rw [hlists.sleepersOn_eq, List.filter_append, hothers, h.lists.sleepersOn_eq,
    List.filter_singleton, hself]
  by_cases heq : addr = at' <;> simp [heq]

theorem Conserved.wakeup_sleepers (h : Conserved c ready asleep dead)
    (hrun : threadWakeup true at' c.sys = .ok () next) (addr : SleepAddr) :
    next.sleepersOn addr = if addr = at' then [] else c.sys.sleepersOn addr := by
  obtain ⟨hlists, -, -, hthread⟩ := (h.lists.threadWakeup at').post_of_ok hrun
  have hwakes : wakes next addr = wakes c.sys addr := by
    funext t
    simp [wakes, hthread]
  rw [hlists.sleepersOn_eq, h.lists.sleepersOn_eq, hwakes, List.filter_filter]
  by_cases heq : addr = at'
  · subst heq
    simp
  · rw [if_neg heq]
    apply List.filter_congr
    intro t _
    cases haddr : wakes c.sys addr t with
    | false => simp
    | true =>
        have hne : wakes c.sys at' t = false := by
          simp only [wakes, beq_iff_eq] at haddr
          simp [wakes, haddr, heq]
        simp [hne]

theorem Conserved.wakeupHead_sleepers (h : Conserved c ready asleep dead)
    (hcv : Queue.qRemhead cvQueue = .ok head waiting)
    (hrun : threadWakeupHead true at' cvQueue c.sys = .ok rest next) (addr : SleepAddr) :
    next.sleepersOn addr =
      if addr = at' then (c.sys.sleepersOn addr).erase head else c.sys.sleepersOn addr := by
  obtain ⟨-, hlists, -, -, hthread⟩ := (h.lists.threadWakeupHead at' hcv).post_of_ok hrun
  have hwakes : wakes next addr = wakes c.sys addr := by
    funext t
    simp [wakes, hthread]
  rw [hlists.sleepersOn_eq, h.lists.sleepersOn_eq, hwakes]
  by_cases heq : addr = at'
  · subst heq
    rw [if_pos rfl]
    exact filter_eraseP_head _ head asleep
  · rw [if_neg heq]
    apply filter_eraseP_disjoint
    intro t ht
    simp only [wakesHead, wakes, Bool.and_eq_true, beq_iff_eq] at ht
    simp [wakes, ht.1, Ne.symm heq]

theorem Conserved.dispatch_sleepers (h : Conserved c ready asleep dead)
    (hrun : ThreadSystem.dispatch c.sys = .ok () next) (addr : SleepAddr) :
    next.sleepersOn addr = c.sys.sleepersOn addr := by
  cases ready with
  | nil =>
      simp [ThreadSystem.dispatch, onRunqueue, bind, Prog.andThen,
        Prog.zoom, h.lists.runqueue.qRemhead_nil] at hrun
  | cons head ready =>
      have hhead : head ∉ dead := by
        intro hmem
        apply h.dead_not_live head hmem
        rw [h.mem_live_iff]
        simp
      obtain ⟨dead', -, hlists, -, -, -, hothers⟩ :=
        (h.lists.dispatch hhead h.dead_clean).post_of_ok hrun
      apply h.lists.sleepersOn_congr hlists
      intro t ht
      have hne : t ≠ head := fun heq => h.ready_not_asleep (heq ▸ ht)
      rw [sleepaddrs, hothers t hne, sleepaddrs]

end Calls

end Config

namespace Act

open ThreadSystem

theorem Takes.sleepersOn {act : Act} (htakes : act.Takes c d) (hinv : Config.Inv c)
    (addr : SleepAddr) : d.sys.sleepersOn addr = act.asleep c.sys addr := by
  obtain ⟨ready, asleep, dead, h⟩ := hinv
  have hrun := htakes.run_true
  have hallowed := htakes.allowed
  cases act with
  | fork newguy => exact h.fork_sleepers hallowed.2.1 hrun addr
  | yield => exact h.yield_sleepers hrun addr
  | sleep at' =>
      obtain ⟨cur, hcur⟩ := Option.isSome_iff_exists.mp hallowed
      simp only [Act.asleep, hcur]
      exact h.sleep_sleepers hcur hrun addr
  | wakeup at' => exact h.wakeup_sleepers hrun addr
  | wakeupHead at' cvQueue =>
      simp only [Act.run, Prog.bind_eq_ok_iff] at hrun
      obtain ⟨rest, next, hwoken, hret⟩ := hrun
      injection hret with _ hnext
      subst hnext
      cases hcv : Queue.qRemhead cvQueue with
      | ok head waiting =>
          simp only [Act.asleep, hcv]
          exact h.wakeupHead_sleepers hcv hwoken addr
      | error code rest => simp [threadWakeupHead, hcv, Prog.fail] at hwoken
      | panic reason => simp [threadWakeupHead, hcv, Prog.panic] at hwoken
  | exit =>
      obtain ⟨cur, hcur⟩ := Option.isSome_iff_exists.mp hallowed
      exact h.exit_sleepers hcur hrun addr
  | exorcise =>
      obtain ⟨hlists, heq⟩ := (h.lists.exorcise h.curthread_not_dead
        h.dead_clean).post_of_ok hrun
      apply h.lists.sleepersOn_congr hlists
      intro t _
      rw [heq]
      rfl
  | dispatch => exact h.dispatch_sleepers hrun addr
  | other t vmspace cwd =>
      injection hrun with _ hnext
      have hsame : d.sys.sleepaddrs = c.sys.sleepaddrs := by
        rw [← hnext]
        funext u
        by_cases hu : u = t
        · subst hu
          simp [sleepaddrs]
        · simp [sleepaddrs, hu]
      have hlists : Lists d.sys ready asleep dead := by
        rw [← hnext]
        exact h.lists.withThread _
      apply h.lists.sleepersOn_congr hlists
      intro u _
      rw [hsame]

/-- Only `thread_sleep` puts a thread to sleep, and only the one that runs. -/
theorem Takes.asleep_before {act : Act} (htakes : act.Takes c d) (hinv : Config.Inv c)
    (hasleep : t ∈ d.sys.sleepersOn addr) :
    t ∈ c.sys.sleepersOn addr ∨ act = .sleep addr ∧ c.sys.curthread = some t := by
  rw [htakes.sleepersOn hinv addr] at hasleep
  cases act with
  | sleep at' =>
      simp only [Act.asleep] at hasleep
      split at hasleep
      case isTrue heq =>
        rw [List.mem_append, Option.mem_toList] at hasleep
        cases hasleep with
        | inl hbefore => exact .inl hbefore
        | inr hcur => exact .inr ⟨by rw [heq], hcur⟩
      case isFalse => exact .inl hasleep
  | wakeup at' =>
      simp only [Act.asleep] at hasleep
      split at hasleep
      case isTrue => cases hasleep
      case isFalse => exact .inl hasleep
  | wakeupHead at' cvQueue =>
      simp only [Act.asleep] at hasleep
      split at hasleep
      case h_1 head rest _ =>
        split at hasleep
        case isTrue => exact .inl (List.mem_of_mem_erase hasleep)
        case isFalse => exact .inl hasleep
      case h_2 => exact .inl hasleep
  | _ => exact .inl hasleep

/-- Where the processor goes: a thread that sleeps, yields or exits leaves it, a
dispatched one gets it, and every other call leaves it where it is. -/
theorem Takes.curthread {act : Act} (htakes : act.Takes c d) (hinv : Config.Inv c) :
    match act with
    | .yield | .sleep _ | .exit => d.sys.curthread = none
    | .dispatch => ∃ next, d.sys.curthread = some next ∧ next ∈ c.live
    | _ => d.sys.curthread = c.sys.curthread := by
  obtain ⟨ready, asleep, dead, h⟩ := hinv
  have hrun := htakes.run_true
  have hallowed := htakes.allowed
  cases act with
  | fork newguy =>
      obtain ⟨-, hcur, -⟩ := (h.lists.threadFork newguy).post_of_ok hrun
      exact hcur
  | yield =>
      cases hcur : c.sys.curthread with
      | none =>
          simp only [Act.run, threadYield, miSwitch, bind, Prog.andThen, Prog.read, hcur]
            at hrun
          injection hrun with _ hnext
          rw [← hnext]
          exact hcur
      | some cur =>
          obtain ⟨-, hnone, -⟩ :=
            (h.lists.miSwitch hcur .ready .threadYield).post_of_ok hrun
          exact hnone
  | sleep at' =>
      obtain ⟨cur, hcur⟩ := Option.isSome_iff_exists.mp hallowed
      obtain ⟨-, hnone, -⟩ := (h.lists.threadSleep hcur at').post_of_ok hrun
      exact hnone
  | wakeup at' =>
      obtain ⟨-, hcur, -⟩ := (h.lists.threadWakeup at').post_of_ok hrun
      exact hcur
  | wakeupHead at' cvQueue =>
      simp only [Act.run, Prog.bind_eq_ok_iff] at hrun
      obtain ⟨rest, next, hwoken, hret⟩ := hrun
      injection hret with _ hnext
      subst hnext
      cases hcv : Queue.qRemhead cvQueue with
      | ok head waiting =>
          obtain ⟨-, -, hcur, -⟩ := (h.lists.threadWakeupHead at' hcv).post_of_ok hwoken
          exact hcur
      | error code rest => simp [threadWakeupHead, hcv, Prog.fail] at hwoken
      | panic reason => simp [threadWakeupHead, hcv, Prog.panic] at hwoken
  | exit =>
      obtain ⟨cur, hcur⟩ := Option.isSome_iff_exists.mp hallowed
      have hpos : 0 < c.sys.numthreads := by
        rw [h.counted]
        exact Finset.card_pos.mpr ⟨_, h.curthread_live hcur⟩
      obtain ⟨-, hnone, -⟩ := (h.lists.threadExit hcur hpos).post_of_ok hrun
      exact hnone
  | exorcise =>
      obtain ⟨-, heq⟩ := (h.lists.exorcise h.curthread_not_dead
        h.dead_clean).post_of_ok hrun
      rw [heq]
  | dispatch =>
      cases ready with
      | nil =>
          simp [Act.run, ThreadSystem.dispatch, onRunqueue, bind, Prog.andThen,
            Prog.zoom, h.lists.runqueue.qRemhead_nil] at hrun
      | cons head ready =>
          have hlive : head ∈ c.live := by
            rw [h.mem_live_iff]
            simp
          have hhead : head ∉ dead := fun hmem => h.dead_not_live head hmem hlive
          obtain ⟨dead', -, -, hcur, -⟩ :=
            (h.lists.dispatch hhead h.dead_clean).post_of_ok hrun
          exact ⟨head, hcur, hlive⟩
  | other t vmspace cwd =>
      injection hrun with _ hnext
      rw [← hnext]

end Act

end OS161.Threads
