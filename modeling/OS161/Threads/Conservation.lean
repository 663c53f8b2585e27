import OS161.Threads.System

namespace OS161.Threads

open OS161.Data
open OS161.Kern
open OS161.Lib

namespace ThreadSystem

/-! What each call does to the three containers, read as lists. -/

structure Lists (s : ThreadSystem) (ready asleep dead : List Tid) : Prop where
  runqueue : s.runqueue.Rep ready
  sleepers : s.sleepers.Rep asleep
  zombies : s.zombies.Rep dead

theorem Lists.makeRunnable (hlists : Lists s ready asleep dead) (t : Tid) :
    (makeRunnable true t).Returns (fun _ next =>
      Lists next (ready ++ [t]) asleep dead ∧
        next = { s with runqueue := next.runqueue }) s := by
  simp only [ThreadSystem.makeRunnable, onRunqueue, ↓Prog.wp_zoom]
  refine Prog.Returns.mono (hlists.runqueue.qAddtail t) ?_
  intro _ q hq
  exact ⟨⟨hq, hlists.sleepers, hlists.zombies⟩, trivial⟩

theorem mustInsert_returns {body : Op Unit} {post : Unit → ThreadSystem → Prop}
    (hbody : body.Returns post s) (reason : Fault) :
    (mustInsert reason body).Returns post s := by
  simp only [mustInsert, ↓Prog.wp_bind, ↓Prog.wp_attempt]
  refine Prog.wp_mono hbody ?_ (fun _ _ h => h.elim) (fun _ h => h)
  intro _ next hnext
  simpa using hnext

section Calls

variable {s : ThreadSystem} {ready asleep dead : List Tid}

theorem Lists.exorciseTurn (hlists : Lists s ready asleep dead)
    (hcur : ∀ t ∈ dead, s.curthread ≠ some t)
    (hclean : ∀ t ∈ dead, (s.thread t).tVmspace = none ∧
      (s.thread t).tCwd = none) (hi : i < dead.length) :
    (ThreadSystem.exorciseTurn i).Returns (fun _ next => next = s) s := by
  have hmem : dead[i] ∈ dead := List.getElem_mem hi
  simp only [ThreadSystem.exorciseTurn, onZombies, ↓Prog.wp_bind,
    ↓Prog.wp_zoom]
  refine Prog.Returns.mono (hlists.zombies.arrayGetguy hi) ?_
  rintro z a ⟨rfl, rfl⟩
  simp [threadDestroy, hcur _ hmem, hclean _ hmem]

theorem Lists.exorcise (hlists : Lists s ready asleep dead)
    (hcur : ∀ t ∈ dead, s.curthread ≠ some t)
    (hclean : ∀ t ∈ dead, (s.thread t).tVmspace = none ∧
      (s.thread t).tCwd = none) :
    ThreadSystem.exorcise.Returns (fun _ next => Lists next ready asleep [] ∧
      next = { s with zombies := next.zombies }) s := by
  have hnum := hlists.zombies.num_eq
  simp only [ThreadSystem.exorcise, onZombies, KArray.arrayGetnum,
    ↓Prog.wp_bind, ↓Prog.wp_zoom, ↓Prog.wp_read]
  have hloop : (Prog.forFrom (fun i (_ : Unit) => ThreadSystem.exorciseTurn i)
      s.zombies.num 0 ()).Returns (fun _ next => next = s) s := by
    refine Prog.wp_forFrom (fun _ _ next => next = s) ?_ rfl
    rintro i - next - hi rfl
    exact hlists.exorciseTurn hcur hclean (by omega)
  refine Prog.Returns.mono hloop ?_
  rintro _ next rfl
  refine Prog.Returns.mono (hlists.zombies.arraySetsize_zero false) ?_
  intro _ a ha
  exact ⟨⟨hlists.runqueue, hlists.sleepers, ha⟩, rfl⟩

/-- Preallocation only makes room. -/
theorem Lists.threadFork (hlists : Lists s ready asleep dead) (newguy : Tid) :
    (ThreadSystem.threadFork true newguy).Returns (fun _ next =>
      Lists next (ready ++ [newguy]) asleep dead ∧
        next.curthread = s.curthread ∧
        next.numthreads = s.numthreads + 1 ∧
        ∀ t, t ≠ newguy → next.thread t = s.thread t) s := by
  simp only [ThreadSystem.threadFork, threadCreate, setThread, onSleepers,
    onZombies, onRunqueue, ↓Prog.wp_bind, ↓Prog.wp_modify, ↓Prog.wp_read, ↓Prog.wp_get,
    ↓Prog.wp_zoom]
  refine Prog.Returns.mono (hlists.sleepers.arrayPreallocate _) ?_
  rintro _ sleepers ⟨hsleepers, -⟩
  refine Prog.Returns.mono (hlists.zombies.arrayPreallocate _) ?_
  rintro _ zombies ⟨hzombies, -⟩
  refine Prog.Returns.mono (hlists.runqueue.qPreallocate _) ?_
  rintro _ runqueue ⟨hrunqueue, -⟩
  refine Prog.Returns.mono
    (Lists.makeRunnable ⟨hrunqueue, hsleepers, hzombies⟩ newguy) ?_
  rintro _ next ⟨hnext, heq⟩
  refine ⟨⟨hnext.runqueue, hnext.sleepers, hnext.zombies⟩, ?_, ?_, ?_⟩
  · rw [heq]
  · rw [heq]
  · intro t hne
    rw [heq]
    simp [hne]

/-- The outgoing thread leaves `curthread` for the container of its next
state. -/
theorem Lists.miSwitch (hlists : Lists s ready asleep dead)
    (hcur : s.curthread = some cur) (nextstate : ThreadState)
    (resume : Resume) :
    (ThreadSystem.miSwitch true nextstate resume).Returns (fun _ next =>
      Lists next
        (if nextstate = .ready then ready ++ [cur] else ready)
        (if nextstate = .sleep then asleep ++ [cur] else asleep)
        (if nextstate = .zomb then dead ++ [cur] else dead) ∧
        next.curthread = none ∧ next.numthreads = s.numthreads ∧
        ∀ t, (next.thread t).tVmspace = (s.thread t).tVmspace ∧
          (next.thread t).tCwd = (s.thread t).tCwd) s := by
  have hfields : ∀ t, ((Function.update s.thread cur
        { s.thread cur with tPcb := resume }) t).tVmspace =
          (s.thread t).tVmspace ∧
      ((Function.update s.thread cur
        { s.thread cur with tPcb := resume }) t).tCwd = (s.thread t).tCwd := by
    intro t
    by_cases ht : t = cur
    · subst ht
      simp
    · simp [ht]
  simp only [ThreadSystem.miSwitch, hcur, setThread, ↓Prog.wp_bind,
    ↓Prog.wp_modify, ↓Prog.wp_read]
  apply mustInsert_returns
  cases nextstate with
  | ready =>
      have hmid : Lists { s with
          thread := Function.update s.thread cur
            { s.thread cur with tPcb := resume }
          curthread := none } ready asleep dead :=
        ⟨hlists.runqueue, hlists.sleepers, hlists.zombies⟩
      refine Prog.Returns.mono (hmid.makeRunnable cur) ?_
      rintro _ next ⟨hnext, heq⟩
      refine ⟨by simpa using hnext, by rw [heq], by rw [heq], ?_⟩
      rw [heq]
      exact hfields
  | sleep =>
      simp only [onSleepers, ↓Prog.wp_zoom]
      refine Prog.Returns.mono (hlists.sleepers.arrayAdd cur) ?_
      intro _ a ha
      exact ⟨⟨hlists.runqueue, by simpa using ha, hlists.zombies⟩, trivial,
        trivial, hfields⟩
  | zomb =>
      simp only [onZombies, ↓Prog.wp_zoom]
      refine Prog.Returns.mono (hlists.zombies.arrayAdd cur) ?_
      intro _ a ha
      exact ⟨⟨hlists.runqueue, hlists.sleepers, by simpa using ha⟩, trivial,
        trivial, hfields⟩

/-- Writing a thread's own fields moves it nowhere. -/
theorem Lists.withThread (hlists : Lists s ready asleep dead)
    (thread : Tid → Thread) :
    Lists { s with thread := thread } ready asleep dead :=
  ⟨hlists.runqueue, hlists.sleepers, hlists.zombies⟩

theorem Lists.threadSleep (hlists : Lists s ready asleep dead)
    (hcur : s.curthread = some cur) (addr : SleepAddr) :
    (ThreadSystem.threadSleep true addr).Returns (fun _ next =>
      Lists next ready (asleep ++ [cur]) dead ∧ next.curthread = none ∧
        next.numthreads = s.numthreads ∧
        ∀ t, (next.thread t).tVmspace = (s.thread t).tVmspace ∧
          (next.thread t).tCwd = (s.thread t).tCwd) s := by
  simp only [ThreadSystem.threadSleep, ↓Prog.wp_bind, ↓Prog.wp_read]
  rw [hcur]
  simp only [setThread, ↓Prog.wp_bind, ↓Prog.wp_modify]
  have hmid := hlists.withThread (Function.update s.thread cur
    { s.thread cur with tSleepaddr := some addr })
  refine Prog.Returns.mono (hmid.miSwitch hcur .sleep .threadSleep) ?_
  rintro _ next ⟨hnext, hnone, hnum, hfields⟩
  refine ⟨by simpa using hnext, hnone, hnum, ?_⟩
  intro t
  rw [(hfields t).1, (hfields t).2]
  by_cases ht : t = cur
  · subst ht
    simp
  · simp [ht]

theorem Lists.threadExit (hlists : Lists s ready asleep dead)
    (hcur : s.curthread = some cur) (hpos : 0 < s.numthreads) :
    (ThreadSystem.threadExit true).Returns (fun _ next =>
      Lists next ready asleep (dead ++ [cur]) ∧ next.curthread = none ∧
        next.numthreads = s.numthreads - 1 ∧
        ((next.thread cur).tVmspace = none ∧ (next.thread cur).tCwd = none) ∧
        ∀ t, t ≠ cur → (next.thread t).tVmspace = (s.thread t).tVmspace ∧
          (next.thread t).tCwd = (s.thread t).tCwd) s := by
  simp only [ThreadSystem.threadExit, ↓Prog.wp_bind, ↓Prog.wp_read]
  rw [hcur]
  simp only [setThread, ↓Prog.wp_bind, ↓Prog.wp_read, ↓Prog.wp_modify,
    ↓Prog.wp_assert, if_pos hpos]
  have hmid : Lists { s with
      thread := Function.update s.thread cur
        { s.thread cur with tVmspace := none, tCwd := none }
      numthreads := s.numthreads - 1 } ready asleep dead :=
    ⟨hlists.runqueue, hlists.sleepers, hlists.zombies⟩
  refine Prog.Returns.mono (hmid.miSwitch hcur .zomb .threadExit) ?_
  rintro _ next ⟨hnext, hnone, hnum, hfields⟩
  refine ⟨by simpa using hnext, hnone, hnum, ?_, ?_⟩
  · rw [(hfields cur).1, (hfields cur).2]
    simp
  · intro t ht
    rw [(hfields t).1, (hfields t).2]
    simp [ht]

/-- Whether `thread_wakeup(addr)` wakes this sleeper. -/
def wakes (s : ThreadSystem) (addr : SleepAddr) (t : Tid) : Bool :=
  (s.thread t).tSleepaddr == some addr

/-- The scan has passed `kept`, none of which it wakes, and looks at `rest`. -/
theorem Lists.wakeupScan {kept : List Tid} (addr : SleepAddr) (rest : List Tid)
    (hlists : Lists s ready (kept ++ rest) dead) :
    (ThreadSystem.wakeupScan true addr rest.length kept.length).Returns
      (fun _ next =>
        Lists next (ready ++ rest.filter (wakes s addr))
          (kept ++ rest.filter (fun t => !wakes s addr t)) dead ∧
        next.curthread = s.curthread ∧ next.numthreads = s.numthreads ∧
        next.thread = s.thread) s := by
  induction rest generalizing s ready kept with
  | nil => simpa [ThreadSystem.wakeupScan] using hlists
  | cons t rest ih =>
      have hnum : s.sleepers.num = (kept ++ t :: rest).length :=
        hlists.sleepers.num_eq
      have hlt : kept.length < (kept ++ t :: rest).length := by simp
      have hget : (kept ++ t :: rest)[kept.length] = t := by simp
      simp only [ThreadSystem.wakeupScan, List.length_cons, onSleepers,
        KArray.arrayGetnum, ↓Prog.wp_bind, ↓Prog.wp_zoom, ↓Prog.wp_read, ↓Prog.wp_get,
        ↓Prog.wp_ite, hnum, if_pos hlt]
      refine Prog.Returns.mono (hlists.sleepers.arrayGetguy hlt) ?_
      rintro guy a ⟨rfl, rfl⟩
      simp only [hget]
      split
      case isTrue haddr =>
        have hwakes : wakes s addr t = true := by simp [wakes, haddr]
        refine Prog.Returns.mono (hlists.sleepers.arrayRemove hlt) ?_
        intro _ sleepers hsleepers
        rw [List.eraseIdx_append_of_length_le (Nat.le_refl _),
          Nat.sub_self, List.eraseIdx_cons_zero] at hsleepers
        apply mustInsert_returns
        have hmid : Lists { s with sleepers := sleepers } ready
            (kept ++ rest) dead :=
          ⟨hlists.runqueue, hsleepers, hlists.zombies⟩
        refine Prog.Returns.mono (hmid.makeRunnable t) ?_
        rintro _ next ⟨hnext, heq⟩
        have hthread : next.thread = s.thread := by rw [heq]
        refine Prog.Returns.mono (ih hnext) ?_
        rintro _ final ⟨hfinal, hcur, hcount, hsame⟩
        have hfun : wakes next addr = wakes s addr := by
          funext u
          simp [wakes, hthread]
        rw [hfun] at hfinal
        refine ⟨by simpa [hwakes] using hfinal, ?_, ?_, hsame.trans hthread⟩
        · rw [hcur, heq]
        · rw [hcount, heq]
      case isFalse haddr =>
        have hwakes : wakes s addr t = false := by simp [wakes, haddr]
        have hlists' : Lists s ready ((kept ++ [t]) ++ rest) dead := by
          simpa using hlists
        have := ih hlists'
        simpa [hwakes] using this

theorem Lists.threadWakeup (hlists : Lists s ready asleep dead)
    (addr : SleepAddr) :
    (ThreadSystem.threadWakeup true addr).Returns (fun _ next =>
      Lists next (ready ++ asleep.filter (wakes s addr))
        (asleep.filter (fun t => !wakes s addr t)) dead ∧
      next.curthread = s.curthread ∧ next.numthreads = s.numthreads ∧
      next.thread = s.thread) s := by
  have hstart : Lists s ready ([] ++ asleep) dead := hlists
  have hscan := hstart.wakeupScan addr asleep
  simp only [ThreadSystem.threadWakeup, onSleepers, KArray.arrayGetnum,
    ↓Prog.wp_bind, ↓Prog.wp_zoom, ↓Prog.wp_read, hlists.sleepers.num_eq]
  simpa using hscan

/-- Whether `thread_wakeup_head` picks this sleeper. -/
def wakesHead (s : ThreadSystem) (addr : SleepAddr) (head t : Tid) : Bool :=
  wakes s addr t && head == t

theorem Lists.wakeupHeadScan {kept : List Tid} (addr : SleepAddr) (head : Tid)
    (rest : List Tid) (hlists : Lists s ready (kept ++ rest) dead) :
    (ThreadSystem.wakeupHeadScan true addr head rest.length
      kept.length).Returns
      (fun _ next =>
        Lists next (ready ++ (rest.find? (wakesHead s addr head)).toList)
          (kept ++ rest.eraseP (wakesHead s addr head)) dead ∧
        next.curthread = s.curthread ∧ next.numthreads = s.numthreads ∧
        next.thread = s.thread) s := by
  induction rest generalizing kept with
  | nil => simpa [ThreadSystem.wakeupHeadScan] using hlists
  | cons t rest ih =>
      have hlt : kept.length < (kept ++ t :: rest).length := by simp
      have hget : (kept ++ t :: rest)[kept.length] = t := by simp
      simp only [ThreadSystem.wakeupHeadScan, List.length_cons, onSleepers,
        ↓Prog.wp_bind, ↓Prog.wp_zoom, ↓Prog.wp_get, ↓Prog.wp_ite]
      refine Prog.Returns.mono (hlists.sleepers.arrayGetguy hlt) ?_
      rintro guy a ⟨rfl, rfl⟩
      simp only [hget]
      split
      case isTrue hpick =>
        have hwakes : wakesHead s addr head t = true := by
          simp [wakesHead, wakes, hpick]
        refine Prog.Returns.mono (hlists.sleepers.arrayRemove hlt) ?_
        intro _ sleepers hsleepers
        rw [List.eraseIdx_append_of_length_le (Nat.le_refl _),
          Nat.sub_self, List.eraseIdx_cons_zero] at hsleepers
        apply mustInsert_returns
        have hmid : Lists { s with sleepers := sleepers } ready
            (kept ++ rest) dead :=
          ⟨hlists.runqueue, hsleepers, hlists.zombies⟩
        refine Prog.Returns.mono (hmid.makeRunnable t) ?_
        rintro _ next ⟨hnext, heq⟩
        refine ⟨by simpa [hwakes] using hnext, ?_, ?_, ?_⟩ <;> rw [heq]
      case isFalse hpick =>
        have hwakes : wakesHead s addr head t = false := by
          rw [Bool.eq_false_iff]
          simpa [wakesHead, wakes] using hpick
        have hlists' : Lists s ready ((kept ++ [t]) ++ rest) dead := by
          simpa using hlists
        have := ih hlists'
        simpa [hwakes] using this

theorem Lists.threadWakeupHead (hlists : Lists s ready asleep dead)
    (addr : SleepAddr) (hcv : Queue.qRemhead cvQueue = .ok head waiting) :
    (ThreadSystem.threadWakeupHead true addr cvQueue).Returns
      (fun rest next => rest = waiting ∧
        Lists next (ready ++ (asleep.find? (wakesHead s addr head)).toList)
          (asleep.eraseP (wakesHead s addr head)) dead ∧
        next.curthread = s.curthread ∧ next.numthreads = s.numthreads ∧
        next.thread = s.thread) s := by
  have hstart : Lists s ready ([] ++ asleep) dead := hlists
  have hscan := hstart.wakeupHeadScan addr head asleep
  simp only [ThreadSystem.threadWakeupHead, hcv, onSleepers,
    KArray.arrayGetnum, ↓Prog.wp_bind, ↓Prog.wp_zoom, ↓Prog.wp_read, hlists.sleepers.num_eq, ↓Prog.wp_pure]
  refine Prog.Returns.mono hscan ?_
  intro _ next hnext
  exact ⟨trivial, by simpa using hnext⟩

theorem Lists.dispatch (hlists : Lists s (next :: ready) asleep dead)
    (hnext : next ∉ dead)
    (hclean : ∀ t ∈ dead, (s.thread t).tVmspace = none ∧
      (s.thread t).tCwd = none) :
    ThreadSystem.dispatch.Returns (fun _ final =>
      ∃ dead', dead'.Sublist dead ∧ Lists final ready asleep dead' ∧
        final.curthread = some next ∧ final.numthreads = s.numthreads ∧
        (∀ t, (final.thread t).tVmspace = (s.thread t).tVmspace ∧
          (final.thread t).tCwd = (s.thread t).tCwd) ∧
        ∀ t, t ≠ next → final.thread t = s.thread t) s := by
  simp only [ThreadSystem.dispatch, onRunqueue, ↓Prog.wp_bind, ↓Prog.wp_zoom]
  refine Prog.Returns.mono hlists.runqueue.qRemhead ?_
  rintro head runqueue ⟨rfl, hrunqueue⟩
  simp only [↓Prog.wp_modify, ↓Prog.wp_get]
  have hmid : Lists { s with runqueue := runqueue, curthread := some head }
      ready asleep dead := ⟨hrunqueue, hlists.sleepers, hlists.zombies⟩
  have hexorcise := hmid.exorcise
    (by rintro t ht heq; cases heq; exact hnext ht) hclean
  cases hpcb : (s.thread head).tPcb with
  | threadstart =>
      simp only [↓Prog.wp_pure]
      exact ⟨dead, List.Sublist.refl _, hmid, trivial, trivial,
        fun _ => ⟨trivial, trivial⟩, fun _ _ => trivial⟩
  | threadYield =>
      simp only
      refine Prog.Returns.mono hexorcise ?_
      rintro _ final ⟨hfinal, heq⟩
      rw [heq]
      exact ⟨[], List.nil_sublist _,
        ⟨hrunqueue, hlists.sleepers, hfinal.zombies⟩, rfl, rfl,
        fun _ => ⟨rfl, rfl⟩, fun _ _ => rfl⟩
  | threadExit =>
      simp only
      refine Prog.Returns.mono hexorcise ?_
      rintro _ final ⟨hfinal, heq⟩
      rw [heq]
      exact ⟨[], List.nil_sublist _,
        ⟨hrunqueue, hlists.sleepers, hfinal.zombies⟩, rfl, rfl,
        fun _ => ⟨rfl, rfl⟩, fun _ _ => rfl⟩
  | threadSleep =>
      simp only [↓Prog.wp_bind, setThread, ↓Prog.wp_modify]
      refine Prog.Returns.mono hexorcise ?_
      rintro _ final ⟨hfinal, heq⟩
      refine ⟨[], List.nil_sublist _, hfinal.withThread _, ?_, ?_, ?_, ?_⟩
      · rw [heq]
      · rw [heq]
      · intro t
        rw [heq]
        by_cases ht : t = head
        · subst ht
          simp
        · simp [ht]
      · intro t ht
        rw [heq]
        exact Function.update_of_ne ht _ _

end Calls

end ThreadSystem

namespace Config

open ThreadSystem

/-- How often a thread occurs as `curthread`, in the run queue and among the
sleepers, taken together. -/
def places (c : Config) (t : Tid) : Nat :=
  (if c.sys.curthread = some t then 1 else 0) +
    c.sys.runqueue.contents.count t + c.sys.sleepers.contents.count t

structure Conserved (c : Config) (ready asleep dead : List Tid) : Prop where
  lists : Lists c.sys ready asleep dead
  placed : ∀ t, (c.sys.curthread.toList ++ (ready ++ asleep)).count t =
    if t ∈ c.live then 1 else 0
  dead_nodup : dead.Nodup
  dead_not_live : ∀ t ∈ dead, t ∉ c.live
  dead_clean : ∀ t ∈ dead, (c.sys.thread t).tVmspace = none ∧
    (c.sys.thread t).tCwd = none
  counted : c.sys.numthreads = c.live.card

def Inv (c : Config) : Prop :=
  ∃ ready asleep dead, Conserved c ready asleep dead

theorem Conserved.mem_live_iff (h : Conserved c ready asleep dead) (t : Tid) :
    t ∈ c.live ↔ t ∈ c.sys.curthread.toList ++ (ready ++ asleep) := by
  rw [← List.count_pos_iff, h.placed]
  by_cases ht : t ∈ c.live <;> simp [ht]

theorem Conserved.curthread_live (h : Conserved c ready asleep dead)
    (hcur : c.sys.curthread = some cur) : cur ∈ c.live := by
  rw [h.mem_live_iff, hcur]
  simp

theorem Conserved.curthread_not_dead (h : Conserved c ready asleep dead) :
    ∀ t ∈ dead, c.sys.curthread ≠ some t := by
  intro t ht hcur
  exact h.dead_not_live t ht (h.curthread_live hcur)

/-- A call that only moves threads between `curthread`, the run queue and the
sleepers, and may dispose of zombies. -/
theorem Conserved.move (h : Conserved c ready asleep dead)
    (hlists : Lists next ready' asleep' dead') (hdead : dead'.Sublist dead)
    (hperm : (next.curthread.toList ++ (ready' ++ asleep')).Perm
      (c.sys.curthread.toList ++ (ready ++ asleep)))
    (hnum : next.numthreads = c.sys.numthreads)
    (hfields : ∀ t, (next.thread t).tVmspace = (c.sys.thread t).tVmspace ∧
      (next.thread t).tCwd = (c.sys.thread t).tCwd) :
    Conserved ⟨next, c.live⟩ ready' asleep' dead' where
  lists := hlists
  placed := fun t => (hperm.count_eq t).trans (h.placed t)
  dead_nodup := h.dead_nodup.sublist hdead
  dead_not_live := fun t ht => h.dead_not_live t (hdead.mem ht)
  dead_clean := fun t ht => by
    rw [(hfields t).1, (hfields t).2]
    exact h.dead_clean t (hdead.mem ht)
  counted := hnum.trans h.counted

theorem Conserved.fork (h : Conserved c ready asleep dead)
    (hnew : newguy ∉ c.live) (hzombie : newguy ∉ dead)
    (hlists : Lists next (ready ++ [newguy]) asleep dead)
    (hcur : next.curthread = c.sys.curthread)
    (hnum : next.numthreads = c.sys.numthreads + 1)
    (hthread : ∀ t, t ≠ newguy → next.thread t = c.sys.thread t) :
    Conserved ⟨next, insert newguy c.live⟩ (ready ++ [newguy]) asleep dead where
  lists := hlists
  placed := by
    intro t
    have hplaced := h.placed t
    simp only [List.count_append] at hplaced
    simp only [List.count_append, List.count_singleton, hcur,
      Finset.mem_insert]
    by_cases ht : t = newguy
    · subst ht
      rw [if_neg hnew] at hplaced
      simp
      omega
    · have ht' : ¬newguy = t := fun heq => ht heq.symm
      simp only [ht, ht', false_or, beq_iff_eq, if_false]
      omega
  dead_nodup := h.dead_nodup
  dead_not_live := by
    intro t ht
    rw [Finset.mem_insert]
    rintro (rfl | hlive)
    · exact hzombie ht
    · exact h.dead_not_live t ht hlive
  dead_clean := by
    intro t ht
    rw [hthread t (fun heq => hzombie (heq ▸ ht))]
    exact h.dead_clean t ht
  counted := by
    rw [hnum, h.counted, Finset.card_insert_of_notMem hnew]

theorem Conserved.exit (h : Conserved c ready asleep dead)
    (hcur : c.sys.curthread = some cur)
    (hlists : Lists next ready asleep (dead ++ [cur]))
    (hnone : next.curthread = none)
    (hnum : next.numthreads = c.sys.numthreads - 1)
    (hclean : ∀ t, t ∈ dead ++ [cur] → (next.thread t).tVmspace = none ∧
      (next.thread t).tCwd = none) :
    Conserved ⟨next, c.live.erase cur⟩ ready asleep (dead ++ [cur]) where
  lists := hlists
  placed := by
    intro t
    have hplaced := h.placed t
    rw [hcur] at hplaced
    simp only [List.count_append, Option.toList_some, List.count_singleton]
      at hplaced
    simp only [hnone, Option.toList_none, List.nil_append, List.count_append,
      Finset.mem_erase]
    by_cases ht : t = cur
    · subst ht
      rw [if_pos (h.curthread_live hcur)] at hplaced
      simp at hplaced
      simpa using hplaced
    · have ht' : ¬cur = t := fun heq => ht heq.symm
      simpa [ht, ht'] using hplaced
  dead_nodup := by
    have hnot : cur ∉ dead := fun hmem =>
      h.curthread_not_dead cur hmem hcur
    exact List.nodup_append.mpr ⟨h.dead_nodup, List.nodup_singleton cur, by
      intro a ha b hb heq
      rw [List.mem_singleton] at hb
      subst hb
      exact hnot (heq ▸ ha)⟩
  dead_not_live := by
    intro t ht
    rw [Finset.mem_erase]
    rintro ⟨hne, hlive⟩
    rcases List.mem_append.mp ht with hold | hnew
    · exact h.dead_not_live t hold hlive
    · exact hne (List.mem_singleton.mp hnew)
  dead_clean := hclean
  counted := by
    rw [hnum, h.counted, Finset.card_erase_of_mem (h.curthread_live hcur)]

theorem boot_conserved (me : Tid) : Conserved (boot me) [] [] [] where
  lists := ⟨Queue.qCreate_rep (by decide), KArray.arrayCreate_rep,
    KArray.arrayCreate_rep⟩
  placed := by
    intro t
    by_cases ht : t = me
    · simp [boot, threadBootstrap, ht]
    · have ht' : ¬me = t := fun heq => ht heq.symm
      simp [boot, threadBootstrap, ht, ht']
  dead_nodup := List.nodup_nil
  dead_not_live := by simp
  dead_clean := by simp
  counted := by simp [boot, threadBootstrap]

theorem filter_perm (p : Tid → Bool) (ready asleep : List Tid) :
    ((ready ++ asleep.filter p) ++ asleep.filter (fun t => !p t)).Perm
      (ready ++ asleep) := by
  rw [List.append_assoc]
  exact (List.filter_append_perm p asleep).append_left ready

theorem find_perm (p : Tid → Bool) (ready asleep : List Tid) :
    ((ready ++ (asleep.find? p).toList) ++ asleep.eraseP p).Perm
      (ready ++ asleep) := by
  rw [List.append_assoc]
  apply List.Perm.append_left
  induction asleep with
  | nil => simp
  | cons t rest ih =>
      cases hp : p t with
      | true => simp [hp]
      | false =>
          simp only [List.find?_cons, hp, List.eraseP_cons, cond_false]
          exact List.perm_middle.trans (ih.cons t)

theorem Inv.step (hinv : Inv c) (hstep : Step c d) : Inv d := by
  obtain ⟨ready, asleep, dead, h⟩ := hinv
  cases hstep with
  | fork hcur hnew hzombie hrun =>
      rw [h.lists.zombies.contents_eq] at hzombie
      obtain ⟨hlists, hsame, hnum, hthread⟩ :=
        (h.lists.threadFork _).post_of_ok hrun
      exact ⟨_, _, _, h.fork hnew hzombie hlists hsame hnum hthread⟩
  | yield hrun =>
      cases hcur : c.sys.curthread with
      | none =>
          -- an interrupt in the idle loop: `mi_switch` returns at once
          simp only [threadYield, miSwitch, bind, Prog.andThen, Prog.read, hcur] at hrun
          cases hrun
          exact ⟨_, _, _, h⟩
      | some cur =>
          obtain ⟨hlists, hnone, hnum, hfields⟩ :=
            (h.lists.miSwitch hcur _ _).post_of_ok hrun
          refine ⟨_, _, _, h.move hlists (List.Sublist.refl _) ?_ hnum hfields⟩
          rw [hnone, hcur]
          simp
  | sleep hcur hrun =>
      obtain ⟨hlists, hnone, hnum, hfields⟩ :=
        (h.lists.threadSleep hcur _).post_of_ok hrun
      refine ⟨_, _, _, h.move hlists (List.Sublist.refl _) ?_ hnum hfields⟩
      rw [hnone, hcur, Option.toList_none, List.nil_append,
        ← List.append_assoc]
      exact List.perm_append_comm
  | wakeup hrun =>
      obtain ⟨hlists, hcur, hnum, hthread⟩ :=
        (h.lists.threadWakeup _).post_of_ok hrun
      refine ⟨_, _, _, h.move hlists (List.Sublist.refl _) ?_ hnum (fun t => by simp [hthread])⟩
      rw [hcur]
      exact (filter_perm _ ready asleep).append_left _
  | wakeupHead addr cvQueue hrun =>
      cases hcv : Queue.qRemhead cvQueue with
      | ok head waiting =>
          obtain ⟨-, hlists, hcur, hnum, hthread⟩ :=
            (h.lists.threadWakeupHead addr hcv).post_of_ok hrun
          refine ⟨_, _, _, h.move hlists (List.Sublist.refl _) ?_ hnum (fun t => by simp [hthread])⟩
          rw [hcur]
          exact (find_perm _ ready asleep).append_left _
      | error code rest => simp [threadWakeupHead, hcv, Prog.fail] at hrun
      | panic reason => simp [threadWakeupHead, hcv, Prog.panic] at hrun
  | exit hcur hrun =>
      have hpos : 0 < c.sys.numthreads := by
        rw [h.counted]
        exact Finset.card_pos.mpr ⟨_, h.curthread_live hcur⟩
      obtain ⟨hlists, hnone, hnum, hself, hothers⟩ :=
        (h.lists.threadExit hcur hpos).post_of_ok hrun
      refine ⟨_, _, _, h.exit hcur hlists hnone hnum ?_⟩
      intro t ht
      rcases List.mem_append.mp ht with hold | hnew
      · have hne : t ≠ _ := fun heq =>
          h.curthread_not_dead t hold (heq ▸ hcur)
        rw [(hothers t hne).1, (hothers t hne).2]
        exact h.dead_clean t hold
      · rw [List.mem_singleton.mp hnew]
        exact hself
  | exorcise hcur hrun =>
      obtain ⟨hlists, heq⟩ := (h.lists.exorcise h.curthread_not_dead
        h.dead_clean).post_of_ok hrun
      refine ⟨_, _, _, h.move hlists (List.nil_sublist _) ?_ ?_ ?_⟩
      · rw [heq]
      · rw [heq]
      · rw [heq]
        exact fun _ => ⟨rfl, rfl⟩
  | dispatch hidle hrun =>
      cases ready with
      | nil =>
          simp [ThreadSystem.dispatch, onRunqueue, bind, Prog.andThen,
            Prog.zoom, h.lists.runqueue.qRemhead_nil] at hrun
      | cons head ready =>
          have hhead : head ∉ dead := by
            intro hmem
            apply h.dead_not_live head hmem
            rw [h.mem_live_iff]
            simp
          obtain ⟨dead', hdead, hlists, hcur, hnum, hfields, -⟩ :=
            (h.lists.dispatch hhead h.dead_clean).post_of_ok hrun
          refine ⟨_, _, _, h.move hlists hdead ?_ hnum hfields⟩
          rw [hcur, hidle]
          exact List.Perm.refl _
  | other t hlive vmspace cwd hrun =>
      cases hrun
      refine ⟨ready, asleep, dead, h.lists.withThread _, h.placed,
        h.dead_nodup, h.dead_not_live, ?_, h.counted⟩
      intro u hu
      have hne : u ≠ t := fun heq => h.dead_not_live u hu (heq ▸ hlive)
      simpa [hne] using h.dead_clean u hu

/-- Every thread that was created and has not exited stands in exactly one of
`curthread`, the run queue and the sleepers, once; no other thread stands in
any of them; and the zombies are apart from all of these. -/
theorem thread_conservation (me : Tid)
    (hrun : Relation.ReflTransGen Step (boot me) c) :
    (∀ t ∈ c.live, c.places t = 1) ∧ (∀ t, t ∉ c.live → c.places t = 0) ∧
      (∀ t ∈ c.sys.zombies.contents, c.sys.zombies.contents.count t = 1 ∧
        t ∉ c.live ∧ c.places t = 0) ∧
      c.sys.numthreads = c.live.card := by
  have hboot : Inv (boot me) := ⟨_, _, _, boot_conserved me⟩
  obtain ⟨ready, asleep, dead, h⟩ :=
    invariant_of_steps Inv hrun hboot fun _ _ => Inv.step
  have hplaces : ∀ t, c.places t = if t ∈ c.live then 1 else 0 := by
    intro t
    rw [← h.placed t, places, h.lists.runqueue.contents_eq,
      h.lists.sleepers.contents_eq]
    cases hcur : c.sys.curthread with
    | none => simp
    | some cur =>
        simp [List.count_append, List.count_cons]
        omega
  refine ⟨?_, ?_, ?_, h.counted⟩
  · intro t ht
    rw [hplaces, if_pos ht]
  · intro t ht
    rw [hplaces, if_neg ht]
  · rw [h.lists.zombies.contents_eq]
    intro t ht
    have hnot := h.dead_not_live t ht
    refine ⟨List.count_eq_one_of_mem h.dead_nodup ht, hnot, ?_⟩
    rw [hplaces, if_neg hnot]

/-- The first thread forks and exits; the new one is switched to. -/
theorem thread_conservation_fork_exit :
    ∃ c : Config, Relation.ReflTransGen Step (boot 0) c ∧ c.live = {1} ∧
      c.sys.curthread = some 1 ∧ c.sys.zombies.contents = [0] ∧
      c.places 1 = 1 ∧ c.places 0 = 0 ∧ c.sys.numthreads = 1 := by
  let forked := (threadFork true 1 (boot 0).sys).stateD (boot 0).sys
  let exited := (threadExit true forked).stateD forked
  let switched := (ThreadSystem.dispatch exited).stateD exited
  have hfork : Step (boot 0) ⟨forked, insert 1 (boot 0).live⟩ :=
    .fork rfl (by decide) (by decide) rfl
  let live := (insert 1 (boot 0).live).erase 0
  have hexit : Step ⟨forked, insert 1 (boot 0).live⟩ ⟨exited, live⟩ :=
    .exit rfl rfl
  have hdispatch : Step ⟨exited, live⟩ ⟨switched, live⟩ := .dispatch rfl rfl
  have hrun := ((Relation.ReflTransGen.single hfork).tail hexit).tail hdispatch
  obtain ⟨hlive, hdead, -, hnum⟩ := thread_conservation 0 hrun
  exact ⟨_, hrun, by decide, rfl, by decide, hlive 1 (by decide),
    hdead 0 (by decide), hnum⟩

end Config

end OS161.Threads
